import Provisioner.Copy.Pack
import Provisioner.Provision.Session

namespace Provisioner.Site

variable {δ κ : Type} (site : Site δ κ)

/-- What is at a path in the container. A failure to find out counts as nothing there. -/
def statDestination (id dest : String) : Run δ κ CopyError (Option PathStat) := do
  let reply : Reply (Option PathStat) ← site.call (.statPath id dest)
  match reply with
  | .ok stat => return stat
  | .error _ => return none

def upload (id dir : String) (content : Upload) : Run δ κ CopyError Unit := do
  let reply : Reply Unit ← site.call (.uploadArchive id dir content)
  Site.demand reply .transfer

def copyStdin (id dest : String) (stat : Option PathStat) : Run δ κ CopyError Unit := do
  if stat.map (·.kind) == some .directory then
    site.upload id dest (.bytes (← takeStdin))
  else throw (.destinationNotDirectory dest)

/-- Packs and uploads. A refused upload is the error to report even if packing failed too. -/
def copyPacked (id : String) (o : Copy.Origin) (plan : Copy.Plan) : Run δ κ CopyError Unit := do
  let packed := Copy.pack site.host o plan.root
  site.upload id plan.extractDir (.archive packed.entries)
  match packed.failure with
  | some e => throw (.archive o.path e)
  | none => return

def copyPath (id path dest : String) (stat : Option PathStat) : Run δ κ CopyError Unit := do
  let origin ← Copy.Origin.inspect site.host path
  let plan ← Copy.Plan.make origin ⟨dest, stat⟩
  site.copyPacked id origin plan

def stage (id source dest : String) : Run δ κ CopyError Unit := do
  let resolved ← Copy.Source.resolve site.host source
  let stat ← site.statDestination id dest
  match resolved with
  | .stdin => site.copyStdin id dest stat
  | .path path => site.copyPath id path dest stat

end Provisioner.Site
