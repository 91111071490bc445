import Provisioner.Property.Basic
import Provisioner.Provision.Session

namespace Provisioner

def initCommand (s : Settings) (c : InitConfig) : List String :=
  [s.initScript, s!"-p {c.addressPrefix}", s!"-i {c.inventoryFileName}"]

def execSpec (s : Settings) (c : InitConfig) : ExecSpec :=
  ⟨initCommand s c, s.execUser, s.execWorkingDir, true⟩

namespace Site

variable {δ κ : Type} (site : Site δ κ)

def relay : List Bytes → Run δ κ ExecError Unit
  | [] => return
  | chunk :: rest => do
    (site.write chunk).orFail .write
    relay rest

def relayFeed (feed : Feed Bytes) : Run δ κ ExecError Unit := do
  site.relay feed.items
  match feed.failure with
  | some e => throw (.output e)
  | none => site.flush.orFail .write

def runInit (id : String) (config : InitConfig) : Run δ κ ExecError Unit := do
  let inspected : Reply Unit ← site.call (.inspectContainer id)
  Site.demand inspected .inspect
  let spec := execSpec site.settings config
  let created : Reply String ← site.call (.createExec id spec)
  let session ← Site.demand created .create
  if session == "" then throw .emptySessionId
  else
    let started : Reply (Feed Bytes) ← site.call (.startExec session spec.tty)
    site.relayFeed (← Site.demand started .start)

end Site

end Provisioner
