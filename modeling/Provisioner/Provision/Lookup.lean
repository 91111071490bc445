import Provisioner.Provision.Session

namespace Provisioner

structure ContainerRecord where
  id : String
  name : String
  isRunning : Bool
  deriving DecidableEq, Repr

/-- The state reads as running, whatever the case of its ASCII letters and the blanks around it. -/
def ContainerListing.isRunning (l : ContainerListing) : Bool :=
  (Text.trimChars l.state.toList).map Char.toLower == "running".toList

def ContainerListing.record (l : ContainerListing) (name : String) : ContainerRecord :=
  ⟨l.id, name, l.isRunning⟩

namespace Site

variable {δ κ : Type} (site : Site δ κ)

def resolve (name : String) : Run δ κ ProvisionError (Option ContainerRecord) := do
  let reply : Reply (List ContainerListing) ← site.call (.listContainers name)
  match ← Site.demand reply (.resolution name) with
  | [] => return none
  | [l] => return some (l.record name)
  | ls => throw (.ambiguous name ls.length)

end Site

end Provisioner
