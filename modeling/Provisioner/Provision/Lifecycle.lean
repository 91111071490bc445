import Provisioner.Provision.Lookup

namespace Provisioner

inductive Phase where
  | absent
  | existsRunning (id : String)
  | existsStopped (id : String)
  | created (id : String)
  | started (id : String)
  deriving DecidableEq, Repr

inductive Ready where
  | reuse (id : String)
  | fresh (id : String)
  deriving DecidableEq, Repr

inductive LifecycleState where
  | pending (phase : Phase)
  | ready (ready : Ready)
  deriving DecidableEq, Repr

def Phase.name : Phase → String
  | .absent => "absent"
  | .existsRunning _ => "exists-running"
  | .existsStopped _ => "exists-stopped"
  | .created _ => "created"
  | .started _ => "started"

def Phase.rank : Phase → Nat
  | .existsRunning _ => 4
  | .absent => 3
  | .existsStopped _ | .created _ => 2
  | .started _ => 1

namespace LifecycleState

def name : LifecycleState → String
  | .pending p => p.name
  | .ready (.reuse _) => "ready-reuse"
  | .ready (.fresh _) => "ready-fresh"

def rank : LifecycleState → Nat
  | .pending p => p.rank
  | .ready _ => 0

def ready? : LifecycleState → Option Ready
  | .pending _ => none
  | .ready r => some r

def ofRecord : Option ContainerRecord → LifecycleState
  | none => .pending .absent
  | some r => .pending (if r.isRunning then .existsRunning r.id else .existsStopped r.id)

end LifecycleState

structure Phase.Next (p : Phase) where
  state : LifecycleState
  lower : state.rank < p.rank := by exact Nat.le_of_ble_eq_true rfl

def runningNotice (name : String) : String :=
  s!"\nThe container {name} already exists and is in running state.\n\n" ++
    "If you are happy to use the existing container, this utility will exit.\n" ++
    "Otherwise, this utility will destroy the existing container and recreate it from " ++
    "scratch. Note: in this case, all data and configuration in the container will be lost.\n"

namespace Site

variable {δ κ : Type} (site : Site δ κ)

def questionOf (d : Decision) : Question := ⟨d.question, d.preset, site.settings.prompt.maxAttempts⟩

/-- Asks for a decision. Without a clear answer it is declined, if the settings say so. -/
def decide (d : Decision) : Run δ κ ProvisionError Bool := do
  match ← (site.ask (site.questionOf d)).outcome with
  | .ok b => return b
  | .error (.noValidAnswer n) =>
    if site.settings.prompt.unansweredIsDecline then return false
    else throw (.confirmation d (.noValidAnswer n))
  | .error e => throw (.confirmation d e)

def spec : ContainerSpec := ⟨site.settings.containerName, site.settings.imageReference, true⟩

def createContainer : Run δ κ ProvisionError String := do
  let reply : Reply String ← site.call (.createContainer site.spec)
  let id ← Site.demand reply (.containerCreate site.spec.name)
  site.say s!"Container successfully created with ID {id} and name {site.spec.name}"
  return id

def startContainer (id : String) : Run δ κ ProvisionError Unit := do
  let reply : Reply Unit ← site.call (.startContainer id)
  Site.demand reply (.containerStart id)
  site.say "Container successfully started"

def removeContainer (id : String) : Run δ κ ProvisionError Unit := do
  let reply : Reply Unit ← site.call (.removeContainer id)
  Site.demand reply (.containerRemove id)
  site.say "Container successfully removed"

def sayKept : Run δ κ ProvisionError Unit := site.say "You decided to use the existing container."

def confirmRemoval : Run δ κ ProvisionError Bool := do
  if ← site.decide .recreate then return true
  else
    site.sayKept
    return false

def decideRemoval : Run δ κ ProvisionError Bool := do
  site.say (runningNotice site.settings.containerName)
  if ← site.decide .useExisting then
    site.sayKept
    return false
  else
    site.say ""
    site.confirmRemoval

def step : (p : Phase) → Run δ κ ProvisionError p.Next
  | .absent => do
    let id ← site.createContainer
    return { state := .pending (.created id) }
  | .created id => do
    site.startContainer id
    return { state := .pending (.started id) }
  | .existsStopped id => do
    site.startContainer id
    return { state := .pending (.started id) }
  | .started id => return { state := .ready (.fresh id) }
  | .existsRunning id => do
    if ← site.decideRemoval then
      site.removeContainer id
      return { state := .pending .absent }
    else return { state := .ready (.reuse id) }

def reconcile : LifecycleState → Run δ κ ProvisionError Ready
  | .ready r => return r
  | .pending p => do
    let next ← site.step p
    have := next.lower
    reconcile next.state
termination_by s => s.rank

end Site

end Provisioner
