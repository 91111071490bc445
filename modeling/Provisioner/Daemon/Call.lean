import Provisioner.Daemon.Error
import Provisioner.Image.Reference
import Provisioner.Tar.Entry
import Provisioner.Tar.Scan

namespace Provisioner

structure ImageListing where
  id : String
  tags : List String
  deriving DecidableEq, Repr

structure Progress where
  id : Option String := none
  status : Option String := none
  progress : Option String := none
  deriving DecidableEq, Repr

structure ContainerListing where
  id : String
  state : String
  deriving DecidableEq, Repr

structure ContainerSpec where
  name : String
  image : Image.Reference
  tty : Bool
  deriving DecidableEq, Repr

structure ExecSpec where
  command : List String
  user : String
  workingDir : String
  tty : Bool
  deriving DecidableEq, Repr

/-- What is uploaded: an archive made for the purpose, or bytes that are meant to be one. -/
inductive Upload where
  | archive (entries : Tar.Archive)
  | bytes (content : Bytes)
  deriving DecidableEq, Repr

inductive Call where
  | ping
  | listImages (reference : Image.Reference)
  | pullImage (reference : Image.Reference)
  | listContainers (name : String)
  | createContainer (spec : ContainerSpec)
  | startContainer (id : String)
  | removeContainer (id : String)
  | statPath (id path : String)
  | uploadArchive (id dir : String) (upload : Upload)
  | inspectContainer (id : String)
  | createExec (id : String) (spec : ExecSpec)
  | startExec (session : String) (tty : Bool)
  deriving DecidableEq, Repr

structure Feed (α : Type) where
  items : List α := []
  failure : Option DaemonError := none
  deriving DecidableEq, Repr

abbrev Reply (α : Type) := Except DaemonError α

@[reducible] def Call.Answer : Call → Type
  | .ping => Reply Unit
  | .listImages _ => Reply (List ImageListing)
  | .pullImage _ => Feed Progress
  | .listContainers _ => Reply (List ContainerListing)
  | .createContainer _ => Reply String
  | .startContainer _ => Reply Unit
  | .removeContainer _ => Reply Unit
  | .statPath .. => Reply (Option PathStat)
  | .uploadArchive .. => Reply Unit
  | .inspectContainer _ => Reply Unit
  | .createExec .. => Reply String
  | .startExec .. => Reply (Feed Bytes)

structure Daemon (δ : Type) where
  answer : (c : Call) → δ → c.Answer × δ
  /-- An interrupt has come by the time the daemon is in this state. -/
  interrupted : δ → Bool := fun _ => false

end Provisioner
