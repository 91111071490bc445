import Provisioner.Image.Reference
import Provisioner.Text.Blank

namespace Provisioner

/-- How often and how fast an unreachable daemon is asked again. Counts have 32 bits and delays,
in milliseconds, 64. -/
structure ProbeSettings where
  maxRetries : UInt32 := 5
  delayMs : Nat := 1000
  deriving DecidableEq, Repr

structure PromptSettings where
  maxAttempts : Nat := 5
  /-- A question without a clear answer counts as declined. -/
  unansweredIsDecline : Bool := false
  deriving DecidableEq, Repr

structure Settings where
  image : String := "datastax/zdm-ansible:2.1.0-rc1"
  containerName : String := "zdm-ansible-container"
  sshKeyDir : String := "/home/ubuntu/zdm-proxy-ssh-key-dir"
  inventoryDir : String := "/home/ubuntu"
  initScript : String := "/home/ubuntu/init_container_internal.sh"
  execUser : String := "ubuntu"
  execWorkingDir : String := "/home/ubuntu"
  probe : ProbeSettings := {}
  prompt : PromptSettings := {}
  deriving DecidableEq, Repr

namespace Settings

def imageReference (s : Settings) : Image.Reference := ⟨s.image⟩

def texts (s : Settings) : List (String × String) :=
  [("image", s.image), ("container_name", s.containerName),
   ("ssh_key_dir_in_container", s.sshKeyDir), ("inventory_dir_in_container", s.inventoryDir),
   ("init_script", s.initScript), ("exec_user", s.execUser),
   ("exec_working_dir", s.execWorkingDir)]

inductive Flaw where
  | blank (name : String)
  | noAttempts
  deriving DecidableEq, Repr

def Flaw.message : Flaw → String
  | .blank name => s!"{name} must not be empty"
  | .noAttempts => "prompt.max_attempts must be at least 1"

def flaw? (s : Settings) : Option Flaw :=
  match s.texts.find? (fun t => Text.allBlank t.2) with
  | some t => some (.blank t.1)
  | none => if s.prompt.maxAttempts = 0 then some .noAttempts else none

end Settings

end Provisioner
