import Provisioner.Action
import Provisioner.Daemon.Call
import Provisioner.Files.Host
import Provisioner.Provision.Error
import Provisioner.Settings.Basic

namespace Provisioner

structure Console (κ : Type) where
  ask : Question → κ → Except PromptError Bool × κ
  write : Bytes → κ → Except IoError Unit × κ
  flush : κ → Except IoError Unit × κ

structure Site (δ κ : Type) where
  daemon : Daemon δ
  console : Console κ
  host : Host
  settings : Settings

inductive Event where
  | call (call : Call) (answer : call.Answer)
  | question (question : Question) (answer : Except PromptError Bool)

structure Session (δ κ : Type) where
  daemon : δ
  console : κ
  /-- What standard input still holds for a copy. -/
  stdin : Bytes := []
  clock : Clock := {}
  events : List Event := []

abbrev Run (δ κ ε α : Type) := Action (Session δ κ) ε α

namespace Site

variable {δ κ ε : Type} (site : Site δ κ)

def call (c : Call) : Run δ κ ε c.Answer :=
  .ofFun fun s =>
    let (a, daemon) := site.daemon.answer c s.daemon
    (.ok a, { s with daemon, events := s.events ++ [.call c a] })

def ask (q : Question) : Run δ κ PromptError Bool :=
  .ofFun fun s =>
    let (a, console) := site.console.ask q s.console
    (a, { s with console, events := s.events ++ [.question q a] })

def write (bytes : Bytes) : Run δ κ IoError Unit :=
  .ofFun fun s => let (r, console) := site.console.write bytes s.console; (r, { s with console })

def flush : Run δ κ IoError Unit :=
  .ofFun fun s => let (r, console) := site.console.flush s.console; (r, { s with console })

def say (text : String) : Run δ κ ProvisionError Unit :=
  (site.write (Text.bytes (text ++ "\n"))).orFail .output

def takeStdin : Run δ κ ε Bytes := .ofFun fun s => (.ok s.stdin, { s with stdin := [] })

def demand {α : Type} (r : Reply α) (f : DaemonError → ε) : Run δ κ ε α :=
  match r with
  | .ok a => return a
  | .error e => throw (f e)

end Site

end Provisioner
