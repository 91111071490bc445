import Provisioner.Provision.Console
import Provisioner.Provision.Run
import Provisioner.Setup.Interview

namespace Provisioner

/-- A world, in which a daemon has states of type `δ`. The terminal is the console of the
session. -/
structure World (δ : Type) where
  session : Session δ Terminal
  host : Host

inductive CommandError where
  | settings (path : String) (cause : ConfigError)
  | connect (cause : DaemonError)
  | provision (cause : ProvisionError)
  | setup (cause : SetupError)
  | output (cause : IoError)
  deriving DecidableEq, Repr

namespace CommandError

def chain : CommandError → List String
  | .settings path cause => s!"unable to load settings from {path}" :: cause.chain
  | .connect cause => "unable to create a Docker client" :: cause.chain
  | .provision cause => cause.chain
  | .setup cause => cause.chain
  | .output cause => [cause.message]

def message (e : CommandError) : String := ": ".intercalate e.chain

def farewell (e : CommandError) : String := s!"ERROR: {e.message}. This utility will now exit."

end CommandError

abbrev Command (δ α : Type) := Action (World δ) CommandError α

namespace Command

variable {δ α : Type}

def host : Command δ Host := .ofFun fun w => (.ok w.host, w)

def provision (daemon : Daemon δ) (settings : Settings)
    (run : Site δ Terminal → Run δ Terminal ProvisionError α) : Command δ α := do
  let site : Site δ Terminal := ⟨daemon, Console.screen, ← host, settings⟩
  ((run site).orFail .provision).on World.session fun session w => { w with session }

def setup (a : Setup α) : Command δ α :=
  (a.orFail .setup).on (fun w => ⟨w.session.console, w.host⟩) fun d w =>
    { session := { w.session with console := d.terminal }, host := d.host }

def say (text : String) : Command δ Unit :=
  ((Terminal.writeLine text).orFail .output).on (fun w => w.session.console) fun console w =>
    { w with session := { w.session with console } }

def connect (way : Except ClientError (Daemon δ)) : Command δ (Daemon δ) :=
  match way with
  | .ok daemon => return daemon
  | .error e => throw (.connect (.api .connect e))

end Command

end Provisioner
