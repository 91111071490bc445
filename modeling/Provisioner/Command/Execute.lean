import Provisioner.Command.Basic
import Provisioner.Command.Report
import Provisioner.CommandLine.Invocation

namespace Provisioner.Command

variable {δ : Type} (daemon : Daemon δ) (settings : Settings)

def check : Command δ Unit := do
  provision daemon settings Site.probe
  say "Docker daemon is reachable."

def status (json : Bool) : Command δ Unit := do
  let container ← provision daemon settings Site.status
  let report : Report := ⟨settings.containerName, settings.image, container⟩
  say (report.text json)

def interview (h : Host) : Interview where
  attempts := settings.prompt.maxAttempts
  workdir := h.cwdPath

def bringUp (config : InitConfig) : Command δ Unit := do
  let outcome ← provision daemon settings (·.run config)
  if outcome.reused then say s!"Using existing container {outcome.containerId}."

def init (configFile : Option String) : Command δ Unit := do
  provision daemon settings Site.probe
  let i := interview settings (← host)
  let properties ← setup (i.collect configFile)
  match ← setup (i.confirm properties) with
  | some config => bringUp daemon settings config
  | none => return

def loadSettings : Option String → Command δ Settings
  | none => return {}
  | some path => do
    match Settings.load (← host) path with
    | .ok settings => return settings
    | .error e => throw (.settings path e)

def execute (way : Except ClientError (Daemon δ)) (i : CommandLine.Invocation) :
    Command δ Unit := do
  let settings ← loadSettings i.settings
  let daemon ← connect way
  match i.task with
  | .init configFile => init daemon settings configFile
  | .check => check daemon settings
  | .status json => status daemon settings json

end Provisioner.Command
