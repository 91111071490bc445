import Provisioner.Command.Execute
import Provisioner.CommandLine.Reader

namespace Provisioner.Main

def socket : String := "/var/run/docker.sock"

def usage : String :=
  "Usage: provisioner [--settings <FILE>] <COMMAND>\n\n" ++
    "Commands:\n" ++
    "  init [--util-config-file <FILE>]  set the container up\n" ++
    "  check                             see whether the daemon answers\n" ++
    "  status [--json]                   report the container\n"

def version : String := "provisioner 0.1.0\n"

open CommandLine in
def notice : Refusal → String
  | .help | .nothingAsked => usage
  | .version => version
  | .taskMissing => "error: a command is missing\n\n" ++ usage
  | .taskUnknown => "error: there is no such command\n\n" ++ usage
  | .argumentUnknown => "error: unexpected argument\n\n" ++ usage
  | .valueMissing => "error: an option needs a value\n\n" ++ usage
  | .repeated => "error: an option was given more than once\n\n" ++ usage
  | .surplusValue => "error: an option takes no value\n\n" ++ usage

def machine (cwd : String) (file : Option (String × Bytes)) : Host :=
  let here := Files.Path.names cwd
  let root := (Files.Node.dir 0o755 []).put here (.dir 0o755 [])
  let host : Host := { root, cwd := here, home := none, userProfile := none }
  match file with
  | none => host
  | some (path, content) =>
    let long := Files.Path.names ((Files.Path.absolute? cwd path).getD path)
    { host with root := root.put long (.file Host.newFileMode content) }

def content? (path : String) : IO (Option Bytes) := do
  try
    let bytes ← IO.FS.readBinFile path
    return some bytes.toList
  catch _ => return none

def namedFile (path : Option String) : IO (Option (String × Bytes)) := do
  match path with
  | none => return none
  | some path => return (← content? path).map fun bytes => (path, bytes)

def carryOut (i : CommandLine.Invocation) : IO UInt32 := do
  let host := machine (← IO.currentDir).toString (← namedFile i.settings)
  let way : Except ClientError (Daemon Unit) := .error (.socketMissing socket)
  let session := { daemon := (), console := Terminal.ofInput [] }
  let (r, w) := (Command.execute way i).apply ⟨session, host⟩
  IO.print (Text.decodeLossy w.session.console.screen.written)
  match r with
  | .ok () => return 0
  | .error e =>
    IO.eprintln e.farewell
    return 1

end Provisioner.Main

open Provisioner in
def main (args : List String) : IO UInt32 := do
  match CommandLine.read (← IO.getEnv "CTLHOST_SETTINGS") args with
  | .ok i => Main.carryOut i
  | .error e =>
    if e.exitStatus == 0 then IO.print (Main.notice e) else IO.eprint (Main.notice e)
    return e.exitStatus.toUInt32
