import Provisioner.Files.Fault
import Provisioner.Json.Draft

namespace Provisioner

inductive Operation where
  | connect
  | ping
  | listImages
  | pullImage
  | listContainers
  | createContainer
  | startContainer
  | removeContainer
  | statPath
  | uploadArchive
  | inspectContainer
  | createExec
  | startExec
  | execOutput
  deriving DecidableEq, Repr

def Operation.name : Operation → String
  | .connect => "connect"
  | .ping => "ping"
  | .listImages => "list_images"
  | .pullImage => "pull_image"
  | .listContainers => "list_containers"
  | .createContainer => "create_container"
  | .startContainer => "start_container"
  | .removeContainer => "remove_container"
  | .statPath => "stat_path"
  | .uploadArchive => "upload_archive"
  | .inspectContainer => "inspect_container"
  | .createExec => "create_exec"
  | .startExec => "start_exec"
  | .execOutput => "exec_output"

inductive ClientError where
  | status (code : Nat) (message : String)
  /-- The failure came in the middle of a stream of messages. -/
  | stream (message : String)
  | socketMissing (path : String)
  | io (cause : IoError)
  | unreadable (fault : Json.Fault)
  deriving DecidableEq, Repr

def ClientError.message : ClientError → String
  | .status code message => s!"Docker responded with status code {code}: {message}"
  | .stream message => s!"Docker stream error: {message}"
  | .socketMissing path => s!"Socket not found: {path}"
  | .io cause => cause.message
  | .unreadable fault => s!"unreadable response: {fault.message}"

inductive DaemonError where
  | api (operation : Operation) (cause : ClientError)
  /-- The daemon said itself what is wrong. -/
  | daemon (operation : Operation) (text : String)
  | io (operation : Operation) (cause : IoError)
  deriving DecidableEq, Repr

namespace DaemonError

def operation : DaemonError → Operation
  | .api op _ | .daemon op _ | .io op _ => op

def message : DaemonError → String
  | .api op cause => s!"docker {op.name} failed: {cause.message}"
  | .daemon op text => s!"docker {op.name} failed: {text}"
  | .io op cause => s!"I/O error during {op.name}: {cause.message}"

def chain (e : DaemonError) : List String :=
  match e with
  | .api _ cause => [e.message, cause.message]
  | .daemon .. => [e.message]
  | .io _ cause => [e.message, cause.message]

end DaemonError

end Provisioner
