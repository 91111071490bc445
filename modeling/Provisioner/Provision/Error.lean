import Provisioner.Copy.Error
import Provisioner.Provision.Attempts
import Provisioner.Terminal.Basic

namespace Provisioner

inductive ExecError where
  | inspect (cause : DaemonError)
  | create (cause : DaemonError)
  | emptySessionId
  | start (cause : DaemonError)
  | output (cause : DaemonError)
  | write (cause : IoError)
  deriving DecidableEq, Repr

namespace ExecError

def message : ExecError → String
  | .inspect cause => s!"container inspection failed: {cause.message}"
  | .create cause => s!"exec creation failed: {cause.message}"
  | .emptySessionId => "exec ID empty"
  | .start cause => s!"exec start failed: {cause.message}"
  | .output cause => s!"reading exec output failed: {cause.message}"
  | .write cause => s!"writing exec output failed: {cause.message}"

def daemonError? : ExecError → Option DaemonError
  | .inspect cause | .create cause | .start cause | .output cause => some cause
  | .emptySessionId | .write _ => none

def chain (e : ExecError) : List String :=
  match e with
  | .emptySessionId => [e.message]
  | .write cause => [e.message, cause.message]
  | .inspect cause | .create cause | .start cause | .output cause => e.message :: cause.chain

end ExecError

inductive Decision where
  | useExisting
  | recreate
  deriving DecidableEq, Repr

namespace Decision

def question : Decision → String
  | .useExisting => "Do you wish to use this existing container?"
  | .recreate => "You decided to remove and recreate the container. All its data and " ++
    "configuration will be lost. Are you sure you want to proceed?"

def preset : Decision → Option Bool
  | .useExisting => none
  | .recreate => some false

def context : Decision → String
  | .useExisting =>
    "found existing container, but it is not clear whether you wish to use it or recreate it"
  | .recreate => "found existing container. You indicated that you do not wish to use it, but " ++
    "no clear confirmation was given about proceeding to destroy and recreate it"

end Decision

inductive ProvisionError where
  | connectivity (cause : AttemptsError DaemonError)
  | ambiguous (name : String) (count : Nat)
  | resolution (name : String) (cause : DaemonError)
  | imagePull (image : String) (cause : DaemonError)
  | containerCreate (name : String) (cause : DaemonError)
  | containerStart (id : String) (cause : DaemonError)
  | containerRemove (id : String) (cause : DaemonError)
  | confirmation (decision : Decision) (cause : PromptError)
  | fileStage (container source dest : String) (cause : CopyError)
  | exec (container : String) (cause : ExecError)
  | output (cause : IoError)
  deriving DecidableEq, Repr

namespace ProvisionError

def message : ProvisionError → String
  | .connectivity cause =>
    s!"unable to contact the Docker daemon: {cause.message DaemonError.message}"
  | .ambiguous name count =>
    s!"found {count} containers named {name}, but only one is expected to exist"
  | .resolution name cause =>
    s!"unable to check whether container {name} already exists: {cause.message}"
  | .imagePull image cause => s!"unable to check or pull image {image}: {cause.message}"
  | .containerCreate name cause => s!"unable to create container {name}: {cause.message}"
  | .containerStart id cause => s!"unable to start container {id}: {cause.message}"
  | .containerRemove id cause =>
    s!"unable to remove container {id} prior to recreating it: {cause.message}"
  | .confirmation decision cause => s!"{decision.context}: {cause.message}"
  | .fileStage container source dest cause =>
    s!"unable to copy {source} to {container}:{dest}: {cause.message}"
  | .exec container cause =>
    s!"unable to run the initialization script in container {container}: {cause.message}"
  | .output cause => s!"unable to write progress output: {cause.message}"

def daemonError? : ProvisionError → Option DaemonError
  | .connectivity cause => some cause.last
  | .resolution _ cause | .imagePull _ cause | .containerCreate _ cause
  | .containerStart _ cause | .containerRemove _ cause => some cause
  | .fileStage _ _ _ cause => cause.daemonError?
  | .exec _ cause => cause.daemonError?
  | .ambiguous .. | .confirmation .. | .output _ => none

def chain (e : ProvisionError) : List String :=
  e.message ::
    match e with
    | .connectivity cause => cause.message DaemonError.message :: cause.last.chain
    | .ambiguous .. => []
    | .resolution _ cause | .imagePull _ cause | .containerCreate _ cause
    | .containerStart _ cause | .containerRemove _ cause => cause.chain
    | .confirmation _ cause => cause.chain
    | .fileStage _ _ _ cause => cause.chain
    | .exec _ cause => cause.chain
    | .output cause => [cause.message]

end ProvisionError

end Provisioner
