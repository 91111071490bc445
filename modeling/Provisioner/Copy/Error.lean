import Provisioner.Daemon.Error
import Provisioner.Tar.Scan

namespace Provisioner

inductive CopyError where
  | invalidDestination (path : String) (kind : PathKind)
  /-- What comes from standard input needs a directory that is there. -/
  | destinationNotDirectory (path : String)
  | destinationDirMissing (path : String)
  | directoryOverFile (source path : String)
  | sourceNotDirectory (path : String)
  | archive (path : String) (cause : IoError)
  | transfer (cause : DaemonError)
  deriving DecidableEq, Repr

namespace CopyError

def message : CopyError → String
  | .invalidDestination path kind =>
    s!"destination {path} must be a directory or a regular file, got {kind.describe}"
  | .destinationNotDirectory path => s!"destination {path} must be an existing directory"
  | .destinationDirMissing path => s!"destination directory {path} does not exist"
  | .directoryOverFile source path =>
    s!"cannot copy directory {source} over existing file {path}"
  | .sourceNotDirectory path => s!"source {path} is not a directory"
  | .archive path cause => s!"archive preparation failed for {path}: {cause.message}"
  | .transfer cause => s!"archive transfer failed: {cause.message}"

def chain (e : CopyError) : List String :=
  match e with
  | .archive _ cause => [e.message, cause.message]
  | .transfer cause => e.message :: cause.chain
  | _ => [e.message]

def daemonError? : CopyError → Option DaemonError
  | .transfer cause => some cause
  | _ => none

end CopyError

end Provisioner
