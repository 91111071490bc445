import Provisioner.Daemon.Call

namespace Provisioner.Engine

inductive StreamEnd where
  | finished
  | failed (cause : ClientError)
  deriving DecidableEq, Repr

/-- No reply comes of a scan that overflows. It counts here as one that finds nothing. -/
def conclude (path : String) : Tar.Scan → Reply (Option PathStat)
  | .found stat => .ok (some stat)
  | .needMore | .malformed | .overflow =>
    .error (.daemon .statPath s!"no archive entry returned for {path}")

/-- Adds chunks to the bytes so far until a scan knows enough. A stream that fails because there
is nothing at the path says so. -/
def statChunks (path : String) (soFar : Bytes) : List Bytes → StreamEnd →
    Reply (Option PathStat)
  | [], .finished => conclude path (Tar.scan soFar)
  | [], .failed (.status code message) =>
    if code = 404 then .ok none else .error (.api .statPath (.status code message))
  | [], .failed cause => .error (.api .statPath cause)
  | chunk :: rest, ending =>
    match Tar.scan (soFar ++ chunk) with
    | .needMore => statChunks path (soFar ++ chunk) rest ending
    | scan => conclude path scan

end Provisioner.Engine
