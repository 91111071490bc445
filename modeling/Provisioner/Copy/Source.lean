import Provisioner.Copy.Error
import Provisioner.Files.Host

namespace Provisioner.Copy

inductive Source where
  /-- A stream from standard input that is an archive already. -/
  | stdin
  | path (path : String)
  deriving DecidableEq, Repr

def contentsMark : String := "/."

def marksContents (p : String) : Bool := (Files.Path.stripEnd? contentsMark p).isSome

/-- The source that a path as entered names. It is absolute, and what its end says is kept. -/
def Source.resolve (h : Host) (raw : String) : Except CopyError Source :=
  if raw == "-" then .ok .stdin
  else
    match h.absolute raw with
    | .error e => .error (.archive raw e)
    | .ok long =>
      if marksContents raw && !marksContents long then
        .ok (.path (Files.Path.trimEnd long ++ contentsMark))
      else if Files.Path.endsWithSlash raw && !Files.Path.endsWithSlash long then
        .ok (.path (long ++ "/"))
      else .ok (.path long)

structure Origin where
  path : String
  isDir : Bool
  assertsDir : Bool
  contentsOnly : Bool
  deriving DecidableEq, Repr

def bare (p : String) : String :=
  let trimmed := Files.Path.trimEnd ((Files.Path.stripEnd? contentsMark p).getD p)
  if trimmed.isEmpty then "/" else trimmed

/-- Looks at what a resolved path names. A link at its end is followed. -/
def Origin.inspect (h : Host) (resolved : String) : Except CopyError Origin :=
  let contentsOnly := marksContents resolved
  let assertsDir := contentsOnly || Files.Path.endsWithSlash resolved
  let path := if assertsDir then bare resolved else resolved
  match h.stat path with
  | .error e => .error (.archive path e)
  | .ok node => .ok { path, isDir := node.isDir, assertsDir, contentsOnly }

def Origin.baseName (o : Origin) : String := (Files.Path.fileName? o.path).getD "."

end Provisioner.Copy
