import Provisioner.Files.Host
import Provisioner.Tar.Header

namespace Provisioner.Tar

inductive Content where
  | file (bytes : Bytes)
  | dir
  | link (target : String)
  | special
  deriving DecidableEq, Repr

/-- A name is the list of names on the way from the place where the archive is unpacked. A `.` in
front of others means that place. -/
structure Entry where
  name : List String
  mode : Nat
  content : Content
  deriving DecidableEq, Repr

abbrev Archive := List Entry

def Entry.path (e : Entry) : String := "/".intercalate e.name

/-- Bytes that a header has for a path, and as many for the target of a link. -/
def pathField : Nat := 100

def fitsHeader (path : String) : Bool := path.utf8ByteSize ≤ pathField

/-- The name that an entry gets. A header leaves out a `.` in front; a name that is too long for
its header is kept as it is. -/
def entryName : List String → List String
  | "." :: n :: ns => if fitsHeader ("/".intercalate (n :: ns)) then n :: ns else "." :: n :: ns
  | ns => ns

/-- The target that the entry of a link gets. A header has it in plain spelling, where the root is
a slash of its own in front of a slash at the end; a target that is too long for that is kept as
it is. -/
def entryTarget (target : String) : String :=
  let plain := Files.Path.plain target
  if fitsHeader plain then plain else target

open Files in
mutual

def ofNode (name : List String) : Node → Archive
  | .file mode bytes => [⟨entryName name, mode, .file bytes⟩]
  | .dir mode entries => ⟨entryName name, mode, .dir⟩ :: ofEntries name entries
  | .link target => [⟨entryName name, 0o777, .link (entryTarget target)⟩]
  | .device => [⟨entryName name, 0o666, .special⟩]

def ofEntries (name : List String) : List (String × Node) → Archive
  | [] => []
  | e :: es => ofNode (name ++ [e.1]) e.2 ++ ofEntries name es

end

end Provisioner.Tar
