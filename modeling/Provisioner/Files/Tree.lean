import Provisioner.Text.Utf8

namespace Provisioner.Files

abbrev Location := List String

/-- A name whose bytes are no text stands in a tree as a slash with one character for each byte behind
it. So a path, which is a text, has no such name. -/
def isText (name : String) : Bool := name.toList.head? != some '/'

def nameBytes (name : String) : Bytes :=
  match name.toList with
  | '/' :: cs => cs.map fun c => UInt8.ofNat c.toNat
  | _ => Text.bytes name

def nameText (name : String) : String :=
  if isText name then name else Text.decodeLossy (nameBytes name)

inductive Node where
  | file (mode : Nat) (content : Bytes)
  | dir (mode : Nat) (entries : List (String × Node))
  | link (target : String)
  | device
  deriving Inhabited

namespace Node

def isDir : Node → Bool
  | .dir .. => true
  | _ => false

def entries : Node → List (String × Node)
  | .dir _ es => es
  | _ => []

def child? (n : Node) (name : String) : Option Node := n.entries.lookup name

def at? (n : Node) : Location → Option Node
  | [] => some n
  | name :: rest => (n.child? name).bind (at? · rest)

/-- The entries with `node` under `name`, in the place of the entry that has this name if there
is one. -/
def putEntry (name : String) (node : Node) : List (String × Node) → List (String × Node)
  | [] => [(name, node)]
  | e :: es => if e.1 == name then (name, node) :: es else e :: putEntry name node es

/-- The tree with `node` at a location. Directories that are missing on the way are made, with
the mode that a new directory has; the way does not lead through anything else. -/
def put : Node → Location → Node → Node
  | _, [], node => node
  | .dir mode es, name :: rest, node =>
    .dir mode (putEntry name (put ((es.lookup name).getD (.dir 0o755 [])) rest node) es)
  | other, _ :: _, _ => other

end Node

end Provisioner.Files
