import Provisioner.Copy.Plan
import Provisioner.Tar.Entry

namespace Provisioner.Copy

structure Packed where
  entries : Tar.Archive := []
  failure : Option IoError := none
  deriving DecidableEq, Repr

def Packed.upTo (p : Packed) (faults : List (Option IoError)) : Packed :=
  match p.failure <|> faults.findSome? id with
  | none => p
  | some e => { entries := p.entries.take (faults.findIdx Option.isSome), failure := some e }

def emptyName : IoError :=
  .other "paths in archives must have at least one component when setting path for "

def parentName : IoError :=
  .other "paths in archives must not have `..` when setting path for "

def zeroInName : IoError := .other "provided value contains a nul byte when setting path for "

/-- What keeps a name out of a header. A long name is stored before its header, which gets the
first bytes of it. -/
def nameFault? (name : String) : Option IoError :=
  if name == ".." then some parentName
  else if ((Text.bytes name).take Tar.pathField).contains 0 then some zeroInName
  else none

def packFile (name : String) (node : Files.Node) : Packed :=
  if name == "" then { failure := some emptyName }
  else
    match nameFault? name with
    | some e => { failure := some e }
    | none => { entries := Tar.ofNode [name] node }

/-- Packs a directory. It has an entry of its own unless it has no name; then the entries have
their paths below it. -/
def packDir (name : String) (mode : Nat) (entries : List (String × Files.Node)) : Packed :=
  if name == "" then { entries := Tar.ofEntries [] entries }
  else
    match nameFault? name with
    | some e => { failure := some e }
    | none => { entries := Tar.ofNode [name] (.dir mode entries) }

def packNode (name : String) : Files.Node → Packed
  | .dir mode entries => packDir name mode entries
  | node => packFile name node

def Root.name : Root → String
  | .named name => name
  | .contents => "."

open Files in
mutual

/-- What keeps the nodes of a tree from being opened, in the order of their entries. Files and
directories are opened, links and devices are not. -/
def faults (shut : Location → Option IoError) (here : Location) : Node → List (Option IoError)
  | .dir _ es => shut here :: faultsBelow shut here es
  | .file .. => [shut here]
  | .link _ | .device => [none]

def faultsBelow (shut : Location → Option IoError) (here : Location) :
    List (String × Node) → List (Option IoError)
  | [] => []
  | e :: es => faults shut (here ++ [e.1]) e.2 ++ faultsBelow shut here es

end

/-- Packs what is at the origin now. A file that was there when it was looked at is opened again,
and so is a directory with all that is in it. -/
def pack (h : Host) (o : Origin) (root : Root) : Packed :=
  match Files.find h.root h.cwd o.path with
  | .error e => { failure := some e }
  | .ok (location, node) =>
    match h.shut location with
    | some e => { failure := some e }
    | none =>
      let faults := faults h.shut location node
      (packNode root.name node).upTo (if root.name == "" then faults.tail else faults)

end Provisioner.Copy
