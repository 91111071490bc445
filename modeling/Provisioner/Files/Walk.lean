import Provisioner.Files.Fault
import Provisioner.Files.Path
import Provisioner.Files.Tree

namespace Provisioner.Files

inductive Place where
  | node (location : Location) (node : Node)
  | vacant (dir : Location) (name : String)

structure Arrival where
  place : Place
  wantsDir : Bool

inductive Purpose where
  | look
  | write
  deriving DecidableEq, Repr

def linkLimit : Nat := 40

def nameLimit : Nat := 255

def pathLimit : Nat := 4096

/-- The names of a path as a walk takes them; `.` counts as a name here. -/
def steps (p : String) : List String :=
  ((Text.fields '/' p.toList).map String.ofList).filter (· != "")

/-- How a walk goes on: where it is, whether the text of the path ends in a slash, and the names
that are left. -/
abbrev Onward := Location → Bool → List String → Except IoError Arrival

def walkUpToLink (root : Node) (purpose : Purpose) (follow : Onward) (here : Location)
    (wantsDir : Bool) : List String → Except IoError Arrival
  | [] =>
    match root.at? here with
    | some n => .ok ⟨.node here n, wantsDir⟩
    | none => .error .notFound
  | name :: rest =>
    if !((root.at? here).any Node.isDir) then .error .notADirectory
    else if name == "." then walkUpToLink root purpose follow here wantsDir rest
    else if name == ".." then walkUpToLink root purpose follow here.dropLast wantsDir rest
    else if purpose = .write ∧ wantsDir ∧ rest.isEmpty then .error .isADirectory
    else if nameLimit < name.utf8ByteSize then .error .nameTooLong
    else
      match root.at? (here ++ [name]) with
      | none => if rest.isEmpty then .ok ⟨.vacant here name, wantsDir⟩ else .error .notFound
      | some (.link target) =>
        follow (if Path.isAbsolute target then [] else here)
          (wantsDir || (rest.isEmpty && Path.endsWithSlash target)) (steps target ++ rest)
      | some n =>
        if rest.isEmpty then .ok ⟨.node (here ++ [name]) n, wantsDir⟩
        else walkUpToLink root purpose follow (here ++ [name]) wantsDir rest

def walk (root : Node) (purpose : Purpose) : Nat → Onward
  | 0 => walkUpToLink root purpose fun _ _ _ => .error .tooManyLinks
  | links + 1 => walkUpToLink root purpose (walk root purpose links)

def arrive (root : Node) (cwd : Location) (purpose : Purpose) (p : String) :
    Except IoError Arrival :=
  if p.toList.contains '\x00' then .error .zeroInPath
  else if p == "" then .error .notFound
  else if pathLimit ≤ p.utf8ByteSize then .error .nameTooLong
  else walk root purpose linkLimit (if Path.isAbsolute p then [] else cwd) (Path.endsWithSlash p)
    (steps p)

def find (root : Node) (cwd : Location) (p : String) : Except IoError (Location × Node) := do
  match ← arrive root cwd .look p with
  | ⟨.vacant .., _⟩ => throw .notFound
  | ⟨.node here n, wantsDir⟩ =>
    if wantsDir && !n.isDir then throw .notADirectory
    else return (here, n)

end Provisioner.Files
