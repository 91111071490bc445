import Provisioner.Json.Numeral

namespace Provisioner.Json

inductive Fault where
  | malformed
  /-- It is the beginning of a JSON text. -/
  | cut
  /-- It is JSON, of another shape than the one asked for. -/
  | mismatch
  deriving DecidableEq, Repr

def Fault.message : Fault → String
  | .malformed => "the text is not JSON"
  | .cut => "the text ends too early"
  | .mismatch => "a value has the wrong shape"

inductive Draft where
  | null
  | bool (b : Bool)
  | number (n : Numeral)
  | string (text : String)
  /-- `fault` tells why no closing bracket was found after the last item, if none was. -/
  | array (items : List Draft) (fault : Option Fault)
  /-- Names are drafts too, of strings. -/
  | object (members : List (Draft × Draft)) (fault : Option Fault)
  /-- Here is no value: what keeps it from being read, and what keeps the text after it from being
  found, if anything does. -/
  | flawed (read : Fault) (skip : Option Fault)
  deriving Inhabited

/-- The fault of a draft that was to be something else. Only a container is known by its first
character; any other value is read before it is refused. -/
def Draft.refusal : Draft → Fault
  | .flawed f _ => f
  | .number n => if n.isHuge then .malformed else .mismatch
  | _ => .mismatch

def Draft.asString : Draft → Except Fault String
  | .string s => .ok s
  | d => .error d.refusal

def Draft.asBool : Draft → Except Fault Bool
  | .bool b => .ok b
  | d => .error d.refusal

/-- A whole number below `bound`. A minus sign is refused even in front of zero. -/
def Draft.asNat (bound : Nat) : Draft → Except Fault Nat
  | .number n =>
    if n.isWhole && !n.negative && n.wholePart < bound then .ok n.wholePart
    else .error (Draft.number n).refusal
  | d => .error d.refusal

def Draft.asInt : Draft → Except Fault Int
  | .number n =>
    let i : Int := if n.negative then -(n.wholePart : Int) else n.wholePart
    if n.isWhole && !(n.negative && n.wholePart == 0) && Int64.minValue.toInt ≤ i &&
        i ≤ Int64.maxValue.toInt then
      .ok i
    else .error (Draft.number n).refusal
  | d => .error d.refusal

def Draft.asReal : Draft → Except Fault Numeral
  | .number n => if n.isHuge then .error .malformed else .ok n
  | d => .error d.refusal

def finish {α : Type} (fault : Option Fault) (a : α) : Except Fault α :=
  match fault with
  | none => .ok a
  | some f => .error f

mutual

/-- Passes over a value that nobody asks for. It only has to be JSON. -/
def Draft.skip : Draft → Except Fault Unit
  | .flawed _ fault => finish fault ()
  | .array items fault => do
    skipAll items
    finish fault ()
  | .object members fault => do
    skipMembers members
    finish fault ()
  | _ => .ok ()

def skipAll : List Draft → Except Fault Unit
  | [] => .ok ()
  | d :: ds => do
    d.skip
    skipAll ds

def skipMembers : List (Draft × Draft) → Except Fault Unit
  | [] => .ok ()
  | m :: ms => do
    m.1.skip
    m.2.skip
    skipMembers ms

end

structure RecordField (α : Type) where
  name : String
  read : Draft → α → Except Fault α

/-- Reads members in order, and tells which fields were there. A field that comes twice is refused
at its second name. -/
def readMembers {α : Type} (fs : List (RecordField α)) (seen : List String) :
    List (Draft × Draft) → α → Except Fault (α × List String)
  | [], a => .ok (a, seen)
  | m :: ms, a => do
    let name ← m.1.asString
    match fs.find? (·.name == name) with
    | none =>
      m.2.skip
      readMembers fs seen ms a
    | some f =>
      if seen.contains name then throw .mismatch
      else readMembers fs (name :: seen) ms (← f.read m.2 a)

/-- Reads items as the fields in their order, and tells which fields were there. A surplus item is
text after the end. -/
def readItems {α : Type} : List (RecordField α) → List Draft → α →
    Except Fault (α × List String)
  | _, [], a => .ok (a, [])
  | [], _ :: _, _ => .error .malformed
  | f :: fs, d :: ds, a => do
    let (a, seen) ← readItems fs ds (← f.read d a)
    return (a, f.name :: seen)

/-- Reads a record over given defaults. Written as an object it has the fields named in `needed`;
written as the array of its fields it has those named in `listed`. -/
def readRecordWith {α : Type} (fs : List (RecordField α)) (needed listed : List String) (a : α) :
    Draft → Except Fault α
  | .object members fault => do
    let (a, seen) ← finish fault (← readMembers fs [] members a)
    if needed.all seen.contains then return a else throw .mismatch
  | .array items fault => do
    let (a, seen) ← finish fault (← readItems fs items a)
    if listed.all seen.contains then return a else throw .mismatch
  | d => .error d.refusal

def readRecord {α : Type} (fs : List (RecordField α)) (a : α) : Draft → Except Fault α :=
  readRecordWith fs [] [] a

end Provisioner.Json
