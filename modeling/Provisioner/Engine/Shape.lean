import Provisioner.Json.Reader

namespace Provisioner.Engine

open Json

abbrev Shape := Draft → Except Fault Unit

namespace Shape

def text : Shape := fun d => d.asString.map fun _ => ()
def flag : Shape := fun d => d.asBool.map fun _ => ()
def integer : Shape := fun d => d.asInt.map fun _ => ()
def real : Shape := fun d => d.asReal.map fun _ => ()

def word (bits : Nat) : Shape := fun d => (d.asNat (1 <<< bits)).map fun _ => ()

end Shape

variable {α β : Type}

def optional (read : Draft → Except Fault α) : Draft → Except Fault (Option α)
  | .null => .ok none
  | d => some <$> read d

def list (read : Draft → Except Fault α) : Draft → Except Fault (List α)
  | .array items fault => do finish fault (← items.mapM read)
  | d => .error d.refusal

def readValues (read : Draft → Except Fault α) : List (Draft × Draft) → Except Fault (List α)
  | [] => .ok []
  | m :: ms => do
    let _ ← m.1.asString
    return (← read m.2) :: (← readValues read ms)

def dictionary (read : Draft → Except Fault α) : Draft → Except Fault (List α)
  | .object members fault => do finish fault (← readValues read members)
  | d => .error d.refusal

def known (names : List String) (name : String) : Except Fault String :=
  if names.contains name then .ok name else .error .mismatch

def oneOf (names : List String) : Draft → Except Fault String
  | .string s => known names s
  | .object [(name, value)] fault => do
    let s ← known names (← name.asString)
    match value with
    | .null => finish fault s
    | d => throw d.refusal
  | d => .error d.refusal

def object (fs : List (RecordField α)) (needed : List String) (a : α) : Draft → Except Fault α :=
  readRecordWith fs needed (fs.map (·.name)) a

def taken (name : String) (read : Draft → Except Fault β) (put : β → α → α) : RecordField α :=
  ⟨name, fun d a => return put (← read d) a⟩

def given (name : String) (read : Draft → Except Fault β) : RecordField α :=
  ⟨name, fun d a => do let _ ← read d; return a⟩

def maybe (name : String) (read : Draft → Except Fault β) : RecordField α :=
  given name (optional read)

namespace Shape

def record (fs : List (RecordField Unit)) : Shape := object fs [] ()

def each (names : List String) (shape : Shape) : List (RecordField α) :=
  names.map fun name => maybe name shape

def texts : Shape := fun d => (list text d).map fun _ => ()
def labels : Shape := fun d => (dictionary text d).map fun _ => ()
def listOf (shape : Shape) : Shape := fun d => (list shape d).map fun _ => ()
def dictionaryOf (shape : Shape) : Shape := fun d => (dictionary shape d).map fun _ => ()
def choice (names : List String) : Shape := fun d => (oneOf ("" :: names) d).map fun _ => ()
def orNull (shape : Shape) : Shape := fun d => (optional shape d).map fun _ => ()

def emptyObject : Shape
  | .object [] fault => finish fault ()
  | d => .error d.refusal

end Shape

end Provisioner.Engine
