import Provisioner.Json.Draft
import Provisioner.Text.Hex
import Provisioner.Text.Utf8

namespace Provisioner.Json

open Text (Symbols)

def isSpace (c : Char) : Bool := c == ' ' || c == '\n' || c == '\t' || c == '\r'

def skipSpace (cs : Symbols) : Symbols := cs.dropWhile (·.any isSpace)

def faultAt (cs : Symbols) : Fault := if cs.isEmpty then .cut else .malformed

def someDigits (cs : Symbols) : Except Fault (List Char × Symbols) :=
  match (cs.takeWhile (·.any isDecimal)).filterMap id with
  | [] => .error (faultAt cs)
  | ds => .ok (ds, cs.dropWhile (·.any isDecimal))

def whole (cs : Symbols) : Except Fault (List Char × Symbols) := do
  let (ds, rest) ← someDigits cs
  if ds.head? == some '0' && 1 < ds.length then throw .malformed else return (ds, rest)

def part : Symbols → Except Fault (List Char × Symbols)
  | some '.' :: cs => someDigits cs
  | cs => .ok ([], cs)

def signedPower (sign : Int) (cs : Symbols) : Except Fault (Option Int × Symbols) := do
  let (ds, rest) ← someDigits cs
  return (some (sign * decimal ds), rest)

def power : Symbols → Except Fault (Option Int × Symbols)
  | some c :: cs =>
    if c == 'e' || c == 'E' then
      match cs with
      | some '+' :: cs => signedPower 1 cs
      | some '-' :: cs => signedPower (-1) cs
      | cs => signedPower 1 cs
    else .ok (none, some c :: cs)
  | cs => .ok (none, cs)

def unsigned (negative : Bool) (cs : Symbols) : Except Fault (Numeral × Symbols) := do
  let (whole, cs) ← whole cs
  let (part, cs) ← part cs
  let (power, rest) ← power cs
  return (⟨negative, whole, part, power⟩, rest)

def numeral : Symbols → Except Fault (Numeral × Symbols)
  | some '-' :: cs => unsigned true cs
  | cs => unsigned false cs

def hexNumber? (ds : Symbols) : Option Nat :=
  ds.foldlM (fun n s => do return n * 16 + (← Text.hexValue? (← s))) 0

def escaped? : Char → Option Char
  | '"' => some '"'
  | '\\' => some '\\'
  | '/' => some '/'
  | 'b' => some '\x08'
  | 'f' => some '\x0c'
  | 'n' => some '\n'
  | 'r' => some '\r'
  | 't' => some '\t'
  | _ => none

inductive Piece where
  | char (c : Char)
  /-- The number that a `\u` escape gives. -/
  | unit (n : Nat)
  /-- A byte that makes no character. -/
  | gap

/-- The pieces up to the closing quote. An escape that fewer than four bytes follow is cut. -/
def pieces : Symbols → List Piece × Except Fault Symbols
  | [] => ([], .error .cut)
  | some '"' :: cs => ([], .ok cs)
  | some '\\' :: some 'u' :: a :: b :: c :: d :: cs =>
    match hexNumber? [a, b, c, d] with
    | none => ([], .error .malformed)
    | some n =>
      let (ps, rest) := pieces cs
      (.unit n :: ps, rest)
  | some '\\' :: some 'u' :: cs =>
    ([], .error (if Text.symbolsSize cs < 4 then .cut else .malformed))
  | some '\\' :: some e :: cs =>
    match escaped? e with
    | none => ([], .error .malformed)
    | some c =>
      let (ps, rest) := pieces cs
      (.char c :: ps, rest)
  | some '\\' :: cs => ([], .error (faultAt cs))
  | some c :: cs =>
    if c.toNat < 0x20 then ([], .error .malformed)
    else
      let (ps, rest) := pieces cs
      (.char c :: ps, rest)
  | none :: cs =>
    let (ps, rest) := pieces cs
    (.gap :: ps, rest)

def isSurrogate (n : Nat) : Bool := 0xD800 ≤ n && n ≤ 0xDFFF

def isTrailing (n : Nat) : Bool := 0xDC00 ≤ n && n ≤ 0xDFFF

/-- Some surrogate has no partner. A leading one at the end may still get one. -/
def hasLoneSurrogate : List Piece → Bool
  | [] => false
  | .unit n :: ps =>
    if !isSurrogate n then hasLoneSurrogate ps
    else if isTrailing n then true
    else
      match ps with
      | [] => false
      | .unit m :: ps => if isTrailing m then hasLoneSurrogate ps else true
      | _ :: _ => true
  | _ :: ps => hasLoneSurrogate ps

/-- The text of the pieces. Two units make one character where the first is a leading surrogate
and the second a trailing one; a surrogate on its own makes none. -/
def spell? : List Piece → Option (List Char)
  | [] => some []
  | .char c :: ps => (spell? ps).map (c :: ·)
  | .gap :: _ => none
  | .unit n :: ps =>
    if !isSurrogate n then (spell? ps).map (Char.ofNat n :: ·)
    else
      match ps with
      | .unit m :: ps =>
        if !isTrailing n && isTrailing m then
          (spell? ps).map (Char.ofNat (0x10000 + (n - 0xD800) * 1024 + (m - 0xDC00)) :: ·)
        else none
      | _ => none

abbrev Found := Draft × Except Fault Symbols

def stop (f : Fault) : Found := (.flawed f (some f), .error f)

def string (cs : Symbols) : Found :=
  match pieces cs with
  | (ps, .ok rest) =>
    match spell? ps with
    | some text => (.string (String.ofList text), .ok rest)
    | none => (.flawed .malformed none, .ok rest)
  | (ps, .error f) => (.flawed (if hasLoneSurrogate ps then .malformed else f) (some f), .error f)

def literal (d : Draft) : List Char → Symbols → Found
  | [], cs => (d, .ok cs)
  | w :: ws, some c :: cs => if c == w then literal d ws cs else stop .malformed
  | _ :: _, cs => stop (faultAt cs)

/-- A number. Passing over one does not tell a cut from another fault. -/
def number (cs : Symbols) : Found :=
  match numeral cs with
  | .ok (n, rest) => (.number n, .ok rest)
  | .error f => (.flawed f (some .malformed), .error .malformed)

def readScalar : Symbols → Found
  | [] => stop .cut
  | some '"' :: cs => string cs
  | some 'n' :: cs => literal .null "ull".toList cs
  | some 't' :: cs => literal (.bool true) "rue".toList cs
  | some 'f' :: cs => literal (.bool false) "alse".toList cs
  | cs => number cs

def fault? : Except Fault Symbols → Option Fault
  | .ok _ => none
  | .error f => some f

mutual

/-- A value after white space. The fuel bounds the brackets and commas that are met. -/
def readValue : Nat → Symbols → Found
  | 0, _ => stop .malformed
  | fuel + 1, cs =>
    match skipSpace cs with
    | some '[' :: cs =>
      match skipSpace cs with
      | some ']' :: rest => (.array [] none, .ok rest)
      | cs =>
        let (items, rest) := readElements fuel cs
        (.array items (fault? rest), rest)
    | some '{' :: cs =>
      match skipSpace cs with
      | some '}' :: rest => (.object [] none, .ok rest)
      | cs =>
        let (members, rest) := readPairs fuel cs
        (.object members (fault? rest), rest)
    | cs => readScalar cs

def readElements : Nat → Symbols → List Draft × Except Fault Symbols
  | 0, _ => ([], .error .malformed)
  | fuel + 1, cs =>
    match readValue fuel cs with
    | (d, .error f) => ([d], .error f)
    | (d, .ok rest) =>
      match skipSpace rest with
      | some ']' :: rest => ([d], .ok rest)
      | some ',' :: rest =>
        if (skipSpace rest).head? == some (some ']') then ([d], .error .malformed)
        else
          let (ds, rest) := readElements fuel rest
          (d :: ds, rest)
      | rest => ([d], .error (faultAt rest))

def readPairs : Nat → Symbols → List (Draft × Draft) × Except Fault Symbols
  | 0, _ => ([], .error .malformed)
  | fuel + 1, cs =>
    match skipSpace cs with
    | some '"' :: cs =>
      match string cs with
      | (name, .error f) => ([(name, (stop f).1)], .error f)
      | (name, .ok rest) =>
        match skipSpace rest with
        | some ':' :: rest =>
          match readValue fuel rest with
          | (d, .error f) => ([(name, d)], .error f)
          | (d, .ok rest) =>
            match skipSpace rest with
            | some '}' :: rest => ([(name, d)], .ok rest)
            | some ',' :: rest =>
              let (ms, rest) := readPairs fuel rest
              ((name, d) :: ms, rest)
            | rest => ([(name, d)], .error (faultAt rest))
        | rest => ([(name, (stop (faultAt rest)).1)], .error (faultAt rest))
    | cs => ([], .error (faultAt cs))

end

def readText (cs : Symbols) : Found := readValue (2 * cs.length + 2) cs

/-- Reads a whole text with a reader for its draft. What stands after the value is only looked at
when the value is fine. -/
def decodeSymbols {α : Type} (read : Draft → Except Fault α) (cs : Symbols) : Except Fault α := do
  let (d, rest) := readText cs
  let a ← read d
  if (skipSpace (← rest)).isEmpty then return a else throw .malformed

def decode {α : Type} (read : Draft → Except Fault α) (text : String) : Except Fault α :=
  decodeSymbols read (text.toList.map some)

/-- Reads bytes, of which those in a value that nobody asks for need not be text. -/
def decodeBytes {α : Type} (read : Draft → Except Fault α) (bytes : Bytes) : Except Fault α :=
  decodeSymbols read (Text.symbols bytes)

end Provisioner.Json
