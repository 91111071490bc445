import Provisioner.Text.Blank
import Provisioner.Text.Hex
import Provisioner.Text.Lines
import Provisioner.Text.Utf8

namespace Provisioner.Engine

structure Target where
  path : String
  query : List (String × String) := []
  deriving DecidableEq, Repr

namespace Target

def isEdge (c : Char) : Bool := c ≤ ' '

def isBreak (c : Char) : Bool := c == '\t' || c == '\n' || c == '\r'

/-- What is sent of the characters of a target: all up to a number sign. -/
def sent (cs : List Char) : List Char :=
  ((Text.dropEndWhile isEdge (cs.dropWhile isEdge)).filter (!isBreak ·)).takeWhile (· != '#')

def needsEscape (c : Char) : Bool :=
  c ≤ ' ' || '~' < c || ['"', '<', '>', '\x60', '\x7b', '\x7d'].contains c

def hexPair (b : UInt8) : List Char :=
  (if b < 16 then ['0'] else []) ++ (Nat.toDigits 16 b.toNat).map Char.toUpper

def escapeByte (b : UInt8) : List Char := '%' :: hexPair b

def escapeChar (c : Char) : List Char :=
  if needsEscape c then (Text.bytes (String.singleton c)).flatMap escapeByte else [c]

inductive Step where
  | here
  | up
  | to (name : List Char)
  deriving DecidableEq, Repr

def dots : List Char → Option Nat
  | [] => some 0
  | '.' :: cs => (dots cs).map (· + 1)
  | '%' :: '2' :: c :: cs => if c == 'e' || c == 'E' then (dots cs).map (· + 1) else none
  | _ => none

def Step.ofName (name : List Char) : Step :=
  match dots name with
  | some 1 => .here
  | some 2 => .up
  | _ => .to name

/-- Follows names, with the ones so far in reverse. A path that ends in `.` or `..` ends in a
slash. -/
def resolve (soFar : List (List Char)) : List (List Char) → List (List Char)
  | [] => soFar.reverse
  | name :: rest =>
    match Step.ofName name with
    | .to name => resolve (name :: soFar) rest
    | .here => if rest.isEmpty then ([] :: soFar).reverse else resolve soFar rest
    | .up => if rest.isEmpty then ([] :: soFar.tail).reverse else resolve soFar.tail rest

def pathOf (cs : List Char) : String :=
  let names := resolve [] ((Text.fields '/' cs).tail.map (·.flatMap escapeChar))
  String.ofList (names.flatMap ('/' :: ·))

/-- The bytes that a text in a query stands for. A plus sign is a blank. -/
def unescape : List Char → Bytes
  | [] => []
  | '+' :: cs => 32 :: unescape cs
  | '%' :: a :: b :: cs =>
    match Text.hexValue? a, Text.hexValue? b with
    | some m, some n => (m * 16 + n).toUInt8 :: unescape cs
    | _, _ => 37 :: unescape (a :: b :: cs)
  | c :: cs => Text.bytes (String.singleton c) ++ unescape cs

def decoded (cs : List Char) : String := Text.decodeLossy (unescape cs)

def parameter (cs : List Char) : String × String :=
  (decoded (cs.takeWhile (· != '=')), decoded ((cs.dropWhile (· != '=')).drop 1))

def parameters (cs : List Char) : List (String × String) :=
  ((Text.fields '&' cs).filter (!·.isEmpty)).map parameter

def ofText (text : String) : Target :=
  let cs := sent text.toList
  ⟨pathOf (cs.takeWhile (· != '?')), parameters ((cs.dropWhile (· != '?')).drop 1)⟩

end Target

end Provisioner.Engine
