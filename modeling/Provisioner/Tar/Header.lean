import Provisioner.Text.Blank
import Provisioner.Text.Utf8

namespace Provisioner.Tar

def blockSize : Nat := 512

def slice (start length : Nat) (block : Bytes) : Bytes := (block.drop start).take length

def octalDigits? : List Char → Option Nat
  | [] => none
  | cs =>
    if cs.all fun c => '0' ≤ c && c ≤ '7' then
      some (cs.foldl (fun n c => n * 8 + (c.toNat - '0'.toNat)) 0)
    else none

def untilZero (bs : Bytes) : Bytes := bs.takeWhile (· != 0)

def octalNumber? : List Char → Option Nat
  | '+' :: cs => octalDigits? cs
  | cs => octalDigits? cs

def octal? (field : Bytes) : Option Nat := do
  let text ← Text.decode? (untilZero field)
  octalNumber? (Text.trimChars text.toList)

def bigEndian (bs : Bytes) : Nat := bs.foldl (fun n b => n * 256 + b.toNat) 0

/-- A size: binary in the last eight bytes if the first bit is set, else octal. -/
def size? (block : Bytes) : Option Nat :=
  let field := slice 124 12 block
  if field.head?.any (0x80 ≤ ·) then some (bigEndian (field.drop 4)) else octal? field

def mode (block : Bytes) : Nat := (octal? (slice 100 8 block)).getD 0 % UInt32.size

inductive EntryType where
  | regular
  | hardLink
  | symbolicLink
  | characterDevice
  | blockDevice
  | directory
  | fifo
  | contiguous
  | sparse
  /-- A name that is too long for the header of the next entry. -/
  | longName
  | longLink
  /-- Attributes of the next entry. -/
  | localAttributes
  | globalAttributes
  | unknown
  deriving DecidableEq, Repr

def EntryType.ofByte (b : UInt8) : EntryType :=
  if b == 0 then .regular
  else
    match Char.ofNat b.toNat with
    | '0' => .regular
    | '1' => .hardLink
    | '2' => .symbolicLink
    | '3' => .characterDevice
    | '4' => .blockDevice
    | '5' => .directory
    | '6' => .fifo
    | '7' => .contiguous
    | 'S' => .sparse
    | 'L' => .longName
    | 'K' => .longLink
    | 'x' => .localAttributes
    | 'g' => .globalAttributes
    | _ => .unknown

def EntryType.isExtension : EntryType → Bool
  | .longName | .longLink | .localAttributes | .globalAttributes => true
  | _ => false

def entryType (block : Bytes) : EntryType := .ofByte ((block[156]?).getD 0)

def isEmptyBlock (block : Bytes) : Bool := block.all (· == 0)

def paddedSize (size : Nat) : Nat := (size + (blockSize - 1)) / blockSize * blockSize

end Provisioner.Tar
