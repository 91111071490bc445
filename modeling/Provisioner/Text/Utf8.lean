namespace Provisioner

abbrev Bytes := List UInt8

namespace Text

def bytes (s : String) : Bytes := s.toUTF8.toList

def decode? (bs : Bytes) : Option String := String.fromUTF8? ⟨bs.toArray⟩

/-- How a sequence goes on after its first byte: the range allowed for the second byte, and how
many bytes follow in all. -/
def sequenceShape? (b : UInt8) : Option (UInt8 × UInt8 × Nat) :=
  if 0xC2 ≤ b && b ≤ 0xDF then some (0x80, 0xBF, 1)
  else if b == 0xE0 then some (0xA0, 0xBF, 2)
  else if b == 0xED then some (0x80, 0x9F, 2)
  else if 0xE1 ≤ b && b ≤ 0xEF then some (0x80, 0xBF, 2)
  else if b == 0xF0 then some (0x90, 0xBF, 3)
  else if 0xF1 ≤ b && b ≤ 0xF3 then some (0x80, 0xBF, 3)
  else if b == 0xF4 then some (0x80, 0x8F, 3)
  else none

def continuation (lo hi : UInt8) : Nat → Bytes → Nat
  | 0, _ => 0
  | _, [] => 0
  | n + 1, b :: bs => if lo ≤ b && b ≤ hi then 1 + continuation 0x80 0xBF n bs else 0

def codePoint (first : UInt8) (rest : Bytes) : Nat :=
  let lead := match rest.length with
    | 1 => first.toNat % 32
    | 2 => first.toNat % 16
    | _ => first.toNat % 8
  rest.foldl (fun n b => n * 64 + b.toNat % 64) lead

/-- The character that a byte begins and the number of bytes after it that belong to it. A sequence
that breaks off is no character. -/
def first (b : UInt8) (rest : Bytes) : Option Char × Nat :=
  if b < 0x80 then (some (Char.ofNat b.toNat), 0)
  else
    match sequenceShape? b with
    | none => (none, 0)
    | some (lo, hi, n) =>
      let k := continuation lo hi n rest
      (if k == n then some (Char.ofNat (codePoint b (rest.take n))) else none, k)

/-- Reads any bytes. A sequence that breaks off is replaced as one, and what follows the break is
read afresh. -/
def decodeLossyChars (bs : Bytes) : List Char :=
  match bs with
  | [] => []
  | b :: rest =>
    (first b rest).1.getD '\uFFFD' :: decodeLossyChars (rest.drop (first b rest).2)
termination_by bs.length
decreasing_by simp only [List.length_drop, List.length_cons]; omega

/-- A text as it came: its characters, with a gap for each byte that is part of none. -/
abbrev Symbols := List (Option Char)

def symbols (bs : Bytes) : Symbols :=
  match bs with
  | [] => []
  | b :: rest =>
    let gaps := match (first b rest).1 with
      | some c => [some c]
      | none => List.replicate ((first b rest).2 + 1) none
    gaps ++ symbols (rest.drop (first b rest).2)
termination_by bs.length
decreasing_by simp only [List.length_drop, List.length_cons]; omega

def symbolsSize (cs : Symbols) : Nat :=
  cs.foldr (fun c n => (c.map Char.utf8Size).getD 1 + n) 0

def decodeLossy (bs : Bytes) : String := String.ofList (decodeLossyChars bs)

end Text

end Provisioner
