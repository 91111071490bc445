namespace Provisioner.Json

def isDecimal (c : Char) : Bool := '0' ≤ c && c ≤ '9'

def digitValue (c : Char) : Nat := c.toNat - '0'.toNat

def decimal (ds : List Char) : Nat := ds.foldl (fun n c => n * 10 + digitValue c) 0

structure Numeral where
  negative : Bool
  whole : List Char
  part : List Char
  power : Option Int
  deriving DecidableEq, Repr

namespace Numeral

def isWhole (n : Numeral) : Bool := n.part.isEmpty && n.power.isNone

def wholePart (n : Numeral) : Nat := decimal n.whole

/-- Appends digits as long as the number fits in 64 bits, and tells how many were left. -/
def significand (m : Nat) : List Char → Nat × Nat
  | [] => (m, 0)
  | d :: ds =>
    let m' := m * 10 + digitValue d
    if m' < UInt64.size then significand m' ds else (m, ds.length + 1)

/-- The number without its sign, as far as 64 bits hold its digits: a whole number times a power of
ten. Of the digits before the point those left over count as zeros. -/
def scaled (n : Numeral) : Nat × Int :=
  let (m, zeros) := significand 0 n.whole
  let (m, left) := significand m n.part
  (m, n.power.getD 0 + zeros - (n.part.length - left))

/-- The number of 53 significant bits next to `n`; of two, the one whose last bit is zero. -/
def nearestDouble (n : Nat) : Nat :=
  let unit := 1 <<< (n.log2 - 52)
  let q := n / unit
  let r := 2 * (n % unit)
  if unit < r || (r == unit && q % 2 == 1) then (q + 1) * unit else q * unit

/-- The least number that is too far from zero for a double, once it is rounded. -/
def doubleBound : Nat := 1 <<< 1024 - 1 <<< 970

def largestPower : Int := 308

/-- The number is too far from zero for a double. It is found by one multiplication of doubles, so
what counts is the product of two rounded factors. -/
def isHuge (n : Numeral) : Bool :=
  let (m, power) := n.scaled
  if m = 0 || power < 0 then false
  else if largestPower < power then true
  else doubleBound ≤ nearestDouble m * nearestDouble (Nat.pow 10 power.toNat)

end Numeral

end Provisioner.Json
