namespace Provisioner.Net

inductive Address where
  | v4 (octets : List Nat)
  | v6 (groups : List Nat)
  deriving DecidableEq, Repr

def digit? (base : Nat) (c : Char) : Option Nat :=
  let n :=
    if '0' ≤ c && c ≤ '9' then c.toNat - '0'.toNat
    else if 'a' ≤ c && c ≤ 'f' then c.toNat - 'a'.toNat + 10
    else if 'A' ≤ c && c ≤ 'F' then c.toNat - 'A'.toNat + 10
    else base
  if n < base then some n else none

def isDigit (base : Nat) (c : Char) : Bool := (digit? base c).isSome

def numeral (base : Nat) (ds : List Char) : Nat :=
  ds.foldl (fun n c => n * base + (digit? base c).getD 0) 0

def digits? (base most : Nat) (cs : List Char) : Option (List Char × List Char) :=
  let ds := cs.takeWhile (isDigit base)
  if ds.isEmpty || most < ds.length then none else some (ds, cs.dropWhile (isDigit base))

def octet? (cs : List Char) : Option (Nat × List Char) := do
  let (ds, rest) ← digits? 10 3 cs
  if 1 < ds.length && ds.head? == some '0' then none
  else if 255 < numeral 10 ds then none
  else some (numeral 10 ds, rest)

def group? (cs : List Char) : Option (Nat × List Char) := do
  let (ds, rest) ← digits? 16 4 cs
  some (numeral 16 ds, rest)

def expect? (c : Char) : List Char → Option (List Char)
  | [] => none
  | d :: cs => if d == c then some cs else none

def dotted? (cs : List Char) : Option (List Nat × List Char) := do
  let (a, cs) ← octet? cs
  let (b, cs) ← octet? (← expect? '.' cs)
  let (c, cs) ← octet? (← expect? '.' cs)
  let (d, cs) ← octet? (← expect? '.' cs)
  some ([a, b, c, d], cs)

def pairUp : List Nat → List Nat
  | [a, b, c, d] => [a * 256 + b, c * 256 + d]
  | _ => []

/-- The next piece of a group list: a colon in front of it unless it comes first. -/
def separated? {α : Type} (first : Bool) (read : List Char → Option (α × List Char))
    (cs : List Char) : Option (α × List Char) :=
  if first then read cs else (expect? ':' cs).bind read

/-- As many groups as there are, at most `room`, and whether a dotted address ended them. A dotted
address takes the place of two groups. -/
def groups (first : Bool) : Nat → List Char → List Nat × Bool × List Char
  | 0, cs => ([], false, cs)
  | room + 1, cs =>
    match (if room = 0 then none else separated? first dotted? cs) with
    | some (octets, rest) => (pairUp octets, true, rest)
    | none =>
      match separated? first group? cs with
      | none => ([], false, cs)
      | some (g, rest) =>
        let (gs, embedded, rest) := groups false room rest
        (g :: gs, embedded, rest)

/-- Eight groups, or fewer on both sides of a double colon that stands for the missing ones. -/
def grouped? (cs : List Char) : Option (List Nat × List Char) := do
  let (front, embedded, rest) := groups true 8 cs
  if front.length = 8 then some (front, rest)
  else if embedded then none
  else
    let rest ← expect? ':' (← expect? ':' rest)
    let (back, _, rest) := groups true (7 - front.length) rest
    some (front ++ List.replicate (8 - front.length - back.length) 0 ++ back, rest)

def whole? {α : Type} (read : List Char → Option (α × List Char)) (cs : List Char) : Option α :=
  match read cs with
  | some (a, []) => some a
  | _ => none

def Address.ofChars? (cs : List Char) : Option Address :=
  match dotted? cs with
  | some (octets, rest) => if rest.isEmpty then some (.v4 octets) else none
  | none => (whole? grouped? cs).map .v6

def Address.ofString? (s : String) : Option Address := Address.ofChars? s.toList

def isAddress (s : String) : Bool := (Address.ofString? s).isSome

end Provisioner.Net
