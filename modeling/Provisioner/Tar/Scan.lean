import Provisioner.Tar.Header

namespace Provisioner

inductive PathKind where
  | directory
  | file
  | symlink
  | device
  | irregular
  deriving DecidableEq, Repr

def PathKind.describe : PathKind → String
  | .directory => "a directory"
  | .file => "a regular file"
  | .symlink => "a symbolic link"
  | .device => "a device"
  | .irregular => "an irregular file"

structure PathStat where
  kind : PathKind
  mode : Nat := 0
  deriving DecidableEq, Repr

namespace Tar

def EntryType.pathKind : EntryType → PathKind
  | .directory => .directory
  | .regular | .contiguous | .sparse => .file
  | .symbolicLink | .hardLink => .symlink
  | .characterDevice | .blockDevice => .device
  | _ => .irregular

inductive Scan where
  | found (stat : PathStat)
  | needMore
  | malformed
  /-- A place has no number of 64 bits. Nothing comes of the scan then: the program stops. -/
  | overflow
  deriving DecidableEq, Repr

def placeBound : Nat := UInt64.size

def checked (n : Nat) : Option Nat := if n < placeBound then some n else none

def statOf (block : Bytes) : PathStat := ⟨(entryType block).pathKind, mode block⟩

/-- What there is at a place: the header of an entry, one of an extension with a content of some
size, none, or too few bytes to tell. -/
inductive Sight where
  | missing
  | broken
  | entry (stat : PathStat)
  | extension (size : Nat)
  deriving DecidableEq, Repr

def sight (block : Bytes) : Sight :=
  if isEmptyBlock block then .broken
  else if (entryType block).isExtension then
    match size? block with
    | none => .broken
    | some size => .extension size
  else .entry (statOf block)

def sightAt (bytes : Bytes) (place : Nat) : Sight :=
  if bytes.length < place + blockSize then .missing else sight (slice place blockSize bytes)

/-- The place of the header after an extension. Every sum on the way to it is checked, and so is the
one that tells where that header ends. -/
def placeAfter? (place size : Nat) : Option Nat := do
  let content ← checked (paddedSize size)
  let passed ← checked (blockSize + content)
  let next ← checked (place + passed)
  let _ ← checked (next + blockSize)
  return next

/-- What is told by the header at a place, or else the place of the next one. -/
def look (bytes : Bytes) (place : Nat) : Scan ⊕ Nat :=
  match sightAt bytes place with
  | .missing => .inl .needMore
  | .broken => .inl .malformed
  | .entry stat => .inl (.found stat)
  | .extension size =>
    match placeAfter? place size with
    | none => .inl .overflow
    | some next => .inr next

theorem checked_eq_some {n m : Nat} : checked n = some m ↔ n < placeBound ∧ n = m := by
  rw [checked, Option.ite_none_right_eq_some, Option.some.injEq]

theorem placeAfter?_eq_some {place size next : Nat} : placeAfter? place size = some next ↔
    next + blockSize < placeBound ∧ next = place + (blockSize + paddedSize size) := by
  simp only [placeAfter?, Option.bind_eq_bind, Option.bind_eq_some_iff, checked_eq_some,
    Option.pure_def, Option.some.injEq]
  constructor
  · rintro ⟨_, ⟨-, rfl⟩, _, ⟨-, rfl⟩, _, ⟨-, rfl⟩, _, ⟨hl, -⟩, rfl⟩
    exact ⟨hl, rfl⟩
  · rintro ⟨hl, rfl⟩
    exact ⟨_, ⟨by omega, rfl⟩, _, ⟨by omega, rfl⟩, _, ⟨by omega, rfl⟩, _, ⟨hl, rfl⟩, rfl⟩

theorem look_eq_inr {bytes : Bytes} {place next : Nat} : look bytes place = .inr next ↔
    ∃ size, sightAt bytes place = .extension size ∧ placeAfter? place size = some next := by
  unfold look
  cases sightAt bytes place with
  | missing | broken | entry => simp
  | extension size => cases h : placeAfter? place size <;> simp [h]

theorem le_of_extension {bytes : Bytes} {place size : Nat}
    (h : sightAt bytes place = .extension size) : place + blockSize ≤ bytes.length := by
  unfold sightAt at h
  split at h
  · cases h
  · omega

/-- The next header is behind this one, and this one is there in full. -/
theorem block_passed {bytes : Bytes} {place next : Nat} (h : look bytes place = .inr next) :
    place + blockSize ≤ bytes.length ∧ place + blockSize ≤ next := by
  obtain ⟨size, hs, hn⟩ := look_eq_inr.mp h
  obtain ⟨-, rfl⟩ := placeAfter?_eq_some.mp hn
  exact ⟨le_of_extension hs, by omega⟩

def scanFrom (bytes : Bytes) (place : Nat) : Scan :=
  match _ : look bytes place with
  | .inl scan => scan
  | .inr next => scanFrom bytes next
termination_by bytes.length - place
decreasing_by
  obtain ⟨hl, hn⟩ := block_passed ‹_›
  unfold blockSize at hl hn
  omega

def scan (bytes : Bytes) : Scan := scanFrom bytes 0

end Tar

end Provisioner
