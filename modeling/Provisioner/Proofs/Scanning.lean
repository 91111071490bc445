import Provisioner.Tar.Scan

namespace Provisioner.Tar

variable {bytes : Bytes} {place size next n : Nat} {s : Scan}

/-- All that is added up at the header of an extension, up to the end of the header after it, fits
into 64 bits. -/
def Fits (place size : Nat) : Prop :=
  place + (blockSize + paddedSize size) + blockSize < placeBound

instance : Decidable (Fits place size) := inferInstanceAs (Decidable (_ < _))

/-- The scan looks at `n` headers from `place` on, and this is what it tells in the end. -/
inductive Concludes (bytes : Bytes) : Nat → Nat → Scan → Prop
  | missing {place : Nat} (h : sightAt bytes place = .missing) : Concludes bytes place 1 .needMore
  | broken {place : Nat} (h : sightAt bytes place = .broken) : Concludes bytes place 1 .malformed
  | entry {place : Nat} {stat : PathStat} (h : sightAt bytes place = .entry stat) :
    Concludes bytes place 1 (.found stat)
  | overflow {place size : Nat} (h : sightAt bytes place = .extension size)
    (hf : ¬Fits place size) : Concludes bytes place 1 .overflow
  | extension {place size n : Nat} {s : Scan} (h : sightAt bytes place = .extension size)
    (hf : Fits place size) (hc : Concludes bytes (place + (blockSize + paddedSize size)) n s) :
    Concludes bytes place (n + 1) s

inductive Reached (bytes : Bytes) : Nat → Prop
  | start : Reached bytes 0
  | after {place size : Nat} (h : Reached bytes place)
    (hs : sightAt bytes place = .extension size) (hf : Fits place size) :
    Reached bytes (place + (blockSize + paddedSize size))

theorem fits_iff (h : blockSize ∣ place) :
    Fits place size ↔ place + size + 3 * blockSize ≤ placeBound := by
  obtain ⟨k, rfl⟩ := h
  simp only [Fits, paddedSize, blockSize, placeBound, UInt64.size]
  omega

theorem Fits.placeAfter? (h : Fits place size) :
    placeAfter? place size = some (place + (blockSize + paddedSize size)) :=
  placeAfter?_eq_some.mpr ⟨h, rfl⟩

theorem placeAfter?_eq_none : placeAfter? place size = none ↔ ¬Fits place size := by
  constructor
  · intro h hf
    cases h.symm.trans hf.placeAfter?
  · intro hf
    refine Option.eq_none_iff_forall_ne_some.mpr fun next h => hf ?_
    obtain ⟨hl, rfl⟩ := placeAfter?_eq_some.mp h
    exact hl

theorem scanFrom_told (h : look bytes place = .inl s) : scanFrom bytes place = s := by
  rw [scanFrom, h]

theorem scanFrom_extension (hs : sightAt bytes place = .extension size) (hf : Fits place size) :
    scanFrom bytes place = scanFrom bytes (place + (blockSize + paddedSize size)) := by
  have hl : look bytes place = .inr _ := look_eq_inr.mpr ⟨size, hs, hf.placeAfter?⟩
  rw [scanFrom, hl]

theorem Concludes.scanFrom (h : Concludes bytes place n s) : scanFrom bytes place = s := by
  induction h with
  | missing h | broken h | entry h => exact scanFrom_told (by simp only [look, h])
  | overflow h hf => exact scanFrom_told (by simp only [look, h, placeAfter?_eq_none.mpr hf])
  | extension h hf _ ih => rw [scanFrom_extension h hf, ih]

theorem scanFrom_concludes (bytes : Bytes) (place : Nat) :
    ∃ n, Concludes bytes place n (scanFrom bytes place) := by
  -- What is left of the bytes gets shorter at each extension.
  induction hl : bytes.length - place using Nat.strongRecOn generalizing place with
  | ind left ih =>
    cases hs : sightAt bytes place with
    | missing => exact ⟨1, (Concludes.missing hs).scanFrom ▸ .missing hs⟩
    | broken => exact ⟨1, (Concludes.broken hs).scanFrom ▸ .broken hs⟩
    | entry stat => exact ⟨1, (Concludes.entry hs).scanFrom ▸ .entry hs⟩
    | extension size =>
      by_cases hf : Fits place size
      · have hb : 0 < blockSize ∧ place + blockSize ≤ bytes.length :=
          ⟨by decide, le_of_extension hs⟩
        obtain ⟨n, hn⟩ := ih _ (by omega) (place + (blockSize + paddedSize size)) rfl
        rw [scanFrom_extension hs hf]
        exact ⟨n + 1, .extension hs hf hn⟩
      · exact ⟨1, (Concludes.overflow hs hf).scanFrom ▸ .overflow hs hf⟩

theorem concludes_scan (bytes : Bytes) : ∃ n, Concludes bytes 0 n (scan bytes) :=
  scanFrom_concludes bytes 0

theorem Concludes.le_blocks (h : Concludes bytes place n s) :
    n ≤ (bytes.length - place) / blockSize + 1 := by
  induction h with
  | missing | broken | entry | overflow => exact Nat.le_add_left 1 _
  | extension h _ _ ih =>
    have hl := le_of_extension h
    unfold blockSize at hl ih ⊢
    omega

theorem Reached.dvd (h : Reached bytes place) : blockSize ∣ place := by
  induction h with
  | start => exact Nat.dvd_zero _
  | after _ _ _ ih =>
    exact Nat.dvd_add ih (Nat.dvd_add (Nat.dvd_refl _) (Nat.dvd_mul_left _ _))

theorem Reached.scan (h : Reached bytes place) : scan bytes = scanFrom bytes place := by
  induction h with
  | start => rfl
  | after _ hs hf ih => rw [ih, scanFrom_extension hs hf]

theorem Concludes.overlong (h : Concludes bytes place n .overflow) (hr : Reached bytes place) :
    ∃ place size, Reached bytes place ∧ sightAt bytes place = .extension size ∧
      ¬Fits place size := by
  generalize hs : Scan.overflow = s at h
  induction h with
  | missing | broken | entry => cases hs
  | overflow h hf => exact ⟨_, _, hr, h, hf⟩
  | extension h hf _ ih => exact ih (hr.after h hf) hs

theorem scan_eq_overflow : scan bytes = .overflow ↔ ∃ place size, Reached bytes place ∧
    sightAt bytes place = .extension size ∧ ¬Fits place size := by
  constructor
  · intro h
    obtain ⟨n, hc⟩ := concludes_scan bytes
    exact (h ▸ hc).overlong .start
  · rintro ⟨place, size, hr, hs, hf⟩
    rw [hr.scan, (Concludes.overflow hs hf).scanFrom]

/-- A scan comes to its end after one header for each block at most and one place more, and each
extension that it passes takes it forward. It overflows just if an extension that it comes to goes on
to the last blocks that 64 bits have places for. -/
theorem scan_goes_forward (bytes : Bytes) :
    (∃ n ≤ bytes.length / blockSize + 1, Concludes bytes 0 n (scan bytes)) ∧
      (∀ place next, look bytes place = .inr next → place < next) ∧
      (scan bytes ≠ .overflow ↔ ∀ place size, Reached bytes place →
        sightAt bytes place = .extension size → place + size + 3 * blockSize ≤ placeBound) := by
  obtain ⟨n, hn⟩ := concludes_scan bytes
  refine ⟨⟨n, hn.le_blocks, hn⟩, fun place next h => ?_, ?_⟩
  · exact Nat.lt_of_lt_of_le (Nat.lt_add_of_pos_right (by decide)) (block_passed h).2
  · rw [ne_eq, scan_eq_overflow]
    constructor
    · intro h place size hr hs
      refine Decidable.byContradiction fun hf => h ⟨place, size, hr, hs, fun hs => ?_⟩
      exact hf ((fits_iff hr.dvd).mp hs)
    · rintro h ⟨place, size, hr, hs, hf⟩
      exact hf ((fits_iff hr.dvd).mpr (h place size hr hs))

/-- A header with nothing in it but a size and the byte of its type. -/
def plainHeader (size : Bytes) (type : UInt8) : Bytes :=
  List.replicate 124 0 ++ size ++ List.replicate 20 0 ++ type :: List.replicate 355 0

def directoryHeader : Bytes := plainHeader (List.replicate 12 0) 53

/-- A long name of as many bytes as 64 bits can count, in front of a directory. -/
def overlong : Bytes :=
  plainHeader ([0x80, 0, 0, 0] ++ List.replicate 8 0xFF) 76 ++ directoryHeader

/-- The same with one block less, so that only the place after it is too large. -/
def circling : Bytes :=
  plainHeader ([0x80, 0, 0, 0] ++ List.replicate 6 0xFF ++ [0xFE, 0]) 76

/-- The blocks that the name is rounded up to are more than 64 bits can count. Unchecked, they would
be none, and the scan would be back where it was. -/
theorem scan_overflows :
    Reached overlong 0 ∧ sightAt overlong 0 = .extension (placeBound - 1) ∧
      paddedSize (placeBound - 1) = placeBound ∧ scan overlong = .overflow ∧
      sightAt circling 0 = .extension (placeBound - blockSize) ∧
      paddedSize (placeBound - blockSize) < placeBound ∧
      (blockSize + paddedSize (placeBound - blockSize)) % placeBound = 0 ∧
      scan circling = .overflow := by
  refine ⟨.start, ?_⟩
  decide +kernel

end Provisioner.Tar
