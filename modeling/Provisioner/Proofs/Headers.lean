import Mathlib.Data.Nat.Digits.Defs
import Provisioner.Proofs.Texts
import Provisioner.Tar.Scan

namespace Provisioner.Tar

def octalChar (d : Nat) : Char := Char.ofNat (48 + d)

inductive Octal : Nat → List Char → Prop
  | plain {digits : List Nat} (hd : digits ≠ []) (h8 : ∀ d ∈ digits, d < 8) :
    Octal (Nat.ofDigits 8 digits) (digits.reverse.map octalChar)
  | signed {digits : List Nat} (hd : digits ≠ []) (h8 : ∀ d ∈ digits, d < 8) :
    Octal (Nat.ofDigits 8 digits) ('+' :: digits.reverse.map octalChar)

/-- How a header writes a number: as a text with blanks around the digits, up to the end of the field
or to a zero byte, behind which there may be anything. -/
inductive OctalField : Nat → Bytes → Prop
  | intro {n : Nat} {s : String} {t : List Char} {rest : Bytes} (ht : Text.Trimmed s.toList t)
    (ho : Octal n t) (hr : ∀ b ∈ rest.head?, b = 0) : OctalField n (Text.bytes s ++ rest)

/-- The mode that a field stands for: the number in it, or zero if it holds none. -/
inductive ModeField (field : Bytes) : Nat → Prop
  | number {n : Nat} (h : OctalField n field) : ModeField field n
  | unreadable (h : ∀ n, ¬OctalField n field) : ModeField field 0

/-- What the type byte of a header calls the entry. -/
inductive Denotes (b : UInt8) : PathKind → Prop
  | file (h : b = 0 ∨ b ∈ Text.bytes "07S") : Denotes b .file
  | directory (h : b ∈ Text.bytes "5") : Denotes b .directory
  | link (h : b ∈ Text.bytes "12") : Denotes b .symlink
  | device (h : b ∈ Text.bytes "34") : Denotes b .device
  | other (h0 : b ≠ 0) (h : b ∉ Text.bytes "0123457S") : Denotes b .irregular

variable {n : Nat} {digits : List Nat} {cs t : List Char} {field : Bytes}

theorem octalChar_digit {d : Nat} (h : d < 8) :
    ('0' ≤ octalChar d && octalChar d ≤ '7') = true ∧ (octalChar d).toNat - '0'.toNat = d ∧
      octalChar d ≠ '+' ∧ octalChar d ≠ '\x00' := by
  revert d
  decide

theorem octalChar_sub {c : Char} (h : ('0' ≤ c && c ≤ '7') = true) :
    c.toNat - 48 < 8 ∧ octalChar (c.toNat - 48) = c := by
  rw [Bool.and_eq_true, decide_eq_true_eq, decide_eq_true_eq] at h
  have h0 : 48 ≤ c.toNat := h.1
  have h7 : c.toNat ≤ 55 := h.2
  refine ⟨by omega, ?_⟩
  rw [octalChar, Nat.add_sub_cancel' h0, Char.ofNat_toNat]

theorem foldl_octalChar (h8 : ∀ d ∈ digits, d < 8) :
    (digits.reverse.map octalChar).foldl (fun n c => n * 8 + (c.toNat - '0'.toNat)) 0 =
      Nat.ofDigits 8 digits := by
  induction digits with
  | nil => rfl
  | cons d ds ih =>
    rw [List.forall_mem_cons] at h8
    rw [List.reverse_cons, List.map_append, List.foldl_append, ih h8.2, List.map_singleton,
      List.foldl_cons, List.foldl_nil, (octalChar_digit h8.1).2.1, Nat.ofDigits_cons, Nat.mul_comm,
      Nat.add_comm]

theorem exists_digits (h : ∀ c ∈ cs, ('0' ≤ c && c ≤ '7') = true) :
    ∃ digits : List Nat, (∀ d ∈ digits, d < 8) ∧ cs = digits.reverse.map octalChar := by
  refine ⟨(cs.map fun c => c.toNat - 48).reverse, fun d hd => ?_, ?_⟩
  · obtain ⟨c, hc, rfl⟩ := List.mem_map.mp (List.mem_reverse.mp hd)
    exact (octalChar_sub (h c hc)).1
  · rw [List.reverse_reverse, List.map_map]
    exact (List.map_id cs).symm.trans (List.map_congr_left fun c hc => (octalChar_sub (h c hc)).2.symm)

theorem octalDigits?_eq_some : octalDigits? cs = some n ↔ ∃ digits : List Nat, digits ≠ [] ∧
    (∀ d ∈ digits, d < 8) ∧ n = Nat.ofDigits 8 digits ∧ cs = digits.reverse.map octalChar := by
  constructor
  · intro h
    unfold octalDigits? at h
    split at h
    · cases h
    · rename_i hn
      obtain ⟨ha, hv⟩ := Option.ite_none_right_eq_some.mp h
      obtain ⟨ds, h8, rfl⟩ := exists_digits (List.all_eq_true.mp ha)
      refine ⟨ds, ?_, h8, ?_, rfl⟩
      · rintro rfl
        exact hn rfl
      · rw [← foldl_octalChar h8]
        exact (Option.some.inj hv).symm
  · rintro ⟨ds, hd, h8, rfl, rfl⟩
    have ha : (ds.reverse.map octalChar).all (fun c => '0' ≤ c && c ≤ '7') = true := by
      rw [List.all_eq_true]
      intro c hc
      obtain ⟨d, hd, rfl⟩ := List.mem_map.mp hc
      exact (octalChar_digit (h8 d (List.mem_reverse.mp hd))).1
    unfold octalDigits?
    split
    · rename_i h
      exact absurd (List.reverse_eq_nil_iff.mp (List.map_eq_nil_iff.mp h)) hd
    · rw [if_pos ha, foldl_octalChar h8]

theorem notMem_octalChars {c : Char} (hc : ∀ d < 8, octalChar d ≠ c)
    (h8 : ∀ d ∈ digits, d < 8) : c ∉ digits.reverse.map octalChar := by
  intro h
  obtain ⟨d, hd, he⟩ := List.mem_map.mp h
  exact hc d (h8 d (List.mem_reverse.mp hd)) he

theorem octalNumber?_eq_some : octalNumber? cs = some n ↔ Octal n cs := by
  constructor
  · intro h
    unfold octalNumber? at h
    split at h <;> obtain ⟨ds, hd, h8, rfl, rfl⟩ := octalDigits?_eq_some.mp h
    · exact .signed hd h8
    · exact .plain hd h8
  · intro h
    unfold octalNumber?
    cases h with
    | signed hd h8 => exact octalDigits?_eq_some.mpr ⟨_, hd, h8, rfl, rfl⟩
    | plain hd h8 =>
      split
      · rename_i he
        have hp := notMem_octalChars (c := '+') (by decide) h8
        exact absurd (he ▸ List.mem_cons_self) hp
      · exact octalDigits?_eq_some.mpr ⟨_, hd, h8, rfl, rfl⟩

theorem Octal.zero_notMem (h : Octal n t) : '\x00' ∉ t := by
  cases h with
  | plain _ h8 => exact notMem_octalChars (by decide) h8
  | signed _ h8 =>
    rw [List.mem_cons, not_or]
    exact ⟨by decide, notMem_octalChars (by decide) h8⟩

theorem zero_notMem_trimmed (ht : Text.Trimmed cs t) (h : '\x00' ∉ t) : '\x00' ∉ cs := by
  obtain ⟨lead, trail, rfl, hl, ht⟩ := ht.around
  have hb : Text.isBlank '\x00' = false := by decide
  simp only [List.mem_append, not_or]
  exact ⟨fun hc => by simp [hl _ hc] at hb, h, fun hc => by simp [ht _ hc] at hb⟩

theorem untilZero_append {bs rest : Bytes} (h : 0 ∉ bs) (hr : ∀ b ∈ rest.head?, b = 0) :
    untilZero (bs ++ rest) = bs := by
  have hb : ∀ b ∈ bs, (b != 0) = true := by
    rintro b hb
    exact bne_iff_ne.mpr (ne_of_mem_of_not_mem hb h)
  unfold untilZero
  rw [List.takeWhile_append_of_pos hb]
  cases rest with
  | nil => rw [List.takeWhile_nil, List.append_nil]
  | cons b rest => rw [hr b rfl, List.takeWhile_cons_of_neg (by decide), List.append_nil]

theorem exists_untilZero (bs : Bytes) :
    ∃ rest, bs = untilZero bs ++ rest ∧ ∀ b ∈ rest.head?, b = 0 := by
  refine ⟨bs.dropWhile (· != 0), List.takeWhile_append_dropWhile.symm, fun b hb => ?_⟩
  simpa using Text.head?_dropWhile_false hb

theorem octal?_eq_some : octal? field = some n ↔ OctalField n field := by
  rw [octal?, Option.bind_eq_bind, Option.bind_eq_some_iff]
  -- What is read ends at the first zero byte, and there is none in the number.
  constructor
  · rintro ⟨s, hs, hn⟩
    obtain ⟨rest, hf, hr⟩ := exists_untilZero field
    rw [hf, Text.decode?_eq_some.mp hs]
    exact .intro (Text.trimChars_trimmed _) (octalNumber?_eq_some.mp hn) hr
  · rintro ⟨ht, ho, hr⟩
    have hz := Text.zero_notMem_bytes (zero_notMem_trimmed ht ho.zero_notMem)
    rw [untilZero_append hz hr]
    exact ⟨_, Text.decode?_bytes _, ht.eq ▸ octalNumber?_eq_some.mpr ho⟩

theorem modeField_iff {m : Nat} : ModeField field m ↔ (octal? field).getD 0 = m := by
  constructor
  · rintro (h | h)
    · rw [octal?_eq_some.mpr h, Option.getD_some]
    · rw [Option.eq_none_iff_forall_ne_some.mpr fun n hn => h n (octal?_eq_some.mp hn),
        Option.getD_none]
  · rintro rfl
    cases h : octal? field with
    | some n => exact .number (octal?_eq_some.mp h)
    | none => exact .unreadable fun n hn => nomatch (octal?_eq_some.mpr hn).symm.trans h

theorem Octal.lt_pow (h : Octal n t) : n < 8 ^ t.length := by
  cases h with
  | plain _ h8 =>
    rw [List.length_map, List.length_reverse]
    exact Nat.ofDigits_lt_base_pow_length (by decide) h8
  | signed _ h8 =>
    rw [List.length_cons, List.length_map, List.length_reverse]
    exact Nat.lt_of_lt_of_le (Nat.ofDigits_lt_base_pow_length (by decide) h8)
      (Nat.pow_le_pow_right (by decide) (Nat.le_succ _))

theorem OctalField.lt_pow (h : OctalField n field) : n < 8 ^ field.length := by
  obtain ⟨ht, ho, -⟩ := h
  refine Nat.lt_of_lt_of_le ho.lt_pow (Nat.pow_le_pow_right (by decide) ?_)
  rw [List.length_append]
  exact Nat.le_add_right_of_le (ht.length_le.trans (Text.length_le_bytes _))

theorem forall_byte {P : UInt8 → Prop} (h : ∀ n < 256, P (UInt8.ofNat n)) (b : UInt8) : P b := by
  have hb := h b.toNat b.toNat_lt
  rwa [UInt8.ofNat_toNat] at hb

theorem pathKind_other {b : UInt8} (h0 : b ≠ 0) (h : b ∉ Text.bytes "0123457S") :
    (EntryType.ofByte b).pathKind = .irregular := by
  have other : ∀ b : UInt8, b ≠ 0 → b ∉ Text.bytes "0123457S" →
      (EntryType.ofByte b).pathKind = .irregular := forall_byte (by decide +kernel)
  exact other b h0 h

theorem Denotes.pathKind_eq {b : UInt8} {kind : PathKind} (h : Denotes b kind) :
    (EntryType.ofByte b).pathKind = kind := by
  have listed : (∀ b ∈ Text.bytes "07S", (EntryType.ofByte b).pathKind = .file) ∧
      (∀ b ∈ Text.bytes "5", (EntryType.ofByte b).pathKind = .directory) ∧
      (∀ b ∈ Text.bytes "12", (EntryType.ofByte b).pathKind = .symlink) ∧
      ∀ b ∈ Text.bytes "34", (EntryType.ofByte b).pathKind = .device := by decide +kernel
  obtain ⟨hf, hd, hl, hv⟩ := listed
  cases h with
  | file h =>
    rcases h with rfl | h
    · rfl
    · exact hf b h
  | directory h => exact hd b h
  | link h => exact hl b h
  | device h => exact hv b h
  | other h0 h => exact pathKind_other h0 h

theorem exists_denotes (b : UInt8) : ∃ kind, Denotes b kind := by
  have listed : ∀ b ∈ Text.bytes "0123457S", b ∈ Text.bytes "07S" ∨ b ∈ Text.bytes "5" ∨
      b ∈ Text.bytes "12" ∨ b ∈ Text.bytes "34" := by decide +kernel
  by_cases h0 : b = 0
  · exact ⟨_, .file (.inl h0)⟩
  by_cases h : b ∈ Text.bytes "0123457S"
  · rcases listed b h with h | h | h | h
    · exact ⟨_, .file (.inr h)⟩
    · exact ⟨_, .directory h⟩
    · exact ⟨_, .link h⟩
    · exact ⟨_, .device h⟩
  · exact ⟨_, .other h0 h⟩

theorem denotes_iff {b : UInt8} {kind : PathKind} :
    Denotes b kind ↔ (EntryType.ofByte b).pathKind = kind := by
  refine ⟨Denotes.pathKind_eq, ?_⟩
  rintro rfl
  obtain ⟨kind, h⟩ := exists_denotes b
  exact h.pathKind_eq ▸ h

end Provisioner.Tar
