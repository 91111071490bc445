import Mathlib.Data.List.Induction
import Provisioner.Net.Subnet
import Provisioner.Proofs.Paths

namespace Provisioner

namespace Text

variable {α : Type} [BEq α] [LawfulBEq α] {sep : α}

theorem fields_intercalate {fs : List (List α)} (hn : fs ≠ []) (h : ∀ f ∈ fs, sep ∉ f) :
    fields sep ([sep].intercalate fs) = fs := by
  induction fs with
  | nil => exact absurd rfl hn
  | cons f fs ih =>
    rw [List.forall_mem_cons] at h
    cases fs with
    | nil => rw [List.intercalate_singleton, fields_single h.1]
    | cons g gs =>
      rw [List.intercalate_cons_cons, List.append_assoc, List.singleton_append, fields_append,
        fields_single h.1, ih (List.cons_ne_nil g gs) h.2, List.singleton_append]

theorem intercalate_fields (sep : α) (cs : List α) : [sep].intercalate (fields sep cs) = cs := by
  induction cs with
  | nil => rfl
  | cons c cs ih =>
    by_cases hc : c = sep
    · obtain ⟨f, fs, hf⟩ := List.exists_cons_of_ne_nil (fields_ne_nil sep cs)
      rw [hc, fields_cons_sep]
      rw [hf] at ih ⊢
      rw [List.intercalate_cons_cons, ih, List.nil_append, List.singleton_append]
    · obtain ⟨f, fs, hf, hx⟩ := fields_cons hc cs
      rw [hx]
      rw [hf] at ih
      cases fs with
      | nil =>
        rw [List.intercalate_singleton] at ih ⊢
        rw [ih]
      | cons g gs =>
        rw [List.intercalate_cons_cons] at ih ⊢
        rw [← ih]
        rfl

end Text

namespace Net

theorem toNat_of_isDigit {c : Char} (h : isDigit 10 c = true) : 48 ≤ c.toNat ∧ c.toNat ≤ 57 := by
  have hc : '0' ≤ c ∧ c ≤ '9' := by grind [isDigit, digit?]
  exact ⟨UInt32.le_iff_toNat_le.mp hc.1, UInt32.le_iff_toNat_le.mp hc.2⟩

theorem exists_digit {c : Char} (h : isDigit 10 c = true) :
    ∃ d < 10, digit? 10 c = some d ∧ Nat.digitChar d = c := by
  obtain ⟨d, hd⟩ := Option.isSome_iff_exists.mp h
  obtain ⟨h₁, h₂⟩ := toNat_of_isDigit h
  have hv : d = c.toNat - 48 := by grind [digit?]
  have hl : d < 10 := by omega
  refine ⟨d, hl, hd, Char.toNat_inj.mp ?_⟩
  rw [Nat.toNat_digitChar_of_lt_ten hl]
  omega

theorem numeral_concat (base : Nat) (ds : List Char) (c : Char) :
    numeral base (ds ++ [c]) = numeral base ds * base + (digit? base c).getD 0 := by
  simp [numeral, List.foldl_append]

theorem toDigits_numeral {ds : List Char} (hn : ds ≠ []) (hd : ∀ c ∈ ds, isDigit 10 c = true)
    (hz : 1 < ds.length → ds.head? ≠ some '0') : Nat.toDigits 10 (numeral 10 ds) = ds := by
  induction ds using List.reverseRecOn with
  | nil => exact absurd rfl hn
  | append_singleton ds c ih =>
    obtain ⟨d, hl, hc, rfl⟩ := exists_digit (hd c (List.mem_append_right ds List.mem_cons_self))
    rw [numeral_concat, hc, Option.getD_some, Nat.mul_comm]
    by_cases hds : ds = []
    · subst hds
      rw [numeral, List.foldl_nil, Nat.mul_zero, Nat.zero_add, List.nil_append]
      exact Nat.toDigits_of_lt_base hl
    · have hz : ds.head? ≠ some '0' := by
        have hz := hz (by simpa using List.length_pos_iff.mpr hds)
        rwa [List.head?_append, Option.or_of_isSome (by simpa using hds)] at hz
      have ih := ih hds (fun c hc => hd c (List.mem_append_left _ hc)) fun _ => hz
      have hp : 0 < numeral 10 ds := by
        refine Nat.pos_of_ne_zero fun h0 => hz ?_
        rw [← ih, h0]
        rfl
      rw [← Nat.toDigits_append_toDigits (by decide) hp hl, ih, Nat.toDigits_of_lt_base hl]

theorem octet?_eq_some {cs rest : List Char} {n : Nat} (h : octet? cs = some (n, rest)) :
    n ≤ 255 ∧ cs = Nat.toDigits 10 n ++ rest := by
  unfold octet? at h
  obtain ⟨⟨ds, after⟩, hd, h⟩ := Option.bind_eq_some_iff.mp h
  unfold digits? at hd
  dsimp only at hd h
  split at hd
  · cases hd
  rename_i hl
  cases hd
  rw [Bool.or_eq_true, not_or] at hl
  split at h
  · cases h
  rename_i hz
  split at h
  · cases h
  rename_i hn
  cases h
  refine ⟨Nat.le_of_not_lt hn, ?_⟩
  rw [toDigits_numeral (by simpa using hl.1), List.takeWhile_append_dropWhile]
  · exact fun c hc => List.all_eq_true.mp List.all_takeWhile c hc
  · simpa using hz

theorem expect?_eq_some {c : Char} {cs rest : List Char} (h : expect? c cs = some rest) :
    cs = c :: rest := by
  cases cs with
  | nil => cases h
  | cons d cs => simp_all [expect?]

theorem whole?_eq_some {α : Type} {read : List Char → Option (α × List Char)} {cs : List Char}
    {a : α} (h : whole? read cs = some a) : read cs = some (a, []) := by
  unfold whole? at h
  split at h
  · cases h
    assumption
  · cases h

theorem dotted?_eq_some {cs rest : List Char} {octets : List Nat}
    (h : dotted? cs = some (octets, rest)) : octets.length = 4 ∧ (∀ n ∈ octets, n ≤ 255) ∧
      cs = ['.'].intercalate (octets.map (Nat.toDigits 10)) ++ rest := by
  unfold dotted? at h
  simp only [Option.bind_eq_bind, Option.bind_eq_some_iff] at h
  obtain ⟨⟨a, _⟩, h₁, _, d₁, ⟨b, _⟩, h₂, _, d₂, ⟨c, _⟩, h₃, _, d₃, ⟨d, _⟩, h₄, h⟩ := h
  obtain ⟨ha, h₁⟩ := octet?_eq_some h₁
  obtain ⟨hb, h₂⟩ := octet?_eq_some h₂
  obtain ⟨hc, h₃⟩ := octet?_eq_some h₃
  obtain ⟨hd, h₄⟩ := octet?_eq_some h₄
  rw [Option.some.injEq, Prod.mk.injEq] at h
  obtain ⟨rfl, rfl⟩ := h
  refine ⟨rfl, by simp [ha, hb, hc, hd], ?_⟩
  have d₁ := expect?_eq_some d₁
  have d₂ := expect?_eq_some d₂
  have d₃ := expect?_eq_some d₃
  dsimp only at d₁ d₂ d₃ ⊢
  rw [h₁, d₁, h₂, d₂, h₃, d₃, h₄]
  simp [List.intercalate_cons_cons]

theorem dot_notMem_toDigits (n : Nat) : '.' ∉ Nat.toDigits 10 n := fun h =>
  Bool.false_ne_true (Nat.isDigit_of_mem_toDigits (by decide) (by decide) h)

theorem octetsInRange_eq_true {parts : List (List Char)} (hd : ∀ f ∈ parts, '.' ∉ f)
    (hl : parts.length ≤ 3) (h : octetsInRange parts = true) :
    ∃ octets : List Nat, (∀ n ∈ octets, n ≤ 255) ∧ parts = octets.map (Nat.toDigits 10) := by
  obtain ⟨octets, ho⟩ := Option.isSome_iff_exists.mp h
  obtain ⟨hn, hr, he⟩ := dotted?_eq_some (whole?_eq_some ho)
  rw [List.append_nil] at he
  have hf := congrArg (Text.fields '.') he
  have hz : ∀ f ∈ List.replicate (4 - parts.length) ['0'], '.' ∉ f := by
    intro f hf
    rw [List.eq_of_mem_replicate hf]
    decide
  have hm : ∀ f ∈ octets.map (Nat.toDigits 10), '.' ∉ f := by
    intro f hf
    obtain ⟨n, -, rfl⟩ := List.mem_map.mp hf
    exact dot_notMem_toDigits n
  have hp : parts ++ List.replicate (4 - parts.length) ['0'] ≠ [] := by
    refine List.append_ne_nil_of_right_ne_nil _ (List.ne_nil_of_length_pos ?_)
    rw [List.length_replicate]
    omega
  rw [Text.fields_intercalate hp fun f hf => (List.mem_append.mp hf).elim (hd f) (hz f),
    Text.fields_intercalate (List.ne_nil_of_length_pos (by simp [hn])) hm] at hf
  refine ⟨octets.take parts.length, fun n hn => hr n (List.mem_of_mem_take hn), ?_⟩
  rw [List.map_take, ← hf, List.take_left]

/-- What is not at fault is one to three octets, and an asterisk for the rest. -/
theorem fields_of_faultless {cs : List Char} (h : prefixFault? cs = none) :
    ∃ octets : List Nat, 1 ≤ octets.length ∧ octets.length ≤ 3 ∧ (∀ n ∈ octets, n ≤ 255) ∧
      Text.fields '.' cs = octets.map (Nat.toDigits 10) ++ [['*']] := by
  unfold prefixFault? at h
  dsimp only at h
  split at h
  · cases h
  rename_i h₁
  split at h
  · cases h
  rename_i h₂
  split at h
  · cases h
  rename_i h₃
  split at h
  · cases h
  split at h
  · cases h
  rename_i h₄
  -- No fault is left: of two to four fields the last is a star and the others are octets.
  obtain ⟨parts, hp⟩ := List.getLast?_eq_some_iff.mp (by simpa using h₃)
  have hl : (Text.fields '.' cs).length = parts.length + 1 := by rw [hp, List.length_append]; rfl
  have hd : ∀ f ∈ parts, '.' ∉ f := fun f hf =>
    Text.notMem_of_mem_fields (hp ▸ List.mem_append_left _ hf)
  rw [hp, List.dropLast_concat] at h₄
  obtain ⟨octets, hr, rfl⟩ := octetsInRange_eq_true hd (by omega) (by simpa using h₄)
  rw [List.length_map] at hl
  exact ⟨octets, by omega, by omega, hr, hp⟩

/-- What a prefix looks like: one to three octets, and an asterisk for the rest. -/
def IsPrefix (text : String) : Prop :=
  ∃ octets : List Nat, 1 ≤ octets.length ∧ octets.length ≤ 3 ∧ (∀ n ∈ octets, n ≤ 255) ∧
    text = ".".intercalate (octets.map toString ++ ["*"])

theorem isPrefix_of_faultless {text : String} (h : prefixFault? text.toList = none) :
    IsPrefix text := by
  obtain ⟨octets, h₁, h₃, hr, hf⟩ := fields_of_faultless h
  refine ⟨octets, h₁, h₃, hr, ?_⟩
  rw [← String.toList_inj, String.toList_intercalate,
    ← Text.intercalate_fields '.' text.toList, hf]
  simp [Function.comp_def]

end Net

end Provisioner
