import Provisioner.Text.Utf8
import Provisioner.Text.Value

namespace Provisioner.Text

theorem loop_eq_drop (b : ByteArray) (i : Nat) (r : List UInt8) :
    ByteArray.toList.loop b i r = r.reverse ++ b.data.toList.drop i := by
  induction i, r using ByteArray.toList.loop.induct b with
  | case1 i r h ih =>
    have hd : b.data.toList.drop i = b.get! i :: b.data.toList.drop (i + 1) := by
      rw [List.drop_eq_getElem_cons h, Array.getElem_toList, ByteArray.get!,
        getElem!_pos b.data i h]
    rw [ByteArray.toList.loop, if_pos h, ih, hd, List.reverse_cons, List.append_assoc,
      List.singleton_append]
  | case2 i r h =>
    rw [ByteArray.toList.loop, if_neg h, List.drop_of_length_le (Nat.le_of_not_lt h),
      List.append_nil]

theorem bytes_eq (s : String) : bytes s = s.toByteArray.data.toList := by
  unfold bytes ByteArray.toList
  rw [loop_eq_drop]
  rfl

theorem decode?_bytes (s : String) : decode? (bytes s) = some s := by
  have h : (⟨(bytes s).toArray⟩ : ByteArray) = s.toByteArray := by
    rw [bytes_eq, Array.toArray_toList]
  unfold decode?
  rw [h, String.fromUTF8?, dif_pos s.isValidUTF8]
  rfl

theorem decode?_eq_some {bs : Bytes} {s : String} : decode? bs = some s ↔ bs = bytes s := by
  constructor
  · intro h
    unfold decode? String.fromUTF8? at h
    split at h
    · rw [← Option.some.inj h, bytes_eq]
      rfl
    · cases h
  · rintro rfl
    exact decode?_bytes s

theorem bytes_ofList (cs : List Char) :
    bytes (String.ofList cs) = cs.flatMap String.utf8EncodeChar := by
  rw [bytes_eq, String.toByteArray_ofList, List.utf8Encode, List.toList_data_toByteArray]

theorem length_le_bytes (s : String) : s.toList.length ≤ (bytes s).length := by
  rw [← String.ofList_toList (s := s), bytes_ofList, String.toList_ofList]
  induction s.toList with
  | nil => exact Nat.le_refl 0
  | cons c cs ih =>
    have hc : 0 < (String.utf8EncodeChar c).length := by
      rw [String.length_utf8EncodeChar]
      exact c.utf8Size_pos
    rw [List.flatMap_cons, List.length_append, List.length_cons]
    omega

theorem eq_zero_of_mem_encode {c : Char} (h : 0 ∈ String.utf8EncodeChar c) : c = '\x00' := by
  have nonzero {k : Nat} (hk : 0 < k) (hk' : k < 256) : (0 : UInt8) ≠ UInt8.ofNat k := by
    intro h
    have hn := congrArg UInt8.toNat h
    rw [UInt8.toNat_ofNat', UInt8.toNat_zero] at hn
    omega
  unfold String.utf8EncodeChar at h
  by_cases hc : c.val.toNat ≤ 127
  · rw [if_pos hc, List.mem_singleton] at h
    by_cases hz : c.val.toNat = 0
    · exact Char.toNat_inj.mp hz
    · exact absurd h (nonzero (by omega) (by omega))
  · -- All bytes of a longer character have their highest bit set.
    rw [if_neg hc] at h
    exfalso
    split at h
    · simp only [List.mem_cons, List.not_mem_nil, or_false] at h
      rcases h with h | h <;> exact nonzero (by omega) (by omega) h
    · split at h
      · simp only [List.mem_cons, List.not_mem_nil, or_false] at h
        rcases h with h | h | h <;> exact nonzero (by omega) (by omega) h
      · simp only [List.mem_cons, List.not_mem_nil, or_false] at h
        rcases h with h | h | h | h <;> exact nonzero (by omega) (by omega) h

theorem zero_notMem_bytes {s : String} (h : '\x00' ∉ s.toList) : 0 ∉ bytes s := by
  intro hz
  rw [← String.ofList_toList (s := s), bytes_ofList, List.mem_flatMap] at hz
  obtain ⟨c, hc, hz⟩ := hz
  exact h (eq_zero_of_mem_encode hz ▸ hc)

theorem dropEndWhile_append {α : Type} {p : α → Bool} {ys : List α} (h : ∀ y ∈ ys, p y = true)
    (xs : List α) : dropEndWhile p (xs ++ ys) = dropEndWhile p xs := by
  unfold dropEndWhile
  rw [List.reverse_append, List.dropWhile_append_of_pos fun y hy => h y (List.mem_reverse.mp hy)]

theorem dropEndWhile_concat {α : Type} {p : α → Bool} {y : α} (h : p y = false) (xs : List α) :
    dropEndWhile p (xs ++ [y]) = xs ++ [y] := by
  unfold dropEndWhile
  rw [List.reverse_concat, List.dropWhile_cons_of_neg (by simp [h]), List.reverse_cons,
    List.reverse_reverse]

theorem exists_dropEndWhile {α : Type} (p : α → Bool) (xs : List α) :
    ∃ ys, xs = dropEndWhile p xs ++ ys ∧ ∀ y ∈ ys, p y = true := by
  refine ⟨(xs.reverse.takeWhile p).reverse, ?_, fun y hy => ?_⟩
  · rw [dropEndWhile, ← List.reverse_append, List.takeWhile_append_dropWhile, List.reverse_reverse]
  · exact List.all_eq_true.mp List.all_takeWhile y (List.mem_reverse.mp hy)

theorem head?_dropWhile_false {α : Type} {p : α → Bool} {xs : List α} {y : α}
    (h : (xs.dropWhile p).head? = some y) : p y = false := by
  have hn := List.head?_dropWhile_not p xs
  rw [h] at hn
  simpa using hn

theorem getLast?_dropEndWhile_false {α : Type} {p : α → Bool} {xs : List α} {y : α}
    (h : (dropEndWhile p xs).getLast? = some y) : p y = false := by
  rw [dropEndWhile, List.getLast?_reverse] at h
  exact head?_dropWhile_false h

/-- Trimming takes away the blanks around what neither starts nor ends with one. -/
theorem trimChars_padded {lead cs trail : List Char} (hl : ∀ c ∈ lead, isBlank c = true)
    (ht : ∀ c ∈ trail, isBlank c = true) (hh : ∀ c ∈ cs.head?, isBlank c = false)
    (hg : ∀ c ∈ cs.getLast?, isBlank c = false) : trimChars (lead ++ (cs ++ trail)) = cs := by
  unfold trimChars
  rw [List.dropWhile_append_of_pos hl]
  cases cs with
  | nil =>
    rw [List.nil_append, ← List.append_nil trail, List.dropWhile_append_of_pos ht]
    rfl
  | cons c cs =>
    rw [List.cons_append, List.dropWhile_cons_of_neg (by simp [hh c rfl]), ← List.cons_append,
      dropEndWhile_append ht]
    obtain ⟨front, last, he⟩ :=
      (List.eq_nil_or_concat (c :: cs)).resolve_left (List.cons_ne_nil _ _)
    rw [List.concat_eq_append] at he
    rw [he] at hg ⊢
    exact dropEndWhile_concat (hg last List.getLast?_concat) front

structure Trimmed (cs t : List Char) : Prop where
  around : ∃ lead trail, cs = lead ++ (t ++ trail) ∧ (∀ c ∈ lead, isBlank c = true) ∧
    ∀ c ∈ trail, isBlank c = true
  head : ∀ c ∈ t.head?, isBlank c = false
  last : ∀ c ∈ t.getLast?, isBlank c = false

theorem Trimmed.of_ends {t : List Char} (hh : ∀ c ∈ t.head?, isBlank c = false)
    (hl : ∀ c ∈ t.getLast?, isBlank c = false) : Trimmed t t :=
  ⟨⟨[], [], (List.append_nil t).symm, List.forall_mem_nil _, List.forall_mem_nil _⟩, hh, hl⟩

theorem Trimmed.eq {cs t : List Char} (h : Trimmed cs t) : trimChars cs = t := by
  obtain ⟨lead, trail, rfl, hl, ht⟩ := h.around
  exact trimChars_padded hl ht h.head h.last

theorem trimChars_trimmed (cs : List Char) : Trimmed cs (trimChars cs) := by
  obtain ⟨trail, ht, hb⟩ := exists_dropEndWhile isBlank (cs.dropWhile isBlank)
  refine ⟨⟨cs.takeWhile isBlank, trail, ?_, ?_, hb⟩, fun c hc => ?_, fun c hc => ?_⟩
  · rw [trimChars, ← ht, List.takeWhile_append_dropWhile]
  · exact fun c hc => List.all_eq_true.mp List.all_takeWhile c hc
  · refine @head?_dropWhile_false _ isBlank cs c ?_
    rw [ht, List.head?_append]
    exact congrArg (Option.or · _) hc
  · exact getLast?_dropEndWhile_false hc

theorem Trimmed.length_le {cs t : List Char} (h : Trimmed cs t) : t.length ≤ cs.length := by
  obtain ⟨lead, trail, rfl, -, -⟩ := h.around
  simp only [List.length_append]
  omega

structure Bare (cs : List Char) : Prop where
  head : ∀ c ∈ cs.head?, isBlank c = false ∧ c ≠ '"'
  last : ∀ c ∈ cs.getLast?, isBlank c = false ∧ c ≠ '"'

theorem bare_of_forall {cs : List Char} (h : ∀ c ∈ cs, isBlank c = false ∧ c ≠ '"') : Bare cs :=
  ⟨fun c hc => h c (List.mem_of_mem_head? hc), fun c hc => h c (List.mem_of_mem_getLast? hc)⟩

theorem dropOpeningQuote_eq {cs : List Char} (h : ∀ c ∈ cs.head?, c ≠ '"') :
    dropOpeningQuote cs = cs := by
  unfold dropOpeningQuote
  split
  · exact absurd rfl (h '"' rfl)
  · rfl

theorem dropClosingQuote_eq {cs : List Char} (h : ∀ c ∈ cs.getLast?, c ≠ '"') :
    dropClosingQuote cs = cs := by
  unfold dropClosingQuote
  rw [dropOpeningQuote_eq (by rwa [List.head?_reverse]), List.reverse_reverse]

theorem valueChars_behind {lead cs : List Char} (hl : ∀ c ∈ lead, isBlank c = true)
    (hb : Bare cs) : valueChars (lead ++ cs) = cs := by
  have ht {lead : List Char} (hl : ∀ c ∈ lead, isBlank c = true) : trimChars (lead ++ cs) = cs := by
    have ht := trimChars_padded hl (List.forall_mem_nil _) (fun c hc => (hb.head c hc).1)
      fun c hc => (hb.last c hc).1
    rwa [List.append_nil] at ht
  unfold valueChars
  rw [ht hl, dropOpeningQuote_eq fun c hc => (hb.head c hc).2,
    dropClosingQuote_eq fun c hc => (hb.last c hc).2]
  exact @ht [] (List.forall_mem_nil _)

theorem valueChars_bare {cs : List Char} (hb : Bare cs) : valueChars cs = cs :=
  @valueChars_behind [] cs (List.forall_mem_nil _) hb

end Provisioner.Text
