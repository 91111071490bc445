import Provisioner.Proofs.Persistence
import Provisioner.Proofs.Quotes

namespace Provisioner

namespace Text

variable {c : Char}

theorem count_trimChars (hb : isBlank c = false) (cs : List Char) :
    (trimChars cs).count c = cs.count c := by
  obtain ⟨lead, trail, he, hl, ht⟩ := (trimChars_trimmed cs).around
  have hz {bs : List Char} (h : ∀ b ∈ bs, isBlank b = true) : bs.count c = 0 :=
    List.count_eq_zero.mpr fun hm => Bool.false_ne_true (hb.symm.trans (h c hm))
  rw [congrArg (List.count c) he, List.count_append, List.count_append, hz hl, hz ht, Nat.zero_add,
    Nat.add_zero]

theorem count_dropOpeningQuote (hq : c ≠ '"') (cs : List Char) :
    (dropOpeningQuote cs).count c = cs.count c := by
  unfold dropOpeningQuote
  split
  · rw [List.count_cons_of_ne hq.symm]
  · rfl

theorem count_dropClosingQuote (hq : c ≠ '"') (cs : List Char) :
    (dropClosingQuote cs).count c = cs.count c := by
  rw [dropClosingQuote, List.count_reverse, count_dropOpeningQuote hq, List.count_reverse]

theorem count_valueChars (hb : isBlank c = false) (hq : c ≠ '"') (cs : List Char) :
    (valueChars cs).count c = cs.count c := by
  rw [valueChars, count_trimChars hb, count_dropClosingQuote hq, count_dropOpeningQuote hq,
    count_trimChars hb]

end Text

namespace Properties

/-- A name and a value by the format of the file: what stands before and behind the first colon that
is not the first character, or the first equals sign if there is no such colon. -/
inductive Parts (line : List Char) : List Char → List Char → Prop
  | colon {before after : List Char} (hl : line = before ++ ':' :: after) (hn : before ≠ [])
    (hc : ':' ∉ before.tail) : Parts line before after
  | equals {before after : List Char} (hc : ':' ∉ line.tail) (hl : line = before ++ '=' :: after)
    (he : '=' ∉ before) : Parts line before after

/-- What a line enters by the format: a value for a name, or nothing if it has no separator or no
name in front of that. -/
inductive Reading (line : List Char) : Option (String × String) → Prop
  | entered {before after : List Char} (hp : Parts line before after)
    (hn : Text.valueChars before ≠ []) : Reading line
      (some (String.ofList (Text.valueChars before), String.ofList (Text.valueChars after)))
  | nameless {before after : List Char} (hp : Parts line before after)
    (hn : Text.valueChars before = []) : Reading line none
  | whole (hc : ':' ∉ line.tail) (he : '=' ∉ line) : Reading line none

def Masked (line : List Char) : Prop := ∃ rest, line = ':' :: rest ∧ ':' ∈ rest

variable {line before after : List Char}

theorem cutAt?_of_notMem {sep : Char} (h : sep ∉ line) : cutAt? sep line = none := by
  rw [cutAt?, Text.dropWhile_of_notMem h]

theorem cutAt?_cases (sep : Char) (line : List Char) :
    (sep ∉ line ∧ cutAt? sep line = none) ∨
      ∃ before after, line = before ++ sep :: after ∧ sep ∉ before ∧
        cutAt? sep line = some (before, after) := by
  by_cases h : sep ∈ line
  · obtain ⟨before, after, rfl, hb⟩ := List.eq_append_cons_of_mem h
    exact .inr ⟨before, after, rfl, hb, cutAt?_append hb after⟩
  · exact .inl ⟨h, cutAt?_of_notMem h⟩

/-- Without a colon behind its first character a line is cut at its first equals sign. -/
theorem cut?_equals (h : ':' ∉ line.tail) : cut? line = cutAt? '=' line := by
  unfold cut?
  obtain ⟨-, hc⟩ | ⟨before, after, rfl, -, hc⟩ := cutAt?_cases ':' line
  · rw [hc]
  · rw [hc]
    cases before with
    | nil => rfl
    | cons c cs => simp at h

theorem cut?_masked (h : Masked line) : cut? line = cutAt? '=' line := by
  obtain ⟨rest, rfl, -⟩ := h
  rfl

/-- Where no colon is hidden, a line is cut as the format says. -/
theorem cut?_cases (h : ¬ Masked line) :
    (':' ∉ line.tail ∧ '=' ∉ line ∧ cut? line = none) ∨
      ∃ before after, Parts line before after ∧ cut? line = some (before, after) := by
  by_cases ht : ':' ∈ line.tail
  · obtain ⟨hc, -⟩ | ⟨before, after, rfl, hb, hc⟩ := cutAt?_cases ':' line
    · exact absurd (List.mem_of_mem_tail ht) hc
    · cases before with
      | nil => exact absurd ⟨after, rfl, ht⟩ h
      | cons c cs =>
        refine .inr ⟨c :: cs, after, .colon rfl nofun fun hm => hb (List.mem_of_mem_tail hm), ?_⟩
        rw [cut?, hc]
  · rw [cut?_equals ht]
    obtain ⟨he, hc⟩ | ⟨before, after, hl, he, hc⟩ := cutAt?_cases '=' line
    · exact .inl ⟨ht, he, hc⟩
    · exact .inr ⟨before, after, .equals ht hl he, hc⟩

theorem pair?_of_cut (hc : cut? line = some (before, after)) : pair? line =
    if Text.valueChars before = [] then none
    else some (String.ofList (Text.valueChars before), String.ofList (Text.valueChars after)) := by
  unfold pair?
  rw [hc]
  simp only [List.isEmpty_iff]

/-- Cut at a colon that is hidden and at an equals sign, a line has different names. -/
theorem valueChars_ne {before' after' : List Char}
    (hl : before ++ ':' :: after = before' ++ '=' :: after') (he : '=' ∉ before') :
    Text.valueChars before ≠ Text.valueChars before' := by
  intro hv
  -- Colons and equals signs are kept, and the longer of the two parts has one more of them.
  have hc := congrArg (List.count ':') hv
  have hq := congrArg (List.count '=') hv
  rw [Text.count_valueChars (by decide) (by decide),
    Text.count_valueChars (by decide) (by decide)] at hc hq
  obtain ⟨mid, rfl, hm⟩ | ⟨mid, rfl, hm⟩ := List.append_eq_append_iff.mp hl
  · cases mid with
    | nil => cases hm
    | cons c mid =>
      obtain ⟨rfl, -⟩ := List.cons.inj hm
      simp at hc
  · cases mid with
    | nil => cases hm
    | cons c mid =>
      obtain ⟨rfl, -⟩ := List.cons.inj hm
      rw [List.count_eq_zero.mpr he] at hq
      simp at hq

theorem Masked.parts (h : Masked line) (hp : Parts line before after) :
    line = before ++ ':' :: after ∧ ':' ∈ before := by
  obtain ⟨rest, rfl, hr⟩ := h
  cases hp with
  | colon hl hn hc =>
    obtain ⟨c, cs, rfl⟩ := List.exists_cons_of_ne_nil hn
    obtain ⟨rfl, -⟩ := List.cons.inj hl
    exact ⟨hl, List.mem_cons_self⟩
  | equals hc => exact absurd hr hc

theorem Masked.not_reading (h : Masked line) : ¬ Reading line (pair? line) := by
  intro hr
  generalize he : pair? line = e at hr
  cases hr with
  | @entered before after hp hn =>
    obtain ⟨-, hc⟩ | ⟨before', after', hl, hs, hc⟩ := cutAt?_cases '=' line
    · rw [pair?, cut?_masked h, hc] at he
      cases he
    · rw [pair?_of_cut ((cut?_masked h).trans hc)] at he
      split at he
      · cases he
      · have hv := congrArg Prod.fst (Option.some.inj he)
        exact valueChars_ne ((h.parts hp).1.symm.trans hl) hs (String.ofList_injective hv).symm
  | @nameless before after hp hn =>
    have hc := Text.count_valueChars (c := ':') (by decide) (by decide) before
    rw [hn] at hc
    exact List.count_eq_zero.mp hc.symm (h.parts hp).2
  | whole hc =>
    obtain ⟨rest, rfl, hm⟩ := h
    exact hc hm

/-- A line is read by the format, unless a colon in front hides another. -/
theorem pair?_reading (line : List Char) : Reading line (pair? line) ↔ ¬ Masked line := by
  refine ⟨fun hr h => h.not_reading hr, fun h => ?_⟩
  obtain ⟨ht, he, hc⟩ | ⟨before, after, hp, hc⟩ := cut?_cases h
  · rw [pair?, hc]
    exact .whole ht he
  · rw [pair?_of_cut hc]
    split
    · exact .nameless hp ‹_›
    · exact .entered hp ‹_›

/-- Each line is entered, or skipped, as the format says, just if no colon in front hides another. -/
theorem parse_cuts (h : Host) (content : String) : ∃ entries,
    parse h content = (entries.filterMap id).foldl (accept h) {} ∧
    List.Forall₂ (fun line entry => Reading line entry ↔ ¬ Masked line)
      (Text.lines content.toList) entries := by
  refine ⟨(Text.lines content.toList).map pair?, ?_, ?_⟩
  · rw [List.filterMap_map]
    rfl
  · rw [List.forall₂_map_right_iff]
    exact List.forall₂_same.mpr fun line _ => pair?_reading line

/-- By the format the second colon is the separator. The line is skipped, so the name is not even
told to be unknown. -/
theorem hidden_colon_skipped : Reading ":colour: blue".toList (some (":colour", "blue")) ∧
    (accept emptyHost {} (":colour", "blue")).unknown = [":colour"] ∧
    (parse emptyHost ":colour: blue").unknown = [] := by
  have hp : Parts ":colour: blue".toList ":colour".toList " blue".toList :=
    .colon (by decide) (by decide) (by decide)
  have hn : Text.valueChars ":colour".toList = ":colour".toList := by decide +kernel
  have hv : Text.valueChars " blue".toList = "blue".toList := by decide +kernel
  have hr := Reading.entered hp (by rw [hn]; decide)
  rw [hn, hv, String.ofList_toList, String.ofList_toList] at hr
  exact ⟨hr, by decide +kernel, by decide +kernel⟩

end Properties

end Provisioner
