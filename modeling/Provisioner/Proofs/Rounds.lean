import Mathlib.Data.List.Basic
import Provisioner.Proofs.Prompting
import Provisioner.Proofs.Texts

namespace Provisioner

/-- Output does not fail in the states of which `holds` says what has been written. -/
structure Writer.Unfailing {ω : Type} [Writer ω] (holds : ω → Bytes → Prop) : Prop where
  write {w : ω} {written : Bytes} (h : holds w written) (bs : Bytes) :
    (Writer.write bs w).1 = .ok () ∧ holds (Writer.write bs w).2 (written ++ bs)
  flush {w : ω} {written : Bytes} (h : holds w written) :
    (Writer.flush w).1 = .ok () ∧ holds (Writer.flush w).2 written

def Sink.Open (s : Sink) (written : Bytes) : Prop := s = { written }

theorem Sink.open_unfailing : Writer.Unfailing Sink.Open where
  write := by
    rintro _ written rfl bs
    exact ⟨rfl, rfl⟩
  flush := by
    rintro _ written rfl
    exact ⟨rfl, rfl⟩

variable {ω : Type} {holds : ω → Bytes → Prop} {written : Bytes}

/-- The line that is read after `i` others. At the end of the input all lines are empty. -/
def TerminalOn.line (t : TerminalOn ω) (i : Nat) : Bytes := t.lines.getD i []

namespace Terminal

variable {ε α : Type} {t u v : TerminalOn ω} {m n i : Nat} {texts texts' : List String}

/-- On the way from one state of a terminal to another so many lines are read and these texts are
shown. -/
structure Leads (holds : ω → Bytes → Prop) (t u : TerminalOn ω) (n : Nat) (texts : List String) :
    Prop where
  lines : u.lines = t.lines.drop n
  screen {written : Bytes} (h : holds t.screen written) :
    holds u.screen (written ++ texts.flatMap Text.bytes)

theorem Leads.refl (t : TerminalOn ω) : Leads holds t t 0 [] where
  lines := rfl
  screen h := by rwa [List.flatMap_nil, List.append_nil]

theorem Leads.trans (h : Leads holds t u n texts) (h' : Leads holds u v m texts') :
    Leads holds t v (n + m) (texts ++ texts') where
  lines := by rw [h'.lines, h.lines, List.drop_drop]
  screen hs := by
    rw [List.flatMap_append, ← List.append_assoc]
    exact h'.screen (h.screen hs)

theorem getD_drop (lines : List Bytes) (n i : Nat) :
    (lines.drop n).getD i [] = lines.getD (i + n) [] := by
  rw [List.getD_eq_getElem?_getD, List.getElem?_drop, Nat.add_comm, ← List.getD_eq_getElem?_getD]

theorem line_of_drop (h : u.lines = t.lines.drop n) (i : Nat) : u.line i = t.line (i + n) := by
  rw [TerminalOn.line, TerminalOn.line, h, getD_drop]

theorem Leads.line (h : Leads holds t u n texts) : u.line 0 = t.line n := by
  rw [line_of_drop h.lines, Nat.zero_add]

/-- Each round of the loop reads one line. A line that settles what the loop is about ends it, after
any other there is one round less to come. What is shown in a round may depend on its line and on how
many rounds are left. -/
structure Rounds (holds : ω → Bytes → Prop) (loop : Nat → Action (TerminalOn ω) ε α)
    (settles : Bytes → Except ε α → Prop) (shown : Nat → Bytes → List String) (last : String) :
    Prop where
  settled {t : TerminalOn ω} {written : Bytes} {a : Except ε α} (ht : holds t.screen written)
    (h : settles (t.line 0) a) (n : Nat) :
    ∃ u, (loop (n + 1)).apply t = (a, u) ∧ Leads holds t u 1 [last]
  unsettled {t : TerminalOn ω} {written : Bytes} (ht : holds t.screen written)
    (h : ¬ ∃ a, settles (t.line 0) a) (n : Nat) :
    ∃ u, (loop (n + 1)).apply t = (loop n).apply u ∧ Leads holds t u 1 (shown n (t.line 0))

section Rounds

variable {loop : Nat → Action (TerminalOn ω) ε α} {settles : Bytes → Except ε α → Prop}
  {shown : Nat → Bytes → List String} {last : String} {a : Except ε α}

theorem Rounds.leads (hr : Rounds holds loop settles shown last) (ht : holds t.screen written)
    (h : ∀ j < i, ¬ ∃ a, settles (t.line j) a) (n : Nat) :
    ∃ u, (loop (n + i)).apply t = (loop n).apply u ∧ Leads holds t u i
      ((List.range i).flatMap fun j => shown (n + i - (j + 1)) (t.line j)) := by
  induction i generalizing n with
  | zero => exact ⟨t, rfl, .refl t⟩
  | succ i ih =>
    obtain ⟨u, hu, hl⟩ := ih (fun j hj => h j (Nat.lt_succ_of_lt hj)) (n + 1)
    have hi : u.line 0 = t.line i := hl.line
    obtain ⟨v, hv, hl'⟩ := hr.unsettled (hl.screen ht) (hi ▸ h i (Nat.lt_succ_self i)) n
    have hn : n + 1 + i = n + (i + 1) := by omega
    refine ⟨v, hn ▸ hu.trans hv, ?_⟩
    rw [List.range_succ, List.flatMap_append, List.flatMap_singleton, Nat.add_sub_cancel, ← hn, ← hi]
    exact hl.trans hl'

/-- The first line that settles what the loop is about decides on its result. -/
theorem Rounds.ends (hr : Rounds holds loop settles shown last) (ht : holds t.screen written)
    (hi : i < m) (h : ∀ j < i, ¬ ∃ a, settles (t.line j) a) (ha : settles (t.line i) a) :
    ∃ u, (loop m).apply t = (a, u) ∧ Leads holds t u (i + 1)
      (((List.range i).flatMap fun j => shown (m - (j + 1)) (t.line j)) ++ [last]) := by
  obtain ⟨n, hn⟩ := Nat.exists_eq_add_of_lt hi
  obtain rfl : m = n + 1 + i := by omega
  obtain ⟨u, hu, hl⟩ := hr.leads ht h (n + 1)
  obtain ⟨v, hv, hl'⟩ := hr.settled (hl.screen ht) (hl.line ▸ ha) n
  exact ⟨v, hu.trans hv, hl.trans hl'⟩

end Rounds

theorem valueOf_nil : valueOf [] = .ok "" := by
  have hb : ([] : Bytes) = Text.bytes "" := (Text.bytes_eq "").symm
  rw [valueOf, Text.decode?_eq_some.mpr hb]
  rfl

theorem valueOf_eq_error {line : Bytes} {e : IoError} (h : valueOf line = .error e) :
    Text.decode? line = none ∧ e = .notText := by
  unfold valueOf at h
  split at h
  · cases h
  · exact ⟨‹_›, (Except.error.inj h).symm⟩

theorem readLine_apply (t : TerminalOn ω) :
    readLine.apply t = (valueOf (t.line 0), { t with lines := t.lines.drop 1 }) := by
  obtain ⟨lines, screen⟩ := t
  cases lines with
  | nil => exact congrArg (·, _) valueOf_nil.symm
  | cons line rest => rfl

variable [Writer ω]

theorem write_leads (hw : Writer.Unfailing holds) (ht : holds t.screen written) (text : String) :
    ∃ u, (write text).apply t = (.ok (), u) ∧ Leads holds t u 0 [text] := by
  refine ⟨_, congrArg (·, _) (hw.write ht _).1, rfl, fun h => ?_⟩
  rw [List.flatMap_singleton]
  exact (hw.write h _).2

theorem flush_leads (hw : Writer.Unfailing holds) (ht : holds t.screen written) :
    ∃ u, flush.apply t = (.ok (), u) ∧ Leads holds t u 0 [] := by
  refine ⟨_, congrArg (·, _) (hw.flush ht).1, rfl, fun h => ?_⟩
  rw [List.flatMap_nil, List.append_nil]
  exact (hw.flush h).2

theorem ask_leads (hw : Writer.Unfailing holds) (ht : holds t.screen written) (text : String) :
    ∃ u, (ask text).apply t = (valueOf (t.line 0), u) ∧ Leads holds t u 1 [text] := by
  obtain ⟨u, hu, h⟩ := write_leads hw ht text
  obtain ⟨v, hv, h'⟩ := flush_leads hw (h.screen ht)
  have hl := h.trans h'
  refine ⟨{ v with lines := v.lines.drop 1 }, ?_, ?_, hl.screen⟩
  · rw [ask, Action.apply_bind_ok hu, Action.apply_bind_ok hv, readLine_apply, hl.line]
  · rw [hl.lines, List.drop_drop]

theorem ask_reads {text value : String} (h : (ask text).apply t = (.ok value, u)) :
    valueOf (t.line 0) = .ok value ∧ u.lines = t.lines.drop 1 := by
  have hl := ask_lines text t
  rw [h] at hl
  obtain ⟨e, he⟩ | ⟨ht, hv, hu⟩ | ⟨line, rest, ht, hv, hu⟩ := hl
  · cases he
  · rw [TerminalOn.line, ht]
    exact ⟨valueOf_nil.trans hv.symm, hu⟩
  · rw [TerminalOn.line, ht]
    exact ⟨hv.symm, hu⟩

theorem writeLines_leads (hw : Writer.Unfailing holds) (ht : holds t.screen written)
    (texts : List String) :
    ∃ u, (writeLines texts).apply t = (.ok (), u) ∧ Leads holds t u 0 (texts.map (· ++ "\n")) := by
  induction texts generalizing t written with
  | nil => exact ⟨t, rfl, .refl t⟩
  | cons text texts ih =>
    obtain ⟨u, hu, h⟩ := write_leads hw ht (text ++ "\n")
    obtain ⟨v, hv, h'⟩ := ih (h.screen ht)
    exact ⟨v, (Action.apply_bind_ok hu _).trans hv, h.trans h'⟩

end Terminal

namespace Question

/-- The line settles the question: it is no text, or it says one of the words for an answer, or
nothing, where there is a preset. -/
inductive Settles (q : Question) (line : Bytes) : Except PromptError Bool → Prop
  | broken (h : Text.decode? line = none) : Settles q line (.error (.io .notText))
  | yes (h : Says ["y", "yes"] line) : Settles q line (.ok true)
  | no (h : Says ["n", "no"] line) : Settles q line (.ok false)
  | preset {b : Bool} (h : Says [""] line) (hb : q.preset = some b) : Settles q line (.ok b)

variable {q : Question} {line : Bytes} {value : String} {a : Except PromptError Bool} {b : Bool}

theorem reading?_of_words (h : small value ∈ words b) : q.reading? value = some b := by
  cases b with
  | true =>
    obtain h | h : small value = "y" ∨ small value = "yes" := by simpa [words] using h
    all_goals simp [reading?, h]
  | false =>
    obtain h | h : small value = "n" ∨ small value = "no" := by simpa [words] using h
    all_goals simp [reading?, h]

theorem reading?_of_empty (h : small value = "") : q.reading? value = q.preset := by
  simp [reading?, h]

theorem settles_of_reading (hv : Terminal.valueOf line = .ok value)
    (hb : q.reading? value = some b) : q.Settles line (.ok b) := by
  by_cases he : small value = ""
  · exact .preset ⟨value, hv, List.mem_singleton.mpr he⟩ (reading?_of_empty he ▸ hb)
  · unfold reading? at hb
    split at hb
    · exact absurd ‹_› he
    all_goals cases hb
    · exact .yes ⟨value, hv, by simp [*]⟩
    · exact .yes ⟨value, hv, by simp [*]⟩
    · exact .no ⟨value, hv, by simp [*]⟩
    · exact .no ⟨value, hv, by simp [*]⟩

/-- What a line settles is the failure to read it, or what is read from it. -/
theorem Settles.inv (h : q.Settles line a) :
    (Terminal.valueOf line = .error .notText ∧ a = .error (.io .notText)) ∨
      ∃ value b, Terminal.valueOf line = .ok value ∧ q.reading? value = some b ∧ a = .ok b := by
  cases h with
  | broken h =>
    refine .inl ⟨?_, rfl⟩
    rw [Terminal.valueOf, h]
  | yes h =>
    obtain ⟨value, hv, hm⟩ := h
    exact .inr ⟨value, true, hv, reading?_of_words hm, rfl⟩
  | no h =>
    obtain ⟨value, hv, hm⟩ := h
    exact .inr ⟨value, false, hv, reading?_of_words hm, rfl⟩
  | preset h hb =>
    obtain ⟨value, hv, hm⟩ := h
    exact .inr ⟨value, _, hv, (reading?_of_empty (List.mem_singleton.mp hm)).trans hb, rfl⟩

theorem unclear_iff : q.Unclear line ↔ ¬ ∃ a, q.Settles line a := by
  constructor
  · rintro ⟨value, hv, hb⟩ ⟨a, ha⟩
    obtain ⟨he, -⟩ | ⟨value', b, hv', hb', -⟩ := ha.inv
    · cases hv.symm.trans he
    · cases hv.symm.trans hv'
      cases hb.symm.trans hb'
  · intro h
    cases hv : Terminal.valueOf line with
    | error e => exact absurd ⟨_, .broken (Terminal.valueOf_eq_error hv).1⟩ h
    | ok value =>
      cases hb : q.reading? value with
      | some b => exact absurd ⟨_, settles_of_reading hv hb⟩ h
      | none => exact ⟨value, hv, hb⟩

end Question

namespace Terminal

variable [Writer ω] {t : TerminalOn ω}

theorem askUpTo_rounds (hw : Writer.Unfailing holds) (q : Question) :
    Rounds holds (askUpTo q) q.Settles (fun _ _ => [q.text]) q.text where
  settled ht h n := by
    obtain ⟨u, hu, hl⟩ := ask_leads hw ht q.text
    refine ⟨u, ?_, hl⟩
    obtain ⟨hv, rfl⟩ | ⟨value, b, hv, hb, rfl⟩ := h.inv
    · rw [hv] at hu
      exact Action.apply_bind_error (Action.apply_orFail_error hu _) _
    · rw [hv] at hu
      rw [askUpTo, Action.apply_bind_ok (Action.apply_orFail_ok hu _), hb]
      rfl
  unsettled ht h n := by
    obtain ⟨value, hv, hb⟩ := Question.unclear_iff.mpr h
    obtain ⟨u, hu, hl⟩ := ask_leads hw ht q.text
    rw [hv] at hu
    refine ⟨u, ?_, hl⟩
    rw [askUpTo, Action.apply_bind_ok (Action.apply_orFail_ok hu _), hb]

theorem flatMap_range_const (text : String) (i : Nat) :
    ((List.range i).flatMap fun _ => [text]) = List.replicate i text := by
  rw [← List.map_eq_flatMap, List.map_const', List.length_range]

/-- A question is put up to the first line that settles it, and what that line settles is the
result. Without one the attempts run out, and there is no answer. -/
theorem askYesNo_settles (hw : Writer.Unfailing holds) (q : Question) (t : TerminalOn ω)
    (ht : holds t.screen written) :
    (∀ i a, i < q.attempts → (∀ j < i, ¬ ∃ a, q.Settles (t.line j) a) → q.Settles (t.line i) a →
      ∃ u, (askYesNo q).apply t = (a, u) ∧
        Leads holds t u (i + 1) (List.replicate (i + 1) q.text)) ∧
    ((∀ j < q.attempts, ¬ ∃ a, q.Settles (t.line j) a) →
      ∃ u, (askYesNo q).apply t = (.error (.noValidAnswer q.attempts), u) ∧
        Leads holds t u q.attempts (List.replicate q.attempts q.text ++ ["\n"])) := by
  have hr := askUpTo_rounds hw q
  refine ⟨fun i a hi hj ha => ?_, fun hj => ?_⟩
  · obtain ⟨u, hu, hl⟩ := hr.ends ht hi hj ha
    rw [flatMap_range_const, ← List.replicate_succ'] at hl
    exact ⟨u, hu, hl⟩
  · obtain ⟨u, hu, hl⟩ := hr.leads ht hj 0
    rw [flatMap_range_const] at hl
    obtain ⟨v, hv, hl'⟩ := write_leads hw (hl.screen ht) "\n"
    rw [Nat.zero_add] at hu
    exact ⟨v, hu.trans (Action.apply_bind_ok (Action.apply_orFail_ok hv _) _), hl.trans hl'⟩

def hesitant : Terminal := ⟨[Text.bytes "maybe", Text.bytes " \"Yes\" \r", Text.bytes "key"], {}⟩

/-- The second line says yes. With one attempt the question stays open. -/
theorem hesitant_settles : (Writer.Unfailing Sink.Open ∧ Sink.Open hesitant.screen []) ∧
    (∀ j < 1, ∀ m, ¬ ∃ a, (⟨"Proceed?", some false, m⟩ : Question).Settles (hesitant.line j) a) ∧
    (⟨"Proceed?", some false, 3⟩ : Question).Settles (hesitant.line 1) (.ok true) ∧
    (∃ u, (askYesNo ⟨"Proceed?", some false, 3⟩).apply hesitant = (.ok true, u) ∧
      u.lines = [Text.bytes "key"] ∧
      u.screen.written = Text.bytes "Proceed? (y/N) Proceed? (y/N) ") ∧
    ∃ u, (askYesNo ⟨"Proceed?", some false, 1⟩).apply hesitant = (.error (.noValidAnswer 1), u) ∧
      u.lines.length = 2 ∧ u.screen.written = Text.bytes "Proceed? (y/N) \n" := by
  have hw : Writer.Unfailing Sink.Open ∧ Sink.Open hesitant.screen [] := ⟨Sink.open_unfailing, rfl⟩
  have hm : ∀ j < 1, ∀ m, ¬ ∃ a, (⟨"Proceed?", some false, m⟩ : Question).Settles
      (hesitant.line j) a := by
    intro j hj m
    obtain rfl := Nat.lt_one_iff.mp hj
    exact Question.unclear_iff.mp ⟨"maybe", by decide +kernel, rfl⟩
  have hy : (⟨"Proceed?", some false, 3⟩ : Question).Settles (hesitant.line 1) (.ok true) :=
    .yes ⟨"Yes", by decide +kernel, by decide +kernel⟩
  obtain ⟨u, hu, hl⟩ := (askYesNo_settles hw.1 ⟨"Proceed?", some false, 3⟩ hesitant hw.2).1 1 _
    (by decide) (fun j hj => hm j hj 3) hy
  obtain ⟨v, hv, hl'⟩ := (askYesNo_settles hw.1 ⟨"Proceed?", some false, 1⟩ hesitant hw.2).2
    fun j hj => hm j hj 1
  refine ⟨hw, hm, hy, ⟨u, hu, hl.lines, ?_⟩, v, hv, congrArg List.length hl'.lines, ?_⟩
  · exact (congrArg Sink.written (hl.screen hw.2)).trans (by decide +kernel)
  · exact (congrArg Sink.written (hl'.screen hw.2)).trans (by decide +kernel)

end Terminal

end Provisioner
