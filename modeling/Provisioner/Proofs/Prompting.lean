import Provisioner.Proofs.Words
import Provisioner.Provision.Console

namespace Provisioner

instance : Writer Unit := ⟨fun _ _ => (.ok (), ()), fun _ => (.ok (), ())⟩

/-- The line is one of these words once the blanks around it, its quotes and its capitals are
gone. -/
def Says (words : List String) (line : Bytes) : Prop :=
  ∃ value, Terminal.valueOf line = .ok value ∧ Question.small value ∈ words

namespace Question

def words (b : Bool) : List String := bif b then ["y", "yes"] else ["n", "no"]

theorem reading_some {q : Question} {value : String} {b : Bool} (h : q.reading? value = some b)
    (hp : q.preset ≠ some b) : small value ∈ words b := by
  unfold reading? at h
  split at h
  · exact absurd h hp
  all_goals cases h
  all_goals simp [words, *]

def Unclear (q : Question) (line : Bytes) : Prop :=
  ∃ value, Terminal.valueOf line = .ok value ∧ q.reading? value = none

end Question

/-- How a question is answered in so many attempts, with the lines before and after it. -/
inductive Answered (q : Question) :
    Nat → Except PromptError Bool → List Bytes → List Bytes → Prop
  | clear {n : Nat} {line : Bytes} {value : String} {b : Bool} (lines : List Bytes)
    (hv : Terminal.valueOf line = .ok value) (hb : q.reading? value = some b) :
    Answered q (n + 1) (.ok b) (line :: lines) lines
  | unclear {n : Nat} {a : Except PromptError Bool} {line : Bytes} {lines after : List Bytes}
    (hu : q.Unclear line) (h : Answered q n a lines after) :
    Answered q (n + 1) a (line :: lines) after
  | preset {n : Nat} {b : Bool} (hb : q.preset = some b) : Answered q (n + 1) (.ok b) [] []
  | silent {n : Nat} {a : Except PromptError Bool} {after : List Bytes}
    (h : Answered q n a [] after) : Answered q (n + 1) a [] after
  | unanswered (lines : List Bytes) :
    Answered q 0 (.error (.noValidAnswer q.attempts)) lines lines
  | broken {n : Nat} (e : IoError) (lines after : List Bytes) :
    Answered q n (.error (.io e)) lines after

def Enters (q : Question) (words : List String) (lines after : List Bytes) : Prop :=
  ∃ passed line, lines = passed ++ line :: after ∧ (∀ p ∈ passed, q.Unclear p) ∧ Says words line

/-- No line is clear, up to the last attempt or to the end of the input. -/
def Exhausts (q : Question) (n : Nat) (lines after : List Bytes) : Prop :=
  ∃ passed, lines = passed ++ after ∧ (∀ p ∈ passed, q.Unclear p) ∧
    (passed.length = n ∨ passed.length ≤ n ∧ after = [])

namespace Answered

variable {q : Question} {n : Nat} {lines after : List Bytes}

theorem entered {b : Bool} (h : Answered q n (.ok b) lines after) (hp : q.preset ≠ some b) :
    ∃ passed line value, lines = passed ++ line :: after ∧ (∀ p ∈ passed, q.Unclear p) ∧
      Terminal.valueOf line = .ok value ∧ q.reading? value = some b := by
  generalize ha : (Except.ok b : Except PromptError Bool) = a at h
  induction h with
  | @clear _ line value _ lines hv hb =>
    cases ha
    exact ⟨[], line, value, rfl, by simp, hv, hb⟩
  | @unclear _ _ line _ _ hu _ ih =>
    obtain ⟨passed, last, value, rfl, hp, hv, hb⟩ := ih ha
    exact ⟨line :: passed, last, value, rfl, List.forall_mem_cons.mpr ⟨hu, hp⟩, hv, hb⟩
  | preset hb =>
    cases ha
    exact absurd hb hp
  | silent _ ih =>
    obtain ⟨passed, line, value, hl, -⟩ := ih ha
    simp at hl
  | unanswered lines => cases ha
  | broken e lines after => cases ha

theorem enters {b : Bool} (h : Answered q n (.ok b) lines after) (hp : q.preset ≠ some b) :
    Enters q (Question.words b) lines after := by
  obtain ⟨passed, line, value, hl, hu, hv, hb⟩ := h.entered hp
  exact ⟨passed, line, hl, hu, value, hv, Question.reading_some hb hp⟩

theorem exhausts {m : Nat} (h : Answered q n (.error (.noValidAnswer m)) lines after) :
    Exhausts q n lines after := by
  generalize ha : (Except.error (.noValidAnswer m) : Except PromptError Bool) = a at h
  induction h with
  | clear lines hv hb => cases ha
  | @unclear n _ line _ _ hu _ ih =>
    obtain ⟨passed, rfl, hp, hn⟩ := ih ha
    refine ⟨line :: passed, rfl, List.forall_mem_cons.mpr ⟨hu, hp⟩, ?_⟩
    rw [List.length_cons]
    exact hn.imp (congrArg (· + 1)) fun ⟨hn, h⟩ => ⟨Nat.succ_le_succ hn, h⟩
  | preset hb => cases ha
  | silent _ ih =>
    obtain ⟨passed, hl, -, -⟩ := ih ha
    obtain ⟨rfl, rfl⟩ := List.nil_eq_append_iff.mp hl
    exact ⟨[], rfl, by simp, .inr ⟨Nat.zero_le _, rfl⟩⟩
  | unanswered lines => exact ⟨[], rfl, by simp, .inl rfl⟩
  | broken e lines after => cases ha

end Answered

namespace Terminal

variable {ω : Type} [Writer ω]

theorem write_lines (text : String) (t : TerminalOn ω) :
    ((write text).apply t).2.lines = t.lines := rfl

theorem flush_lines (t : TerminalOn ω) : (flush.apply t).2.lines = t.lines := rfl

/-- A request fails before it reads, or it reads the next line, or there is none. -/
theorem ask_lines (text : String) (t : TerminalOn ω) :
    (∃ e, ((ask text).apply t).1 = .error e) ∨
    (t.lines = [] ∧ ((ask text).apply t).1 = .ok "" ∧ ((ask text).apply t).2.lines = []) ∨
    ∃ line rest, t.lines = line :: rest ∧ ((ask text).apply t).1 = valueOf line ∧
      ((ask text).apply t).2.lines = rest := by
  have hl := write_lines text t
  rw [ask]
  rcases hw : (write text).apply t with ⟨e | _, t₁⟩ <;> rw [hw] at hl
  · rw [Action.apply_bind_error hw]
    exact .inl ⟨e, rfl⟩
  · rw [Action.apply_bind_ok hw]
    have hf := flush_lines t₁
    rcases hw : flush.apply t₁ with ⟨e | _, t₂⟩ <;> rw [hw] at hf
    · rw [Action.apply_bind_error hw]
      exact .inl ⟨e, rfl⟩
    · rw [Action.apply_bind_ok hw, readLine, Action.apply_ofFun]
      have hl : t₂.lines = t.lines := hf.trans hl
      cases h : t₂.lines with
      | nil => exact .inr (.inl ⟨hl ▸ h, rfl, h⟩)
      | cons line rest => exact .inr (.inr ⟨line, rest, hl ▸ h, rfl, rfl⟩)

theorem askUpTo_answered (q : Question) (n : Nat) (t : TerminalOn ω) :
    Answered q n ((askUpTo q n).apply t).1 t.lines ((askUpTo q n).apply t).2.lines := by
  induction n generalizing t with
  | zero =>
    have hl : ((writeLine "").apply t).2.lines = t.lines := write_lines _ t
    rw [askUpTo, Action.apply_bind, Action.apply_orFail]
    generalize (writeLine "").apply t = x at hl ⊢
    obtain ⟨e | _, t'⟩ := x
    · exact .broken e _ _
    · rw [← hl]
      exact .unanswered _
  | succ n ih =>
    have hl := ask_lines q.text t
    rw [askUpTo]
    rcases ha : (ask q.text).apply t with ⟨r, t'⟩
    rw [ha] at hl
    rcases hl with ⟨e, rfl⟩ | ⟨hl, rfl, hl'⟩ | ⟨line, rest, hl, rfl, rfl⟩
    · rw [Action.apply_bind_error (Action.apply_orFail_error ha _)]
      exact .broken _ _ _
    · -- The input is at its end, so every attempt reads an empty line.
      change t'.lines = [] at hl'
      rw [hl, Action.apply_bind_ok (Action.apply_orFail_ok ha _)]
      cases hb : q.reading? "" with
      | some b =>
        rw [Action.apply_pure, hl']
        exact .preset hb
      | none =>
        have h := ih t'
        rw [hl'] at h
        exact .silent h
    · rw [hl]
      cases hv : valueOf line with
      | error e =>
        rw [hv] at ha
        rw [Action.apply_bind_error (Action.apply_orFail_error ha _)]
        exact .broken _ _ _
      | ok value =>
        rw [hv] at ha
        rw [Action.apply_bind_ok (Action.apply_orFail_ok ha _)]
        cases hb : q.reading? value with
        | some b => exact .clear _ hv hb
        | none =>
          exact .unclear ⟨value, hv, hb⟩ (ih t')

end Terminal

namespace Console

variable {ω κ : Type} [Writer ω]

/-- Questions are put at a terminal, and nothing else reads its lines. -/
structure Prompts (console : Console κ) (terminal : κ → TerminalOn ω) : Prop where
  answer (q : Question) (k : κ) :
    (console.ask q k).1 = ((Terminal.askYesNo q).apply (terminal k)).1
  asked (q : Question) (k : κ) :
    terminal (console.ask q k).2 = ((Terminal.askYesNo q).apply (terminal k)).2
  written (bs : Bytes) (k : κ) : (terminal (console.write bs k).2).lines = (terminal k).lines
  flushed (k : κ) : (terminal (console.flush k).2).lines = (terminal k).lines

theorem screen_prompts : (screen : Console (TerminalOn ω)).Prompts id :=
  ⟨fun _ _ => rfl, fun _ _ => rfl, fun _ _ => rfl, fun _ => rfl⟩

theorem Prompts.answered {console : Console κ} {terminal : κ → TerminalOn ω}
    (h : console.Prompts terminal) (q : Question) (k : κ) :
    Answered q q.attempts (console.ask q k).1 (terminal k).lines
      (terminal (console.ask q k).2).lines := by
  rw [h.answer, h.asked]
  exact Terminal.askUpTo_answered q q.attempts (terminal k)

end Console

inductive Heard : List Event → List Bytes → List Bytes → Prop
  | nil (lines : List Bytes) : Heard [] lines lines
  | call (c : Call) (a : c.Answer) {t : List Event} {lines after : List Bytes}
    (h : Heard t lines after) : Heard (.call c a :: t) lines after
  | question {q : Question} {a : Except PromptError Bool} {t : List Event}
    {lines rest after : List Bytes} (ha : Answered q q.attempts a lines rest)
    (h : Heard t rest after) : Heard (.question q a :: t) lines after

theorem Heard.of_call {c : Call} {a : c.Answer} {t : List Event} {lines after : List Bytes}
    (h : Heard (.call c a :: t) lines after) : Heard t lines after := by
  cases h with
  | call _ _ h => exact h

theorem Heard.of_question {q : Question} {a : Except PromptError Bool} {t : List Event}
    {lines after : List Bytes} (h : Heard (.question q a :: t) lines after) :
    ∃ rest, Answered q q.attempts a lines rest ∧ Heard t rest after := by
  cases h with
  | question ha h => exact ⟨_, ha, h⟩

theorem Heard.split {t u : List Event} {lines after : List Bytes}
    (h : Heard (t ++ u) lines after) : ∃ rest, Heard t lines rest ∧ Heard u rest after := by
  induction t generalizing lines with
  | nil => exact ⟨lines, .nil lines, h⟩
  | cons x t ih =>
    cases h with
    | call c a h =>
      obtain ⟨rest, ht, hu⟩ := ih h
      exact ⟨rest, .call c a ht, hu⟩
    | question ha h =>
      obtain ⟨rest, ht, hu⟩ := ih h
      exact ⟨rest, .question ha ht, hu⟩

theorem Heard.of_calls {t : List Event} {lines after : List Bytes} (h : Heard t lines after)
    (ht : ∀ x ∈ t, x.isCall = true) : after = lines := by
  induction h with
  | nil => rfl
  | call c a _ ih => exact ih fun x hx => ht x (List.mem_cons_of_mem _ hx)
  | question => exact absurd (ht _ List.mem_cons_self) (by simp [Event.isCall])

theorem Site.Path.heard {δ κ ω : Type} [Writer ω] {site : Site δ κ} {terminal : κ → TerminalOn ω}
    (hc : site.console.Prompts terminal) {s t : Session δ κ} {ms : List Move}
    (h : site.Path s ms t) :
    Heard (recorded (incidents ms)) (terminal s.console).lines (terminal t.console).lines := by
  induction h with
  | nil s => exact .nil _
  | cons hm _ ih =>
    cases hm with
    | call => exact .call _ _ ih
    | question => exact .question (hc.answered _ _) ih
    | write bs =>
      rw [← hc.written bs, recorded_write]
      exact ih
    | flush =>
      rw [← hc.flushed, recorded_flush]
      exact ih
    | takeStdin | setClock => exact ih

end Provisioner
