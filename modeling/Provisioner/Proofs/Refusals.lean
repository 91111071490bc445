import Provisioner.Proofs.Rounds

namespace Provisioner.Terminal

namespace Request

/-- The line settles what is asked for: it is no text, or its value is taken. An empty value is not
checked. -/
inductive Settles (r : Request) (check : Validator) (line : Bytes) :
    Except PromptError (Option String) → Prop
  | broken (h : Text.decode? line = none) : Settles r check line (.error (.io .notText))
  | empty (h : valueOf line = .ok "") (ha : r.allowEmpty = true) :
    Settles r check line (.ok (some ""))
  | accepted {value : String} (h : valueOf line = .ok value) (hv : value ≠ "")
    (hc : check value = none) : Settles r check line (.ok (some value))

/-- The line gives a value that is not taken, so another one is asked for. -/
def Refuses (r : Request) (check : Validator) (line : Bytes) : Prop :=
  ∃ value reason, valueOf line = .ok value ∧ r.judge check value = .refused reason

def prompt (r : Request) : String := s!"{r.message}: "

def objections (check : Validator) (line : Bytes) : List String :=
  match valueOf line with
  | .ok value => if value = "" then [] else (check value).toList
  | .error _ => []

def hints (r : Request) (left : Nat) : List String := if r.hint = "" ∨ left = 0 then [] else [r.hint]

/-- What is shown in a round if its line is refused. -/
def refusal (r : Request) (check : Validator) (left : Nat) (line : Bytes) : List String :=
  r.prompt :: (objections check line ++ r.hints left).map (· ++ "\n")

variable {r : Request} {check check' : Validator} {line : Bytes} {value : String}
  {a : Except PromptError (Option String)}

theorem judge_empty (r : Request) (check : Validator) :
    r.judge check "" = if r.allowEmpty then .taken else .refused none := rfl

theorem judge_entered (h : value ≠ "") :
    r.judge check value = (check value).elim .taken (.refused ∘ some) := by
  unfold judge
  rw [if_neg (mt String.isEmpty_iff.mp h)]
  cases check value <;> rfl

theorem judge_congr (h : value ≠ "" → check' value = check value) :
    r.judge check' value = r.judge check value := by
  by_cases he : value = ""
  · rw [he, judge_empty, judge_empty]
  · rw [judge_entered he, judge_entered he, h he]

theorem judge_taken (h : r.judge check value = .taken) :
    value = "" ∧ r.allowEmpty = true ∨ value ≠ "" ∧ check value = none := by
  by_cases he : value = ""
  · rw [he, judge_empty] at h
    split at h
    · exact .inl ⟨he, ‹_›⟩
    · cases h
  · rw [judge_entered he] at h
    cases hc : check value with
    | none => exact .inr ⟨he, rfl⟩
    | some reason =>
      rw [hc] at h
      cases h

theorem judge_refused {reason : Option String} (h : r.judge check value = .refused reason) :
    reason = if value = "" then none else check value := by
  by_cases he : value = ""
  · rw [he, judge_empty] at h
    rw [if_pos he]
    split at h <;> cases h
    rfl
  · rw [judge_entered he] at h
    rw [if_neg he]
    cases hc : check value <;> rw [hc] at h <;> cases h
    rfl

theorem settles_of_taken (hv : valueOf line = .ok value) (h : r.judge check value = .taken) :
    r.Settles check line (.ok (some value)) := by
  obtain ⟨rfl, ha⟩ | ⟨he, hc⟩ := judge_taken h
  · exact .empty hv ha
  · exact .accepted hv he hc

/-- What a line settles is the failure to read it, or the value that is taken. -/
theorem Settles.inv (h : r.Settles check line a) :
    (valueOf line = .error .notText ∧ a = .error (.io .notText)) ∨
      ∃ value, valueOf line = .ok value ∧ r.judge check value = .taken ∧ a = .ok (some value) := by
  cases h with
  | broken h => exact .inl ⟨by rw [valueOf, h], rfl⟩
  | empty h ha => exact .inr ⟨"", h, by rw [judge_empty, if_pos ha], rfl⟩
  | accepted h hv hc => exact .inr ⟨_, h, by rw [judge_entered hv, hc]; rfl, rfl⟩

theorem refuses_iff : r.Refuses check line ↔ ¬ ∃ a, r.Settles check line a := by
  constructor
  · rintro ⟨value, reason, hv, hj⟩ ⟨a, ha⟩
    obtain ⟨he, -⟩ | ⟨value', hv', hj', -⟩ := ha.inv
    · cases hv.symm.trans he
    · cases hv.symm.trans hv'
      cases hj.symm.trans hj'
  · intro h
    cases hv : valueOf line with
    | error e => exact absurd ⟨_, .broken (valueOf_eq_error hv).1⟩ h
    | ok value =>
      cases hj : r.judge check value with
      | taken => exact absurd ⟨_, settles_of_taken hv hj⟩ h
      | refused reason => exact ⟨value, reason, hv, hj⟩

theorem response_eq {reason : Option String} (hv : valueOf line = .ok value)
    (h : r.judge check value = .refused reason) (left : Nat) :
    r.response reason left = objections check line ++ r.hints left := by
  have hr : reason.toList = objections check line := by
    rw [judge_refused h, apply_ite Option.toList, Option.toList_none]
    simp only [objections, hv]
  rw [response, hr, hints]
  simp [String.isEmpty_iff]

end Request

variable {ω : Type} [Writer ω] {holds : ω → Bytes → Prop} {written : Bytes} {t u : TerminalOn ω}
  {r : Request} {check check' : Validator} {n : Nat} {value : String}

theorem askValueUpTo_error {e : IoError} (hu : (ask r.prompt).apply t = (.error e, u)) (n : Nat) :
    (askValueUpTo r check (n + 1)).apply t = (.error e, u) :=
  Action.apply_bind_error hu _

theorem askValueUpTo_taken (hu : (ask r.prompt).apply t = (.ok value, u))
    (hj : r.judge check value = .taken) (n : Nat) :
    (askValueUpTo r check (n + 1)).apply t = (.ok (some value), u) := by
  refine (Action.apply_bind_ok hu _).trans ?_
  rw [hj]
  rfl

theorem askValueUpTo_refused {reason : Option String}
    (hu : (ask r.prompt).apply t = (.ok value, u)) (hj : r.judge check value = .refused reason)
    (n : Nat) : (askValueUpTo r check (n + 1)).apply t =
      (writeLines (r.response reason n) >>= fun _ => askValueUpTo r check n).apply u := by
  refine (Action.apply_bind_ok hu _).trans ?_
  rw [hj]

theorem askValueUpTo_rounds (hw : Writer.Unfailing holds) (r : Request) (check : Validator) :
    Rounds holds (fun n => (askValueUpTo r check n).orFail PromptError.io) (r.Settles check)
      (r.refusal check) r.prompt where
  settled ht h n := by
    obtain ⟨u, hu, hl⟩ := ask_leads hw ht r.prompt
    refine ⟨u, ?_, hl⟩
    obtain ⟨hv, rfl⟩ | ⟨value, hv, hj, rfl⟩ := h.inv
    · exact Action.apply_orFail_error (askValueUpTo_error (hv ▸ hu) n) _
    · exact Action.apply_orFail_ok (askValueUpTo_taken (hv ▸ hu) hj n) _
  unsettled ht h n := by
    obtain ⟨value, reason, hv, hj⟩ := Request.refuses_iff.mpr h
    obtain ⟨u, hu, hl⟩ := ask_leads hw ht r.prompt
    obtain ⟨v, hs, hl'⟩ := writeLines_leads hw (hl.screen ht) (r.response reason n)
    rw [Request.response_eq hv hj] at hl'
    rw [hv] at hu
    have hn : (askValueUpTo r check (n + 1)).apply _ = (askValueUpTo r check n).apply v :=
      (askValueUpTo_refused hu hj n).trans (Action.apply_bind_ok hs _)
    exact ⟨v, by rw [Action.apply_orFail, hn, ← Action.apply_orFail], hl.trans hl'⟩

theorem writeLines_lines (texts : List String) (t : TerminalOn ω) :
    ((writeLines texts).apply t).2.lines = t.lines := by
  induction texts generalizing t with
  | nil => rfl
  | cons text texts ih =>
    have hl := write_lines (text ++ "\n") t
    rcases hw : (write (text ++ "\n")).apply t with ⟨e | v, u⟩ <;> rw [hw] at hl
    · rw [writeLines, writeLine, Action.apply_bind_error hw]
      exact hl
    · rw [writeLines, writeLine, Action.apply_bind_ok hw, ih]
      exact hl

/-- Only values that are not empty matter, and only those of lines before which no line has settled
what is asked for. Output may fail here. -/
theorem askValueUpTo_congr (h : ∀ j < n, (∀ k < j, ¬ ∃ a, r.Settles check (t.line k) a) →
    ∀ value, valueOf (t.line j) = .ok value → value ≠ "" → check' value = check value) :
    (askValueUpTo r check' n).apply t = (askValueUpTo r check n).apply t := by
  -- The checks only have to agree on the lines that are reached, and these are fewer from each
  -- attempt to the next.
  induction n generalizing t with
  | zero => rfl
  | succ n ih =>
    rcases hu : (ask r.prompt).apply t with ⟨e | value, u⟩
    · rw [askValueUpTo_error hu, askValueUpTo_error hu]
    · obtain ⟨hv, hl⟩ := ask_reads hu
      have hj : r.judge check' value = r.judge check value := Request.judge_congr fun he =>
        h 0 (Nat.succ_pos n) (fun _ hk => absurd hk (Nat.not_lt_zero _)) value hv he
      cases hr : r.judge check value with
      | taken => rw [askValueUpTo_taken hu (hj.trans hr), askValueUpTo_taken hu hr]
      | refused reason =>
        rw [askValueUpTo_refused hu (hj.trans hr), askValueUpTo_refused hu hr]
        have hw := writeLines_lines (r.response reason n) u
        rcases hs : (writeLines (r.response reason n)).apply u with ⟨e | done, v⟩ <;> rw [hs] at hw
        · rw [Action.apply_bind_error hs, Action.apply_bind_error hs]
        · rw [Action.apply_bind_ok hs, Action.apply_bind_ok hs]
          have hline (j : Nat) : v.line j = t.line (j + 1) := line_of_drop (hw.trans hl) j
          refine ih fun j hjn hk value' hv' he =>
            h (j + 1) (Nat.succ_lt_succ hjn) (fun k hkj => ?_) value' (hline j ▸ hv') he
          cases k with
          | zero => exact Request.refuses_iff.mp ⟨value, reason, hv, hr⟩
          | succ k => exact hline k ▸ hk k (Nat.lt_of_succ_lt_succ hkj)

/-- A value is asked for up to the first line that settles it, and what that line settles is the
result. Without one nothing is provided. The check is asked about the values of lines up to there,
and only about those that are not empty. -/
theorem askValue_settles (hw : Writer.Unfailing holds) (r : Request) (check : Validator)
    (t : TerminalOn ω) (ht : holds t.screen written) :
    (∀ i a, i < r.attempts → (∀ j < i, ¬ ∃ a, r.Settles check (t.line j) a) →
      r.Settles check (t.line i) a → ∃ u, (askValue r check).apply t = (a, u) ∧
        Leads holds t u (i + 1) (((List.range i).flatMap fun j =>
          r.refusal check (r.attempts - (j + 1)) (t.line j)) ++ [r.prompt])) ∧
    ((∀ j < r.attempts, ¬ ∃ a, r.Settles check (t.line j) a) →
      ∃ u, (askValue r check).apply t = (.ok none, u) ∧
        Leads holds t u r.attempts (((List.range r.attempts).flatMap fun j =>
          r.refusal check (r.attempts - (j + 1)) (t.line j)) ++ ["<value not provided>\n"])) ∧
    ∀ check' : Validator, (∀ j < r.attempts, (∀ k < j, ¬ ∃ a, r.Settles check (t.line k) a) →
      ∀ value, valueOf (t.line j) = .ok value → value ≠ "" → check' value = check value) →
      (askValue r check').apply t = (askValue r check).apply t := by
  have hr := askValueUpTo_rounds hw r check
  refine ⟨fun i a hi hj ha => hr.ends ht hi hj ha, fun hj => ?_, fun check' h => ?_⟩
  · obtain ⟨u, hu, hl⟩ := hr.leads ht hj 0
    obtain ⟨v, hv, hl'⟩ := write_leads hw (hl.screen ht) "<value not provided>\n"
    rw [Nat.zero_add] at hu hl
    have hn : (askValueUpTo r check 0).apply u = (.ok none, v) := Action.apply_bind_ok hv _
    exact ⟨v, hu.trans (Action.apply_orFail_ok hn _), hl.trans hl'⟩
  · rw [askValue, askValue, Action.apply_orFail, Action.apply_orFail, askValueUpTo_congr h]

def onlyGood : Validator := fun value => if value = "good" then none else some s!"{value} rejected"

def picky (attempts : Nat) : Request := { message := "Value", hint := "try again", attempts }

def wavering : Terminal :=
  ⟨[Text.bytes "bad", Text.bytes "\" \"", Text.bytes "\"good\"", Text.bytes "more"], {}⟩

theorem wavering_settles : (Writer.Unfailing Sink.Open ∧ Sink.Open wavering.screen []) ∧
    (∀ m, ∀ j < 2, ¬ ∃ a, (picky m).Settles onlyGood (wavering.line j) a) ∧
    (picky 3).Settles onlyGood (wavering.line 2) (.ok (some "good")) ∧
    (∃ u, (askValue (picky 3) onlyGood).apply wavering = (.ok (some "good"), u) ∧
      u.lines = [Text.bytes "more"] ∧ u.screen.written =
        Text.bytes "Value: bad rejected\ntry again\nValue: try again\nValue: ") ∧
    (∃ u, (askValue (picky 2) onlyGood).apply wavering = (.ok none, u) ∧
      u.lines.length = 2 ∧ u.screen.written =
        Text.bytes "Value: bad rejected\ntry again\nValue: <value not provided>\n") ∧
    (askValue (picky 1) fun _ => some "bad rejected").apply wavering =
      (askValue (picky 1) onlyGood).apply wavering := by
  have hw : Writer.Unfailing Sink.Open ∧ Sink.Open wavering.screen [] := ⟨Sink.open_unfailing, rfl⟩
  have hb : valueOf (wavering.line 0) = .ok "bad" := by decide +kernel
  have hr (m : Nat) : ∀ j < 2, ¬ ∃ a, (picky m).Settles onlyGood (wavering.line j) a := by
    intro j hj
    refine Request.refuses_iff.mp ?_
    obtain rfl | rfl : j = 0 ∨ j = 1 := by omega
    · exact ⟨"bad", some "bad rejected", hb, rfl⟩
    · exact ⟨"", none, by decide +kernel, rfl⟩
  have hg : (picky 3).Settles onlyGood (wavering.line 2) (.ok (some "good")) :=
    .accepted (by decide +kernel) (by decide) (by decide)
  have hs (m : Nat) := askValue_settles hw.1 (picky m) onlyGood wavering hw.2
  obtain ⟨u, hu, hl⟩ := (hs 3).1 2 _ (by decide) (hr 3) hg
  obtain ⟨v, hv, hl'⟩ := (hs 2).2.1 (hr 2)
  refine ⟨hw, hr, hg, ⟨u, hu, hl.lines, ?_⟩, ⟨v, hv, congrArg List.length hl'.lines, ?_⟩, ?_⟩
  · exact (congrArg Sink.written (hl.screen hw.2)).trans (by decide +kernel)
  · exact (congrArg Sink.written (hl'.screen hw.2)).trans (by decide +kernel)
  · refine (hs 1).2.2 _ fun j hj _ value hv _ => ?_
    obtain rfl := Nat.lt_one_iff.mp hj
    cases hb.symm.trans hv
    decide

/-- A line that is no text ends the dialogue with a failure, and so does output that fails. In the
first case there is no value to be taken, in the second there is. -/
theorem garbled_value_fails :
    ((∀ value, ¬ (picky 1).Settles onlyGood [0xFF] (.ok (some value))) ∧
      ((askValue (picky 1) onlyGood).apply (⟨[[0xFF]], {}⟩ : Terminal)).1 =
        .error (.io .notText)) ∧
    (picky 1).Settles onlyGood (Text.bytes "good") (.ok (some "good")) ∧
      ((askValue (picky 1) onlyGood).apply
        (⟨[Text.bytes "good"], { limit := some 0 }⟩ : Terminal)).1 =
          .error (.io (.other "output full")) := by
  have hd : Text.decode? [0xFF] = none := by decide +kernel
  refine ⟨⟨fun value h => ?_, by decide +kernel⟩,
    .accepted (by decide +kernel) (by decide) (by decide), by decide +kernel⟩
  obtain ⟨-, he⟩ | ⟨value, hv, -⟩ := h.inv
  · cases he
  · rw [valueOf, hd] at hv
    cases hv

end Provisioner.Terminal
