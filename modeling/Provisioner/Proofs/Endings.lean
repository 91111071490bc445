import Provisioner.Proofs.Gathering
import Provisioner.Proofs.Trails

namespace Provisioner

variable {ω : Type}

/-- Output that is ready stays ready, and only faults make it fail. -/
structure Writer.Ready [Writer ω] (ready : ω → Prop) (faults : Prop) : Prop where
  write {w : ω} (h : ready w) (bs : Bytes) :
    ready (Writer.write bs w).2 ∧ ((Writer.write bs w).1 = .ok () ∨ faults)
  flush {w : ω} (h : ready w) :
    ready (Writer.flush w).2 ∧ ((Writer.flush w).1 = .ok () ∨ faults)

theorem Writer.ready_of_faults [Writer ω] : Writer.Ready (fun _ : ω => True) True :=
  ⟨fun _ _ => ⟨trivial, .inr trivial⟩, fun _ => ⟨trivial, .inr trivial⟩⟩

theorem Writer.Unfailing.ready [Writer ω] {holds : ω → Bytes → Prop}
    (hw : Writer.Unfailing holds) : Writer.Ready (fun w => ∃ written, holds w written) False where
  write := by
    rintro w ⟨written, h⟩ bs
    exact ⟨⟨_, (hw.write h bs).2⟩, .inl (hw.write h bs).1⟩
  flush := by
    rintro w ⟨written, h⟩
    exact ⟨⟨_, (hw.flush h).2⟩, .inl (hw.flush h).1⟩

namespace Action

theorem orFail_pure {σ ε ε' α : Type} (v : α) (f : ε → ε') :
    (pure v : Action σ ε α).orFail f = pure v :=
  Action.ext fun _ => rfl

theorem orFail_bind {σ ε ε' α β : Type} (a : Action σ ε α) (k : α → Action σ ε β) (f : ε → ε') :
    (a >>= k).orFail f = a.orFail f >>= fun v => (k v).orFail f := by
  refine Action.ext fun s => ?_
  rw [apply_orFail, apply_bind, apply_bind, apply_orFail]
  rcases a.apply s with ⟨e | v, t⟩
  · rfl
  · exact (apply_orFail (k v) f t).symm

/-- The action leaves output ready, and `Q` tells its result with the lines that are left. -/
def Finds {σ ε α : Type} (part : σ → TerminalOn ω) (ready : ω → Prop) (s : σ) (a : Action σ ε α)
    (Q : Except ε α → List Bytes → Prop) : Prop :=
  ready (part (a.apply s).2).screen ∧ Q (a.apply s).1 (part (a.apply s).2).lines

variable {σ ε ε' α β : Type} {part : σ → TerminalOn ω} {ready : ω → Prop} {s : σ}
  {a : Action σ ε α} {P Q : Except ε α → List Bytes → Prop}

theorem finds_pure {v : α} (hs : ready (part s).screen) (h : Q (.ok v) (part s).lines) :
    (pure v : Action σ ε α).Finds part ready s Q :=
  ⟨hs, h⟩

theorem finds_throw {e : ε} (hs : ready (part s).screen) (h : Q (.error e) (part s).lines) :
    (throw e : Action σ ε α).Finds part ready s Q :=
  ⟨hs, h⟩

theorem Finds.of_apply {t : σ} {b : Action σ ε α} (hab : a.apply s = b.apply t)
    (h : b.Finds part ready t Q) : a.Finds part ready s Q := by
  unfold Finds
  rw [hab]
  exact h

theorem Finds.mono (h : a.Finds part ready s P) (hQ : ∀ r lines, P r lines → Q r lines) :
    a.Finds part ready s Q :=
  ⟨h.1, hQ _ _ h.2⟩

theorem Finds.bind {k : α → Action σ ε β} {Q : Except ε β → List Bytes → Prop}
    (h : a.Finds part ready s P)
    (hk : ∀ v t, ready (part t).screen → P (.ok v) (part t).lines → (k v).Finds part ready t Q)
    (he : ∀ e lines, P (.error e) lines → Q (.error e) lines) :
    (a >>= k).Finds part ready s Q := by
  unfold Finds at h ⊢
  rw [apply_bind]
  rcases ha : a.apply s with ⟨e | v, t⟩ <;> rw [ha] at h
  · exact ⟨h.1, he e _ h.2⟩
  · exact hk v t h.1 h.2

theorem Finds.orFail {f : ε → ε'} {Q : Except ε' α → List Bytes → Prop}
    (h : a.Finds part ready s P) (hv : ∀ v lines, P (.ok v) lines → Q (.ok v) lines)
    (he : ∀ e lines, P (.error e) lines → Q (.error (f e)) lines) :
    (a.orFail f).Finds part ready s Q := by
  unfold Finds at h ⊢
  rw [apply_orFail]
  rcases ha : a.apply s with ⟨e | v, t⟩ <;> rw [ha] at h
  · exact ⟨h.1, he e _ h.2⟩
  · exact ⟨h.1, hv v _ h.2⟩

theorem Finds.orFail_bind {f : ε → ε'} {k : α → Action σ ε' β} {Q : Except ε' β → List Bytes → Prop}
    (h : a.Finds part ready s P)
    (hk : ∀ v t, ready (part t).screen → P (.ok v) (part t).lines → (k v).Finds part ready t Q)
    (he : ∀ e lines, P (.error e) lines → Q (.error (f e)) lines) :
    (a.orFail f >>= k).Finds part ready s Q := by
  refine (h.orFail (Q := fun r lines => (∃ v, r = .ok v ∧ P (.ok v) lines) ∨
    ∃ e, r = .error (f e) ∧ P (.error e) lines) (fun v _ hv => .inl ⟨v, rfl, hv⟩)
    fun e _ hp => .inr ⟨e, rfl, hp⟩).bind ?_ ?_
  · rintro v t ht (⟨_, ⟨⟩, hv⟩ | ⟨_, ⟨⟩, -⟩)
    exact hk v t ht hv
  · rintro _ lines (⟨_, ⟨⟩, -⟩ | ⟨e, ⟨⟩, hp⟩)
    exact he e lines hp

theorem Finds.outcome {Q : Except ε' (Except ε α) → List Bytes → Prop}
    (h : a.Finds part ready s fun r lines => Q (.ok r) lines) :
    a.outcome.Finds part ready s Q := h

end Action

namespace Terminal

open Provisioner.Action

section

variable {α : Type} (faults : Prop) (settles : Bytes → Except PromptError α → Prop)
  (spent : Except PromptError α)

def Open (lines : List Bytes) (n : Nat) : Prop := ∀ j < n, ¬ ∃ a, settles (lines.getD j []) a

/-- What a dialogue of at most `n` rounds comes to, and how many lines it reads: a line settles it,
or the rounds are spent, or output fails in one of them. -/
inductive ComesTo (n : Nat) (lines : List Bytes) : Except PromptError α → Nat → Prop
  | settled {i : Nat} {a : Except PromptError α} (hi : i < n) (ho : Open settles lines i)
    (h : settles (lines.getD i []) a) : ComesTo n lines a (i + 1)
  | spent (ho : Open settles lines n) : ComesTo n lines spent n
  | broken {i : Nat} (e : IoError) (hf : faults) (hi : i ≤ n) (ho : Open settles lines i) :
    ComesTo n lines (.error (.io e)) i

variable {faults settles spent} {lines : List Bytes} {n i j k : Nat} {a b : Except PromptError α}

theorem open_zero : Open settles lines 0 := nofun

theorem open_succ (h : ¬ ∃ a, settles (lines.getD 0 []) a) (ho : Open settles (lines.drop 1) n) :
    Open settles lines (n + 1) := by
  intro j hj
  cases j with
  | zero => exact h
  | succ j =>
    exact getD_drop lines 1 j ▸ ho j (Nat.lt_of_succ_lt_succ hj)

theorem ComesTo.later (h : ¬ ∃ a, settles (lines.getD 0 []) a)
    (he : ComesTo faults settles spent n (lines.drop 1) a k) :
    ComesTo faults settles spent (n + 1) lines a (k + 1) := by
  cases he with
  | @settled i _ hi ho hs =>
    exact .settled (Nat.succ_lt_succ hi) (open_succ h ho) (getD_drop lines 1 i ▸ hs)
  | spent ho => exact .spent (open_succ h ho)
  | broken e hf hi ho => exact .broken e hf (Nat.succ_le_succ hi) (open_succ h ho)

theorem Open.unique (ho : Open settles lines i) (hs : settles (lines.getD i []) a)
    (ho' : Open settles lines j) (hs' : settles (lines.getD j []) b) : i = j := by
  obtain h | rfl | h := Nat.lt_trichotomy i j
  · exact absurd ⟨a, hs⟩ (ho' i h)
  · rfl
  · exact absurd ⟨b, hs'⟩ (ho j h)

theorem ComesTo.unique (hf : ¬faults) (hs : ∀ line a b, settles line a → settles line b → a = b)
    (h : ComesTo faults settles spent n lines a i) (h' : ComesTo faults settles spent n lines b j) :
    a = b ∧ i = j := by
  cases h with
  | settled hi ho h =>
    cases h' with
    | settled hi' ho' h' =>
      obtain rfl := ho.unique h ho' h'
      exact ⟨hs _ _ _ h h', rfl⟩
    | spent ho' => exact absurd ⟨a, h⟩ (ho' _ hi)
    | broken e hf' => exact absurd hf' hf
  | spent ho =>
    cases h' with
    | settled hi' ho' h' => exact absurd ⟨b, h'⟩ (ho _ hi')
    | spent => exact ⟨rfl, rfl⟩
    | broken e hf' => exact absurd hf' hf
  | broken e hf' => exact absurd hf' hf

end

variable [Writer ω] {ready : ω → Prop} {faults : Prop} {t u : TerminalOn ω} {n : Nat}

theorem write_finds (hw : Writer.Ready ready faults) (ht : ready t.screen) (text : String) :
    (write text).Finds id ready t fun r lines => lines = t.lines ∧ (r = .ok () ∨ faults) :=
  ⟨(hw.write ht _).1, rfl, (hw.write ht _).2⟩

theorem flush_finds (hw : Writer.Ready ready faults) (ht : ready t.screen) :
    flush.Finds id ready t fun r lines => lines = t.lines ∧ (r = .ok () ∨ faults) :=
  ⟨(hw.flush ht).1, rfl, (hw.flush ht).2⟩

def Asked (faults : Prop) (lines : List Bytes) (r : Except IoError String) (rest : List Bytes) :
    Prop :=
  r = valueOf (lines.getD 0 []) ∧ rest = lines.drop 1 ∨ faults ∧ rest = lines ∧ ∃ e, r = .error e

theorem ask_finds (hw : Writer.Ready ready faults) (ht : ready t.screen) (text : String) :
    (ask text).Finds id ready t (Asked faults t.lines) := by
  have failed {e : IoError} {lines : List Bytes}
      (h : lines = t.lines ∧ ((.error e : Except IoError Unit) = .ok () ∨ faults)) :
      Asked faults t.lines (.error e) lines :=
    .inr ⟨h.2.resolve_left nofun, h.1, e, rfl⟩
  refine (write_finds hw ht text).bind (fun _ u hu hl => ?_) fun _ _ => failed
  refine (flush_finds hw hu).bind (fun _ v hv hl' => ?_) fun _ _ h => failed ⟨h.1.trans hl.1, h.2⟩
  have hl : v.lines = t.lines := hl'.1.trans hl.1
  unfold Finds
  rw [readLine_apply, TerminalOn.line, hl]
  exact ⟨hv, .inl ⟨rfl, rfl⟩⟩

theorem writeLines_finds (hw : Writer.Ready ready faults) (ht : ready t.screen)
    (texts : List String) :
    (writeLines texts).Finds id ready t fun r lines => lines = t.lines ∧ (r = .ok () ∨ faults) := by
  induction texts generalizing t with
  | nil => exact finds_pure ht ⟨rfl, .inl rfl⟩
  | cons text texts ih =>
    refine (write_finds hw ht (text ++ "\n")).bind (fun _ u hu hl => ?_) fun e lines h => ?_
    · exact (ih hu).mono fun r lines h => ⟨h.1.trans hl.1, h.2⟩
    · exact ⟨h.1, .inr (h.2.resolve_left nofun)⟩

theorem writeLine_finds (hw : Writer.Ready ready faults) (ht : ready t.screen) (text : String) :
    (writeLine text).Finds id ready t fun r lines => lines = t.lines ∧ (r = .ok () ∨ faults) :=
  write_finds hw ht _

theorem round_finds {α : Type} {settles : Bytes → Except PromptError α → Prop}
    {spent : Except PromptError α} {k : String → Action (TerminalOn ω) PromptError α}
    (hw : Writer.Ready ready faults) (ht : ready t.screen) (text : String)
    (hb : ∀ line, Text.decode? line = none → settles line (.error (.io .notText)))
    (hk : ∀ value u, ready u.screen → valueOf (t.lines.getD 0 []) = .ok value →
      u.lines = t.lines.drop 1 → (k value).Finds id ready u fun r lines =>
        ∃ i, lines = t.lines.drop i ∧ ComesTo faults settles spent (n + 1) t.lines r i) :
    ((ask text).orFail .io >>= k).Finds id ready t fun r lines =>
      ∃ i, lines = t.lines.drop i ∧ ComesTo faults settles spent (n + 1) t.lines r i := by
  refine (ask_finds hw ht text).orFail_bind (fun value u hu ha => ?_) fun e lines ha => ?_
  · obtain ⟨hv, hl⟩ | ⟨-, -, e, he⟩ := ha
    · exact hk value u hu hv.symm hl
    · cases he
  · obtain ⟨hv, hl⟩ | ⟨hf, hl, -⟩ := ha
    · obtain ⟨hd, rfl⟩ := valueOf_eq_error hv.symm
      exact ⟨1, hl, .settled (Nat.succ_pos n) open_zero (hb _ hd)⟩
    · exact ⟨0, hl, .broken e hf (Nat.zero_le _) open_zero⟩

theorem ComesTo.round {α : Type} {settles : Bytes → Except PromptError α → Prop}
    {spent r : Except PromptError α} {lines rest rest' : List Bytes}
    (h : ¬ ∃ a, settles (lines.getD 0 []) a) (hl : rest = lines.drop 1)
    (he : ∃ i, rest' = rest.drop i ∧ ComesTo faults settles spent n rest r i) :
    ∃ i, rest' = lines.drop i ∧ ComesTo faults settles spent (n + 1) lines r i := by
  obtain ⟨i, rfl, he⟩ := he
  subst hl
  exact ⟨i + 1, by rw [List.drop_drop, Nat.add_comm], he.later h⟩

theorem askUpTo_finds (hw : Writer.Ready ready faults) (q : Question) (n : Nat)
    (ht : ready t.screen) :
    (askUpTo q n).Finds id ready t fun r lines => ∃ k, lines = t.lines.drop k ∧
      ComesTo faults q.Settles (.error (.noValidAnswer q.attempts)) n t.lines r k := by
  induction n generalizing t with
  | zero =>
    refine (writeLine_finds hw ht "").orFail_bind (fun _ u hu hl => ?_) fun e lines h => ?_
    · exact finds_throw hu ⟨0, hl.1, .spent open_zero⟩
    · exact ⟨0, h.1, .broken e (h.2.resolve_left nofun) (Nat.le_refl 0) open_zero⟩
  | succ n ih =>
    refine round_finds hw ht q.text (fun _ => .broken) fun value u hu hv hl => ?_
    cases hb : q.reading? value with
    | some b =>
      exact finds_pure hu ⟨1, hl, .settled (Nat.succ_pos n) open_zero
        (Question.settles_of_reading hv hb)⟩
    | none =>
      have hn := Question.unclear_iff.mp ⟨value, hv, hb⟩
      exact (ih hu).mono fun _ _ => ComesTo.round hn hl

theorem askYesNo_finds (hw : Writer.Ready ready faults) (q : Question) (ht : ready t.screen) :
    (askYesNo q).Finds id ready t fun r lines => ∃ k, lines = t.lines.drop k ∧
      ComesTo faults q.Settles (.error (.noValidAnswer q.attempts)) q.attempts t.lines r k :=
  askUpTo_finds hw q q.attempts ht

variable {r : Request} {check : Validator}

theorem askValueUpTo_finds (hw : Writer.Ready ready faults) (r : Request) (check : Validator)
    (n : Nat) (ht : ready t.screen) :
    ((askValueUpTo r check n).orFail PromptError.io).Finds id ready t fun a lines =>
      ∃ k, lines = t.lines.drop k ∧
        ComesTo faults (r.Settles check) (.ok none) n t.lines a k := by
  induction n generalizing t with
  | zero =>
    rw [askValueUpTo, orFail_bind, orFail_pure]
    refine (writeLine_finds hw ht _).orFail_bind (fun _ u hu hl => ?_) fun e lines h => ?_
    · exact finds_pure hu ⟨0, hl.1, .spent open_zero⟩
    · exact ⟨0, h.1, .broken e (h.2.resolve_left nofun) (Nat.le_refl 0) open_zero⟩
  | succ n ih =>
    rw [askValueUpTo, orFail_bind]
    refine round_finds hw ht r.prompt (fun _ => .broken) fun value u hu hv hl => ?_
    cases hj : r.judge check value with
    | taken =>
      simp only [orFail_pure]
      exact finds_pure hu ⟨1, hl, .settled (Nat.succ_pos n) open_zero
        (Request.settles_of_taken hv hj)⟩
    | refused reason =>
      have hn := Request.refuses_iff.mp ⟨value, reason, hv, hj⟩
      simp only [orFail_bind]
      refine (writeLines_finds hw hu _).orFail_bind (fun _ v hv' hl' => ?_) fun e lines h => ?_
      · exact (ih hv').mono fun _ _ => ComesTo.round hn (hl'.1.trans hl)
      · exact ComesTo.round hn hl
          ⟨0, h.1, .broken e (h.2.resolve_left nofun) (Nat.zero_le _) open_zero⟩

theorem askValue_finds (hw : Writer.Ready ready faults) (r : Request) (check : Validator)
    (ht : ready t.screen) :
    (askValue r check).Finds id ready t fun a lines => ∃ k, lines = t.lines.drop k ∧
      ComesTo faults (r.Settles check) (.ok none) r.attempts t.lines a k :=
  askValueUpTo_finds hw r check r.attempts ht

/-- How a list of values ends, and how many lines that reads: at a line with nothing on it, at one
that is no text, or where output fails. -/
inductive Gathers (faults : Prop) (check : Validator) (lines : List Bytes) :
    Except PromptError (List String) → Nat → Prop
  | closed {n : Nat} (hc : Closes lines n) :
    Gathers faults check lines (.ok (gathered check lines n)) (n + 1)
  | garbled {n : Nat} (hf : ∀ j < n, Filled (lines.getD j []))
    (hd : Text.decode? (lines.getD n []) = none) :
    Gathers faults check lines (.error (.io .notText)) (n + 1)
  | broken {n : Nat} (e : IoError) (h : faults) (hf : ∀ j < n, Filled (lines.getD j [])) :
    Gathers faults check lines (.error (.io e)) n

theorem Gathers.later {check : Validator} {lines : List Bytes} {e : PromptError} {k : Nat}
    (hf : Filled (lines.getD 0 [])) (h : Gathers faults check (lines.drop 1) (.error e) k) :
    Gathers faults check lines (.error e) (k + 1) := by
  have hfill {n : Nat} (h : ∀ j < n, Filled ((lines.drop 1).getD j [])) :
      ∀ j < n + 1, Filled (lines.getD j []) := by
    intro j hj
    cases j with
    | zero => exact hf
    | succ j => exact getD_drop lines 1 j ▸ h j (Nat.lt_of_succ_lt_succ hj)
  cases h with
  | garbled hj hd => exact .garbled (hfill hj) (getD_drop lines 1 _ ▸ hd)
  | broken e h hj => exact .broken e h (hfill hj)

theorem collect_finds (hw : Writer.Ready ready faults) (message : String) (check : Validator)
    (kept : List String) (ht : ready t.screen) :
    (collect message check kept t.lines).Finds id ready t fun a lines =>
      ∀ e, a = .error e → ∃ k, lines = t.lines.drop k ∧
        Gathers faults check t.lines (.error (.io e)) k := by
  -- Each round but the last one takes a line.
  induction hn : t.lines.length using Nat.strongRecOn generalizing t kept with
  | ind length ih =>
    obtain ⟨hu, hasked⟩ := ask_finds hw ht s!"{message}: "
    rcases ha : (ask s!"{message}: ").apply t with ⟨e | value, u⟩ <;> rw [ha] at hu hasked
    · have hc := collect_failed check kept ha
      refine .of_apply hc (finds_throw hu ?_)
      rintro _ ⟨⟩
      obtain ⟨hv, hl⟩ | ⟨hf, hl, -⟩ := hasked
      · obtain ⟨hd, rfl⟩ := valueOf_eq_error hv.symm
        exact ⟨1, hl, .garbled nofun hd⟩
      · exact ⟨0, hl, .broken e hf nofun⟩
    by_cases he : value = ""
    · subst he
      have hc := collect_empty check kept ha
      exact .of_apply hc (finds_pure hu nofun)
    · obtain ⟨hv, hl⟩ := ask_reads ha
      have hf : Filled (t.line 0) := ⟨value, hv, he⟩
      have hc := collect_filled check kept ha he
      refine .of_apply hc ?_
      refine (writeLines_finds hw hu _).bind (fun _ v hv' hl' => ?_) ?_
      · have hd : v.lines = t.lines.drop 1 := hl'.1.trans hl
        have hlt : v.lines.length < length := by
          rw [← hn, hf.lines_eq, hd]
          exact Nat.lt_succ_self _
        rw [← show v.lines = u.lines from hl'.1]
        refine (ih _ hlt _ hv' rfl).mono fun a lines h e hr => ?_
        obtain ⟨k, hk, hg⟩ := h e hr
        rw [id_eq, hd] at hk hg
        exact ⟨k + 1, by rw [hk, List.drop_drop, Nat.add_comm], hg.later hf⟩
      · rintro e lines ⟨rfl, hr⟩ _ ⟨⟩
        refine ⟨1, hl, .broken e (hr.resolve_left nofun) fun j hj => ?_⟩
        obtain rfl := Nat.lt_one_iff.mp hj
        exact hf

theorem askUntilEmpty_finds (hw : Writer.Ready ready faults) (message : String)
    (check : Validator) (ht : ready t.screen) :
    (askUntilEmpty message check).Finds id ready t fun a lines =>
      ∃ k, lines = t.lines.drop k ∧ Gathers faults check t.lines a k := by
  have h := collect_finds hw message check [] ht
  have hc : (askUntilEmpty message check).apply t =
      ((collect message check [] t.lines).orFail .io).apply t := rfl
  unfold Finds at h ⊢
  rw [hc, apply_orFail]
  refine ⟨h.1, ?_⟩
  rcases ha : (collect message check [] t.lines).apply t with ⟨e | values, u⟩ <;> rw [ha] at h
  · exact h.2 e rfl
  · obtain ⟨n, hn, rfl, hl⟩ := collect_ok ha
    exact ⟨n + 1, hl, .closed hn⟩

theorem Gathers.of_closes {check : Validator} {lines : List Bytes}
    {a : Except PromptError (List String)} {k : Nat} (hf : ¬faults)
    (h : Gathers faults check lines a k) (hc : Closes lines n) :
    a = .ok (gathered check lines n) ∧ k = n + 1 := by
  cases h with
  | closed hc' =>
    obtain rfl := hc.unique hc'
    exact ⟨rfl, rfl⟩
  | @garbled m hj hd =>
    have hv : ∀ value, valueOf (lines.getD m []) ≠ .ok value := by
      intro value hv
      rw [valueOf, hd] at hv
      cases hv
    obtain h | rfl | h := Nat.lt_trichotomy n m
    · exact absurd hc.empty (hj n h).not_empty
    · exact absurd hc.empty (hv _)
    · obtain ⟨value, h, -⟩ := hc.filled m h
      exact absurd h (hv value)
  | broken e h => exact absurd h hf

theorem Gathers.error_eq {check : Validator} {lines : List Bytes} {e : PromptError} {k : Nat}
    (hf : ¬faults) (h : Gathers faults check lines (.error e) k) : e = .io .notText := by
  cases h with
  | garbled => rfl
  | broken e h => exact absurd h hf

/-- The value is accepted: it is that of a line before which no line settles the request. -/
def Request.Accepts (r : Request) (check : Validator) (lines : List Bytes) (value : String) :
    Prop :=
  ∃ i < r.attempts, Open (r.Settles check) lines i ∧ valueOf (lines.getD i []) = .ok value ∧
    value ≠ "" ∧ check value = none

/-- A value that is not empty comes from a line that was accepted, and from no other. -/
theorem ComesTo.accepts {check : Validator} {lines : List Bytes} {answer : Option String} {k : Nat}
    {value : String}
    (h : ComesTo faults (r.Settles check) (.ok none) r.attempts lines (.ok answer) k) :
    answer.filter (· != "") = some value ↔ r.Accepts check lines value := by
  cases h with
  | @settled i _ hi ho h =>
    have same {value' : String} (ha : r.Accepts check lines value') :
        valueOf (lines.getD i []) = .ok value' := by
      obtain ⟨j, -, ho', hv, hn, hc⟩ := ha
      obtain rfl := ho.unique h ho' (.accepted hv hn hc)
      exact hv
    cases h with
    | empty hv =>
      refine ⟨nofun, fun ha => ?_⟩
      obtain ⟨_, -, -, -, hn, -⟩ := id ha
      exact absurd (Except.ok.inj ((same ha).symm.trans hv)) hn
    | accepted hv hn hc =>
      rw [Option.filter_some, if_pos (bne_iff_ne.mpr hn), Option.some.injEq]
      constructor
      · rintro rfl
        exact ⟨_, hi, ho, hv, hn, hc⟩
      · exact fun ha => Except.ok.inj (hv.symm.trans (same ha))
  | spent ho =>
    refine ⟨nofun, fun ⟨i, hi, _, hv, hn, hc⟩ => ?_⟩
    exact absurd ⟨_, .accepted hv hn hc⟩ (ho i hi)

end Terminal

theorem Terminal.Request.Settles.unique {r : Terminal.Request} {check : Validator} {line : Bytes}
    {a b : Except PromptError (Option String)} (h : r.Settles check line a)
    (h' : r.Settles check line b) : a = b := by
  obtain ⟨hv, rfl⟩ | ⟨value, hv, -, rfl⟩ := h.inv
  · obtain ⟨-, rfl⟩ | ⟨_, hv', -⟩ := h'.inv
    · rfl
    · cases hv.symm.trans hv'
  · obtain ⟨hv', -⟩ | ⟨_, hv', -, rfl⟩ := h'.inv
    · cases hv.symm.trans hv'
    · cases hv.symm.trans hv'
      rfl

theorem Question.Settles.unique {q : Question} {line : Bytes} {a b : Except PromptError Bool}
    (h : q.Settles line a) (h' : q.Settles line b) : a = b := by
  obtain ⟨hv, rfl⟩ | ⟨value, c, hv, hr, rfl⟩ := h.inv
  · obtain ⟨-, rfl⟩ | ⟨_, _, hv', -⟩ := h'.inv
    · rfl
    · cases hv.symm.trans hv'
  · obtain ⟨hv', -⟩ | ⟨_, _, hv', hr', rfl⟩ := h'.inv
    · cases hv.symm.trans hv'
    · cases hv.symm.trans hv'
      cases hr.symm.trans hr'
      rfl

end Provisioner
