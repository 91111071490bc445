import Provisioner.Proofs.Moves

namespace Provisioner

abbrev Chronicle (ε α : Type) := List Move → Except ε α → Prop

abbrev Account (ε α : Type) := List Incident → Except ε α → Prop

variable {δ κ ε ε' α β : Type}

namespace Account

/-- What is left to be told after some incidents. -/
def after (P : Account ε α) (is : List Incident) : Account ε α := fun js r => P (is ++ js) r

def chronicle (P : Account ε α) : Chronicle ε α := fun ms r => P (incidents ms) r

theorem after_chronicle (P : Account ε α) (ms : List Move) :
    (P.after (incidents ms)).chronicle = fun ns r => P.chronicle (ms ++ ns) r := by
  funext ns r
  unfold chronicle after
  rw [incidents_append]

end Account

namespace Site

def Makes (site : Site δ κ) (a : Run δ κ ε α) (P : Chronicle ε α) : Prop :=
  ∀ s, ∃ ms, site.Path s ms (a.apply s).2 ∧ P ms (a.apply s).1

def Performs (site : Site δ κ) (a : Run δ κ ε α) (P : Account ε α) : Prop :=
  ∀ s, ∃ ms, site.Path s ms (a.apply s).2 ∧ P (incidents ms) (a.apply s).1

section Chronicles

variable {site : Site δ κ} {P P' : Chronicle ε α} {R : Chronicle ε β} {a : Run δ κ ε α}

theorem makes_of_step (h : ∀ s, ∃ m, site.Step s m (a.apply s).2 ∧ P [m] (a.apply s).1) :
    site.Makes a P := by
  intro s
  obtain ⟨m, hs, hr⟩ := h s
  exact ⟨[m], hs.path, hr⟩

theorem makes_still {r : Except ε α} (ha : ∀ s, a.apply s = (r, s)) (h : P [] r) :
    site.Makes a P := by
  intro s
  rw [ha s]
  exact ⟨[], .nil s, h⟩

theorem makes_pure {v : α} (h : P [] (.ok v)) : site.Makes (pure v) P :=
  makes_still (fun _ => rfl) h

theorem makes_throw {e : ε} (h : P [] (.error e)) : site.Makes (throw e) P :=
  makes_still (fun _ => rfl) h

theorem Makes.mono (h : site.Makes a P) (hP : ∀ ms r, P ms r → P' ms r) : site.Makes a P' := by
  intro s
  obtain ⟨ms, hp, hr⟩ := h s
  exact ⟨ms, hp, hP _ _ hr⟩

theorem Makes.bind {k : α → Run δ κ ε β} (ha : site.Makes a P)
    (hk : ∀ ms v, P ms (.ok v) → site.Makes (k v) fun ns r => R (ms ++ ns) r)
    (he : ∀ ms e, P ms (.error e) → R ms (.error e)) : site.Makes (a >>= k) R := by
  intro s
  obtain ⟨ms, hp, hr⟩ := ha s
  rw [Action.apply_bind]
  rcases h : a.apply s with ⟨e | v, t⟩ <;> rw [h] at hp hr
  · exact ⟨ms, hp, he _ _ hr⟩
  · obtain ⟨ns, hq, hr'⟩ := hk _ v hr t
    exact ⟨ms ++ ns, hp.append hq, hr'⟩

theorem Makes.orFail {f : ε → ε'} {R : Chronicle ε' α}
    (h : site.Makes a fun ms r => R ms (r.mapError f)) : site.Makes (a.orFail f) R := by
  intro s
  obtain ⟨ms, hp, hr⟩ := h s
  rw [Action.apply_orFail]
  exact ⟨ms, hp, hr⟩

theorem told_move_call (c : Call) : site.Makes (site.call c : Run δ κ ε c.Answer)
    fun ms r => ∃ a, ms = [.call c a] ∧ r = .ok a :=
  makes_of_step fun s => ⟨_, .call c s, _, rfl, rfl⟩

theorem makes_call {c : Call} {k : c.Answer → Run δ κ ε β}
    (hk : ∀ a, site.Makes (k a) fun ms r => R (.call c a :: ms) r) :
    site.Makes (site.call c >>= k) R := by
  refine (told_move_call c).bind ?_ ?_
  · rintro ms a ⟨_, rfl, h⟩
    cases h
    exact hk a
  · rintro ms e ⟨_, -, h⟩
    cases h

theorem makes_ask {q : Question} {k : Except PromptError Bool → Run δ κ ε β}
    (hk : ∀ a, site.Makes (k a) fun ms r => R (.question q a :: ms) r) :
    site.Makes ((site.ask q).outcome >>= k) R := by
  refine Makes.bind (P := fun ms r => ∃ a, ms = [.question q a] ∧ r = .ok a)
    (makes_of_step fun s => ⟨_, .question q s, _, rfl, rfl⟩) ?_ ?_
  · rintro ms a ⟨_, rfl, h⟩
    cases h
    exact hk a
  · rintro ms e ⟨_, -, h⟩
    cases h

end Chronicles

section Accounts

variable {site : Site δ κ} {P : Account ε α} {R : Account ε β}

theorem performs_of_step {a : Run δ κ ε α} (h : ∀ s, ∃ m, site.Step s m (a.apply s).2 ∧
    P (incidents [m]) (a.apply s).1) : site.Performs a P :=
  makes_of_step (P := P.chronicle) h

theorem performs_still {a : Run δ κ ε α} {r : Except ε α} (ha : ∀ s, a.apply s = (r, s))
    (h : P [] r) : site.Performs a P :=
  makes_still (P := P.chronicle) ha h

theorem performs_pure {v : α} (h : P [] (.ok v)) : site.Performs (pure v) P :=
  performs_still (fun _ => rfl) h

theorem performs_throw {e : ε} (h : P [] (.error e)) : site.Performs (throw e) P :=
  performs_still (fun _ => rfl) h

theorem Performs.mono {P' : Account ε α} {a : Run δ κ ε α} (h : site.Performs a P)
    (hP : ∀ is r, P is r → P' is r) : site.Performs a P' :=
  Makes.mono (P := P.chronicle) h fun ms => hP (incidents ms)

theorem Performs.bind {a : Run δ κ ε α} {k : α → Run δ κ ε β} (ha : site.Performs a P)
    (hk : ∀ is v, P is (.ok v) → site.Performs (k v) (R.after is))
    (he : ∀ is e, P is (.error e) → R is (.error e)) : site.Performs (a >>= k) R := by
  refine Makes.bind (P := P.chronicle) (R := R.chronicle) ha (fun ms v h => ?_)
    fun ms => he (incidents ms)
  rw [← Account.after_chronicle]
  exact hk _ v h

theorem Performs.orFail {a : Run δ κ ε α} {f : ε → ε'} {R : Account ε' α}
    (h : site.Performs a fun is r => R is (r.mapError f)) : site.Performs (a.orFail f) R :=
  Makes.orFail (R := R.chronicle) h

theorem told_call (c : Call) : site.Performs (site.call c : Run δ κ ε c.Answer)
    fun is r => ∃ a, is = [.call c a] ∧ r = .ok a :=
  performs_of_step fun s => ⟨_, .call c s, _, rfl, rfl⟩

theorem performs_call {c : Call} {k : c.Answer → Run δ κ ε β}
    (hk : ∀ a, site.Performs (k a) (R.after [.call c a])) :
    site.Performs (site.call c >>= k) R :=
  makes_call (R := R.chronicle) hk

theorem performs_ask {q : Question} {k : Except PromptError Bool → Run δ κ ε β}
    (hk : ∀ a, site.Performs (k a) (R.after [.question q a])) :
    site.Performs ((site.ask q).outcome >>= k) R :=
  makes_ask (R := R.chronicle) hk

theorem performs_takeStdin {P : Account ε Bytes} (h : ∀ bs, P [] (.ok bs)) :
    site.Performs takeStdin P :=
  performs_of_step fun s => ⟨_, .takeStdin s, h _⟩

inductive Shown (f : IoError → ε) : Account ε Unit
  | shown : Shown f [] (.ok ())
  | failed (e : IoError) : Shown f [.outputFailed e] (.error (f e))

theorem write_performs (bs : Bytes) (f : IoError → ε) :
    site.Performs ((site.write bs).orFail f) (Shown f) := by
  refine .orFail (performs_of_step fun s => ⟨_, .write bs s, ?_⟩)
  change Shown f (incidents [.write bs (site.console.write bs s.console).1])
    ((site.console.write bs s.console).1.mapError f)
  rcases (site.console.write bs s.console).1 with e | _
  · exact .failed e
  · exact .shown

theorem flush_performs (f : IoError → ε) :
    site.Performs (site.flush.orFail f) (Shown f) := by
  refine .orFail (performs_of_step fun s => ⟨_, .flush s, ?_⟩)
  change Shown f (incidents [.flush (site.console.flush s.console).1])
    ((site.console.flush s.console).1.mapError f)
  rcases (site.console.flush s.console).1 with e | _
  · exact .failed e
  · exact .shown

/-- More is done after some output only if all of it is taken. -/
theorem Performs.afterShowing {a : Run δ κ ε Unit} {k : Unit → Run δ κ ε β} {f : IoError → ε}
    (ha : site.Performs a (Shown f)) (hk : site.Performs (k ()) R)
    (he : ∀ e, R [.outputFailed e] (.error (f e))) : site.Performs (a >>= k) R := by
  refine ha.bind ?_ ?_
  · intro is v h
    cases h
    exact hk
  · intro is e h
    cases h
    exact he _

/-- A reply that was told is taken for what it holds, or its failure ends the part. -/
theorem Performs.demand {a : Run δ κ ε (Reply α)} {told : Reply α → Incident}
    {k : α → Run δ κ ε β} {f : DaemonError → ε}
    (ha : site.Performs a fun is r => ∃ reply, is = [told reply] ∧ r = .ok reply)
    (hk : ∀ v, site.Performs (k v) (R.after [told (.ok v)]))
    (he : ∀ e, R [told (.error e)] (.error (f e))) :
    site.Performs (a >>= fun reply => Site.demand reply f >>= k) R := by
  refine ha.bind ?_ ?_
  · rintro is reply ⟨_, rfl, h⟩
    cases h
    cases reply with
    | error e => exact performs_still (fun _ => rfl) (he e)
    | ok v => exact hk v
  · rintro is e ⟨_, -, h⟩
    cases h

end Accounts

end Site

end Provisioner
