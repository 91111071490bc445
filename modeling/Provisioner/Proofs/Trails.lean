import Provisioner.Action

namespace Provisioner

variable {σ μ ε ε' α β : Type}

inductive Trail (step : σ → μ → σ → Prop) : σ → List μ → σ → Prop
  | nil (s : σ) : Trail step s [] s
  | cons {s t u : σ} {m : μ} {ms : List μ} (h : step s m t) (h' : Trail step t ms u) :
    Trail step s (m :: ms) u

variable {step : σ → μ → σ → Prop} {s t u : σ}

theorem Trail.single {m : μ} (h : step s m t) : Trail step s [m] t := .cons h (.nil t)

theorem Trail.append {ms ns : List μ} (h : Trail step s ms t) (h' : Trail step t ns u) :
    Trail step s (ms ++ ns) u := by
  induction h with
  | nil s => exact h'
  | cons hm _ ih => exact .cons hm (ih h')

theorem Trail.keeps {γ : Type} {f : σ → γ} {ms : List μ} (h : Trail step s ms t)
    (hf : ∀ m ∈ ms, ∀ s t, step s m t → f t = f s) : f t = f s := by
  induction h with
  | nil s => rfl
  | cons hm _ ih =>
    rw [List.forall_mem_cons] at hf
    exact (ih hf.2).trans (hf.1 _ _ hm)

theorem Trail.lift {τ ν : Type} {step' : τ → ν → τ → Prop} {f : σ → τ} {g : μ → ν} {ms : List μ}
    (h : Trail step s ms t) (hf : ∀ s m t, step s m t → step' (f s) (g m) (f t)) :
    Trail step' (f s) (ms.map g) (f t) := by
  induction h with
  | nil s => exact .nil _
  | cons hm _ ih => exact .cons (hf _ _ _ hm) ih

namespace Action

theorem ext {a b : Action σ ε α} (h : ∀ s, a.apply s = b.apply s) : a = b := funext h

def Goes (step : σ → μ → σ → Prop) (s : σ) (a : Action σ ε α)
    (Q : List μ → Except ε α → σ → Prop) : Prop :=
  ∃ ms, Trail step s ms (a.apply s).2 ∧ Q ms (a.apply s).1 (a.apply s).2

variable {P Q : List μ → Except ε α → σ → Prop} {a : Action σ ε α}

theorem goes_still {r : Except ε α} (ha : a.apply s = (r, s)) (h : Q [] r s) : Goes step s a Q := by
  unfold Goes
  rw [ha]
  exact ⟨[], .nil s, h⟩

theorem goes_pure {v : α} (h : Q [] (.ok v) s) : Goes step s (pure v) Q := goes_still rfl h

theorem goes_throw {e : ε} (h : Q [] (.error e) s) : Goes step s (throw e) Q := goes_still rfl h

theorem goes_of_step {m : μ} (hs : step s m (a.apply s).2)
    (h : Q [m] (a.apply s).1 (a.apply s).2) : Goes step s a Q :=
  ⟨[m], .single hs, h⟩

theorem Goes.mono (h : Goes step s a P) (hQ : ∀ ms r t, P ms r t → Q ms r t) : Goes step s a Q := by
  obtain ⟨ms, ht, hr⟩ := h
  exact ⟨ms, ht, hQ _ _ _ hr⟩

theorem Goes.also {R : Except ε α → σ → Prop} (h : Goes step s a P)
    (hr : R (a.apply s).1 (a.apply s).2) : Goes step s a fun ms r t => P ms r t ∧ R r t := by
  obtain ⟨ms, ht, hp⟩ := h
  exact ⟨ms, ht, hp, hr⟩

theorem Goes.bind {R : List μ → Except ε β → σ → Prop} {k : α → Action σ ε β}
    (ha : Goes step s a P)
    (hk : ∀ ms v t, P ms (.ok v) t → Goes step t (k v) fun ns r u => R (ms ++ ns) r u)
    (he : ∀ ms e t, P ms (.error e) t → R ms (.error e) t) : Goes step s (a >>= k) R := by
  obtain ⟨ms, ht, hr⟩ := ha
  unfold Goes
  rw [apply_bind]
  rcases h : a.apply s with ⟨e | v, t⟩ <;> rw [h] at ht hr
  · exact ⟨ms, ht, he _ _ _ hr⟩
  · obtain ⟨ns, hu, hr'⟩ := hk _ v _ hr
    exact ⟨ms ++ ns, ht.append hu, hr'⟩

theorem Goes.orFail {f : ε → ε'} {R : List μ → Except ε' α → σ → Prop}
    (h : Goes step s a fun ms r t => R ms (r.mapError f) t) : Goes step s (a.orFail f) R := by
  obtain ⟨ms, ht, hr⟩ := h
  unfold Goes
  rw [apply_orFail]
  exact ⟨ms, ht, hr⟩

theorem Goes.outcome {R : List μ → Except ε' (Except ε α) → σ → Prop}
    (h : Goes step s a fun ms r t => R ms (.ok r) t) : Goes step s a.outcome R := h

end Action

end Provisioner
