namespace Provisioner

abbrev Action (σ ε α : Type) := ExceptT ε (StateM σ) α

namespace Action

variable {σ τ ε ε' α β : Type}

def ofFun (f : σ → Except ε α × σ) : Action σ ε α := ExceptT.mk f

def apply (a : Action σ ε α) (s : σ) : Except ε α × σ := StateT.run (ExceptT.run a) s

def orFail (a : Action σ ε α) (f : ε → ε') : Action σ ε' α := ExceptT.adapt f a

def outcome (a : Action σ ε α) : Action σ ε' (Except ε α) :=
  ofFun fun s => let (r, s) := a.apply s; (.ok r, s)

def on (part : τ → σ) (back : σ → τ → τ) (a : Action σ ε α) : Action τ ε α :=
  ofFun fun t => let (r, s) := a.apply (part t); (r, back s t)

@[simp] theorem apply_ofFun (f : σ → Except ε α × σ) (s : σ) : (ofFun f).apply s = f s := rfl

@[simp] theorem apply_pure (v : α) (s : σ) : (pure v : Action σ ε α).apply s = (.ok v, s) := rfl

@[simp] theorem apply_throw (e : ε) (s : σ) :
    (throw e : Action σ ε α).apply s = (.error e, s) := rfl

theorem apply_bind (a : Action σ ε α) (f : α → Action σ ε β) (s : σ) :
    (a >>= f).apply s =
      match a.apply s with
      | (.ok v, t) => (f v).apply t
      | (.error e, t) => (.error e, t) := by
  unfold apply ExceptT.run StateT.run
  simp only [bind, ExceptT.bind, ExceptT.mk, StateT.bind, ExceptT.bindCont]
  rcases a s with ⟨r, t⟩
  cases r <;> rfl

theorem apply_bind_ok {a : Action σ ε α} {s t : σ} {v : α} (h : a.apply s = (.ok v, t))
    (f : α → Action σ ε β) : (a >>= f).apply s = (f v).apply t := by
  rw [apply_bind, h]

theorem apply_bind_error {a : Action σ ε α} {s t : σ} {e : ε} (h : a.apply s = (.error e, t))
    (f : α → Action σ ε β) : (a >>= f).apply s = (.error e, t) := by
  rw [apply_bind, h]

theorem apply_orFail (a : Action σ ε α) (f : ε → ε') (s : σ) :
    (a.orFail f).apply s = ((a.apply s).1.mapError f, (a.apply s).2) := by
  unfold orFail apply ExceptT.adapt ExceptT.run StateT.run
  simp only [Functor.map, ExceptT.mk, StateT.map]
  rcases a s with ⟨r, t⟩
  cases r <;> rfl

theorem apply_orFail_ok {a : Action σ ε α} {s t : σ} {v : α} (h : a.apply s = (.ok v, t))
    (f : ε → ε') : (a.orFail f).apply s = (.ok v, t) := by
  rw [apply_orFail, h]
  rfl

theorem apply_orFail_error {a : Action σ ε α} {s t : σ} {e : ε} (h : a.apply s = (.error e, t))
    (f : ε → ε') : (a.orFail f).apply s = (.error (f e), t) := by
  rw [apply_orFail, h]
  rfl

@[simp] theorem apply_outcome (a : Action σ ε α) (s : σ) :
    (a.outcome : Action σ ε' _).apply s = (.ok (a.apply s).1, (a.apply s).2) := rfl

@[simp] theorem apply_lift (r : Except ε α) (s : σ) :
    (liftM r : Action σ ε α).apply s = (r, s) := rfl

end Action

end Provisioner
