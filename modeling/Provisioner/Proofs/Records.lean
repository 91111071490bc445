import Provisioner.Proofs.Course

namespace Provisioner

namespace Site

variable {δ κ ε ε' α β : Type} {site : Site δ κ} {p : Call → Bool}

def Leaves (site : Site δ κ) (a : Run δ κ ε α) (P : List Event → Except ε α → Prop) : Prop :=
  site.Performs a fun is r => P (recorded is) r

section

variable {a : Run δ κ ε α} {k : α → Run δ κ ε β} {W : Words α}
  {P Q : List Event → Except ε α → Prop} {R : List Event → Except ε β → Prop}

theorem Leaves.events (h : site.Leaves a P) (s : Session δ κ) :
    ∃ t, (a.apply s).2.events = s.events ++ t ∧ P t (a.apply s).1 := by
  obtain ⟨ms, hp, hr⟩ := h s
  exact ⟨_, hp.events, hr⟩

theorem Leaves.mono (h : site.Leaves a P) (hQ : ∀ t r, P t r → Q t r) : site.Leaves a Q :=
  Performs.mono h fun _ _ => hQ _ _

theorem leaves_still {r : Except ε α} (ha : ∀ s, a.apply s = (r, s)) (h : P [] r) :
    site.Leaves a P :=
  performs_still ha h

theorem Leaves.bind (ha : site.Leaves a P)
    (hk : ∀ t v, P t (.ok v) → site.Leaves (k v) fun u r => R (t ++ u) r)
    (he : ∀ t e, P t (.error e) → R t (.error e)) : site.Leaves (a >>= k) R := by
  refine Performs.bind ha (fun is v h => ?_) fun _ e h => he _ e h
  refine Performs.mono (hk _ v h) fun js r hr => ?_
  change R (recorded (is ++ js)) r
  rw [recorded_append]
  exact hr

theorem Leaves.orFail {f : ε → ε'} {R : List Event → Except ε' α → Prop}
    (h : site.Leaves a fun t r => R t (r.mapError f)) : site.Leaves (a.orFail f) R :=
  Performs.orFail h

/-- There is only one record, so two accounts of it make one. -/
theorem Leaves.also (h : site.Leaves a P) (h' : site.Leaves a Q) :
    site.Leaves a fun t r => P t r ∧ Q t r := by
  intro s
  obtain ⟨ms, hp, hr⟩ := h s
  obtain ⟨ns, hq, hr'⟩ := h' s
  have he : recorded (incidents ms) = recorded (incidents ns) :=
    List.append_cancel_left (hp.events.symm.trans hq.events)
  exact ⟨ms, hp, hr, he ▸ hr'⟩

def Avoids (site : Site δ κ) (p : Call → Bool) (a : Run δ κ ε α) : Prop :=
  site.Leaves a fun t _ => Lacks p t

theorem Keeps.avoids (h : site.Keeps a W) (hW : ∀ v w, W v w → Lacks p w) : site.Avoids p a := by
  change site.Performs a fun is _ => Lacks p (recorded is)
  refine Performs.mono h fun is r ha => ?_
  cases ha with
  | ok hw => exact hW _ _ hw
  | error hw ha => exact (hW _ _ hw).of_asked ha.1

theorem Avoids.mono {q : Call → Bool} (h : site.Avoids q a)
    (hp : ∀ c, q c = false → p c = false) : site.Avoids p a :=
  Leaves.mono h fun _ _ hl => hl.mono hp

theorem Avoids.bind (ha : site.Avoids p a) (hk : ∀ v, site.Avoids p (k v)) :
    site.Avoids p (a >>= k) :=
  Leaves.bind ha
    (fun _ v hl => Leaves.mono (hk v) fun _ _ hl' => lacks_append.mpr ⟨hl, hl'⟩) fun _ _ hl => hl

theorem Avoids.orFail {f : ε → ε'} (h : site.Avoids p a) : site.Avoids p (a.orFail f) :=
  Leaves.orFail h

theorem avoids_still {r : Except ε α} (ha : ∀ s, a.apply s = (r, s)) : site.Avoids p a :=
  leaves_still ha (lacks_nil p)

theorem Avoids.lift {r : Except ε β} {k : β → Run δ κ ε α}
    (hk : ∀ v, r = .ok v → site.Avoids p (k v)) : site.Avoids p (liftM r >>= k) := by
  cases r with
  | error e => exact avoids_still fun _ => rfl
  | ok v => exact hk v rfl

theorem avoids_shown {a : Run δ κ ε Unit} {f : IoError → ε} (h : site.Performs a (Shown f)) :
    site.Avoids p a :=
  (keeps_shown h).avoids fun _ _ hw => hw ▸ lacks_nil p

end

/-- Whatever comes of the part, it makes one call at most that satisfies `p`. What it has left by
then and the call itself satisfy `P`. -/
def MakesOnce (site : Site δ κ) (p : Call → Bool) (P : List Event → Event → Prop)
    (a : Run δ κ ε α) : Prop :=
  site.Leaves a fun t _ => Once p P t

section

variable {a : Run δ κ ε α} {k : α → Run δ κ ε β} {W : Words α} {P Q : List Event → Event → Prop}

theorem Avoids.makesOnce (h : site.Avoids p a) : site.MakesOnce p P a :=
  Leaves.mono h fun _ _ => .inl

theorem MakesOnce.mono (h : site.MakesOnce p P a) (hQ : ∀ u x, P u x → Q u x) :
    site.MakesOnce p Q a :=
  Leaves.mono h fun _ _ ho => ho.mono hQ

theorem MakesOnce.orFail {f : ε → ε'} (h : site.MakesOnce p P a) :
    site.MakesOnce p P (a.orFail f) :=
  Leaves.orFail h

/-- A word without such a call stands in front of what the next part leaves. -/
theorem Avoids.once (ha : site.Avoids p a) (hy : site.Yields a W)
    (hk : ∀ v, site.MakesOnce p (fun u x => ∀ w, W v w → P (w ++ u) x) (k v)) :
    site.MakesOnce p P (a >>= k) := by
  have hb : site.Leaves a fun t r => Lacks p t ∧ ∀ v, r = .ok v → W v t := Leaves.also ha hy
  refine hb.bind (fun t v ⟨hl, hw⟩ => ?_) fun _ _ ⟨hl, _⟩ => .inl hl
  refine Leaves.mono (hk v) fun u r h => (h.append_left hl).mono ?_
  rintro _ x ⟨u, rfl, hP⟩
  exact hP t (hw v rfl)

theorem Avoids.andOnce (ha : site.Avoids p a) (hP : ∀ w u x, P u x → P (w ++ u) x)
    (hk : ∀ v, site.MakesOnce p P (k v)) : site.MakesOnce p P (a >>= k) := by
  have hy : site.Yields a fun _ _ => True := by
    intro s
    obtain ⟨ms, hm, -⟩ := ha s
    exact ⟨ms, hm, fun _ _ => trivial⟩
  exact ha.once hy fun v => (hk v).mono fun u x hx w _ => hP w u x hx

theorem MakesOnce.andAvoid (ha : site.MakesOnce p P a) (hk : ∀ v, site.Avoids p (k v)) :
    site.MakesOnce p P (a >>= k) :=
  Leaves.bind ha (fun _ v h => Leaves.mono (hk v) fun _ _ hl => h.append_right hl) fun _ _ h => h

end

end Site

def Call.furnishes : Call → Bool
  | .uploadArchive .. | .createExec .. => true
  | _ => false

namespace Site

variable {δ κ : Type} {site : Site δ κ}

theorem probe_avoids : site.Avoids Call.furnishes site.probe := by
  refine probe_keeps.avoids fun _ w ⟨es, _⟩ => ?_
  refine lacks_append.mpr ⟨fun x hx => ?_, by simp [Call.furnishes]⟩
  obtain ⟨e, -, rfl⟩ := List.mem_map.mp hx
  rfl

theorem ensureImage_avoids (r : Image.Reference) :
    site.Avoids Call.furnishes (site.ensureImage r) := by
  refine (ensureImage_keeps r).avoids fun _ w h => ?_
  cases h with
  | present images h | pull feed h => simp [Call.furnishes]

theorem resolve_avoids (name : String) : site.Avoids Call.furnishes (site.resolve name) := by
  refine (resolve_keeps name).avoids fun _ w h => ?_
  cases h with
  | none | one => simp [Call.furnishes]

theorem Steps.unfurnished {ph : Phase} {st : LifecycleState} {w : List Event}
    (h : site.Steps ph st w) : Lacks Call.furnishes w := by
  cases h with
  | create | startCreated | startStopped | finish => simp [Call.furnishes]
  | keep _ h => exact h.lacks _
  | remove _ h => exact lacks_append.mpr ⟨h.lacks _, by simp [Call.furnishes]⟩

theorem reconcile_avoids (st : LifecycleState) :
    site.Avoids Call.furnishes (site.reconcile st) := by
  refine (reconcile_keeps st).avoids fun r w h => ?_
  induction h with
  | ready => exact lacks_nil _
  | step hs _ ih => exact lacks_append.mpr ⟨hs.unfurnished, ih⟩

end Site

end Provisioner
