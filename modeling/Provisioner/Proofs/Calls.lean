import Mathlib.Data.List.Basic
import Provisioner.Proofs.Words

namespace Provisioner

def calls (t : List Event) : List Event := t.filter Event.isCall

@[simp] theorem calls_call (c : Call) (a : c.Answer) (t : List Event) :
    calls (.call c a :: t) = .call c a :: calls t := rfl

@[simp] theorem calls_append (t u : List Event) : calls (t ++ u) = calls t ++ calls u :=
  List.filter_append t u

theorem Event.eq_call {x : Event} {c : Call} (h : x.asked = .inl c) : ∃ a, x = .call c a := by
  cases x with
  | question q a => cases h
  | call c' a =>
    obtain rfl : c' = c := Sum.inl.inj h
    exact ⟨a, rfl⟩

theorem Agrees.calls {t w : List Event} (h : Agrees t w) : Agrees (calls t) (calls w) := by
  obtain rfl | ⟨u, x, rfl⟩ := t.eq_nil_or_concat
  · exact agrees_nil _
  · rw [List.concat_eq_append] at h ⊢
    obtain ⟨y, v, rfl, hy, -⟩ := h.split
    rw [calls_append, calls_append]
    refine Agrees.append_left ?_ _
    cases x with
    | question q a => exact agrees_nil _
    | call c a =>
      obtain ⟨b, rfl⟩ := Event.eq_call hy
      exact agrees_call c a b _

def Call.changes : Call → Bool
  | .createContainer _ | .startContainer _ | .removeContainer _ => true
  | _ => false

def Call.isRemoval : Call → Bool
  | .removeContainer _ => true
  | _ => false

def Call.isCreation : Call → Bool
  | .createContainer _ => true
  | _ => false

theorem Call.isRemoval_of_changes (c : Call) (h : c.changes = false) : c.isRemoval = false := by
  cases c <;> first | rfl | cases h

theorem Call.isCreation_of_changes (c : Call) (h : c.changes = false) : c.isCreation = false := by
  cases c <;> first | rfl | cases h

theorem Call.eq_remove {c : Call} (h : c.isRemoval = true) : ∃ id, c = .removeContainer id := by
  cases c with
  | removeContainer id => exact ⟨id, rfl⟩
  | _ => cases h

theorem Call.eq_create {c : Call} (h : c.isCreation = true) : ∃ spec, c = .createContainer spec := by
  cases c with
  | createContainer spec => exact ⟨spec, rfl⟩
  | _ => cases h

def Event.makes (p : Call → Bool) : Event → Bool
  | .call c _ => p c
  | .question .. => false

def Lacks (p : Call → Bool) (t : List Event) : Prop := ∀ x ∈ t, x.makes p = false

instance (p : Call → Bool) (t : List Event) : Decidable (Lacks p t) :=
  inferInstanceAs (Decidable (∀ x ∈ t, x.makes p = false))

variable {p q : Call → Bool} {t u : List Event}

@[simp] theorem lacks_nil (p : Call → Bool) : Lacks p [] := List.forall_mem_nil _

@[simp] theorem lacks_call {c : Call} {a : c.Answer} :
    Lacks p (.call c a :: t) ↔ p c = false ∧ Lacks p t := List.forall_mem_cons

@[simp] theorem lacks_question {r : Question} {a : Except PromptError Bool} :
    Lacks p (.question r a :: t) ↔ Lacks p t := by
  unfold Lacks
  rw [List.forall_mem_cons]
  exact and_iff_right rfl

theorem lacks_append : Lacks p (t ++ u) ↔ Lacks p t ∧ Lacks p u := List.forall_mem_append

theorem Lacks.mono (h : Lacks q t) (hp : ∀ c, q c = false → p c = false) : Lacks p t := by
  intro x hx
  cases x with
  | question r a => rfl
  | call c a => exact hp c (h _ hx)

theorem Lacks.of_asked (h : Lacks p u) (ht : t.map Event.asked <+: u.map Event.asked) :
    Lacks p t := by
  intro x hx
  cases x with
  | question r a => rfl
  | call c a =>
    obtain ⟨y, hy, hc⟩ := List.mem_map.mp (ht.subset (List.mem_map_of_mem hx))
    obtain ⟨b, rfl⟩ := Event.eq_call hc
    exact h (.call c b) hy

theorem Lacks.place {x y : Event} {t' u' : List Event} (ht : Lacks p t) (hu : Lacks p u)
    (hy : y.makes p = true) (h : t ++ x :: u = t' ++ y :: u') : t = t' ∧ x = y ∧ u = u' := by
  have hn {v : List Event} (hv : Lacks p v) : y ∉ v := fun hm =>
    Bool.false_ne_true ((hv y hm).symm.trans hy)
  exact (List.append_cons_inj_of_notMem (hn ht) (hn hu)).mp h

/-- A record that is not without such calls can be cut at one. -/
theorem exists_call (h : ¬Lacks p t) : ∃ u c a v, t = u ++ .call c a :: v ∧ p c = true := by
  unfold Lacks at h
  push Not at h
  obtain ⟨x, hx, hp⟩ := h
  obtain ⟨u, v, rfl⟩ := List.append_of_mem hx
  cases x with
  | question r a => exact absurd rfl hp
  | call c a => exact ⟨u, c, a, v, rfl, by simpa [Event.makes] using hp⟩

/-- At most one call in the record satisfies `p`, and what comes before such a call and the call
itself satisfy `P`. -/
def Once (p : Call → Bool) (P : List Event → Event → Prop) (t : List Event) : Prop :=
  Lacks p t ∨ ∃ u x v, t = u ++ x :: v ∧ x.makes p = true ∧ Lacks p u ∧ Lacks p v ∧ P u x

variable {P : List Event → Event → Prop}

theorem Once.mono {Q : List Event → Event → Prop} (h : Once p P t)
    (hQ : ∀ u x, P u x → Q u x) : Once p Q t := by
  obtain ht | ⟨v, x, w, rfl, hx, hv, hw, hP⟩ := h
  · exact .inl ht
  · exact .inr ⟨v, x, w, rfl, hx, hv, hw, hQ v x hP⟩

theorem Once.append_right (h : Once p P t) (hu : Lacks p u) : Once p P (t ++ u) := by
  obtain ht | ⟨v, x, w, rfl, hx, hv, hw, hP⟩ := h
  · exact .inl (lacks_append.mpr ⟨ht, hu⟩)
  · refine .inr ⟨v, x, w ++ u, ?_, hx, hv, lacks_append.mpr ⟨hw, hu⟩, hP⟩
    rw [List.append_assoc, List.cons_append]

theorem Once.append_left (h : Once p P t) (hu : Lacks p u) :
    Once p (fun v x => ∃ w, v = u ++ w ∧ P w x) (u ++ t) := by
  obtain ht | ⟨v, x, w, rfl, hx, hv, hw, hP⟩ := h
  · exact .inl (lacks_append.mpr ⟨hu, ht⟩)
  · refine .inr ⟨u ++ v, x, w, ?_, hx, lacks_append.mpr ⟨hu, hv⟩, hw, v, rfl, hP⟩
    rw [List.append_assoc]

theorem Once.place {x : Event} {v : List Event} (h : Once p P (u ++ x :: v))
    (hx : x.makes p = true) : Lacks p u ∧ Lacks p v ∧ P u x := by
  obtain ht | ⟨u', y, v', he, hy, hu, hv, hP⟩ := h
  · rw [ht x (List.mem_append_right u List.mem_cons_self)] at hx
    cases hx
  · obtain ⟨rfl, rfl, rfl⟩ := hu.place hv hx he.symm
    exact ⟨hu, hv, hP⟩

/-- A record that agrees with a word has its calls in the same places, as they were asked for. -/
theorem Once.agrees {w : List Event} (h : Once p P w) (ha : Agrees t w) :
    Once p (fun u x => ∃ y, y.asked = x.asked ∧ P u y) t := by
  by_cases hl : Lacks p t
  · exact .inl hl
  · obtain ⟨u, c, a, v, rfl, hc⟩ := exists_call hl
    obtain ⟨y, v', rfl, hy, hv⟩ := ha.split
    obtain ⟨b, rfl⟩ := Event.eq_call hy
    obtain ⟨hu, hn, hP⟩ := h.place hc
    exact .inr ⟨u, _, v, rfl, hc, hu, hn.of_asked hv, _, hy, hP⟩

end Provisioner
