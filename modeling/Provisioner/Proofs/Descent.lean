import Provisioner.Proofs.Reconciliation

namespace Provisioner

theorem LifecycleState.rank_eq_of_name_eq {a b : LifecycleState} (h : a.name = b.name) :
    a.rank = b.rank := by
  revert h
  rcases a with (_ | _ | _ | _ | _) | (_ | _) <;> rcases b with (_ | _ | _ | _ | _) | (_ | _) <;>
    simp [name, Phase.name, rank, Phase.rank]

theorem Phase.rank_pos (p : Phase) : 0 < p.rank := by
  cases p <;> exact Nat.succ_pos _

theorem LifecycleState.rank_le (st : LifecycleState) : st.rank ≤ 4 := by
  rcases st with (_ | _ | _ | _ | _) | _ <;> simp [rank, Phase.rank]

namespace Site

variable {δ κ : Type} {site : Site δ κ}

/-- The loop from a state on: the phases that steps are made from, and what it comes to. -/
inductive Descends (site : Site δ κ) : LifecycleState → Session δ κ → List Phase →
    Except ProvisionError Ready × Session δ κ → Prop
  | ready (r : Ready) (s : Session δ κ) : Descends site (.ready r) s [] (.ok r, s)
  | fail {p : Phase} {s t : Session δ κ} {e : ProvisionError}
    (h : (site.step p).apply s = (.error e, t)) : Descends site (.pending p) s [p] (.error e, t)
  | step {p : Phase} {next : p.Next} {s t : Session δ κ} {ps : List Phase}
    {out : Except ProvisionError Ready × Session δ κ}
    (h : (site.step p).apply s = (.ok next, t)) (h' : Descends site next.state t ps out) :
    Descends site (.pending p) s (p :: ps) out

def visited (ps : List Phase) : Except ProvisionError Ready → List LifecycleState
  | .ok r => ps.map .pending ++ [.ready r]
  | .error _ => ps.map .pending

variable {st : LifecycleState} {s : Session δ κ} {ps : List Phase}
  {out : Except ProvisionError Ready × Session δ κ}

theorem reconcile_descends (site : Site δ κ) (st : LifecycleState) (s : Session δ κ) :
    ∃ ps, site.Descends st s ps ((site.reconcile st).apply s) := by
  induction hn : st.rank using Nat.strongRecOn generalizing st s with
  | ind n ih =>
  cases st with
  | ready r =>
    rw [reconcile]
    exact ⟨[], .ready r s⟩
  | pending p =>
    rw [reconcile]
    rcases h : (site.step p).apply s with ⟨e | next, t⟩
    · rw [Action.apply_bind_error h]
      exact ⟨[p], .fail h⟩
    · rw [Action.apply_bind_ok h]
      obtain ⟨ps, h'⟩ := ih _ (hn ▸ next.lower) next.state t rfl
      exact ⟨p :: ps, .step h h'⟩

theorem Descends.length_le (h : site.Descends st s ps out) : ps.length ≤ st.rank := by
  induction h with
  | ready => exact Nat.zero_le _
  | @fail p => exact p.rank_pos
  | @step p next _ _ _ _ _ _ ih => exact Nat.lt_of_le_of_lt ih next.lower

theorem visited_cons (p : Phase) (ps : List Phase) (r : Except ProvisionError Ready) :
    visited (p :: ps) r = .pending p :: visited ps r := by
  cases r with
  | error | ok => rfl

theorem Descends.rank_le (h : site.Descends st s ps out) :
    ∀ a ∈ visited ps out.1, a.rank ≤ st.rank := by
  induction h with
  | ready r => exact List.forall_mem_singleton.mpr (Nat.le_refl _)
  | fail => exact List.forall_mem_singleton.mpr (Nat.le_refl _)
  | @step p next _ _ _ _ _ _ ih =>
    rw [visited_cons]
    refine List.forall_mem_cons.mpr ⟨Nat.le_refl _, fun a ha => ?_⟩
    exact Nat.le_trans (ih a ha) (Nat.le_of_lt next.lower)

theorem Descends.pairwise (h : site.Descends st s ps out) :
    (visited ps out.1).Pairwise fun a b => b.rank < a.rank := by
  induction h with
  | ready | fail => exact List.pairwise_singleton _ _
  | @step p next _ _ _ _ _ h' ih =>
    rw [visited_cons]
    exact List.pairwise_cons.mpr ⟨fun a ha => Nat.lt_of_le_of_lt (h'.rank_le a ha) next.lower, ih⟩

theorem Descends.nodup (h : site.Descends st s ps out) :
    ((visited ps out.1).map LifecycleState.name).Nodup :=
  List.pairwise_map.mpr <| h.pairwise.imp fun hlt he =>
    Nat.ne_of_gt hlt (LifecycleState.rank_eq_of_name_eq he)

/-- All that can be asked, in its order: the two questions, and then the calls. -/
def demands (site : Site δ κ) (old new : String) : List (Call ⊕ Question) :=
  [.inr (site.questionOf .useExisting), .inr (site.questionOf .recreate),
    .inl (.removeContainer old), .inl (.createContainer site.spec), .inl (.startContainer new)]

theorem demands_nodup (site : Site δ κ) (old new : String) : (site.demands old new).Nodup := by
  simp [demands, questionOf, Decision.preset]

variable {r : Ready} {w : List Event}

theorem DecidesRemoval.asked {b : Bool} (h : site.DecidesRemoval b w) :
    (w.map Event.asked).Sublist
      [.inr (site.questionOf .useExisting), .inr (site.questionOf .recreate)] := by
  cases h with
  | kept => exact List.singleton_sublist.mpr List.mem_cons_self
  | spared | condemned => exact List.Sublist.refl _

theorem Reconciles.demands (h : site.Reconciles st r w) :
    ∃ old new, (w.map Event.asked).Sublist (site.demands old new) := by
  -- Only a running container is asked about. From any other state on the way is fixed.
  match st with
  | .ready _ =>
    obtain ⟨rfl, rfl⟩ := h.of_ready
    exact ⟨"", "", List.nil_sublist _⟩
  | .pending .absent =>
    obtain ⟨new, rfl, rfl⟩ := h.of_absent
    exact ⟨"", new, .cons _ (.cons _ (.cons _ (List.Sublist.refl _)))⟩
  | .pending (.created id) =>
    obtain ⟨rfl, rfl⟩ := h.of_created
    exact ⟨"", id, .cons _ (.cons _ (.cons _ (.cons _ (List.Sublist.refl _))))⟩
  | .pending (.existsStopped id) =>
    obtain ⟨rfl, rfl⟩ := h.of_existsStopped
    exact ⟨"", id, .cons _ (.cons _ (.cons _ (.cons _ (List.Sublist.refl _))))⟩
  | .pending (.started id) =>
    obtain ⟨rfl, rfl⟩ := h.of_started
    exact ⟨"", "", List.nil_sublist _⟩
  | .pending (.existsRunning id) =>
    cases h with
    | step hs h =>
      cases hs with
      | keep _ hw =>
        obtain ⟨rfl, rfl⟩ := h.of_ready
        rw [List.append_nil]
        exact ⟨id, "", hw.asked.trans (List.sublist_append_left _ _)⟩
      | remove _ hw =>
        obtain ⟨new, rfl, rfl⟩ := h.of_absent
        rw [List.append_assoc, List.map_append]
        exact ⟨id, new, hw.asked.append (List.Sublist.refl _)⟩

/-- From whatever state, the loop makes four steps at most and comes to no kind of state twice.
What is asked for is asked once at most: the two questions, and a removal, a creation and a start,
in this order. -/
theorem reconcile_settles (site : Site δ κ) (st : LifecycleState) (s : Session δ κ) :
    ∃ ps t old new, site.Descends st s ps ((site.reconcile st).apply s) ∧ ps.length ≤ 4 ∧
      ((visited ps ((site.reconcile st).apply s).1).map LifecycleState.name).Nodup ∧
      ((site.reconcile st).apply s).2.events = s.events ++ t ∧
      (t.map Event.asked).Sublist (site.demands old new) ∧ (t.map Event.asked).Nodup := by
  obtain ⟨ps, h⟩ := site.reconcile_descends st s
  obtain ⟨ms, r, w, hp, hw, ha, -⟩ := (reconcile_keeps st).path s
  obtain ⟨old, new, hd⟩ := hw.demands
  have hs : ((recorded (incidents ms)).map Event.asked).Sublist (site.demands old new) :=
    ha.1.sublist.trans hd
  exact ⟨ps, _, old, new, h, Nat.le_trans h.length_le st.rank_le, h.nodup, hp.events, hs,
    hs.nodup (site.demands_nodup old new)⟩

end Site

end Provisioner
