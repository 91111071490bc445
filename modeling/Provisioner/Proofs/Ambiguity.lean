import Provisioner.Proofs.Course

namespace Provisioner

variable {δ κ α β : Type}

def Ambiguity (name : String) : Account ProvisionError α := fun is r =>
  ∀ n k, r = .error (.ambiguous n k) →
    ∃ ls, 1 < ls.length ∧ .call (.listContainers name) (.ok ls) ∈ recorded is

namespace Site

variable {site : Site δ κ} {name : String}

theorem Performs.thenClear {a : Run δ κ ProvisionError α} {k : α → Run δ κ ProvisionError β}
    (ha : site.Performs a (Ambiguity name)) (hk : ∀ v, site.Performs (k v) (Ambiguity name)) :
    site.Performs (a >>= k) (Ambiguity name) := by
  refine Performs.bind ha (fun is v _ => ?_) fun is e h => ?_
  · refine Performs.mono (hk v) fun js r h n i hr => ?_
    obtain ⟨ls, hl, hm⟩ := h n i hr
    rw [recorded_append]
    exact ⟨ls, hl, List.mem_append_right _ hm⟩
  · rintro n i ⟨⟩
    exact h n i rfl

theorem clear_pure (v : α) :
    site.Performs (pure v : Run δ κ ProvisionError α) (Ambiguity name) :=
  performs_pure fun _ _ => nofun

theorem clear_throw {e : ProvisionError} (he : ∀ n k, e ≠ .ambiguous n k) :
    site.Performs (throw e : Run δ κ ProvisionError α) (Ambiguity name) := by
  refine performs_throw fun n k h => ?_
  cases h
  exact absurd rfl (he n k)

theorem clear_orFail {ε : Type} {a : Run δ κ ε α} {f : ε → ProvisionError} {P : Account ε α}
    (ha : site.Performs a P) (hf : ∀ e n k, f e ≠ .ambiguous n k) :
    site.Performs (a.orFail f) (Ambiguity name) := by
  refine Performs.orFail (Performs.mono ha fun is r _ n k h => ?_)
  cases r with
  | ok v => cases h
  | error e => exact absurd (Except.error.inj h) (hf e n k)

theorem clear_call (c : Call) :
    site.Performs (site.call c : Run δ κ ProvisionError c.Answer) (Ambiguity name) := by
  refine Performs.mono (told_call c) ?_
  rintro _ _ ⟨a, rfl, rfl⟩ n k ⟨⟩

theorem clear_reply {a : Run δ κ ProvisionError (Reply α)} {k : α → Run δ κ ProvisionError β}
    {f : DaemonError → ProvisionError} (ha : site.Performs a (Ambiguity name))
    (hf : ∀ e n k, f e ≠ .ambiguous n k) (hk : ∀ v, site.Performs (k v) (Ambiguity name)) :
    site.Performs (a >>= fun reply => Site.demand reply f >>= k) (Ambiguity name) := by
  refine ha.thenClear fun reply => Performs.thenClear ?_ hk
  cases reply with
  | ok v => exact clear_pure v
  | error e => exact clear_throw (hf e)

theorem clear_say (text : String) : site.Performs (site.say text) (Ambiguity name) :=
  clear_orFail (performs_of_step (P := fun _ _ => True) fun s => ⟨_, .write _ s, trivial⟩)
    fun _ _ _ => nofun

theorem probe_clear : site.Performs site.probe (Ambiguity name) := by
  refine Performs.mono probe_performs fun is r h => ?_
  cases h with
  | reached | lost => exact fun _ _ => nofun

theorem ensureImage_clear (r : Image.Reference) :
    site.Performs (site.ensureImage r) (Ambiguity name) := by
  refine Performs.mono (ensureImage_performs r) fun is x h => ?_
  cases h <;> exact fun _ _ => nofun

theorem resolve_clear : site.Performs (site.resolve name) (Ambiguity name) := by
  refine Performs.mono (resolve_performs name) fun is x h => ?_
  cases h with
  | failed | none | one => exact fun _ _ => nofun
  | several h =>
    rintro n k -
    exact ⟨_, h, List.mem_cons_self⟩

theorem decide_clear (d : Decision) : site.Performs (site.decide d) (Ambiguity name) := by
  have ha : site.Performs ((site.ask (site.questionOf d)).outcome) (Ambiguity name) :=
    performs_of_step fun s => ⟨_, .question (site.questionOf d) s, fun _ _ => nofun⟩
  refine ha.thenClear fun a => ?_
  match a with
  | .ok b => exact clear_pure b
  | .error (.noValidAnswer n) =>
    by_cases h : site.settings.prompt.unansweredIsDecline
    · simp only [h, if_true]
      exact clear_pure false
    · simp only [h]
      exact clear_throw fun _ _ => nofun
  | .error (.io cause) => exact clear_throw fun _ _ => nofun

theorem confirmRemoval_clear : site.Performs site.confirmRemoval (Ambiguity name) := by
  refine (decide_clear .recreate).thenClear fun b => ?_
  cases b with
  | true => exact clear_pure true
  | false => exact (clear_say _).thenClear fun _ => clear_pure false

theorem decideRemoval_clear : site.Performs site.decideRemoval (Ambiguity name) := by
  refine (clear_say _).thenClear fun _ => (decide_clear .useExisting).thenClear fun b => ?_
  cases b with
  | true => exact (clear_say _).thenClear fun _ => clear_pure false
  | false => exact (clear_say _).thenClear fun _ => confirmRemoval_clear

theorem createContainer_clear : site.Performs site.createContainer (Ambiguity name) :=
  clear_reply (clear_call _) (fun _ _ _ => nofun) fun id =>
    (clear_say _).thenClear fun _ => clear_pure id

theorem startContainer_clear (id : String) :
    site.Performs (site.startContainer id) (Ambiguity name) :=
  clear_reply (clear_call _) (fun _ _ _ => nofun) fun _ => clear_say _

theorem removeContainer_clear (id : String) :
    site.Performs (site.removeContainer id) (Ambiguity name) :=
  clear_reply (clear_call _) (fun _ _ _ => nofun) fun _ => clear_say _

theorem step_clear (p : Phase) : site.Performs (site.step p) (Ambiguity name) := by
  cases p with
  | absent => exact createContainer_clear.thenClear fun _ => clear_pure _
  | created id | existsStopped id =>
    exact (startContainer_clear id).thenClear fun _ => clear_pure _
  | started id => exact clear_pure _
  | existsRunning id =>
    refine decideRemoval_clear.thenClear fun b => ?_
    cases b with
    | true => exact (removeContainer_clear id).thenClear fun _ => clear_pure _
    | false => exact clear_pure _

theorem reconcile_clear (st : LifecycleState) :
    site.Performs (site.reconcile st) (Ambiguity name) := by
  induction hn : st.rank using Nat.strongRecOn generalizing st with
  | ind n ih =>
  cases st with
  | ready r =>
    rw [reconcile]
    exact clear_pure r
  | pending p =>
    rw [reconcile]
    exact (step_clear p).thenClear fun next => ih _ (hn ▸ next.lower) next.state rfl

theorem furnish_clear (id : String) (config : InitConfig) :
    site.Performs (site.furnish id config) (Ambiguity name) := by
  have stage (what source dest : String) :
      site.Performs (site.stageFile id what source dest) (Ambiguity name) := by
    refine (clear_orFail (stage_keeps id source dest) ?_).thenClear fun _ => clear_say _
    exact fun _ _ _ => nofun
  refine (stage _ _ _).thenClear fun _ => (stage _ _ _).thenClear fun _ =>
    (clear_orFail (runInit_keeps id config) ?_).thenClear fun _ => clear_say _
  exact fun _ _ _ => nofun

theorem run_clear (config : InitConfig) :
    site.Performs (site.run config) (Ambiguity site.settings.containerName) := by
  refine probe_clear.thenClear fun _ => (ensureImage_clear _).thenClear fun _ =>
    resolve_clear.thenClear fun found => (reconcile_clear _).thenClear fun r => ?_
  cases r with
  | reuse id => exact clear_pure _
  | fresh id => exact (furnish_clear id config).thenClear fun _ => clear_pure _

end Site

end Provisioner
