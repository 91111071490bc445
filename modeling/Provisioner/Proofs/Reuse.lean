import Provisioner.Proofs.Blame
import Provisioner.Proofs.Table
import Provisioner.Rehearsal.Answers

namespace Provisioner

variable {δ κ α β : Type}

def Console.Fails (console : Console κ) (e : IoError) : Prop :=
  ∃ k, (∃ bs, (console.write bs k).1 = .error e) ∨ (console.flush k).1 = .error e

theorem Site.Step.fails {site : Site δ κ} {s t : Session δ κ} {m : Move} (h : site.Step s m t)
    {e : IoError} (he : m.incident? = some (.outputFailed e)) : site.console.Fails e := by
  cases h with
  | call | question => cases he
  | write bs s =>
    refine ⟨s.console, .inl ⟨bs, ?_⟩⟩
    cases hr : (site.console.write bs s.console).1 <;> rw [hr] at he <;> cases he
    rfl
  | flush s =>
    refine ⟨s.console, .inr ?_⟩
    cases hr : (site.console.flush s.console).1 <;> rw [hr] at he <;> cases he
    rfl
  | takeStdin | setClock => cases he

theorem Site.Path.fails {site : Site δ κ} {s t : Session δ κ} {ms : List Move}
    (h : site.Path s ms t) {e : IoError} (he : .outputFailed e ∈ incidents ms) :
    site.console.Fails e := by
  induction h with
  | nil => cases he
  | cons hs _ ih =>
    obtain ⟨m, hm, hi⟩ := List.mem_filterMap.mp he
    rcases List.mem_cons.mp hm with rfl | hm
    · exact hs.fails hi
    · exact ih (List.mem_filterMap.mpr ⟨m, hm, hi⟩)

def Event.failure? : Event → Option DaemonError
  | .call c a => c.failure? a
  | .question .. => none

def Succeeds (t : List Event) : Prop := ∀ x ∈ t, x.failure? = none

instance (t : List Event) : Decidable (Succeeds t) :=
  inferInstanceAs (Decidable (∀ x ∈ t, x.failure? = none))

/-- If it is this question that was put, the answer was `b`. -/
def Event.Grants (q : Question) (b : Bool) : Event → Prop
  | .call .. => True
  | .question r a => r = q → a = .ok b

instance (q : Question) (b : Bool) : DecidablePred (Event.Grants q b)
  | .call .. => inferInstanceAs (Decidable True)
  | .question r a => inferInstanceAs (Decidable (r = q → a = .ok b))

theorem succeeds_append {t u : List Event} : Succeeds (t ++ u) ↔ Succeeds t ∧ Succeeds u :=
  List.forall_mem_append

variable {is : List Incident}

theorem Probed.at_once {n : Nat} {r : Except ProvisionError Unit} (h : Probed n is r)
    (hs : Succeeds (recorded is)) : recorded is = [.call .ping (.ok ())] ∧ r = .ok () := by
  cases h with
  | reached es =>
    cases es with
    | nil => exact ⟨rfl, rfl⟩
    | cons e es => cases hs (.call .ping (.error e)) List.mem_cons_self
  | lost es cause =>
    rw [recorded_append] at hs
    cases (succeeds_append.mp hs).2 (.call .ping (.error cause.last)) List.mem_cons_self

inductive Voices (v : α) (w : List Event) : Account ProvisionError α
  | ended {is : List Incident} (h : recorded is = w) : Voices v w is (.ok v)
  | muted {is : List Incident} {e : IoError} (he : .outputFailed e ∈ is) (h : recorded is <+: w) :
    Voices v w is (.error (.output e))

theorem Voices.begins {v : α} {w : List Event} {r : Except ProvisionError α}
    (h : Voices v w is r) : recorded is <+: w := by
  cases h with
  | ended h => exact h ▸ List.prefix_rfl
  | muted _ h => exact h

theorem Voices.after {v : α} {w x : List Event} {js : List Incident}
    {r : Except ProvisionError α} (h : Voices v x js r) (hw : recorded is = w) :
    Voices v (w ++ x) (is ++ js) r := by
  subst hw
  cases h with
  | ended h =>
    refine .ended ?_
    rw [recorded_append, h]
  | muted he h =>
    refine .muted (List.mem_append_right is he) ?_
    rw [recorded_append]
    exact (List.prefix_append_right_inj _).mpr h

theorem Voices.call {v : α} {w : List Event} {r : Except ProvisionError α}
    (h : Voices v w is r) (c : Call) (a : c.Answer) :
    Voices v (.call c a :: w) (.call c a :: is) r := by
  have hw : recorded [.call c a] = [.call c a] := rfl
  exact h.after hw

theorem Supplied.voices {r : Image.Reference} {x : Except ProvisionError ImageStatus}
    (h : Supplied r is x) (hs : Succeeds (recorded is)) :
    ∃ st w, Site.Supplies r st w ∧ Voices st w is x := by
  cases h with
  | unlisted e => cases hs _ List.mem_cons_self
  | present h => exact ⟨_, _, .present _ h, .ended rfl⟩
  | unreported h e => exact ⟨_, _, .present _ h, .muted (by simp) List.prefix_rfl⟩
  | unannounced e => exact ⟨_, _, .pull {} rfl, .muted (by simp) (List.prefix_append [_] _)⟩
  | pulled h => exact ⟨_, _, .pull _ h, .ended rfl⟩
  | @unpulled feed e h =>
    have hf : feed.failure = none :=
      hs (.call (.pullImage r) feed) (by simp [recorded, Incident.event?])
    cases h.symm.trans hf
  | @unshown feed e =>
    have hf : feed.failure = none :=
      hs (.call (.pullImage r) feed) (by simp [recorded, Incident.event?])
    exact ⟨_, _, .pull feed hf, .muted (by simp) List.prefix_rfl⟩

theorem Resolved.listed {name : String} {found : Option ContainerRecord}
    (h : Resolved name is (.ok found)) : ∃ ls, is = [.call (.listContainers name) (.ok ls)] ∧
      ∀ l, ls = [l] → found = some (l.record name) := by
  cases h with
  | none => exact ⟨_, rfl, nofun⟩
  | one l =>
    refine ⟨_, rfl, ?_⟩
    rintro _ ⟨⟩
    rfl

def Outcome.Fills (o : Outcome) (t : List ContainerListing) : Prop :=
  ∃ l, t = [l] ∧ l.id = o.containerId ∧ l.isRunning = true ∧ (o.reused = false → l.state = "running")

theorem Outcome.Fills.fresh {id : String} {t : List ContainerListing}
    (h : t = [⟨id, "running"⟩]) : Outcome.Fills ⟨id, false⟩ t := by
  refine ⟨_, h, rfl, ?_, fun _ => rfl⟩
  simp only [ContainerListing.isRunning]
  decide +kernel

namespace Site

variable {site : Site δ κ} {config : InitConfig}

theorem decide_answered (d : Decision) : site.Performs (site.decide d) fun is r =>
    ∃ a, is = [.question (site.questionOf d) a] ∧ ∀ b, a = .ok b → r = .ok b := by
  refine performs_ask fun a => ?_
  match a with
  | .ok b => exact performs_pure ⟨_, rfl, by rintro _ ⟨⟩; rfl⟩
  | .error (.noValidAnswer n) =>
    dsimp only
    split
    · exact performs_pure ⟨_, rfl, nofun⟩
    · exact performs_throw ⟨_, rfl, nofun⟩
  | .error (.io _) => exact performs_throw ⟨_, rfl, nofun⟩

/-- With a yes to the first question there is no second one. -/
theorem decideRemoval_voices : site.Performs site.decideRemoval fun is r =>
    (∀ x ∈ recorded is, x.Grants (site.questionOf .useExisting) true) →
      Voices false [.question (site.questionOf .useExisting) (.ok true)] is r := by
  refine (say_performs _).afterShowing ?_ fun e _ => .muted (by simp) List.nil_prefix
  refine (decide_answered .useExisting).bind ?_ ?_
  · rintro _ b ⟨a, rfl, ha⟩
    cases b with
    | true =>
      refine sayKept_performs.afterShowing (performs_pure fun hg => ?_) fun e hg => ?_
      · obtain rfl : a = .ok true := hg _ List.mem_cons_self rfl
        exact .ended rfl
      · obtain rfl : a = .ok true := hg _ List.mem_cons_self rfl
        exact .muted (by simp) List.prefix_rfl
    | false =>
      refine Performs.mono (Keeps.afterShowing (say_performs _) confirmRemoval_keeps) ?_
      intro js r _ hg
      obtain rfl : a = .ok true := hg _ List.mem_cons_self rfl
      cases ha true rfl
  · rintro _ e ⟨a, rfl, ha⟩ hg
    obtain rfl : a = .ok true := hg _ List.mem_cons_self rfl
    cases ha true rfl

theorem reconcile_existsRunning (id : String) :
    site.reconcile (.pending (.existsRunning id)) = site.decideRemoval >>= fun b =>
      if b then site.removeContainer id >>= fun _ => site.reconcile (.pending .absent)
      else pure (.reuse id) := by
  rw [reconcile, step, bind_assoc]
  refine congrArg (site.decideRemoval >>= ·) (funext fun b => ?_)
  cases b with
  | true => simp
  | false => simp [reconcile]

/-- A container that is listed as running is kept if the answer is yes. -/
theorem keepRunning_voices (id : String) :
    site.Performs (site.reconcile (.pending (.existsRunning id))) fun is r =>
      (∀ x ∈ recorded is, x.Grants (site.questionOf .useExisting) true) →
        Voices (.reuse id) [.question (site.questionOf .useExisting) (.ok true)] is r := by
  rw [reconcile_existsRunning]
  refine decideRemoval_voices.bind (fun is b h => ?_) fun is e h hg => ?_
  · cases b with
    | true =>
      refine Performs.mono ((removeContainer_keeps id).seq fun _ => reconcile_keeps _) ?_
      intro js r _ hg
      rw [recorded_append, List.forall_mem_append] at hg
      cases h hg.1
    | false =>
      refine performs_pure fun hg => ?_
      rw [List.append_nil] at hg ⊢
      cases h hg with
      | ended h => exact .ended h
  · cases h hg with
    | muted he hw => exact .muted he hw

variable {table : δ → List ContainerListing} {d : δ} {l : ContainerListing}

structure Favours (site : Site δ κ) (d : δ) (t : List Event) : Prop where
  succeeds : Succeeds t
  agreed : ∀ x ∈ t, x.Grants (site.questionOf .useExisting) true
  gave : site.daemon.Gave d t

theorem favours_append {t u : List Event} : site.Favours d (t ++ u) ↔
    site.Favours d t ∧ site.Favours (site.daemon.after d t) u := by
  constructor
  · rintro ⟨hs, ha, hg⟩
    obtain ⟨hs, hs'⟩ := succeeds_append.mp hs
    obtain ⟨ha, ha'⟩ := List.forall_mem_append.mp ha
    obtain ⟨hg, hg'⟩ := Daemon.gave_append.mp hg
    exact ⟨⟨hs, ha, hg⟩, hs', ha', hg'⟩
  · rintro ⟨⟨hs, ha, hg⟩, hs', ha', hg'⟩
    exact ⟨succeeds_append.mpr ⟨hs, hs'⟩, List.forall_mem_append.mpr ⟨ha, ha'⟩,
      Daemon.gave_append.mpr ⟨hg, hg'⟩⟩

/-- What a run asks and calls once the image is there, if it finds this container and keeps it. -/
def reuse (site : Site δ κ) (l : ContainerListing) : List Event :=
  [.call (.listContainers site.settings.containerName) (.ok [l]),
    .question (site.questionOf .useExisting) (.ok true)]

theorem lookup_voices (hd : site.daemon.HasTable site.settings.containerName table)
    (hl : l.isRunning = true) {k : Ready → Run δ κ ProvisionError Outcome}
    (hk : ∀ r, site.Keeps (k r) (site.Settles config r))
    (hr : ∀ id, k (.reuse id) = pure ⟨id, true⟩) :
    site.Performs (site.resolve site.settings.containerName >>= fun found =>
      site.reconcile (.ofRecord found) >>= k) fun is r =>
        ∀ d, table d = [l] → site.Favours d (recorded is) →
          Voices ⟨l.id, true⟩ (site.reuse l) is r := by
  have listed {d : δ} {ls : List ContainerListing} {t : List Event} (ht : table d = [l])
      (hg : site.daemon.Gave d (.call (.listContainers site.settings.containerName) (.ok ls) :: t)) :
      ls = [l] := (hd.listed hg).1.symm.trans ht
  refine (resolve_performs _).bind (fun is found h => ?_) fun is e h d ht hf => ?_
  · obtain ⟨ls, rfl, hf⟩ := h.listed
    -- What is found is what was listed, and that is this container.
    by_cases hfound : found = some (l.record site.settings.containerName)
    · subst hfound
      have hp : LifecycleState.ofRecord (some (l.record site.settings.containerName)) =
          .pending (.existsRunning l.id) := by
        simp [LifecycleState.ofRecord, ContainerListing.record, hl]
      rw [hp]
      refine (keepRunning_voices l.id).bind (fun js r hv => ?_) fun js e hv d ht hg => ?_
      · cases r with
        | reuse id =>
          rw [hr]
          refine performs_pure fun d ht hg => ?_
          obtain rfl := listed ht hg.gave
          rw [List.append_nil] at hg ⊢
          cases hv (favours_append (t := [_]).mp hg).2.agreed with
          | ended h => exact (Voices.ended h).call _ _
        | fresh id =>
          refine Performs.mono (hk (.fresh id)) fun _ r _ d _ hg => ?_
          rw [recorded_append, recorded_append] at hg
          cases hv (favours_append.mp (favours_append.mp hg).2).1.agreed
      · obtain rfl := listed ht hg.gave
        cases hv (favours_append (t := [_]).mp hg).2.agreed with
        | muted he h => exact (Voices.muted he h).call _ _
    · refine Performs.mono ((reconcile_keeps (.ofRecord found)).seq hk) fun js r _ d ht hg => ?_
      exact absurd (hf l (listed ht hg.gave)) hfound
  · cases h with
    | failed e => cases hf.succeeds _ List.mem_cons_self
    | several h =>
      rw [listed ht hf.gave] at h
      exact absurd h (Nat.lt_irrefl 1)

/-- A run that is favoured and finds its container running keeps that and does nothing else. -/
theorem run_voices (hd : site.daemon.HasTable site.settings.containerName table)
    (hl : l.isRunning = true) (config : InitConfig) :
    site.Performs (site.run config) fun is r => ∀ d, table d = [l] →
      site.Favours d (recorded is) → ∃ st image, Supplies site.settings.imageReference st image ∧
        Voices ⟨l.id, true⟩ (.call .ping (.ok ()) :: (image ++ site.reuse l)) is r := by
  refine probe_performs.bind (fun is _ hp => ?_) fun is e hp d ht hf => ?_
  · refine (ensureImage_performs _).bind (fun js st hi => ?_) fun js e hi d ht hf => ?_
    · have h := lookup_voices hd hl (settle_keeps config) fun _ => rfl
      refine Performs.mono h fun ks r h d ht hf => ?_
      rw [recorded_append, recorded_append] at hf
      obtain ⟨hf, hf'⟩ := favours_append.mp hf
      obtain ⟨hf', hf''⟩ := favours_append.mp hf'
      obtain ⟨hping, -⟩ := hp.at_once hf.succeeds
      obtain ⟨st', image, hs, hv⟩ := hi.voices hf'.succeeds
      -- Neither a ping nor what sees to an image changes the table.
      cases hv with
      | ended hj =>
        have hq : Lacks Call.changes (recorded is) := by
          rw [hping]
          simp [Call.changes]
        have hq' : Lacks Call.changes (recorded js) := hj ▸ hs.quiet
        refine ⟨_, _, hs, ((h _ ?_ hf'').after hj).after hping⟩
        rw [hd.quiet hq' hf'.gave, hd.quiet hq hf.gave, ht]
    · rw [recorded_append] at hf
      obtain ⟨hf, hf'⟩ := favours_append.mp hf
      obtain ⟨hping, -⟩ := hp.at_once hf.succeeds
      obtain ⟨st, image, hs, hv⟩ := hi.voices hf'.succeeds
      refine ⟨st, image, hs, ?_⟩
      cases hv with
      | muted he h =>
        have hv : Voices (⟨l.id, true⟩ : Outcome) (image ++ site.reuse l) js (.error (.output _)) :=
          .muted he (h.trans (List.prefix_append image _))
        exact hv.after hping
  · cases (hp.at_once hf.succeeds).2

theorem startContainer_table (hd : site.daemon.HasTable site.settings.containerName table)
    (ht : table d = [l]) {t : List Event}
    (hg : site.daemon.Gave d (.call (.startContainer l.id) (.ok ()) :: t)) :
    table (site.daemon.answer (.startContainer l.id) d).2 = [⟨l.id, "running"⟩] := by
  have hr := hd (.startContainer l.id) d
  rw [hg.1, ht] at hr
  refine Eq.trans hr ?_
  simp [marked]

theorem createContainer_table (hd : site.daemon.HasTable site.settings.containerName table)
    (ht : table d = []) {id : String} {t : List Event}
    (hg : site.daemon.Gave d (.call (.createContainer site.spec) (.ok id) :: t)) :
    ∃ state, table (site.daemon.answer (.createContainer site.spec) d).2 = [⟨id, state⟩] := by
  have hr := hd (.createContainer site.spec) d
  rw [hg.1, ht] at hr
  simp only [Reflects, spec, if_true] at hr
  obtain ⟨state, -, -, hr⟩ := hr
  exact ⟨state, hr⟩

theorem renew_table (hd : site.daemon.HasTable site.settings.containerName table)
    (ht : table d = []) {id : String}
    (hg : site.daemon.Gave d
      [.call (.createContainer site.spec) (.ok id), .call (.startContainer id) (.ok ())]) :
    table (site.daemon.after d
      [.call (.createContainer site.spec) (.ok id), .call (.startContainer id) (.ok ())]) =
        [⟨id, "running"⟩] := by
  obtain ⟨state, hc⟩ := createContainer_table hd ht hg
  exact startContainer_table hd hc hg.2

theorem Readies.fills (hd : site.daemon.HasTable site.settings.containerName table)
    {ls : List ContainerListing} {r : Ready} {o : Outcome} {w rest : List Event}
    (h : site.Readies ls r w) (hr : site.Settles config r o rest) (ht : table d = ls)
    (hg : site.daemon.Gave d w) : o.Fills (table (site.daemon.after d w)) := by
  cases h with
  | keep l h hw =>
    obtain ⟨⟩ := hr
    exact ⟨l, (hd.quiet (hw.lacks _) hg).trans ht, rfl, h, nofun⟩
  | start l h =>
    obtain ⟨⟩ | _ := hr
    exact .fresh (startContainer_table hd ht hg)
  | create new =>
    obtain ⟨⟩ | _ := hr
    exact .fresh (renew_table hd ht hg)
  | recreate l h hw new =>
    obtain ⟨⟩ | _ := hr
    rw [List.append_cons] at hg ⊢
    obtain ⟨hg, hg'⟩ := Daemon.gave_append.mp hg
    rw [Daemon.after_append]
    exact .fresh (renew_table hd ((Clears.removed l hw).table hd ht hg) hg')

/-- A run that comes to its end leaves the one container, and that is running. -/
theorem Runs.fills (hd : site.daemon.HasTable site.settings.containerName table) {o : Outcome}
    {w : List Event} (h : site.Runs config o w) (hg : site.daemon.Gave d w) :
    o.Fills (table (site.daemon.after d w)) := by
  obtain ⟨hp, hi, hw, hr⟩ := h
  obtain ⟨-, hg⟩ := Daemon.gave_append.mp hg
  obtain ⟨-, hg⟩ := Daemon.gave_append.mp hg
  obtain ⟨hgw, hgr⟩ := Daemon.gave_append.mp hg.2
  rw [Daemon.after_append, Daemon.after_append, Daemon.after, Daemon.after_append,
    hd.quiet hr.quiet hgr]
  exact hw.fills hd hr (hd.listed hg).2 hgw

end Site

namespace Visit

variable {daemon : Daemon δ} {name : String} {table : δ → List ContainerListing}

theorem site_hasTable (hd : daemon.HasTable name table) (v : Visit daemon name) :
    v.site.daemon.HasTable v.site.settings.containerName table := by
  rw [show v.site.settings.containerName = name from v.named]
  exact hd

/-- A run that comes to its end leaves the one container of its outcome. -/
theorem leave_fills (hd : daemon.HasTable name table) {d : δ} (v : Visit daemon name) {o : Outcome}
    (h : (v.run d).1 = .ok o) : o.Fills (table (v.leave d)) := by
  have hk : v.site.Keeps (v.site.run v.config) (v.site.Runs v.config) := Site.run_keeps v.config
  obtain ⟨ms, o', w, hp, hw, -, ho⟩ := hk.path ⟨d, v.seat, v.stdin, v.clock, []⟩
  obtain ⟨rfl, hr⟩ := ho o h
  obtain ⟨hg, hl⟩ := hp.gave
  rw [hr] at hg hl
  have hf := hw.fills (v.site_hasTable hd) hg
  rw [← hl] at hf
  exact hf

/-- All calls of the run succeed, and if it is asked whether to use the container, the answer is
yes. -/
structure Favoured (v : Visit daemon name) (d : δ) : Prop where
  succeeds : Succeeds (v.run d).2.events
  agreed : ∀ x ∈ (v.run d).2.events, x.Grants (v.site.questionOf .useExisting) true

/-- The run keeps the container of this id and does nothing else. It comes to its end unless its
output fails, and the table stays as it is. -/
structure Reuses (table : δ → List ContainerListing) (id : String) (v : Visit daemon name) (d : δ) :
    Prop where
  unchanged : table (v.leave d) = table d
  kept : ∃ l st image, l.id = id ∧ Site.Supplies v.settings.imageReference st image ∧
    let w := .call .ping (.ok ()) :: (image ++ v.site.reuse l)
    ((v.run d).1 = .ok ⟨id, true⟩ ∧ (v.run d).2.events = w ∨
      ∃ e, v.console.Fails e ∧ (v.run d).1 = .error (.output e) ∧ (v.run d).2.events <+: w)

theorem Favoured.reuses (hd : daemon.HasTable name table) {d : δ} {l : ContainerListing}
    (ht : table d = [l]) (hl : l.isRunning = true) {v : Visit daemon name} (h : v.Favoured d) :
    v.Reuses table l.id d := by
  obtain ⟨ms, hp, hv⟩ := Site.run_voices (v.site_hasTable hd) hl v.config
    ⟨d, v.seat, v.stdin, v.clock, []⟩
  have he : (v.run d).2.events = recorded (incidents ms) := hp.events
  have hf : v.site.Favours d (recorded (incidents ms)) :=
    ⟨he ▸ h.succeeds, he ▸ h.agreed, hp.gave.1⟩
  obtain ⟨st, image, hs, hv⟩ := hv d ht hf
  have hq : Lacks Call.changes (.call .ping (.ok ()) :: (image ++ v.site.reuse l)) := by
    refine lacks_call.mpr ⟨rfl, lacks_append.mpr ⟨hs.quiet, ?_⟩⟩
    simp [Site.reuse, Call.changes]
  refine ⟨?_, l, st, image, rfl, hs, ?_⟩
  · have hl : v.leave d = daemon.after d (recorded (incidents ms)) := hp.gave.2
    rw [hl]
    exact hd.quiet (fun x hx => hq x (hv.begins.subset hx)) hp.gave.1
  · change Voices _ _ _ (v.run d).1 at hv
    rw [he]
    generalize (v.run d).1 = r at hv ⊢
    cases hv with
    | ended hw => exact .inl ⟨rfl, hw⟩
    | muted hm hw => exact .inr ⟨_, hp.fails hm, rfl, hw⟩

/-- All of these runs are such, each with the daemon as the ones before have left it. -/
def All (P : Visit daemon name → δ → Prop) : δ → List (Visit daemon name) → Prop
  | _, [] => True
  | d, v :: vs => P v d ∧ All P (v.leave d) vs

/-- Once a run has come to its end, all further runs that are favoured keep its container. -/
theorem further_runs_reuse (hd : daemon.HasTable name table) {d : δ} {first : Visit daemon name}
    {o : Outcome} (ho : (first.run d).1 = .ok o) (more : List (Visit daemon name))
    (hm : All Favoured (first.leave d) more) :
    All (Reuses table o.containerId) (first.leave d) more := by
  obtain ⟨l, ht, hid, hl, -⟩ := leave_fills hd first ho
  generalize first.leave d = d at ht hm ⊢
  induction more generalizing d with
  | nil => trivial
  | cons v more ih =>
    have hv := hm.1.reuses hd ht hl
    exact ⟨hid ▸ hv, ih _ (hv.unchanged.trans ht) hm.2⟩

def seated (v : Visit daemon name) (console : Console κ) (seat : κ) : Visit daemon name :=
  { v with κ, console, seat }

/-- The answer is yes, but the last byte of the output is not taken. -/
def rehearsedMuted : Visit (Rehearsal.Script.shelf Site.rehearsal.settings.containerName)
    Site.rehearsal.settings.containerName :=
  (rehearsed []).seated Rehearsal.Answers.console ⟨[.ok true], { limit := some 487 }⟩

theorem rehearsed_reuses :
    let d := (rehearsed []).leave rehearsalOpening
    let more := [rehearsed [[121]], rehearsedMuted, rehearsed [[121]]]
    ((rehearsed []).run rehearsalOpening).1 = .ok ⟨"c", false⟩ ∧ All Favoured d more ∧
      All (Reuses Rehearsal.Script.containers "c") d more := by
  intro d more
  have ho : ((rehearsed []).run rehearsalOpening).1 = .ok ⟨"c", false⟩ := by decide +kernel
  have hm : All Favoured d more :=
    ⟨⟨by decide +kernel, by decide +kernel⟩, ⟨by decide +kernel, by decide +kernel⟩,
      ⟨by decide +kernel, by decide +kernel⟩, trivial⟩
  have hd := Rehearsal.Script.shelf_hasTable Site.rehearsal.settings.containerName
  exact ⟨ho, hm, further_runs_reuse hd ho more hm⟩

/-- Though it is told to keep the container, such a run does not come to its end if its output
fails. -/
theorem rehearsed_muted_fails :
    let daemon := Rehearsal.Script.shelf Site.rehearsal.settings.containerName
    let d := (rehearsed []).leave rehearsalOpening
    daemon.HasTable Site.rehearsal.settings.containerName Rehearsal.Script.containers ∧
      ((rehearsed []).run rehearsalOpening).1 = .ok ⟨"c", false⟩ ∧
      rehearsedMuted.Favoured d ∧ (rehearsedMuted.run d).2.console.answers = [] ∧
      (rehearsedMuted.run d).1 = .error (.output (.other "output full")) :=
  ⟨Rehearsal.Script.shelf_hasTable _, by decide +kernel, ⟨by decide +kernel, by decide +kernel⟩,
    by decide +kernel, by decide +kernel⟩

end Visit

end Provisioner
