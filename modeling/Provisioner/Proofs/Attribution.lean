import Provisioner.Proofs.Blame
import Provisioner.Proofs.Preparation

namespace Provisioner

variable {δ κ α β : Type} {config : InitConfig}

namespace Site

variable {site : Site δ κ} {copied : Bool}

theorem say_shows (text : String) :
    site.Makes (site.say text)
      (Shows site.settings config id 1 ⟨copied, false⟩ ⟨copied, false⟩) :=
  write_shows fun _ => rfl

theorem sayAll_shows (lines : List String) :
    site.Makes (site.sayAll lines)
      (Shows site.settings config id lines.length ⟨copied, false⟩ ⟨copied, false⟩) := by
  induction lines with
  | nil => exact makes_pure (.shown (List.forall_mem_nil _) (Nat.le_refl 0) rfl)
  | cons line lines ih =>
    rw [List.length_cons, Nat.add_comm]
    exact (say_shows line).thenShow ih

def Keeping (site : Site δ κ) (config : InitConfig) (copied : Bool)
    (a : Run δ κ ProvisionError α) : Prop :=
  site.Tells config id ⟨copied, false⟩ (fun _ => ⟨copied, false⟩) a

theorem Keeping.bind {a : Run δ κ ProvisionError α} {k : α → Run δ κ ProvisionError β}
    (ha : site.Keeping config copied a) (hk : ∀ v, site.Keeping config copied (k v)) :
    site.Keeping config copied (a >>= k) :=
  Tells.bind ha hk

theorem keeping_pure (v : α) : site.Keeping config copied (pure v) := tells_pure rfl

theorem say_keeping (text : String) : site.Keeping config copied (site.say text) :=
  (say_shows text).tells

theorem reportImages_keeping (images : List ImageListing) :
    site.Keeping config copied (site.reportImages images) :=
  (say_keeping _).bind fun _ => (sayAll_shows _).tells.bind fun _ =>
    (say_keeping _).bind fun _ => keeping_pure _

theorem pullImage_keeping (r : Image.Reference) :
    site.Keeping config copied (site.pullImage r) := by
  refine (say_keeping _).bind fun _ => makes_call fun feed => ?_
  cases h : feed.failure with
  | some e =>
    have hm : (Move.call (.pullImage r) feed).blame? site.settings config ⟨copied, false⟩ =
        some (.imagePull r.text e) := by simp [Move.blame?, Call.blame?, h]
    refine Makes.behindBlamed hm (Makes.thenEnd ?_ (sayAll_shows _))
    exact Nat.le_trans (List.length_filter_le _ _) (Nat.le_of_eq (List.length_map _))
  | none =>
    have hm (j : Juncture) :
        (Move.call (.pullImage r) feed).blame? site.settings config j = none := by
      simp [Move.blame?, Call.blame?, h]
    refine Tells.behind hm ((sayAll_shows _).tells.bind fun _ => ?_)
    exact (Makes.tells (flush_shows fun _ => rfl)).bind fun _ => keeping_pure _

theorem ensureImage_keeping (r : Image.Reference) :
    site.Keeping config copied (site.ensureImage r) := by
  refine tells_demand (told_move_call (.listImages r)) (fun _ => rfl) fun images => ?_
  refine Tells.behind (fun _ => rfl) ?_
  cases images with
  | nil => exact pullImage_keeping r
  | cons i is => exact reportImages_keeping (i :: is)

theorem resolve_keeping (name : String) : site.Keeping config copied (site.resolve name) := by
  refine tells_demand (told_move_call (.listContainers name)) (fun _ => rfl) fun ls => ?_
  match ls with
  | [] => exact Tells.behind (fun _ => rfl) (keeping_pure _)
  | [l] => exact Tells.behind (fun _ => rfl) (keeping_pure _)
  | l :: l' :: ls =>
    have hm : (Move.call (.listContainers name) (.ok (l :: l' :: ls))).blame? site.settings config
        ⟨copied, false⟩ = some (.ambiguous name (l :: l' :: ls).length) := by
      simp [Move.blame?, Call.blame?]
    exact makes_throw_behind hm

theorem decide_keeping (d : Decision) : site.Keeping config copied (site.decide d) := by
  refine makes_ask fun a => ?_
  have blamed {e : PromptError} (he : site.settings.prompt.tolerates e = false) (j : Juncture) :
      (Move.question (site.questionOf d) (.error e)).blame? site.settings config j =
        some (.confirmation d e) := by
    simp [Move.blame?, he, decision?_questionOf]
  match a with
  | .ok b => exact Tells.behind (fun _ => rfl) (keeping_pure b)
  | .error (.io cause) => exact makes_throw_behind (blamed rfl _)
  | .error (.noValidAnswer n) =>
    by_cases h : site.settings.prompt.unansweredIsDecline
    · simp only [h, if_true]
      exact Tells.behind (fun _ => if_pos h) (keeping_pure false)
    · simp only [h]
      exact makes_throw_behind (blamed (e := .noValidAnswer n) (eq_false_of_ne_true h) _)

theorem confirmRemoval_keeping : site.Keeping config copied site.confirmRemoval := by
  refine (decide_keeping .recreate).bind fun b => ?_
  cases b with
  | true => exact keeping_pure true
  | false => exact (say_keeping _).bind fun _ => keeping_pure false

theorem decideRemoval_keeping : site.Keeping config copied site.decideRemoval := by
  refine (say_keeping _).bind fun _ => (decide_keeping .useExisting).bind fun b => ?_
  cases b with
  | true => exact (say_keeping _).bind fun _ => keeping_pure false
  | false => exact (say_keeping _).bind fun _ => confirmRemoval_keeping

theorem createContainer_keeping : site.Keeping config copied site.createContainer := by
  refine tells_demand (told_move_call (.createContainer site.spec)) (fun _ => rfl) fun id => ?_
  exact Tells.behind (fun _ => rfl) ((say_keeping _).bind fun _ => keeping_pure id)

theorem startContainer_keeping (id : String) :
    site.Keeping config copied (site.startContainer id) := by
  refine tells_demand (told_move_call (.startContainer id)) (fun _ => rfl) fun _ => ?_
  exact Tells.behind (fun _ => rfl) (say_keeping _)

theorem removeContainer_keeping (id : String) :
    site.Keeping config copied (site.removeContainer id) := by
  refine tells_demand (told_move_call (.removeContainer id)) (fun _ => rfl) fun _ => ?_
  exact Tells.behind (fun _ => rfl) (say_keeping _)

theorem step_keeping (p : Phase) : site.Keeping config copied (site.step p) := by
  cases p with
  | absent => exact createContainer_keeping.bind fun _ => keeping_pure _
  | created id | existsStopped id =>
    exact (startContainer_keeping id).bind fun _ => keeping_pure _
  | started id => exact keeping_pure _
  | existsRunning id =>
    refine decideRemoval_keeping.bind fun b => ?_
    cases b with
    | true => exact (removeContainer_keeping id).bind fun _ => keeping_pure _
    | false => exact keeping_pure _

theorem reconcile_keeping (st : LifecycleState) :
    site.Keeping config copied (site.reconcile st) := by
  induction st using reconcile.induct with
  | case1 r =>
    rw [reconcile]
    exact keeping_pure r
  | case2 p ih =>
    rw [reconcile]
    exact (step_keeping p).bind fun next => ih next

end Site

theorem Copy.Source.resolve_local {h : Host} {raw : String} {e : CopyError}
    (he : Copy.Source.resolve h raw = .error e) : e.daemonError? = none := by
  unfold Copy.Source.resolve at he
  split at he
  · cases he
  · split at he
    · cases he
      rfl
    · split at he
      · cases he
      · split at he <;> cases he

theorem Copy.Origin.inspect_local {h : Host} {resolved : String} {e : CopyError}
    (he : Copy.Origin.inspect h resolved = .error e) : e.daemonError? = none := by
  unfold Copy.Origin.inspect at he
  simp only at he
  split at he
  · cases he
    rfl
  · cases he

theorem Copy.Plan.make_local {o : Copy.Origin} {d : Copy.Destination} {e : CopyError}
    (he : Copy.Plan.make o d = .error e) : e.daemonError? = none := by
  unfold Copy.Plan.make at he
  split at he
  · cases he
    rfl
  · split at he
    · cases he
      rfl
    · cases he
      rfl
    · cases he
    all_goals
      split at he
      · cases he
        rfl
      · cases he

namespace Site

variable {site : Site δ κ} {copied : Bool}

/-- The failures of a copy, as failures of the run. -/
def seen (site : Site δ κ) (source dest : String) (e : CopyError) : ProvisionError :=
  .fileStage site.settings.containerName source dest e

theorem upload_tells {j : Juncture} (id dir : String) (content : Upload) :
    site.Tells config (site.seen (j.source config) (j.dest site.settings)) j
      (fun _ => { j with keyCopied := true }) (site.upload id dir content) := by
  have h : site.Tells config (site.seen (j.source config) (j.dest site.settings)) j _
      (site.call (.uploadArchive id dir content) >>= fun reply =>
        demand (α := Unit) reply .transfer >>= pure) :=
    tells_demand (told_move_call _) (fun _ => rfl) fun _ =>
      Tells.behind (fun _ => rfl) (tells_pure rfl)
  simp only [bind_pure] at h
  exact h

theorem copyStdin_tells {j : Juncture} (id dest : String) (stat : Option PathStat) :
    site.Tells config (site.seen (j.source config) (j.dest site.settings)) j
      (fun _ => { j with keyCopied := true }) (site.copyStdin id dest stat) := by
  unfold copyStdin
  split
  · refine Makes.bind (P := fun ms r => ∃ bs, ms = [.takeStdin bs] ∧ r = .ok bs)
      (makes_of_step fun s => ⟨_, .takeStdin s, _, rfl, rfl⟩) ?_ ?_
    · rintro ms bs ⟨_, rfl, h⟩
      exact Tells.behind (fun _ => rfl) (upload_tells id dest _)
    · rintro ms e ⟨_, -, h⟩
      cases h
  · exact tells_throw rfl

theorem copyPacked_tells {j : Juncture} (id : String) (o : Copy.Origin) (plan : Copy.Plan) :
    site.Tells config (site.seen (j.source config) (j.dest site.settings)) j
      (fun _ => { j with keyCopied := true }) (site.copyPacked id o plan) := by
  refine (upload_tells id _ _).bind fun _ => ?_
  cases (Copy.pack site.host o plan.root).failure with
  | some e => exact tells_throw rfl
  | none => exact tells_pure rfl

theorem copyPath_tells {j : Juncture} (id path dest : String) (stat : Option PathStat) :
    site.Tells config (site.seen (j.source config) (j.dest site.settings)) j
      (fun _ => { j with keyCopied := true }) (site.copyPath id path dest stat) := by
  refine tells_lift (fun e he => ?_) fun origin => tells_lift (fun e he => ?_) fun plan =>
    copyPacked_tells id origin plan
  · exact Option.isNone_iff_eq_none.mpr (Copy.Origin.inspect_local he)
  · exact Option.isNone_iff_eq_none.mpr (Copy.Plan.make_local he)

theorem stage_tells {j : Juncture} (id source dest : String) :
    site.Tells config (site.seen (j.source config) (j.dest site.settings)) j
      (fun _ => { j with keyCopied := true }) (site.stage id source dest) := by
  refine tells_lift (fun e he => ?_) fun resolved => ?_
  · exact Option.isNone_iff_eq_none.mpr (Copy.Source.resolve_local he)
  · have looked : site.Tells config (site.seen (j.source config) (j.dest site.settings)) j
        (fun _ => j) (site.statDestination id dest) := by
      refine makes_call fun reply => Tells.behind (fun _ => rfl) ?_
      cases reply with
      | ok stat => exact tells_pure rfl
      | error e => exact tells_pure rfl
    refine looked.bind fun stat => ?_
    cases resolved with
    | stdin => exact copyStdin_tells id dest stat
    | path path => exact copyPath_tells id path dest stat

theorem relay_shows (chunks : List Bytes) :
    site.Makes (site.relay chunks) (Shows site.settings config (.exec site.settings.containerName)
      chunks.length ⟨copied, true⟩ ⟨copied, true⟩) := by
  induction chunks with
  | nil => exact makes_pure (.shown (List.forall_mem_nil _) (Nat.le_refl 0) rfl)
  | cons chunk rest ih =>
    rw [List.length_cons, Nat.add_comm]
    exact (write_shows fun _ => rfl).thenShow ih

theorem relayFeed_tells (session : String) (tty : Bool) (feed : Feed Bytes) :
    site.Makes (site.relayFeed feed) fun ms r =>
      Told site.settings config (.exec site.settings.containerName) ⟨copied, false⟩
        (fun _ => ⟨copied, false⟩) (.call (.startExec session tty) (.ok feed) :: ms) r := by
  unfold relayFeed
  cases h : feed.failure with
  | some e =>
    have hm : (Move.call (.startExec session tty) (.ok feed)).blame? site.settings config
        ⟨copied, false⟩ = some (.exec site.settings.containerName (.output e)) := by
      simp [Move.blame?, Call.blame?, h]
    exact Makes.behindBlamed hm (Makes.thenEnd (Nat.le_refl _) (relay_shows feed.items))
  | none =>
    have hm (j : Juncture) : (Move.call (.startExec session tty) (.ok feed)).blame? site.settings
        config j = none := by simp [Move.blame?, Call.blame?, h]
    exact Tells.behind hm ((relay_shows feed.items).thenShow (flush_shows fun _ => rfl)).tells

theorem runInit_tells (id : String) :
    site.Tells config (.exec site.settings.containerName) ⟨copied, false⟩
      (fun _ => ⟨copied, false⟩) (site.runInit id config) := by
  refine tells_demand (told_move_call (.inspectContainer id)) (fun _ => rfl) fun _ => ?_
  refine Tells.behind (fun _ => rfl) ?_
  refine tells_demand (told_move_call (.createExec id (execSpec site.settings config)))
    (fun _ => rfl) fun session => ?_
  by_cases h : session = ""
  · subst h
    exact makes_throw_behind rfl
  · rw [if_neg (by simpa using h)]
    refine Tells.behind (fun _ => if_neg h) ?_
    exact tells_demand (told_move_call (.startExec session true)) (fun _ => rfl)
      fun feed => relayFeed_tells session true feed

theorem stageFile_tells (container what : String) {source dest : String}
    (hs : (⟨copied, false⟩ : Juncture).source config = source)
    (hd : (⟨copied, false⟩ : Juncture).dest site.settings = dest) :
    site.Tells config id ⟨copied, false⟩ (fun _ => ⟨true, false⟩)
      (site.stageFile container what source dest) := by
  subst hs hd
  refine Tells.bind (Tells.orFail (stage_tells container _ _)) fun _ => ?_
  exact (say_keeping _ : site.Keeping config true _)

theorem furnish_tells (container : String) :
    site.Tells config id ⟨false, false⟩ (fun _ => ⟨true, false⟩)
      (site.furnish container config) := by
  refine (stageFile_tells container _ rfl rfl).bind fun _ => ?_
  refine (stageFile_tells container _ rfl rfl).bind fun _ => ?_
  refine Tells.bind (f := id) (Tells.orFail (runInit_tells container)) fun _ => ?_
  exact (say_keeping _ : site.Keeping config true _)

end Site

/-- Every failure has its place on the way of a run and in what it ends with. -/
structure Attributed (s : Settings) (config : InitConfig) (ms : List Move)
    (r : Except ProvisionError α) : Prop where
  /-- What is wrong ends the run with the error for it. Before that only what had come is shown,
  and if that fails it is a failure of its own. -/
  stops : ∀ u m v e, ms = u ++ m :: v → m.blame? s config (Juncture.past {} u) = some e →
    (∀ n ∈ v, n.isOutput = true) ∧ v.length ≤ m.items ∧
      ((∀ n ∈ v, n.isTaken = true) → r = .error e)
  /-- A call that fails is the last one, and its failure is kept in the error for it. -/
  calls : ∀ u c a v cause, ms = u ++ .call c a :: v → c.mayFail = false →
    c.failure? a = some cause → (∀ c' a', .call c' a' ∉ v) ∧
      ∃ e, c.blame? s config (Juncture.past {} u) a = some e ∧ e.daemonError? = some cause
  /-- An error that a run ends with comes from what is wrong. -/
  arises : ∀ e, r = .error e → e.isLocalCopy = true ∨ (∃ cause, e = .connectivity cause) ∨
    ∃ u m v, ms = u ++ m :: v ∧ m.blame? s config (Juncture.past {} u) = some e ∧
      ∀ n ∈ v, n.isTaken = true
  /-- The daemon is said not to answer if it has not. -/
  connectivity : (∃ cause, r = .error (.connectivity cause)) ↔ .call .ping (.ok ()) ∉ ms
  /-- Then nothing else was done, and the last failure is the one that is kept. -/
  lost : ∀ cause, r = .error (.connectivity cause) →
    ∃ es, incidents ms = failedPings (es ++ [cause.last])

section

variable {s : Settings} {ms ns : List Move} {m : Move} {j : Juncture} {n : Nat}

theorem Move.blame?_ne_connectivity {cause : AttemptsError DaemonError} :
    m.blame? s config j ≠ some (.connectivity cause) := by
  intro h
  cases m with
  | question q a =>
    cases a with
    | ok b => cases h
    | error e =>
      rw [Move.blame?] at h
      split at h
      · cases h
      · simp at h
  | write bs a | flush a =>
    cases a with
    | ok => cases h
    | error e =>
      rw [Move.blame?] at h
      split at h <;> cases h
  | takeStdin | setClock => cases h
  | call c a =>
    rw [Move.blame?, Call.blame?.eq_def] at h
    split at h <;> simp at h

theorem Move.Probes.blame? (h : m.Probes) (j : Juncture) : m.blame? s config j = none := by
  cases h with
  | ping | clock => rfl

theorem Juncture.past_of_probes (h : ∀ m ∈ ms, m.Probes) : Juncture.past {} ms = {} := by
  induction ms with
  | nil => rfl
  | cons m ms ih =>
    have hm : Juncture.next {} m = {} := by
      cases h m List.mem_cons_self with
      | ping | clock => rfl
    rw [Juncture.past_cons, hm]
    exact ih fun n hn => h n (List.mem_cons_of_mem m hn)

theorem Probed.attributed {cause : AttemptsError DaemonError} (hp : ∀ m ∈ ms, m.Probes)
    (h : Probed n (incidents ms) (.error (.connectivity cause))) :
    Attributed s config ms (.error (.connectivity cause) : Except ProvisionError α) where
  stops u m v e hms hm := by
    have hm' := hp m (hms ▸ List.mem_append_right u List.mem_cons_self)
    rw [hm'.blame?] at hm
    cases hm
  calls u c a v cause hms hc := by
    have hm := hp (.call c a) (hms ▸ List.mem_append_right u List.mem_cons_self)
    cases hm with
    | ping => cases hc
  arises e he := .inr (.inl ⟨cause, (Except.error.inj he).symm⟩)
  connectivity := ⟨fun _ => h.unanswered, fun _ => ⟨cause, rfl⟩⟩
  lost cause' he := by
    cases he
    generalize incidents ms = is at h
    cases h with
    | lost es => exact ⟨es, by simp [failedPings]⟩

theorem Told.attributed {J : α → Juncture} {r : Except ProvisionError α}
    (h : Told s config id {} J ms r) (hp : .call .ping (.ok ()) ∈ ms) :
    Attributed s config ms r := by
  have culprit (e : ProvisionError) (he : r = .error e) := Told.culprit (he ▸ h)
  have connected (cause : AttemptsError DaemonError) : r ≠ .error (.connectivity cause) := by
    intro he
    obtain hl | ⟨u, m, v, -, hm, -⟩ := culprit _ he
    · cases hl
    · exact Move.blame?_ne_connectivity hm
  refine ⟨fun u m v e hms hm => ?_, fun u c a v cause hms hc hf => ?_, fun e he => ?_, ?_, ?_⟩
  · have hv := Told.place (hms ▸ h) hm
    refine ⟨hv.isOutput, hv.length_le, fun ht => ?_⟩
    obtain ⟨e', rfl, rfl⟩ := hv.taken ht
    rfl
  · obtain ⟨e, hb, he⟩ := Call.blame?_of_failure? s config (Juncture.past {} u) hc hf
    have hv := Told.place (m := .call c a) (hms ▸ h) hb
    exact ⟨fun c' a' hm => Bool.false_ne_true (hv.isOutput _ hm), e, hb, he⟩
  · exact (culprit e he).imp_right .inr
  · exact ⟨fun ⟨cause, he⟩ => absurd he (connected cause), fun hn => absurd hp hn⟩
  · exact fun cause he => absurd he (connected cause)

end

/-- Every failure on a run ends it and is what the run reports, and a run reports nothing else. -/
theorem Site.failures_attributed (site : Site δ κ) (config : InitConfig) (s : Session δ κ) :
    ∃ ms, site.Path s ms ((site.run config).apply s).2 ∧
      Attributed site.settings config ms ((site.run config).apply s).1 := by
  revert s
  refine Makes.bind (R := Attributed site.settings config) probe_makes (fun ms _ h => ?_)
    fun ms e h => ?_
  · refine Makes.mono
      (P := Told site.settings config id {} fun o : Outcome => ⟨!o.reused, false⟩) ?_ fun ns r ht => ?_
    · have image (r : Image.Reference) : site.Keeping config false _ := ensureImage_keeping r
      have lookup (name : String) : site.Keeping config false _ := resolve_keeping name
      have container (st : LifecycleState) : site.Keeping config false _ := reconcile_keeping st
      refine Tells.bind (image _) fun _ => Tells.bind (lookup _) fun found => ?_
      refine Tells.bind (container _) fun r => ?_
      cases r with
      | reuse container => exact tells_pure rfl
      | fresh container => exact (furnish_tells container).bind fun _ => tells_pure rfl
    · have hb : Blameless site.settings config ms := fun m hm => (h.1 m hm).blame?
      have hj : Juncture.past {} ms = {} := Juncture.past_of_probes h.1
      exact Told.attributed (Told.prepend hb (hj ▸ ht)) (List.mem_append_left ns h.2.answered)
  · obtain ⟨cause, rfl⟩ := h.2.connectivity
    exact h.2.attributed h.1

end Provisioner
