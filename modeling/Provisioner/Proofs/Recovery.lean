import Provisioner.Proofs.Landing
import Provisioner.Proofs.Packing
import Provisioner.Proofs.Reuse

namespace Provisioner

variable {δ κ ε ε' α β : Type}

def Event.seesDirectory : Event → Bool
  | .call (.statPath ..) (.ok (some st)) => st.kind == .directory
  | .call (.statPath ..) _ => false
  | _ => true

def Event.opensSession : Event → Bool
  | .call (.createExec ..) (.ok session) => session != ""
  | _ => true

def Event.ListsOne (name : String) : Event → Prop
  | .call (.listContainers n) (.ok ls) => n = name → ls.length ≤ 1
  | _ => True

namespace Site

/-- A call that a run makes is granted, and so is the removal of a container that it asks for. -/
structure Grants (site : Site δ κ) (x : Event) : Prop where
  succeeds : x.failure? = none
  directory : x.seesDirectory = true
  session : x.opensSession = true
  declined : x.Grants (site.questionOf .useExisting) false
  confirmed : x.Grants (site.questionOf .recreate) true

instance (site : Site δ κ) (x : Event) : Decidable (site.Grants x) :=
  decidable_of_iff (x.failure? = none ∧ x.seesDirectory = true ∧ x.opensSession = true ∧
    x.Grants (site.questionOf .useExisting) false ∧ x.Grants (site.questionOf .recreate) true)
    ⟨fun ⟨hf, hd, hs, hn, hy⟩ => ⟨hf, hd, hs, hn, hy⟩,
      fun ⟨hf, hd, hs, hn, hy⟩ => ⟨hf, hd, hs, hn, hy⟩⟩

def Smooth (site : Site δ κ) (is : List Incident) : Prop :=
  ∀ i ∈ is, ∃ x, i.event? = some x ∧ site.Grants x ∧ x.ListsOne site.settings.containerName

variable {site : Site δ κ} {is js : List Incident} {config : InitConfig}

theorem smooth_append : site.Smooth (is ++ js) ↔ site.Smooth is ∧ site.Smooth js :=
  List.forall_mem_append

theorem Smooth.call {c : Call} {a : c.Answer} (h : site.Smooth is) (hc : .call c a ∈ is) :
    site.Grants (.call c a) ∧ (Event.call c a).ListsOne site.settings.containerName := by
  obtain ⟨_, ⟨⟩, hx⟩ := h _ hc
  exact hx

theorem Smooth.question {q : Question} {a : Except PromptError Bool} (h : site.Smooth is)
    (hq : .question q a ∈ is) : site.Grants (.question q a) := by
  obtain ⟨_, ⟨⟩, hx, -⟩ := h _ hq
  exact hx

theorem Smooth.shown (h : site.Smooth is) (e : IoError) : .outputFailed e ∉ is := by
  intro he
  obtain ⟨_, ⟨⟩, -⟩ := h _ he

theorem Smooth.grants (h : site.Smooth is) (x : Event) (hx : x ∈ recorded is) :
    site.Grants x := by
  obtain ⟨i, hi, he⟩ := List.mem_filterMap.mp hx
  obtain ⟨y, hy, hg, -⟩ := h i hi
  obtain rfl := Option.some.inj (he.symm.trans hy)
  exact hg

theorem Smooth.succeeds (h : site.Smooth is) : Succeeds (recorded is) :=
  fun x hx => (h.grants x hx).succeeds

def Fares (site : Site δ κ) (a : Run δ κ ε α) : Prop :=
  site.Performs a fun is r => site.Smooth is → ∃ v, r = .ok v

theorem fares_pure (v : α) : site.Fares (pure v : Run δ κ ε α) := performs_pure fun _ => ⟨v, rfl⟩

theorem Fares.bind {a : Run δ κ ε α} {k : α → Run δ κ ε β} (ha : site.Fares a)
    (hk : ∀ v, site.Fares (k v)) : site.Fares (a >>= k) := by
  refine Performs.bind ha (fun is v _ => ?_) fun is e h hs => ?_
  · exact Performs.mono (hk v) fun js r h hs => h (smooth_append.mp hs).2
  · obtain ⟨v, hv⟩ := h hs
    cases hv

theorem Fares.orFail {a : Run δ κ ε α} {f : ε → ε'} (h : site.Fares a) :
    site.Fares (a.orFail f) := by
  refine Performs.orFail (Performs.mono h fun is r h hs => ?_)
  obtain ⟨v, rfl⟩ := h hs
  exact ⟨v, rfl⟩

theorem fares_shown {a : Run δ κ ε Unit} {f : IoError → ε} (ha : site.Performs a (Shown f)) :
    site.Fares a := by
  refine Performs.mono ha fun is r h hs => ?_
  cases h with
  | shown => exact ⟨(), rfl⟩
  | failed e => exact absurd List.mem_cons_self (hs.shown e)

/-- A call is granted, and then the part goes on with what was granted. -/
theorem fares_granted {a : Run δ κ ε (Reply α)} {told : Reply α → Incident} {k : α → Run δ κ ε β}
    {f : DaemonError → ε}
    (ha : site.Performs a fun is r => ∃ reply, is = [told reply] ∧ r = .ok reply)
    (he : ∀ e, ¬Succeeds (recorded [told (.error e)]))
    (hk : ∀ v, site.Performs (k v) fun is r =>
      site.Smooth [told (.ok v)] → site.Smooth is → ∃ u, r = .ok u) :
    site.Fares (a >>= fun reply => demand reply f >>= k) := by
  refine Performs.demand ha (fun v => ?_) fun e hs => absurd hs.succeeds (he e)
  exact Performs.mono (hk v) fun is r h hs => h (smooth_append.mp hs).1 (smooth_append.mp hs).2

theorem fares_demand {a : Run δ κ ε (Reply α)} {told : Reply α → Incident} {k : α → Run δ κ ε β}
    {f : DaemonError → ε}
    (ha : site.Performs a fun is r => ∃ reply, is = [told reply] ∧ r = .ok reply)
    (he : ∀ e, ¬Succeeds (recorded [told (.error e)])) (hk : ∀ v, site.Fares (k v)) :
    site.Fares (a >>= fun reply => demand reply f >>= k) :=
  fares_granted ha he fun v => Performs.mono (hk v) fun _ _ h _ => h

theorem probe_fares : site.Fares site.probe :=
  Performs.mono probe_performs fun _ _ h hs => ⟨(), (h.at_once hs.succeeds).2⟩

theorem ensureImage_fares (r : Image.Reference) : site.Fares (site.ensureImage r) := by
  refine Performs.mono (ensureImage_performs r) fun is x h hs => ?_
  obtain ⟨st, w, -, hv⟩ := h.voices hs.succeeds
  cases hv with
  | ended => exact ⟨st, rfl⟩
  | muted he => exact absurd he (hs.shown _)

theorem resolve_fares : site.Fares (site.resolve site.settings.containerName) := by
  refine Performs.mono (resolve_performs _) fun is r h hs => ?_
  cases h with
  | failed e => cases (hs.call List.mem_cons_self).1.succeeds
  | none | one l => exact ⟨_, rfl⟩
  | several h =>
    exact absurd h (Nat.not_lt.mpr ((hs.call List.mem_cons_self).2 rfl))

theorem decide_fares (d : Decision) : site.Fares (site.decide d) := by
  refine Performs.mono (decide_answered d) ?_
  rintro is r ⟨a, rfl, ha⟩ hs
  have hg := hs.question List.mem_cons_self
  cases d with
  | useExisting => exact ⟨false, ha false (hg.declined rfl)⟩
  | recreate => exact ⟨true, ha true (hg.confirmed rfl)⟩

theorem say_fares (text : String) : site.Fares (site.say text) := fares_shown (say_performs text)

theorem confirmRemoval_fares : site.Fares site.confirmRemoval := by
  refine (decide_fares .recreate).bind fun b => ?_
  cases b with
  | true => exact fares_pure true
  | false => exact (say_fares _).bind fun _ => fares_pure false

theorem decideRemoval_fares : site.Fares site.decideRemoval := by
  refine (say_fares _).bind fun _ => (decide_fares .useExisting).bind fun b => ?_
  cases b with
  | true => exact (say_fares _).bind fun _ => fares_pure false
  | false => exact (say_fares _).bind fun _ => confirmRemoval_fares

theorem createContainer_fares : site.Fares site.createContainer := by
  refine fares_demand (told_call (.createContainer site.spec)) (fun e hs => ?_) fun id =>
    (say_fares _).bind fun _ => fares_pure id
  cases hs _ List.mem_cons_self

theorem startContainer_fares (id : String) : site.Fares (site.startContainer id) := by
  refine fares_demand (told_call (.startContainer id)) (fun e hs => ?_) fun _ => say_fares _
  cases hs _ List.mem_cons_self

theorem removeContainer_fares (id : String) : site.Fares (site.removeContainer id) := by
  refine fares_demand (told_call (.removeContainer id)) (fun e hs => ?_) fun _ => say_fares _
  cases hs _ List.mem_cons_self

theorem step_fares (p : Phase) : site.Fares (site.step p) := by
  cases p with
  | absent => exact createContainer_fares.bind fun _ => fares_pure _
  | created id => exact (startContainer_fares id).bind fun _ => fares_pure _
  | existsStopped id => exact (startContainer_fares id).bind fun _ => fares_pure _
  | started id => exact fares_pure _
  | existsRunning id =>
    refine decideRemoval_fares.bind fun b => ?_
    cases b with
    | true => exact (removeContainer_fares id).bind fun _ => fares_pure _
    | false => exact fares_pure _

theorem reconcile_fares (st : LifecycleState) : site.Fares (site.reconcile st) := by
  fun_induction site.reconcile st with
  | case1 r => exact fares_pure r
  | case2 p ih => exact (step_fares p).bind ih

inductive Delivers (host : Host) (id source dest : String) : Words Unit
  | deliver {st : PathStat} {entries : Tar.Archive} (hk : st.kind = .directory)
    (h : Copy.Wraps host source entries) :
    Delivers host id source dest ()
      [.call (.statPath id dest) (.ok (some st)),
        .call (.uploadArchive id dest (.archive entries)) (.ok ())]

theorem lift_ok (v : β) (k : β → Run δ κ ε α) :
    (liftM (Except.ok v : Except ε β) >>= k) = k v := rfl

theorem statDestination_found (id dest : String) :
    site.Performs (site.statDestination id dest) fun is r =>
      ∃ reply, is = [.call (.statPath id dest) reply] ∧ r = .ok (found reply) := by
  refine performs_call fun reply => ?_
  cases reply with
  | ok st | error e => exact performs_pure ⟨_, rfl, rfl⟩

theorem copyPath_isFile {p : String} (h : site.host.isFile p = true) (ho : Copy.Opens site.host p)
    (id dest : String) {st : PathStat} (hk : st.kind = .directory) : ∃ name mode content,
      Files.Path.fileName? p = some name ∧ site.host.stat p = .ok (.file mode content) ∧
        site.copyPath id p dest (some st) =
          site.upload id dest (.archive (Tar.ofNode [name] (.file mode content))) := by
  obtain ⟨name, mode, content, hn, hs, hi, hp⟩ := Copy.pack_isFile h ho
  refine ⟨name, mode, content, hn, hs, ?_⟩
  have hm : Copy.Plan.make ⟨p, false, false, false⟩ ⟨dest, some st⟩ = .ok ⟨dest, .named name⟩ := by
    simp [Copy.Plan.make, Copy.Plan.inside, Copy.Origin.baseName, hk, hn]
  have hc : site.copyPacked id ⟨p, false, false, false⟩ ⟨dest, .named name⟩ =
      site.upload id dest (.archive (Tar.ofNode [name] (.file mode content))) := by
    simp only [copyPacked, hp]
    exact bind_pure _
  rw [← hc, copyPath, hi, lift_ok, hm, lift_ok]

theorem upload_answered (id dir : String) (content : Upload) :
    site.Performs (site.upload id dir content) fun is r => ∃ reply : Reply Unit,
      is = [.call (.uploadArchive id dir content) reply] ∧ r = reply.mapError .transfer := by
  refine performs_call fun reply => ?_
  cases reply with
  | ok v => exact performs_pure ⟨_, rfl, rfl⟩
  | error e => exact performs_throw ⟨_, rfl, rfl⟩

/-- If a directory is found, the file is delivered unless the upload fails. -/
theorem stage_file {source : String} (hf : Copy.IsFile site.host source) (id dest : String) :
    site.Performs (site.stage id source dest) fun is r =>
      (∀ x ∈ recorded is, x.seesDirectory = true) →
        (r = .ok () ∧ Delivers site.host id source dest () (recorded is)) ∨
          ∃ e, r = .error e ∧ ¬Succeeds (recorded is) := by
  obtain ⟨p, hr, hp, ho⟩ := hf
  rw [stage, hr, lift_ok]
  refine (statDestination_found id dest).bind ?_ ?_
  · rintro _ _ ⟨reply, rfl, ⟨⟩⟩
    by_cases hd : (Event.call (.statPath id dest) reply).seesDirectory = true
    · match reply with
      | .ok (some st) =>
        have hk : st.kind = .directory := by simpa [Event.seesDirectory] using hd
        obtain ⟨name, mode, content, hn, hs, hc⟩ := copyPath_isFile hp ho id dest hk
        change site.Performs (site.copyPath id p dest (some st)) _
        rw [hc]
        refine Performs.mono (upload_answered id dest _) ?_
        rintro _ _ ⟨reply, rfl, rfl⟩ _
        cases reply with
        | ok v => exact .inl ⟨rfl, .deliver hk (.wrap hr hn hs)⟩
        | error e =>
          refine .inr ⟨_, rfl, fun h => ?_⟩
          cases h _ (List.mem_cons_of_mem _ List.mem_cons_self)
      | .ok none | .error e => cases hd
    · refine Performs.mono (copyPath_keeps id p dest (found reply)) fun is r _ h => ?_
      exact absurd (h _ List.mem_cons_self) hd
  · rintro _ e ⟨_, -, ⟨⟩⟩

theorem stage_fares {source : String} (hf : Copy.IsFile site.host source) (id dest : String) :
    site.Fares (site.stage id source dest) := by
  refine Performs.mono (stage_file hf id dest) fun is r h hs => ?_
  obtain ⟨rfl, -⟩ | ⟨e, -, he⟩ := h fun x hx => hs.grants x hx |>.directory
  · exact ⟨(), rfl⟩
  · exact absurd hs.succeeds he

theorem stageFile_fares {source : String} (hf : Copy.IsFile site.host source)
    (id what dest : String) : site.Fares (site.stageFile id what source dest) :=
  (stage_fares hf id dest).orFail.bind fun _ => say_fares _

theorem stageFile_delivers {source : String} (hf : Copy.IsFile site.host source)
    (id what dest : String) : site.Yields (site.stageFile id what source dest) fun _ w =>
      (∀ x ∈ w, x.seesDirectory = true) → Delivers site.host id source dest () w := by
  have hs : site.Yields (site.stage id source dest) fun _ w =>
      (∀ x ∈ w, x.seesDirectory = true) → Delivers site.host id source dest () w := by
    refine Performs.mono (stage_file hf id dest) ?_
    rintro is r h _ rfl hd
    obtain ⟨-, hw⟩ | ⟨e, he, -⟩ := h hd
    · exact hw
    · cases he
  refine (hs.orFail.seq fun _ => (keeps_shown (say_performs _)).yields).mono ?_
  rintro _ w ⟨_, w, _, h, rfl, rfl⟩
  rwa [List.append_nil]

theorem relayFeed_fares {feed : Feed Bytes} (h : feed.failure = none) :
    site.Fares (site.relayFeed feed) := by
  refine (fares_shown (relay_performs feed.items)).bind fun _ => ?_
  rw [h]
  exact fares_shown (flush_performs _)

theorem runInit_fares (id : String) (config : InitConfig) :
    site.Fares (site.runInit id config) := by
  refine fares_demand (told_call (.inspectContainer id)) (fun e hs => ?_) fun _ => ?_
  · cases hs _ List.mem_cons_self
  refine fares_granted (told_call (.createExec id (execSpec site.settings config)))
    (fun e hs => ?_) fun session => ?_
  · cases hs _ List.mem_cons_self
  by_cases hn : (session == "") = true
  · rw [if_pos hn]
    refine performs_throw fun hs _ => ?_
    have hs := (hs.call List.mem_cons_self).1.session
    rw [eq_of_beq hn] at hs
    cases hs
  · rw [if_neg hn]
    refine Performs.mono (fares_granted (told_call (.startExec session true))
      (fun e hs => ?_) fun feed => ?_) fun _ _ h _ => h
    · cases hs _ List.mem_cons_self
    cases hf : feed.failure with
    | none => exact Performs.mono (relayFeed_fares hf) fun _ _ h _ => h
    | some e =>
      refine Performs.mono (relayFeed_performs feed) fun is r _ hs => ?_
      have hn : feed.failure = none := (hs.call List.mem_cons_self).1.succeeds
      cases hf.symm.trans hn

variable (hk : Copy.IsFile site.host config.sshKey) (hi : Copy.IsFile site.host config.inventory)

include hk hi

theorem furnish_fares (id : String) : site.Fares (site.furnish id config) := by
  refine (stageFile_fares hk id _ _).bind fun _ => ?_
  refine (stageFile_fares hi id _ _).bind fun _ => ?_
  exact (runInit_fares id config).orFail.bind fun _ => say_fares _

theorem run_fares : site.Fares (site.run config) := by
  refine probe_fares.bind fun _ => (ensureImage_fares _).bind fun _ => ?_
  refine resolve_fares.bind fun found => (reconcile_fares _).bind fun r => ?_
  cases r with
  | reuse id => exact fares_pure _
  | fresh id => exact (furnish_fares hk hi id).bind fun _ => fares_pure _

inductive Equips (site : Site δ κ) (config : InitConfig) (id : String) : Words Unit
  | equip {key inventory script : List Event}
    (hk : Delivers site.host id config.sshKey site.settings.sshKeyDir () key)
    (hi : Delivers site.host id config.inventory site.settings.inventoryDir () inventory)
    (hs : site.Initializes id config () script) :
    Equips site config id () (key ++ (inventory ++ script))

theorem furnish_equips (id : String) : site.Yields (site.furnish id config) fun _ w =>
    (∀ x ∈ w, x.seesDirectory = true) → site.Equips config id () w := by
  refine ((stageFile_delivers hk id _ _).seq fun _ => (stageFile_delivers hi id _ _).seq fun _ =>
    ((runInit_keeps id config).orFail.andShow (say_performs _)).yields).mono ?_
  rintro _ w ⟨_, _, _, hk, ⟨_, _, _, hi, hs, rfl⟩, rfl⟩ hd
  obtain ⟨hdk, hd⟩ := List.forall_mem_append.mp hd
  exact .equip (hk hdk) (hi (List.forall_mem_append.mp hd).1) hs

omit hk hi in
/-- A run that is granted what it asks for keeps no container. -/
theorem Runs.fresh {o : Outcome} {w : List Event} (h : site.Runs config o w)
    (hg : ∀ x ∈ w, site.Grants x) : o.reused = false := by
  obtain ⟨-, -, hw, hr⟩ := h
  cases hw with
  | keep l h hw =>
    cases hw with
    | kept =>
      have hq := hg (.question (site.questionOf .useExisting) (.ok true)) (by simp)
      cases hq.declined rfl
    | @spared a b ha hb =>
      have hq := hg (.question (site.questionOf .recreate) b) (by simp)
      obtain rfl := hq.confirmed rfl
      obtain h | ⟨⟨n, h⟩, -⟩ := hb <;> cases h
  | start | create | recreate =>
    obtain ⟨⟩ | _ := hr
    rfl

end Site

namespace Visit

variable {daemon : Daemon δ} {name : String} {table : δ → List ContainerListing}

/-- The run is granted all that it asks for, its output is taken, and its sources are files of the
local machine that can be opened. -/
structure Granted (v : Visit daemon name) (d : δ) : Prop where
  grants : ∀ x ∈ (v.run d).2.events, v.site.Grants x
  shown : ∀ e, ¬v.console.Fails e
  key : Copy.IsFile v.site.host v.config.sshKey
  inventory : Copy.IsFile v.site.host v.config.inventory

theorem listsOne (hd : daemon.HasTable name table) {d : δ} (h : (table d).length ≤ 1)
    (v : Visit daemon name) : ∀ x ∈ (v.run d).2.events, x.ListsOne v.settings.containerName := by
  obtain ⟨t, ht, -, hg, hle⟩ := Site.run_table (v.site_hasTable hd) v.config
    ⟨d, v.seat, v.stdin, v.clock, []⟩ h
  intro x hx
  obtain ⟨u, w, he⟩ := List.append_of_mem hx
  obtain rfl : t = u ++ x :: w := ht.symm.trans he
  unfold Event.ListsOne
  split
  · rintro rfl
    have hl := ((v.site_hasTable hd).listed (Daemon.gave_append.mp hg).2).1
    exact hl ▸ hle u (List.prefix_append u _)
  · trivial

theorem Granted.succeeds (hd : daemon.HasTable name table) {d : δ} (h : (table d).length ≤ 1)
    {v : Visit daemon name} (hv : v.Granted d) : ∃ o, (v.run d).1 = .ok o := by
  have hr : v.site.Fares (v.site.run v.config) := Site.run_fares hv.key hv.inventory
  obtain ⟨ms, hp, hf⟩ := hr ⟨d, v.seat, v.stdin, v.clock, []⟩
  have he : (v.run d).2.events = recorded (incidents ms) := hp.events
  refine hf fun i hi => ?_
  have member {x : Event} (hx : i.event? = some x) : x ∈ (v.run d).2.events :=
    he ▸ List.mem_filterMap.mpr ⟨i, hi, hx⟩
  cases i with
  | call | question => exact ⟨_, rfl, hv.grants _ (member rfl), listsOne hd h v _ (member rfl)⟩
  | outputFailed e => exact absurd (hp.fails hi) (hv.shown e)

theorem Granted.fresh {d : δ} {v : Visit daemon name} (hv : v.Granted d) {o : Outcome}
    (ho : (v.run d).1 = .ok o) : o.reused = false := by
  have hk : v.site.Keeps (v.site.run v.config) (v.site.Runs v.config) := Site.run_keeps v.config
  obtain ⟨ms, o', w, hp, hw, -, hr⟩ := hk.path ⟨d, v.seat, v.stdin, v.clock, []⟩
  obtain ⟨rfl, rfl⟩ := hr o ho
  have he : (v.run d).2.events = recorded (incidents ms) := hp.events
  exact hw.fresh (he ▸ hv.grants)

theorem Granted.equips {d : δ} {v : Visit daemon name} (hv : v.Granted d) {o : Outcome}
    (ho : (v.run d).1 = .ok o) : ∃ start rest, (v.run d).2.events = start ++ rest ∧
      v.site.Equips v.config o.containerId () rest := by
  obtain ⟨ms, hp, hy⟩ := Site.run_furnishes (Site.furnish_equips hv.key hv.inventory)
    ⟨d, v.seat, v.stdin, v.clock, []⟩
  have he : (v.run d).2.events = recorded (incidents ms) := hp.events
  obtain ⟨start, rest, hr, hq⟩ := hy o ho (hv.fresh ho)
  rw [hr] at he
  refine ⟨start, rest, he, hq fun x hx => ?_⟩
  exact (hv.grants x (he ▸ List.mem_append_right start hx)).directory

/-- However the runs before have ended, a run that is granted what it asks for leaves one
container, that was made or started just now, with both files in it and its script run. -/
theorem granted_run_equips (hd : daemon.HasTable name table) {d : δ} (h : (table d).length ≤ 1)
    (before : List (Visit daemon name)) (v : Visit daemon name)
    (hv : v.Granted (before.foldl (fun d v => v.leave d) d)) :
    let d' := before.foldl (fun d v => v.leave d) d
    ∃ id start rest, (v.run d').1 = .ok ⟨id, false⟩ ∧ (v.run d').2.events = start ++ rest ∧
      v.site.Equips v.config id () rest ∧ table (v.leave d') = [⟨id, "running"⟩] := by
  intro d'
  obtain ⟨⟨id, reused⟩, ho⟩ := hv.succeeds hd (leave_le hd h before)
  obtain rfl : reused = false := hv.fresh ho
  obtain ⟨start, rest, he, hq⟩ := hv.equips ho
  obtain ⟨⟨_, _⟩, ht, rfl, -, hr⟩ := leave_fills hd v ho
  obtain rfl := hr rfl
  exact ⟨_, start, rest, ho, he, hq, ht⟩

def rehearsalSupplied : Rehearsal.Script where
  images := [⟨"image", []⟩]
  stats := [(Site.rehearsal.settings.sshKeyDir, .ok .directory),
    (Site.rehearsal.settings.inventoryDir, .ok .directory)]

/-- The key is not where it is said to be. -/
def rehearsedKeyless : Visit (Rehearsal.Script.shelf Site.rehearsal.settings.containerName)
    Site.rehearsal.settings.containerName :=
  { rehearsed [] with config := ⟨"/no-key", "10.*", "/inventory"⟩ }

theorem rehearsed_shown (lines : List Bytes) (e : IoError) :
    ¬(rehearsed lines).console.Fails e := by
  rintro ⟨_, ⟨_, h⟩ | h⟩ <;> cases h

theorem rehearsal_isFile : Copy.IsFile Site.rehearsal.host "/key" ∧
    Copy.IsFile Site.rehearsal.host "/inventory" :=
  ⟨⟨"/key", by decide +kernel, by decide +kernel, fun _ _ _ => rfl⟩,
    "/inventory", by decide +kernel, by decide +kernel, fun _ _ _ => rfl⟩

/-- A run leaves a container that is running and has no key, and the next one makes another. -/
theorem rehearsed_recovers :
    let d := rehearsedKeyless.leave rehearsalSupplied
    let v := rehearsed [[110], [121]]
    (∃ e, (rehearsedKeyless.run rehearsalSupplied).1 = .error e) ∧ v.Granted d ∧
      ∃ id start rest, (v.run d).1 = .ok ⟨id, false⟩ ∧ (v.run d).2.events = start ++ rest ∧
        v.site.Equips v.config id () rest ∧ (v.leave d).containers = [⟨id, "running"⟩] := by
  intro d v
  have hd := Rehearsal.Script.shelf_hasTable Site.rehearsal.settings.containerName
  have hv : v.Granted d :=
    ⟨by decide +kernel, rehearsed_shown _, rehearsal_isFile.1, rehearsal_isFile.2⟩
  have hf : (rehearsedKeyless.run rehearsalSupplied).1.toOption = none := by decide +kernel
  have h : rehearsalSupplied.containers.length ≤ 1 := Nat.zero_le 1
  refine ⟨?_, hv, granted_run_equips hd h [rehearsedKeyless] v hv⟩
  cases hr : (rehearsedKeyless.run rehearsalSupplied).1 with
  | error e => exact ⟨e, rfl⟩
  | ok o =>
    rw [hr] at hf
    cases hf

/-- The key is in a file with the name that stands for standard input. -/
def rehearsedDash : Visit (Rehearsal.Script.shelf Site.rehearsal.settings.containerName)
    Site.rehearsal.settings.containerName :=
  { rehearsed [] with
    host := { root := .dir 0o755 [("-", .file 0o600 [1]), ("inventory", .file 0o600 [2])]
              cwd := []
              home := none
              userProfile := none }
    config := ⟨"-", "10.*", "/inventory"⟩ }

/-- The key is in a file that may not be read. -/
def rehearsedShut : Visit (Rehearsal.Script.shelf Site.rehearsal.settings.containerName)
    Site.rehearsal.settings.containerName :=
  { rehearsed [] with
    host := { Site.rehearsal.host with
      shut := fun l => if l = ["key"] then some .permissionDenied else none } }

/-- It is not enough that all calls succeed and that there are files of these names. A session
without an id ends the run, standard input is sent in the place of a file, and a file that may not be
read cannot be packed. -/
theorem rehearsed_not_equipped :
    let daemon := Rehearsal.Script.shelf Site.rehearsal.settings.containerName
    let d := { rehearsalSupplied with session := "" }
    let v := rehearsed []
    let w := rehearsedDash
    let u := rehearsedShut
    daemon.HasTable Site.rehearsal.settings.containerName Rehearsal.Script.containers ∧
      (∀ lines e, ¬(rehearsed lines).console.Fails e) ∧ d.containers = [] ∧
      v.host.isFile v.config.sshKey = true ∧ v.host.isFile v.config.inventory = true ∧
      Succeeds (v.run d).2.events ∧ (∀ x ∈ (v.run d).2.events, x.seesDirectory = true) ∧
      (v.run d).1 = .error (.exec v.settings.containerName .emptySessionId) ∧
      w.host.isFile w.config.sshKey = true ∧ w.host.isFile w.config.inventory = true ∧
      (∀ x ∈ (w.run rehearsalSupplied).2.events, w.site.Grants x) ∧
      (w.run rehearsalSupplied).1 = .ok ⟨"c", false⟩ ∧
      Site.landings (w.run rehearsalSupplied).2.events = ["/home/ubuntu/inventory"] ∧
      u.host.isFile u.config.sshKey = true ∧ u.host.isFile u.config.inventory = true ∧
      (∀ x ∈ (u.run rehearsalSupplied).2.events, u.site.Grants x) ∧
      (u.run rehearsalSupplied).1 = .error (.fileStage u.settings.containerName "/key"
        u.settings.sshKeyDir (.archive "/key" .permissionDenied)) := by
  intro daemon d v w u
  refine ⟨Rehearsal.Script.shelf_hasTable _, rehearsed_shown, ?_⟩
  decide +kernel

end Visit

end Provisioner
