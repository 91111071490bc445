import Provisioner.Proofs.Calls
import Provisioner.Proofs.Counting
import Provisioner.Proofs.Furnishing
import Provisioner.Proofs.Prompting
import Provisioner.Proofs.Reconciliation
import Provisioner.Rehearsal.Script

namespace Provisioner

namespace Site

variable {δ κ : Type} {site : Site δ κ} {config : InitConfig} {o : Outcome} {w : List Event}

inductive Reaches (retries : Nat) : Words Unit
  | reach (es : List DaemonError) (h : es.length ≤ retries) :
    Reaches retries () (es.map (fun e => .call .ping (.error e)) ++ [.call .ping (.ok ())])

inductive Supplies (r : Image.Reference) : Words ImageStatus
  | present (images : List ImageListing) (h : images ≠ []) :
    Supplies r (.present images.length) [.call (.listImages r) (.ok images)]
  | pull (feed : Feed Progress) (h : feed.failure = none) :
    Supplies r .pulled [.call (.listImages r) (.ok []), .call (.pullImage r) feed]

inductive Finds (name : String) : Words (Option ContainerRecord)
  | none : Finds name none [.call (.listContainers name) (.ok [])]
  | one (l : ContainerListing) :
    Finds name (some (l.record name)) [.call (.listContainers name) (.ok [l])]

inductive Settles (site : Site δ κ) (config : InitConfig) : Ready → Words Outcome
  | reuse (id : String) : Settles site config (.reuse id) ⟨id, true⟩ []
  | fresh (id : String) {w : List Event} (h : site.Furnishes id config () w) :
    Settles site config (.fresh id) ⟨id, false⟩ w

inductive Runs (site : Site δ κ) (config : InitConfig) : Words Outcome
  | run {pings image way rest : List Event} {st : ImageStatus} {ls : List ContainerListing}
    {r : Ready} {o : Outcome} (hp : Reaches site.settings.probe.maxRetries.toNat () pings)
    (hi : Supplies site.settings.imageReference st image) (hw : site.Readies ls r way)
    (hr : site.Settles config r o rest) :
    Runs site config o (pings ++ (image ++
      .call (.listContainers site.settings.containerName) (.ok ls) :: (way ++ rest)))

theorem recorded_failedPings (es : List DaemonError) :
    recorded (failedPings es) = es.map fun e => .call .ping (.error e) := by
  induction es with
  | nil => rfl
  | cons e es ih =>
    have h : recorded (failedPings (e :: es)) =
        .call .ping (.error e) :: recorded (failedPings es) := rfl
    rw [h, ih, List.map_cons]

theorem probe_keeps :
    site.Keeps site.probe (Reaches site.settings.probe.maxRetries.toNat) := by
  refine Performs.mono probe_performs fun is r h => ?_
  cases h with
  | reached es h =>
    refine .ok ?_
    rw [recorded_append, recorded_failedPings]
    exact .reach es h
  | lost es cause h =>
    refine .error (.reach es h) ?_
    rw [recorded_append, recorded_failedPings]
    exact (agrees_call _ _ _ []).append_left _

theorem ensureImage_keeps (r : Image.Reference) :
    site.Keeps (site.ensureImage r) (Supplies r) := by
  have pulled : Supplies r .pulled _ := .pull {} rfl
  refine Performs.mono (ensureImage_performs r) fun is x h => ?_
  cases h with
  | unlisted e => exact .error pulled (agrees_call _ _ _ _)
  | present h => exact .ok (.present _ h)
  | unreported h e => exact .error (.present _ h) (agrees_beginning List.prefix_rfl)
  | unannounced e => exact .error pulled (agrees_call _ _ _ _)
  | pulled h => exact .ok (.pull _ h)
  | unpulled h => exact .error pulled ((agrees_call _ _ _ _).cons _)
  | unshown e => exact .error pulled ((agrees_call _ _ _ _).cons _)

theorem resolve_keeps (name : String) : site.Keeps (site.resolve name) (Finds name) := by
  refine Performs.mono (resolve_performs name) fun is x h => ?_
  cases h with
  | failed e => exact .error .none (agrees_call _ _ _ _)
  | none => exact .ok .none
  | one l => exact .ok (.one l)
  | several h => exact .error .none (agrees_call _ _ _ _)

theorem settle_keeps (config : InitConfig) (r : Ready) :
    site.Keeps (match r with
      | .reuse id => pure ⟨id, true⟩
      | .fresh id => do
        site.furnish id config
        return ⟨id, false⟩) (site.Settles config r) := by
  cases r with
  | reuse id => exact keeps_pure (.reuse id)
  | fresh id =>
    refine (furnish_keeps id config).andYield.mono ?_
    rintro o w ⟨_, rfl, h⟩
    exact .fresh id h

/-- A run leaves one of its words, or the beginning of one when it is stopped. -/
theorem run_keeps (config : InitConfig) : site.Keeps (site.run config) (site.Runs config) := by
  refine (probe_keeps.seq fun _ => (ensureImage_keeps _).seq fun _ => (resolve_keeps _).seq
    fun found => (reconcile_keeps (.ofRecord found)).seq (settle_keeps config)).mono ?_
  rintro o w ⟨_, _, _, hp, ⟨_, _, _, hi, ⟨_, _, _, hl, ⟨_, _, _, hw, hr, rfl⟩, rfl⟩, rfl⟩, rfl⟩
  cases hl with
  | none =>
    rw [List.singleton_append]
    exact .run hp hi hw.readies_nil hr
  | one l =>
    rw [List.singleton_append]
    exact .run hp hi hw.readies_one hr

theorem Reaches.calls {n : Nat} {u : Unit} (h : Reaches n u w) : calls w = w := by
  obtain ⟨es, -⟩ := h
  refine List.filter_eq_self.mpr fun x hx => ?_
  rcases List.mem_append.mp hx with hx | hx
  · obtain ⟨e, -, rfl⟩ := List.mem_map.mp hx
    rfl
  · obtain rfl := List.mem_singleton.mp hx
    rfl

theorem Supplies.calls {r : Image.Reference} {st : ImageStatus} (h : Supplies r st w) :
    calls w = w := by
  cases h with
  | present images h | pull feed h => rfl

theorem DecidesRemoval.calls {b : Bool} (h : site.DecidesRemoval b w) : calls w = [] := by
  cases h with
  | kept | spared _ _ | condemned _ => rfl

theorem Furnishes.calls {id : String} {u : Unit} (h : site.Furnishes id config u w) :
    calls w = w := by
  obtain ⟨⟨_, _, _⟩, ⟨_, _, _⟩, ⟨_, _, _, _⟩⟩ := h
  rfl

theorem Reaches.quiet {n : Nat} {u : Unit} (h : Reaches n u w) : Lacks Call.changes w := by
  obtain ⟨es, -⟩ := h
  intro x hx
  rcases List.mem_append.mp hx with hx | hx
  · obtain ⟨e, -, rfl⟩ := List.mem_map.mp hx
    rfl
  · obtain rfl := List.mem_singleton.mp hx
    rfl

theorem Supplies.quiet {r : Image.Reference} {st : ImageStatus} (h : Supplies r st w) :
    Lacks Call.changes w := by
  cases h with
  | present images h | pull feed h => simp [Call.changes]

theorem Settles.quiet {r : Ready} (h : site.Settles config r o w) : Lacks Call.changes w := by
  cases h with
  | reuse => exact lacks_nil _
  | fresh _ hf =>
    obtain ⟨⟨_, _, _⟩, ⟨_, _, _⟩, ⟨_, _, _, _⟩⟩ := hf
    simp [Call.changes]

theorem DecidesRemoval.lacks {b : Bool} (h : site.DecidesRemoval b w) (p : Call → Bool) :
    Lacks p w := by
  cases h with
  | kept | spared _ _ | condemned _ => simp

/-- Containers are changed only between the lookup and the container that is ready. -/
theorem Runs.shape (h : site.Runs config o w) : ∃ before ls r way after,
    w = before ++ .call (.listContainers site.settings.containerName) (.ok ls) :: (way ++ after) ∧
      calls before = before ∧ Lacks Call.changes before ∧ site.Readies ls r way ∧
      Lacks Call.changes after := by
  obtain ⟨hp, hi, hw, hr⟩ := h
  refine ⟨_, _, _, _, _, (List.append_assoc _ _ _).symm, ?_, ?_, hw, hr.quiet⟩
  · rw [calls_append, hp.calls, hi.calls]
  · exact lacks_append.mpr ⟨hp.quiet, hi.quiet⟩

/-- What there is once on the way to a container that is ready, there is once in a run. -/
theorem run_once {p : Call → Bool} {P : List ContainerListing → List Event → Event → Prop}
    (hp : ∀ c, c.changes = false → p c = false)
    (hr : ∀ {ls r way}, site.Readies ls r way → Once p (P ls) way) (config : InitConfig)
    (s : Session δ κ) :
    ∃ ms, site.Path s ms ((site.run config).apply s).2 ∧
      Once p (fun u x => ∃ before ls way y, calls before = before ∧
        u = before ++ .call (.listContainers site.settings.containerName) (.ok ls) :: way ∧
          y.asked = x.asked ∧ P ls way y) (recorded (incidents ms)) := by
  obtain ⟨ms, o, w, hm, hw, ha, -⟩ := (run_keeps config).path s
  obtain ⟨before, ls, r, way, after, rfl, hc, hb, hw, hn⟩ := hw.shape
  have hb' : Lacks p
      (before ++ [.call (.listContainers site.settings.containerName) (.ok ls)]) :=
    lacks_append.mpr ⟨hb.mono hp, lacks_call.mpr ⟨hp _ rfl, lacks_nil p⟩⟩
  have ho := ((hr hw).append_right (hn.mono hp)).append_left hb'
  rw [List.append_assoc, List.singleton_append] at ho
  refine ⟨ms, hm, (ho.agrees ha).mono ?_⟩
  rintro _ x ⟨y, hy, t, rfl, hP⟩
  exact ⟨before, ls, t, y, hc, by rw [List.append_assoc, List.singleton_append], hy, hP⟩

/-- The calls that lead from what is listed to a container that was started just now. -/
inductive Starts (spec : ContainerSpec) : List ContainerListing → String → List Event → Prop
  | start (l : ContainerListing) (h : l.isRunning = false) :
    Starts spec [l] l.id [.call (.startContainer l.id) (.ok ())]
  | create (new : String) :
    Starts spec [] new
      [.call (.createContainer spec) (.ok new), .call (.startContainer new) (.ok ())]
  | recreate (l : ContainerListing) (h : l.isRunning = true) (new : String) :
    Starts spec [l] new
      [.call (.removeContainer l.id) (.ok ()), .call (.createContainer spec) (.ok new),
        .call (.startContainer new) (.ok ())]

inductive Course (site : Site δ κ) (config : InitConfig) : Words Outcome
  | reuse {pings image : List Event} {st : ImageStatus} {l : ContainerListing}
    (hp : Reaches site.settings.probe.maxRetries.toNat () pings)
    (hi : Supplies site.settings.imageReference st image) (hl : l.isRunning = true) :
    Course site config ⟨l.id, true⟩
      (pings ++ (image ++ [.call (.listContainers site.settings.containerName) (.ok [l])]))
  | fresh {pings image start rest : List Event} {st : ImageStatus} {ls : List ContainerListing}
    {id : String} (hp : Reaches site.settings.probe.maxRetries.toNat () pings)
    (hi : Supplies site.settings.imageReference st image) (hs : Starts site.spec ls id start)
    (hf : site.Furnishes id config () rest) :
    Course site config ⟨id, false⟩
      (pings ++ (image ++
        .call (.listContainers site.settings.containerName) (.ok ls) :: (start ++ rest)))

theorem Runs.course (h : site.Runs config o w) : site.Course config o (calls w) := by
  obtain ⟨hp, hi, hw, hr⟩ := h
  rw [calls_append, calls_append, calls_call, calls_append, hp.calls, hi.calls]
  cases hw with
  | keep l h hw =>
    obtain ⟨⟩ := hr
    rw [hw.calls]
    exact .reuse hp hi h
  | start l h =>
    obtain ⟨⟩ | ⟨_, hf⟩ := hr
    rw [hf.calls]
    exact .fresh hp hi (.start l h) hf
  | create new =>
    obtain ⟨⟩ | ⟨_, hf⟩ := hr
    rw [hf.calls]
    exact .fresh hp hi (.create new) hf
  | recreate l h hw new =>
    obtain ⟨⟩ | ⟨_, hf⟩ := hr
    rw [calls_append, hw.calls, hf.calls]
    exact .fresh hp hi (.recreate l h new) hf

/-- A course begins with at most one ping more than there are retries. -/
theorem Course.opens (h : site.Course config o w) : ∃ pings r a rest,
    w = pings ++ .call (.listImages r) a :: rest ∧
      pings.length ≤ site.settings.probe.maxRetries.toNat + 1 := by
  have hr {pings : List Event} (h : Reaches site.settings.probe.maxRetries.toNat () pings) :
      pings.length ≤ site.settings.probe.maxRetries.toNat + 1 := by
    obtain ⟨es, h⟩ := h
    simpa using h
  have hs {r : Image.Reference} {st : ImageStatus} {image : List Event} (h : Supplies r st image) :
      ∃ a rest, image = .call (.listImages r) a :: rest := by
    cases h with
    | present | pull => exact ⟨_, _, rfl⟩
  cases h with
  | reuse hp hi | fresh hp hi =>
    obtain ⟨a, rest, rfl⟩ := hs hi
    exact ⟨_, _, a, _, rfl, hr hp⟩

/-- As long as the limit of the retries is below the last count: the count of the pings is kept, and
the calls of a run are those of a whole course, as far as the run gets. It gets to an outcome only
with all calls of the course made and answered. -/
theorem run_follows_course (site : Site δ κ)
    (hm : site.settings.probe.maxRetries < AttemptPolicy.lastCount) (config : InitConfig)
    (s : Session δ κ) :
    site.settings.probe.policy.KeepsCount site.ping s.clock s ∧
    ∃ t o w, ((site.run config).apply s).2.events = s.events ++ t ∧ site.Course config o w ∧
      Agrees (calls t) w ∧
      ∀ o', ((site.run config).apply s).1 = .ok o' → o' = o ∧ calls t = w := by
  refine ⟨site.settings.probe.policy.keepsCount hm site.ping s.clock s, ?_⟩
  obtain ⟨ms, o, w, hp, hw, ha, ho⟩ := (run_keeps config).path s
  refine ⟨_, o, calls w, hp.events, hw.course, ha.calls, fun o' h => ?_⟩
  obtain ⟨rfl, hr⟩ := ho o' h
  exact ⟨rfl, hr ▸ rfl⟩

/-- A site with a key and an inventory, a scripted daemon and a terminal. -/
def rehearsal : Site Rehearsal.Script (TerminalOn Unit) where
  daemon := Rehearsal.Script.daemon
  console := .screen
  host := { root := .dir 0o755 [("key", .file 0o600 [1]), ("inventory", .file 0o600 [2])]
            cwd := []
            home := none
            userProfile := none }
  settings := {}

def rehearsalConfig : InitConfig := ⟨"/key", "10.*", "/inventory"⟩

/-- A running container is listed, and `no` and `YES` are entered. -/
def rehearsalStart : Session Rehearsal.Script (TerminalOn Unit) where
  daemon := { images := [⟨"image", []⟩], containers := [⟨"old", "running"⟩] }
  console := ⟨[[110, 111], [89, 69, 83]], ()⟩

theorem rehearsal_follows_course :
    rehearsal.settings.probe.maxRetries < AttemptPolicy.lastCount ∧
      ((rehearsal.run rehearsalConfig).apply rehearsalStart).1 = .ok ⟨"new-container", false⟩ ∧
      ∃ t w, ((rehearsal.run rehearsalConfig).apply rehearsalStart).2.events =
          rehearsalStart.events ++ t ∧
        rehearsal.Course rehearsalConfig ⟨"new-container", false⟩ w ∧ calls t = w := by
  have hm : rehearsal.settings.probe.maxRetries < AttemptPolicy.lastCount := by decide
  have hr : ((rehearsal.run rehearsalConfig).apply rehearsalStart).1 =
      .ok ⟨"new-container", false⟩ := by decide +kernel
  obtain ⟨-, t, o, w, he, hw, -, ho⟩ := rehearsal.run_follows_course hm rehearsalConfig rehearsalStart
  obtain ⟨rfl, ht⟩ := ho _ hr
  exact ⟨hm, hr, t, w, he, hw, ht⟩

/-- A daemon that is never there, and a limit that is the last count. -/
def forsaken : Site Rehearsal.Script (TerminalOn Unit) :=
  { rehearsal with
    daemon := {
      answer := fun c s =>
        match c with
        | .ping => (.error (.daemon .ping "down"), s)
        | c => Rehearsal.Script.daemon.answer c s }
    settings := { probe := ⟨AttemptPolicy.lastCount, 0⟩ } }

def unanswered : Event := .call .ping (.error (.daemon .ping "down"))

theorem forsaken_ping (s : Session Rehearsal.Script (TerminalOn Unit)) :
    forsaken.ping s =
      (⟨.error (.daemon .ping "down"), false⟩, { s with events := s.events ++ [unanswered] }) :=
  rfl

theorem forsaken_pings (n : Nat) (s : Session Rehearsal.Script (TerminalOn Unit)) :
    ((fun s => (forsaken.ping s).2)^[n] s).events = s.events ++ List.replicate n unanswered := by
  induction n generalizing s with
  | zero => exact (List.append_nil _).symm
  | succ n ih =>
    rw [Function.iterate_succ_apply, ih, forsaken_ping, List.append_assoc, List.replicate_succ,
      List.singleton_append]

/-- Round after round, more pings are made there than the limit allows and than any course has. -/
theorem forsaken_leaves_course :
    ∃ cs m, Trail (forsaken.settings.probe.policy.Round forsaken.ping) ⟨0, {}, rehearsalStart⟩ cs m ∧
      calls m.state.events = List.replicate cs.length (.call .ping (.error (.daemon .ping "down"))) ∧
      forsaken.settings.probe.maxRetries.toNat + 1 < cs.length ∧
      ∀ config o w, forsaken.Course config o w → ¬Agrees (calls m.state.events) w := by
  have hf : AttemptPolicy.Fails forsaken.ping := fun s => ⟨_, congrArg Prod.fst (forsaken_ping s)⟩
  obtain ⟨cs, ht, hn⟩ := AttemptPolicy.tireless_rounds hf 0x100000001 0 rehearsalStart
  have he : calls ((fun s => (forsaken.ping s).2)^[0x100000001] rehearsalStart).events =
      List.replicate cs.length unanswered := by
    rw [forsaken_pings, calls_append, hn]
    exact List.filter_replicate_of_pos rfl
  have hl : forsaken.settings.probe.maxRetries.toNat + 1 < cs.length := by
    have hlimit : forsaken.settings.probe.maxRetries.toNat = 0xFFFFFFFF := rfl
    omega
  refine ⟨cs, _, ht, he, hl, fun config o w hw ha => ?_⟩
  obtain ⟨pings, r, a, rest, rfl, hp⟩ := hw.opens
  -- Where the images are to be listed there is still a ping.
  have hc : List.replicate cs.length unanswered = List.replicate pings.length unanswered ++
      unanswered :: List.replicate (cs.length - pings.length - 1) unanswered := by
    have hk : pings.length + (cs.length - pings.length - 1 + 1) = cs.length := by omega
    rw [← List.replicate_succ, List.replicate_append_replicate, hk]
  rw [he, hc] at ha
  obtain ⟨y, v, hv, hy, -⟩ := ha.split
  obtain ⟨-, h⟩ := List.append_inj hv List.length_replicate.symm
  obtain ⟨rfl, -⟩ := List.cons.inj h
  cases hy

end Site

end Provisioner
