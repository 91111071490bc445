import Mathlib.Data.List.Basic
import Provisioner.Proofs.Blame
import Provisioner.Proofs.Preparation

namespace Provisioner

variable {δ α β γ ε ε' : Type}

/-- Someone answers the questions, and output is kept in a sink. -/
def Console.onto (ask : Question → α → Except PromptError Bool × α) : Console (α × Sink) where
  ask q s := let (r, a) := ask q s.1; (r, a, s.2)
  write bs s := let (r, out) := s.2.write bs; (r, s.1, out)
  flush s := let (r, out) := s.2.flush; (r, s.1, out)

/-- The error of a run that could not show its output. -/
def ProvisionError.isUnshown : ProvisionError → Bool
  | .output _ | .exec _ (.write _) => true
  | _ => false

theorem Sink.write_unlimited {out : Sink} (h : out.limit = none) (bs : Bytes) :
    out.write bs = (.ok (), { out with written := out.written ++ bs }) := by
  simp [write, room, h]

namespace Session

def output (s : Session δ (α × Sink)) : Bytes := s.console.2.written

/-- The session with room for `n` bytes of output in all. -/
def limited (n : Nat) (s : Session δ (α × Sink)) : Session δ (α × Sink) :=
  { s with console := (s.console.1, { s.console.2 with limit := some n }) }

structure Open (s : Session δ (α × Sink)) : Prop where
  unlimited : s.console.2.limit = none
  flushes : s.console.2.flushFails = false

structure Grows (s t : Session δ (α × Sink)) : Prop where
  opened : t.Open
  output : s.output <+: t.output
  events : s.events <+: t.events

variable {s t u : Session δ (α × Sink)} {n : Nat}

theorem Grows.refl (h : s.Open) : s.Grows s := ⟨h, List.prefix_rfl, List.prefix_rfl⟩

theorem Grows.trans (h : s.Grows t) (h' : t.Grows u) : s.Grows u :=
  ⟨h'.opened, h.output.trans h'.output, h.events.trans h'.events⟩

/-- How a part comes out where `n` bytes of output are taken, beside how it comes out where all
are. Too much output ends it with an error that satisfies `full`. -/
inductive Beside (n : Nat) (full : ε → Prop) (r : Except ε β) (t : Session δ (α × Sink)) :
    Except ε β → Session δ (α × Sink) → Prop
  | within (h : t.output.length ≤ n) : Beside n full r t r (t.limited n)
  | beyond {e : ε} {u : Session δ (α × Sink)} (h : n < t.output.length) (he : full e)
    (ho : u.output = t.output.take n) (hv : u.events <+: t.events) :
    Beside n full r t (.error e) u

theorem Beside.grows {full : ε → Prop} {e : ε} {r : Except ε γ} (hn : n < t.output.length)
    (he : full e) {u' : Session δ (α × Sink)} (ho : u'.output = t.output.take n)
    (hv : u'.events <+: t.events) (hg : t.Grows u) : Beside n full r u (.error e) u' := by
  refine .beyond (Nat.lt_of_lt_of_le hn hg.output.length_le) he ?_ (hv.trans hg.events)
  obtain ⟨more, hm⟩ := hg.output
  rw [ho, ← hm, List.take_append_of_le_length (Nat.le_of_lt hn)]

theorem Beside.told {full : ε → Prop} {r r' : Except ε β} {t' : Session δ (α × Sink)}
    (h : Beside n full r t r' t') :
    t'.output = t.output.take n ∧ t'.events <+: t.events ∧
      (t.output.length ≤ n → (r', t') = (r, t.limited n)) ∧
      (n < t.output.length → ∃ e, r' = .error e ∧ full e) := by
  cases h with
  | within h =>
    refine ⟨(List.take_of_length_le h).symm, List.prefix_rfl, fun _ => rfl, fun hl => ?_⟩
    omega
  | beyond h he ho hv =>
    refine ⟨ho, hv, fun hl => ?_, fun _ => ⟨_, rfl, he⟩⟩
    omega

end Session

namespace Site

open Session (Beside)

variable {site : Site δ (α × Sink)} {ask : Question → α → Except PromptError Bool × α}
  {s t : Session δ (α × Sink)} {n : Nat} {full : ε → Prop}

theorem Step.grows (hc : site.console = .onto ask) {m : Move} (h : site.Step s m t)
    (ho : s.Open) : s.Grows t := by
  cases h with
  | call => exact ⟨⟨ho.unlimited, ho.flushes⟩, List.prefix_rfl, List.prefix_append _ _⟩
  | question =>
    rw [hc]
    exact ⟨⟨ho.unlimited, ho.flushes⟩, List.prefix_rfl, List.prefix_append _ _⟩
  | write bs =>
    have hw : (site.console.write bs s.console).2 =
        (s.console.1, { s.console.2 with written := s.console.2.written ++ bs }) := by
      rw [hc]
      change (s.console.1, (s.console.2.write bs).2) = _
      rw [Sink.write_unlimited ho.unlimited]
    rw [hw]
    exact ⟨⟨ho.unlimited, ho.flushes⟩, List.prefix_append _ _, List.prefix_rfl⟩
  | flush =>
    rw [hc]
    exact .refl ho
  | takeStdin | setClock => exact ⟨⟨ho.unlimited, ho.flushes⟩, List.prefix_rfl, List.prefix_rfl⟩

theorem Path.grows (hc : site.console = .onto ask) {ms : List Move} (h : site.Path s ms t)
    (ho : s.Open) : s.Grows t := by
  induction h with
  | nil s => exact .refl ho
  | cons hm _ ih =>
    have hg := hm.grows hc ho
    exact hg.trans (ih hg.opened)

theorem Path.silent (hc : site.console = .onto ask) {ms : List Move} (h : site.Path s ms t)
    (hm : ∀ m ∈ ms, m.isOutput = false) : t.output = s.output := by
  induction h with
  | nil s => rfl
  | cons h _ ih =>
    rw [List.forall_mem_cons] at hm
    rw [ih hm.2]
    cases h with
    | write | flush => cases hm.1
    | question =>
      rw [hc]
      rfl
    | call | takeStdin | setClock => rfl

structure Curtails (site : Site δ (α × Sink)) (n : Nat) (full : ε → Prop)
    (a : Run δ (α × Sink) ε β) : Prop where
  moves : site.Makes a fun _ _ => True
  beside : ∀ s, s.Open → s.output.length ≤ n →
    Beside n full (a.apply s).1 (a.apply s).2 (a.apply (s.limited n)).1 (a.apply (s.limited n)).2

theorem curtails_still {a : Run δ (α × Sink) ε β} {r : Except ε β}
    (ha : ∀ s, a.apply s = (r, s)) : site.Curtails n full a where
  moves := makes_still ha trivial
  beside s _ hn := by
    rw [ha, ha]
    exact .within hn

theorem curtails_pure (v : β) : site.Curtails n full (pure v : Run δ (α × Sink) ε β) :=
  curtails_still fun _ => rfl

theorem curtails_throw (e : ε) : site.Curtails n full (throw e : Run δ (α × Sink) ε β) :=
  curtails_still fun _ => rfl

theorem Curtails.bind (hc : site.console = .onto ask) {a : Run δ (α × Sink) ε β}
    {k : β → Run δ (α × Sink) ε γ} (ha : site.Curtails n full a)
    (hk : ∀ v, site.Curtails n full (k v)) : site.Curtails n full (a >>= k) where
  moves := Makes.bind ha.moves (fun _ v _ => (hk v).moves) fun _ _ _ => trivial
  beside s ho hn := by
    obtain ⟨ms, hp, -⟩ := ha.moves s
    have hg := hp.grows hc ho
    have hb := ha.beside s ho hn
    rw [Action.apply_bind, Action.apply_bind]
    generalize a.apply s = out at hg hb ⊢
    generalize a.apply (s.limited n) = out' at hb ⊢
    obtain ⟨r, t⟩ := out
    obtain ⟨r', t'⟩ := out'
    cases hb with
    | within hl =>
      cases r with
      | error e => exact .within hl
      | ok v => exact (hk v).beside t hg.opened hl
    | beyond hl he hw hv =>
      cases r with
      | error e' => exact .beyond hl he hw hv
      | ok v =>
        obtain ⟨ns, hq, -⟩ := (hk v).moves t
        exact Beside.grows hl he hw hv (hq.grows hc hg.opened)

theorem Curtails.orFail {full' : ε' → Prop} {f : ε → ε'} {a : Run δ (α × Sink) ε β}
    (ha : site.Curtails n full a) (hf : ∀ e, full e → full' (f e)) :
    site.Curtails n full' (a.orFail f) where
  moves := .orFail ha.moves
  beside s ho hn := by
    have hb := ha.beside s ho hn
    rw [Action.apply_orFail, Action.apply_orFail]
    generalize (a.apply (s.limited n)).1 = r' at hb
    generalize (a.apply (s.limited n)).2 = t' at hb
    cases hb with
    | within hl => exact .within hl
    | beyond hl he hw hv => exact .beyond hl (hf _ he) hw hv

theorem Curtails.lift {r : Except ε γ} {k : γ → Run δ (α × Sink) ε β}
    (hk : ∀ v, site.Curtails n full (k v)) : site.Curtails n full (liftM r >>= k) := by
  cases r with
  | error e => exact curtails_still fun _ => rfl
  | ok v => exact hk v

section

variable (hc : site.console = .onto ask)

include hc

theorem curtails_silent {a : Run δ (α × Sink) ε β}
    (hm : site.Makes a fun ms _ => ∀ m ∈ ms, m.isOutput = false)
    (ha : ∀ s, a.apply (s.limited n) = ((a.apply s).1, (a.apply s).2.limited n)) :
    site.Curtails n full a where
  moves := hm.mono fun _ _ _ => trivial
  beside s _ hn := by
    obtain ⟨ms, hp, ho⟩ := hm s
    rw [ha]
    exact .within (hp.silent hc ho ▸ hn)

theorem call_curtails (c : Call) :
    site.Curtails n full (site.call c : Run δ (α × Sink) ε c.Answer) :=
  curtails_silent hc
    (makes_of_step fun s => ⟨_, .call c s, List.forall_mem_singleton.mpr rfl⟩) fun _ => rfl

theorem takeStdin_curtails : site.Curtails n full (takeStdin : Run δ (α × Sink) ε Bytes) :=
  curtails_silent hc
    (makes_of_step fun s => ⟨_, .takeStdin s, List.forall_mem_singleton.mpr rfl⟩) fun _ => rfl

theorem ask_curtails (q : Question) :
    site.Curtails n full ((site.ask q).outcome : Run δ (α × Sink) ε _) := by
  refine curtails_silent hc
    (makes_of_step fun s => ⟨_, .question q s, List.forall_mem_singleton.mpr rfl⟩) fun s => ?_
  simp only [Action.apply_outcome, Site.ask, Action.apply_ofFun, hc]
  rfl

/-- A reply is asked for, and its failure is one of the part. -/
theorem request_curtails {a : Run δ (α × Sink) ε (Reply γ)}
    (ha : site.Curtails n full a) {k : γ → Run δ (α × Sink) ε β} {f : DaemonError → ε}
    (hk : ∀ v, site.Curtails n full (k v)) :
    site.Curtails n full (a >>= fun reply => demand reply f >>= k) := by
  refine ha.bind hc fun reply => ?_
  cases reply with
  | ok v => exact hk v
  | error e => exact curtails_still fun _ => rfl

theorem write_curtails (bs : Bytes) : site.Curtails n (fun _ => True) (site.write bs) where
  moves := makes_of_step fun s => ⟨_, .write bs s, trivial⟩
  beside s ho hn := by
    have hw : (site.write bs).apply s = (.ok (), { s with
        console := (s.console.1, { s.console.2 with written := s.output ++ bs }) }) := by
      simp only [Site.write, Action.apply_ofFun, hc, Console.onto, Sink.write_unlimited ho.unlimited]
      rfl
    have hl : (site.write bs).apply (s.limited n) =
        (if n - s.output.length < bs.length then .error (.other "output full") else .ok (),
          { s with console := (s.console.1, { s.console.2 with
            limit := some n
            written := s.output ++ bs.take (n - s.output.length) }) }) := by
      simp only [Site.write, Action.apply_ofFun, hc, Console.onto, Session.limited]
      rfl
    rw [hw, hl]
    by_cases hr : n - s.output.length < bs.length
    · have hlong : n < (s.output ++ bs).length := by
        rw [List.length_append]
        omega
      rw [if_pos hr]
      refine .beyond hlong trivial ?_ List.prefix_rfl
      change s.output ++ bs.take (n - s.output.length) = (s.output ++ bs).take n
      rw [List.take_append, List.take_of_length_le hn]
    · have hfits : (s.output ++ bs).length ≤ n := by
        rw [List.length_append]
        omega
      rw [if_neg hr, List.take_of_length_le (Nat.not_lt.mp hr)]
      exact .within hfits

theorem flush_curtails : site.Curtails n (fun _ => True) site.flush where
  moves := makes_of_step fun s => ⟨_, .flush s, trivial⟩
  beside s ho hn := by
    have hf : site.flush.apply s = (.ok (), s) := by
      simp only [Site.flush, Action.apply_ofFun, hc, Console.onto, Sink.flush, ho.flushes]
      rfl
    have hl : site.flush.apply (s.limited n) = (.ok (), s.limited n) := by
      simp only [Site.flush, Action.apply_ofFun, hc, Console.onto, Sink.flush, Session.limited,
        ho.flushes]
      rfl
    rw [hf, hl]
    exact .within hn

end

end Site

/-- Attempts that look through a view of the state come to the same. -/
theorem AttemptPolicy.runFrom_view {σ τ : Type} (p : AttemptPolicy) {g : σ → τ}
    {attempt : σ → Attempt ε β × σ} {attempt' : τ → Attempt ε β × τ}
    (h : ∀ s, attempt' (g s) = ((attempt s).1, g (attempt s).2)) (made : UInt32) (clock : Clock)
    (s : σ) : p.runFrom attempt' made clock (g s) =
      ((p.runFrom attempt made clock s).1, (p.runFrom attempt made clock s).2.1,
        g (p.runFrom attempt made clock s).2.2) := by
  induction hn : lastCount.toNat - made.toNat using Nat.strongRecOn generalizing made clock s with
  | ind k ih =>
    rw [runFrom, runFrom, h]
    rcases attempt s with ⟨⟨e | v, interrupted⟩, t⟩
    · simp only
      split
      · rfl
      · rcases Clock.wait _ p.delay with ⟨_ | _, clock'⟩
        · by_cases hl : made < lastCount - 1
          · have hlt : made < lastCount := UInt32.lt_trans hl (by decide)
            simp only [if_pos hl]
            exact ih _ (hn ▸ left_lt hlt) (made + 1) clock' t rfl
          · simp only [if_neg hl]
        · rfl
    · rfl

namespace Site

variable {site : Site δ (α × Sink)} {ask : Question → α → Except PromptError Bool × α}
  {n : Nat} {full : ε → Prop}

theorem ping_limited (s : Session δ (α × Sink)) :
    site.ping (s.limited n) = ((site.ping s).1, (site.ping s).2.limited n) := by
  rcases ha : site.daemon.answer .ping s.daemon with ⟨_ | _, d⟩ <;>
    simp [ping, call, demand, Action.apply_bind, ha, Session.limited]

section

variable (hc : site.console = .onto ask)

include hc

theorem probe_curtails {full : ProvisionError → Prop} : site.Curtails n full site.probe := by
  refine curtails_silent hc (probe_makes.mono fun ms r h m hm => ?_) fun s => ?_
  · cases h.1 m hm with
    | ping | clock => rfl
  · unfold probe probeWith AttemptPolicy.run
    simp only [Action.apply_ofFun]
    rw [AttemptPolicy.runFrom_view _ ping_limited]
    rfl

abbrev Shortens (site : Site δ (α × Sink)) (n : Nat) (a : Run δ (α × Sink) ProvisionError β) :
    Prop :=
  site.Curtails n (fun e => e.isUnshown = true) a

theorem say_curtails (text : String) : site.Shortens n (site.say text) :=
  (write_curtails hc _).orFail fun _ _ => rfl

theorem sayAll_curtails (lines : List String) : site.Shortens n (site.sayAll lines) := by
  induction lines with
  | nil => exact curtails_pure ()
  | cons line lines ih => exact (say_curtails hc line).bind hc fun _ => ih

theorem ensureImage_curtails (r : Image.Reference) : site.Shortens n (site.ensureImage r) := by
  refine request_curtails hc (call_curtails hc _) fun images => ?_
  cases images with
  | nil =>
    refine (say_curtails hc _).bind hc fun _ => ?_
    refine (call_curtails hc _).bind hc fun (feed : Feed Progress) => ?_
    refine (sayAll_curtails hc _).bind hc fun _ => ?_
    cases feed.failure with
    | some e => exact curtails_throw _
    | none =>
      refine Curtails.bind hc ?_ fun _ => curtails_pure _
      exact (flush_curtails hc).orFail fun _ _ => rfl
  | cons i is =>
    refine (say_curtails hc _).bind hc fun _ => ?_
    refine (sayAll_curtails hc _).bind hc fun _ => ?_
    exact (say_curtails hc _).bind hc fun _ => curtails_pure _

theorem resolve_curtails (name : String) : site.Shortens n (site.resolve name) := by
  refine request_curtails hc (call_curtails hc _) fun ls => ?_
  match ls with
  | [] => exact curtails_pure _
  | [_] => exact curtails_pure _
  | _ :: _ :: _ => exact curtails_throw _

theorem decide_curtails (d : Decision) : site.Shortens n (site.decide d) := by
  refine (ask_curtails hc _).bind hc fun a => ?_
  match a with
  | .ok b => exact curtails_pure b
  | .error (.noValidAnswer _) =>
    dsimp only
    split
    · exact curtails_pure false
    · exact curtails_throw _
  | .error (.io _) => exact curtails_throw _

theorem confirmRemoval_curtails : site.Shortens n site.confirmRemoval := by
  refine (decide_curtails hc .recreate).bind hc fun b => ?_
  cases b with
  | true => exact curtails_pure true
  | false => exact (say_curtails hc _).bind hc fun _ => curtails_pure false

theorem decideRemoval_curtails : site.Shortens n site.decideRemoval := by
  refine (say_curtails hc _).bind hc fun _ => ?_
  refine (decide_curtails hc .useExisting).bind hc fun b => ?_
  cases b with
  | true => exact (say_curtails hc _).bind hc fun _ => curtails_pure false
  | false => exact (say_curtails hc _).bind hc fun _ => confirmRemoval_curtails hc

theorem createContainer_curtails : site.Shortens n site.createContainer :=
  request_curtails hc (call_curtails hc _) fun id =>
    (say_curtails hc _).bind hc fun _ => curtails_pure id

theorem startContainer_curtails (id : String) : site.Shortens n (site.startContainer id) :=
  request_curtails hc (call_curtails hc _) fun _ => say_curtails hc _

theorem removeContainer_curtails (id : String) : site.Shortens n (site.removeContainer id) :=
  request_curtails hc (call_curtails hc _) fun _ => say_curtails hc _

theorem step_curtails (p : Phase) : site.Shortens n (site.step p) := by
  cases p with
  | absent => exact (createContainer_curtails hc).bind hc fun _ => curtails_pure _
  | created id => exact (startContainer_curtails hc id).bind hc fun _ => curtails_pure _
  | existsStopped id => exact (startContainer_curtails hc id).bind hc fun _ => curtails_pure _
  | started id => exact curtails_pure _
  | existsRunning id =>
    refine (decideRemoval_curtails hc).bind hc fun b => ?_
    cases b with
    | true => exact (removeContainer_curtails hc id).bind hc fun _ => curtails_pure _
    | false => exact curtails_pure _

theorem reconcile_curtails (st : LifecycleState) : site.Shortens n (site.reconcile st) := by
  fun_induction site.reconcile st with
  | case1 r => exact curtails_pure r
  | case2 p ih => exact (step_curtails hc p).bind hc ih

theorem upload_curtails {full : CopyError → Prop}
    (id dir : String) (content : Upload) : site.Curtails n full (site.upload id dir content) := by
  refine (call_curtails hc _).bind hc fun (reply : Reply Unit) => ?_
  cases reply with
  | ok v => exact curtails_pure v
  | error e => exact curtails_throw _

theorem copyStdin_curtails {full : CopyError → Prop} (id dest : String) (stat : Option PathStat) :
    site.Curtails n full (site.copyStdin id dest stat) := by
  unfold copyStdin
  split
  · exact (takeStdin_curtails hc).bind hc fun _ => upload_curtails hc ..
  · exact curtails_throw _

theorem copyPacked_curtails {full : CopyError → Prop}
    (id : String) (o : Copy.Origin) (plan : Copy.Plan) :
    site.Curtails n full (site.copyPacked id o plan) := by
  refine (upload_curtails hc ..).bind hc fun _ => ?_
  cases (Copy.pack site.host o plan.root).failure with
  | some e => exact curtails_throw _
  | none => exact curtails_pure ()

theorem statDestination_curtails {full : CopyError → Prop}
    (id dest : String) : site.Curtails n full (site.statDestination id dest) := by
  refine (call_curtails hc _).bind hc fun (reply : Reply (Option PathStat)) => ?_
  cases reply with
  | ok stat | error e => exact curtails_pure _

theorem stage_curtails {full : CopyError → Prop}
    (id source dest : String) : site.Curtails n full (site.stage id source dest) := by
  refine .lift fun resolved => (statDestination_curtails hc id dest).bind hc fun stat => ?_
  cases resolved with
  | stdin => exact copyStdin_curtails hc id dest stat
  | path path => exact .lift fun origin => .lift fun plan => copyPacked_curtails hc id origin plan

theorem relay_curtails (chunks : List Bytes) :
    site.Curtails n (fun e => ∃ cause, e = .write cause) (site.relay chunks) := by
  induction chunks with
  | nil => exact curtails_pure ()
  | cons chunk rest ih =>
    exact ((write_curtails hc chunk).orFail fun cause _ => ⟨cause, rfl⟩).bind hc fun _ => ih

theorem runInit_curtails (id : String) (config : InitConfig) :
    site.Curtails n (fun e => ∃ cause, e = .write cause) (site.runInit id config) := by
  refine request_curtails hc (call_curtails hc _) fun _ => ?_
  refine request_curtails hc (call_curtails hc _) fun session => ?_
  by_cases hs : (session == "") = true
  · rw [if_pos hs]
    exact curtails_throw _
  · rw [if_neg hs]
    refine request_curtails hc (call_curtails hc _) fun (feed : Feed Bytes) => ?_
    refine (relay_curtails hc feed.items).bind hc fun _ => ?_
    cases feed.failure with
    | some e => exact curtails_throw _
    | none => exact (flush_curtails hc).orFail fun cause _ => ⟨cause, rfl⟩

theorem stageFile_curtails (id what source dest : String) :
    site.Shortens n (site.stageFile id what source dest) := by
  -- Copying shows nothing, so it has no error of its own for that.
  have hs : site.Curtails n (fun _ => False) (site.stage id source dest) :=
    stage_curtails hc id source dest
  exact (hs.orFail nofun).bind hc fun _ => say_curtails hc _

theorem furnish_curtails (id : String) (config : InitConfig) :
    site.Shortens n (site.furnish id config) := by
  refine (stageFile_curtails hc ..).bind hc fun _ => ?_
  refine (stageFile_curtails hc ..).bind hc fun _ => ?_
  refine Curtails.bind hc ((runInit_curtails hc id config).orFail ?_) fun _ => say_curtails hc _
  rintro _ ⟨cause, rfl⟩
  rfl

theorem run_curtails (config : InitConfig) : site.Shortens n (site.run config) := by
  refine (probe_curtails hc).bind hc fun _ => ?_
  refine (ensureImage_curtails hc _).bind hc fun _ => ?_
  refine (resolve_curtails hc _).bind hc fun found => ?_
  refine (reconcile_curtails hc (.ofRecord found)).bind hc fun r => ?_
  cases r with
  | reuse id => exact curtails_pure _
  | fresh id => exact (furnish_curtails hc id config).bind hc fun _ => curtails_pure _

end

/-- Beside a run whose output is all taken, a run of which only the first `limit` bytes are taken
shows just those and does nothing that the other does not do. It comes to the same if they are
all, and otherwise it ends because it can show no more. -/
theorem limit_curtails_run (daemon : Daemon δ)
    (ask : Question → α → Except PromptError Bool × α) (host : Host) (settings : Settings)
    (config : InitConfig) (d : δ) (a : α) (stdin : Bytes) (clock : Clock) (limit : Nat) :
    let run out := (Site.run ⟨daemon, .onto ask, host, settings⟩ config).apply
      ⟨d, (a, out), stdin, clock, []⟩
    let whole := run {}
    let cut := run { limit := some limit }
    cut.2.output = whole.2.output.take limit ∧ cut.2.events <+: whole.2.events ∧
      (whole.2.output.length ≤ limit → cut = (whole.1, whole.2.limited limit)) ∧
      (limit < whole.2.output.length → ∃ e, cut.1 = .error e ∧ e.isUnshown = true) := by
  let site : Site δ (α × Sink) := ⟨daemon, .onto ask, host, settings⟩
  have hr : site.Shortens limit (site.run config) := run_curtails rfl config
  exact (hr.beside ⟨d, (a, {}), stdin, clock, []⟩ ⟨rfl, rfl⟩ (Nat.zero_le limit)).told

end Site

end Provisioner
