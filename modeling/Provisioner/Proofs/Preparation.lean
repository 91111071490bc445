import Provisioner.Proofs.Account
import Provisioner.Proofs.Counting
import Provisioner.Provision.ImageSupply
import Provisioner.Provision.Lookup
import Provisioner.Provision.Probe

namespace Provisioner

/-- Calls to see whether there is an answer that all failed. -/
def failedPings (es : List DaemonError) : List Incident := es.map fun e => .call .ping (.error e)

inductive Probed (retries : Nat) : Account ProvisionError Unit
  | reached (es : List DaemonError) (h : es.length ≤ retries) :
    Probed retries (failedPings es ++ [.call .ping (.ok ())]) (.ok ())
  | lost (es : List DaemonError) (cause : AttemptsError DaemonError) (h : es.length ≤ retries) :
    Probed retries (failedPings es ++ [.call .ping (.error cause.last)])
      (.error (.connectivity cause))

/-- A move of a probe: a call to see whether there is an answer, or the time that it took. -/
inductive Move.Probes : Move → Prop
  | ping (a : Call.ping.Answer) : Probes (.call .ping a)
  | clock (c : Clock) : Probes (.setClock c)

inductive Supplied (r : Image.Reference) : Account ProvisionError ImageStatus
  | unlisted (e : DaemonError) :
    Supplied r [.call (.listImages r) (.error e)] (.error (.imagePull r.text e))
  | present {images : List ImageListing} (h : images ≠ []) :
    Supplied r [.call (.listImages r) (.ok images)] (.ok (.present images.length))
  | unreported {images : List ImageListing} (h : images ≠ []) (e : IoError) :
    Supplied r [.call (.listImages r) (.ok images), .outputFailed e] (.error (.output e))
  | unannounced (e : IoError) :
    Supplied r [.call (.listImages r) (.ok []), .outputFailed e] (.error (.output e))
  | pulled {feed : Feed Progress} (h : feed.failure = none) :
    Supplied r [.call (.listImages r) (.ok []), .call (.pullImage r) feed] (.ok .pulled)
  | unpulled {feed : Feed Progress} {e : DaemonError} (h : feed.failure = some e) :
    Supplied r [.call (.listImages r) (.ok []), .call (.pullImage r) feed]
      (.error (.imagePull r.text e))
  | unshown {feed : Feed Progress} (e : IoError) :
    Supplied r [.call (.listImages r) (.ok []), .call (.pullImage r) feed, .outputFailed e]
      (.error (.output e))

inductive Resolved (name : String) : Account ProvisionError (Option ContainerRecord)
  | failed (e : DaemonError) :
    Resolved name [.call (.listContainers name) (.error e)] (.error (.resolution name e))
  | none : Resolved name [.call (.listContainers name) (.ok [])] (.ok none)
  | one (l : ContainerListing) :
    Resolved name [.call (.listContainers name) (.ok [l])] (.ok (some (l.record name)))
  | several {ls : List ContainerListing} (h : 1 < ls.length) :
    Resolved name [.call (.listContainers name) (.ok ls)] (.error (.ambiguous name ls.length))

theorem Probed.afterFailure {n k : Nat} {is : List Incident} {r : Except ProvisionError Unit}
    (h : Probed n is r) (e : DaemonError) (hn : n < k) :
    Probed k (.call .ping (.error e) :: is) r := by
  cases h with
  | reached es h => exact .reached (e :: es) (Nat.le_trans (Nat.succ_le_succ h) hn)
  | lost es cause h => exact .lost (e :: es) cause (Nat.le_trans (Nat.succ_le_succ h) hn)

theorem Move.eq_call {m : Move} {c : Call} {a : c.Answer} (h : m.incident? = some (.call c a)) :
    m = .call c a := by
  cases m with
  | call c' a' =>
    cases h
    rfl
  | write bs r | flush r => cases r <;> cases h
  | question | takeStdin | setClock => cases h

theorem Probed.answered {n : Nat} {ms : List Move} (h : Probed n (incidents ms) (.ok ())) :
    .call .ping (.ok ()) ∈ ms := by
  have hi : .call .ping (.ok ()) ∈ incidents ms := by
    generalize incidents ms = is at h
    cases h with
    | reached es => exact List.mem_append_right _ List.mem_cons_self
  obtain ⟨m, hm, hi⟩ := List.mem_filterMap.mp hi
  exact Move.eq_call hi ▸ hm

theorem Probed.unanswered {n : Nat} {ms : List Move} {e : ProvisionError}
    (h : Probed n (incidents ms) (.error e)) : .call .ping (.ok ()) ∉ ms := by
  intro hm
  have hi : .call .ping (.ok ()) ∈ incidents ms := List.mem_filterMap.mpr ⟨_, hm, rfl⟩
  generalize incidents ms = is at h hi
  cases h with
  | lost es =>
    obtain hi | hi := List.mem_append.mp hi
    · obtain ⟨e, -, he⟩ := List.mem_map.mp hi
      cases he
    · cases List.mem_singleton.mp hi

theorem Probed.connectivity {n : Nat} {is : List Incident} {e : ProvisionError}
    (h : Probed n is (.error e)) : ∃ cause, e = .connectivity cause := by
  cases h with
  | lost es cause => exact ⟨cause, rfl⟩

namespace AttemptPolicy

variable {σ ε α : Type}

/-- One round: the attempt succeeds, or it is the last one, or the rounds go on after it. -/
theorem runFrom_round (p : AttemptPolicy) (attempt : σ → Attempt ε α × σ) (made : UInt32)
    (clock : Clock) (s : σ) :
    (∃ v clock', (attempt s).1.outcome = .ok v ∧
      p.runFrom attempt made clock s = (.ok v, clock', (attempt s).2)) ∨
    (∃ e reason clock', (attempt s).1.outcome = .error e ∧
      p.runFrom attempt made clock s = (.error ⟨reason, made + 1, e⟩, clock', (attempt s).2)) ∨
    ∃ e clock', (attempt s).1.outcome = .error e ∧ made + 1 ≤ p.maxRetries ∧
      made < lastCount - 1 ∧
      p.runFrom attempt made clock s = p.runFrom attempt (made + 1) clock' (attempt s).2 := by
  obtain ⟨r, h⟩ | ⟨m, h⟩ := p.stops_or_round attempt ⟨made, clock, s⟩
  · have hr := h.runFrom
    cases h with
    | succeeded hv => exact .inl ⟨_, _, hv, hr⟩
    | exhausted he | cancelled he => exact .inr (.inl ⟨_, _, _, he, hr⟩)
  by_cases hl : made < lastCount - 1
  · have hr := h.runFrom hl
    cases h with
    | again he hm => exact .inr (.inr ⟨_, _, he, UInt32.not_lt.mp hm, hl, hr⟩)
  · obtain ⟨e, he, hr⟩ := h.runFrom_overflow hl
    cases h with
    | again => exact .inr (.inl ⟨_, _, _, he, hr⟩)

end AttemptPolicy

namespace Site

variable {δ κ : Type} {site : Site δ κ}

theorem say_performs (text : String) : site.Performs (site.say text) (Shown .output) :=
  write_performs _ _

theorem sayAll_performs (lines : List String) : site.Performs (site.sayAll lines) (Shown .output) := by
  induction lines with
  | nil => exact performs_pure .shown
  | cons line lines ih => exact (say_performs line).afterShowing ih .failed

theorem ping_step (s : Session δ κ) :
    site.Step s (.call .ping (site.ping s).1.outcome) (site.ping s).2 := by
  have h : site.Step s _ _ := .call .ping s
  rcases ha : site.daemon.answer .ping s.daemon with ⟨_ | _, d⟩ <;>
    simpa [ping, call, demand, Action.apply_bind, ha] using h

/-- The bound is on what is left: every failed attempt uses up one repetition. -/
theorem runFrom_ping (p : AttemptPolicy) (made : UInt32) (clock : Clock) (s : Session δ κ) :
    ∃ ms, site.Path s ms (p.runFrom site.ping made clock s).2.2 ∧ (∀ m ∈ ms, m.Probes) ∧
      Probed (p.maxRetries.toNat - made.toNat) (incidents ms)
        ((p.runFrom site.ping made clock s).1.mapError .connectivity) := by
  induction hn : p.maxRetries.toNat - made.toNat using Nat.strongRecOn
    generalizing made clock s with
  | ind n ih =>
  -- By induction on the retries that are left.
  have hs := site.ping_step s
  rcases p.runFrom_round site.ping made clock s with
    ⟨v, clock', ha, hr⟩ | ⟨e, reason, clock', ha, hr⟩ | ⟨e, clock', ha, hm, hl, hr⟩
  · rw [hr]
    refine ⟨_, hs.path, List.forall_mem_singleton.mpr (.ping _), ?_⟩
    rw [ha]
    exact .reached [] (Nat.zero_le _)
  · rw [hr]
    refine ⟨_, hs.path, List.forall_mem_singleton.mpr (.ping _), ?_⟩
    rw [ha]
    exact .lost [] ⟨reason, made + 1, e⟩ (Nat.zero_le _)
  · have hc : (made + 1).toNat = made.toNat + 1 := AttemptPolicy.toNat_succ hl
    have hm : (made + 1).toNat ≤ p.maxRetries.toNat := UInt32.le_iff_toNat_le.mp hm
    obtain ⟨ms, hp, hm', h⟩ := ih (p.maxRetries.toNat - (made + 1).toNat) (by omega)
      (made + 1) clock' (site.ping s).2 rfl
    rw [hr]
    refine ⟨_, .cons hs hp, List.forall_mem_cons.mpr ⟨.ping _, hm'⟩, ?_⟩
    rw [ha]
    exact h.afterFailure e (by omega)

theorem probe_makes : site.Makes site.probe fun ms r =>
    (∀ m ∈ ms, m.Probes) ∧ Probed site.settings.probe.maxRetries.toNat (incidents ms) r := by
  intro s
  obtain ⟨ms, hp, hm, h⟩ := site.runFrom_ping site.settings.probe.policy 0 s.clock s
  refine ⟨ms ++ [.setClock _], hp.append (Step.setClock _ _).path, ?_, ?_⟩
  · exact List.forall_mem_append.mpr ⟨hm, List.forall_mem_singleton.mpr (.clock _)⟩
  · rw [incidents_append]
    exact (List.append_nil (incidents ms)).symm ▸ h

theorem probe_performs :
    site.Performs site.probe (Probed site.settings.probe.maxRetries.toNat) :=
  probe_makes.mono fun _ _ h => h.2

theorem reportImages_performs {images : List ImageListing}
    {P : Account ProvisionError ImageStatus} (h : P [] (.ok (.present images.length)))
    (he : ∀ e, P [.outputFailed e] (.error (.output e))) :
    site.Performs (site.reportImages images) P := by
  refine (say_performs _).afterShowing ?_ he
  refine (sayAll_performs _).afterShowing ?_ he
  exact (say_performs _).afterShowing (performs_pure h) he

theorem ensureImage_performs (r : Image.Reference) :
    site.Performs (site.ensureImage r) (Supplied r) := by
  refine (told_call (.listImages r)).demand (fun images => ?_) .unlisted
  cases images with
  | nil =>
    refine (say_performs _).afterShowing ?_ .unannounced
    refine performs_call fun feed => ?_
    refine (sayAll_performs _).afterShowing ?_ .unshown
    cases h : feed.failure with
    | some e => exact performs_throw (.unpulled h)
    | none => exact (flush_performs _).afterShowing (performs_pure (.pulled h)) .unshown
  | cons i is =>
    exact reportImages_performs (.present (List.cons_ne_nil i is)) (.unreported (List.cons_ne_nil i is))

theorem resolve_performs (name : String) :
    site.Performs (site.resolve name) (Resolved name) := by
  refine (told_call (.listContainers name)).demand (fun ls => ?_) .failed
  match ls with
  | [] => exact performs_pure .none
  | [l] => exact performs_pure (.one l)
  | l :: l' :: ls => exact performs_throw (.several (by simp))

end Site

end Provisioner
