import Provisioner.Proofs.Landing

namespace Provisioner

namespace Copy

variable {host : Host} {stdin : Bytes} {source dest dir : String} {st : Option PathStat}
  {content : Upload} {flaw : Option CopyError} {e : CopyError} {r : Source}

/-- What is sent where, and what was wrong with it when it was packed. -/
inductive Sends (host : Host) (stdin : Bytes) (source dest : String) (st : Option PathStat) :
    String → Upload → Option CopyError → Prop
  | stream (hs : source = "-") (hd : ∃ x, st = some x ∧ x.kind = .directory) :
    Sends host stdin source dest st dest (.bytes stdin) none
  | packed {path : String} {o : Origin} {plan : Plan}
    (hr : Source.resolve host source = .ok (.path path)) (ho : Origin.inspect host path = .ok o)
    (hm : Plan.make o ⟨dest, st⟩ = .ok plan) :
    Sends host stdin source dest st plan.extractDir (.archive (pack host o plan.root).entries)
      ((pack host o plan.root).failure.map (.archive o.path))

inductive Refuses (host : Host) (source dest : String) (st : Option PathStat) : CopyError → Prop
  | stream (hs : source = "-") (hd : ¬∃ x, st = some x ∧ x.kind = .directory) :
    Refuses host source dest st (.destinationNotDirectory dest)
  | unseen {path : String} {e : CopyError} (hr : Source.resolve host source = .ok (.path path))
    (ho : Origin.inspect host path = .error e) : Refuses host source dest st e
  | unplanned {path : String} {o : Origin} {e : CopyError}
    (hr : Source.resolve host source = .ok (.path path)) (ho : Origin.inspect host path = .ok o)
    (hm : Plan.make o ⟨dest, st⟩ = .error e) : Refuses host source dest st e

theorem resolve_cases (host : Host) (source : String) :
    (source = "-" ∧ Source.resolve host source = .ok .stdin) ∨
      (source ≠ "-" ∧ ∃ cause, host.absolute source = .error cause ∧
        Source.resolve host source = .error (.archive source cause)) ∨
      ∃ path, Source.resolve host source = .ok (.path path) := by
  by_cases hs : source = "-"
  · exact .inl ⟨hs, hs ▸ rfl⟩
  · unfold Source.resolve
    rw [if_neg (by simpa using hs)]
    cases ha : host.absolute source with
    | error cause => exact .inr (.inl ⟨hs, cause, rfl, rfl⟩)
    | ok long =>
      refine .inr (.inr ?_)
      dsimp only
      split
      · exact ⟨_, rfl⟩
      · split <;> exact ⟨_, rfl⟩

theorem Refuses.not_sends (h : Refuses host source dest st e) :
    ¬Sends host stdin source dest st dir content flaw := by
  intro hs
  cases hs with
  | stream hs hd =>
    subst hs
    cases h with
    | stream _ hn => exact hn hd
    | unseen hr | unplanned hr => cases hr
  | packed hr ho hm =>
    cases h with
    | stream hs =>
      subst hs
      cases hr
    | unseen hr' ho' =>
      cases hr.symm.trans hr'
      cases ho.symm.trans ho'
    | unplanned hr' ho' hm' =>
      cases hr.symm.trans hr'
      cases ho.symm.trans ho'
      cases hm.symm.trans hm'

/-- The result of an upload. If it failed, it does not matter what else was wrong. -/
def closing : Reply Unit → Option CopyError → Except CopyError Unit
  | .error e, _ => .error (.transfer e)
  | .ok _, some e => .error e
  | .ok _, none => .ok ()

end Copy

namespace Site

open Copy (Sends Refuses)

variable {δ κ : Type} {site : Site δ κ}

def after (site : Site δ κ) (c : Call) (s : Session δ κ) : Session δ κ :=
  { s with
    daemon := (site.daemon.answer c s.daemon).2
    events := s.events ++ [.call c (site.daemon.answer c s.daemon).1] }

theorem asked_after (site : Site δ κ) (c : Call) (s : Session δ κ) :
    (site.after c s).events.map Event.asked = s.events.map Event.asked ++ [.inl c] :=
  List.map_append

def send (site : Site δ κ) (id dir : String) (content : Upload) (flaw : Option CopyError) :
    Run δ κ CopyError Unit := do
  site.upload id dir content
  match flaw with
  | some e => throw e
  | none => return

def copyFrom (site : Site δ κ) (id dest : String) (st : Option PathStat) :
    Copy.Source → Run δ κ CopyError Unit
  | .stdin => site.copyStdin id dest st
  | .path path => site.copyPath id path dest st

theorem send_apply (site : Site δ κ) (id dir : String) (content : Upload)
    (flaw : Option CopyError) (s : Session δ κ) : (site.send id dir content flaw).apply s =
      (Copy.closing (site.daemon.answer (.uploadArchive id dir content) s.daemon).1 flaw,
        site.after (.uploadArchive id dir content) s) := by
  have hc : (site.call (ε := CopyError) (.uploadArchive id dir content)).apply s =
      (.ok (site.daemon.answer (.uploadArchive id dir content) s.daemon).1,
        site.after (.uploadArchive id dir content) s) := rfl
  unfold send upload
  rw [bind_assoc, Action.apply_bind_ok hc]
  cases (site.daemon.answer (.uploadArchive id dir content) s.daemon).1 with
  | error e => rfl
  | ok =>
    cases flaw with
    | none | some e => rfl

theorem copyPacked_eq (site : Site δ κ) (id : String) (o : Copy.Origin) (plan : Copy.Plan) :
    site.copyPacked id o plan = site.send id plan.extractDir
      (.archive (Copy.pack site.host o plan.root).entries)
      ((Copy.pack site.host o plan.root).failure.map (.archive o.path)) := by
  unfold copyPacked send
  dsimp only
  cases (Copy.pack site.host o plan.root).failure with
  | none | some e => rfl

theorem stage_error {source : String} {e : CopyError}
    (hr : Copy.Source.resolve site.host source = .error e) (id dest : String) (s : Session δ κ) :
    (site.stage id source dest).apply s = (.error e, s) := by
  rw [stage, hr]
  rfl

theorem stage_ok {source : String} {r : Copy.Source}
    (hr : Copy.Source.resolve site.host source = .ok r) (id dest : String) (s : Session δ κ) :
    (site.stage id source dest).apply s =
      (site.copyFrom id dest (found (site.daemon.answer (.statPath id dest) s.daemon).1) r).apply
        (site.after (.statPath id dest) s) := by
  have hl : (site.statDestination id dest).apply s =
      (.ok (found (site.daemon.answer (.statPath id dest) s.daemon).1),
        site.after (.statPath id dest) s) := by
    have hc : (site.call (ε := CopyError) (.statPath id dest)).apply s =
        (.ok (site.daemon.answer (.statPath id dest) s.daemon).1,
          site.after (.statPath id dest) s) := rfl
    rw [statDestination, Action.apply_bind_ok hc]
    cases (site.daemon.answer (.statPath id dest) s.daemon).1 with
    | ok st | error e => rfl
  rw [stage, hr, Action.apply_bind_ok (Action.apply_lift _ _), Action.apply_bind_ok hl]
  cases r with
  | stdin | path => rfl

def Determined (host : Host) (stdin : Bytes) (source dest : String) (st : Option PathStat)
    (a : Site δ κ → String → Run δ κ CopyError Unit) : Prop :=
  (∃ e, Refuses host source dest st e ∧ ∀ site : Site δ κ, site.host = host → ∀ id s,
    (a site id).apply s = (.error e, s)) ∨
  ∃ dir content flaw, Sends host stdin source dest st dir content flaw ∧
    ∀ site : Site δ κ, site.host = host → ∀ id s, s.stdin = stdin → ∃ rest,
      (a site id).apply s = (site.send id dir content flaw).apply { s with stdin := rest }

section

variable {host : Host} {stdin : Bytes} {source dest : String} {st : Option PathStat}

theorem copyStdin_determined (hs : source = "-") : Determined host stdin source dest st
    fun site : Site δ κ => fun id => site.copyStdin id dest st := by
  by_cases hd : ∃ x, st = some x ∧ x.kind = .directory
  · refine .inr ⟨_, _, _, .stream hs hd, ?_⟩
    rintro site - id s rfl
    obtain ⟨x, rfl, hk⟩ := hd
    have ht : (takeStdin (ε := CopyError)).apply s = (.ok s.stdin, { s with stdin := [] }) := rfl
    refine ⟨[], ?_⟩
    dsimp only
    rw [copyStdin, if_pos (by simp [hk]), Action.apply_bind_ok ht]
    exact congrArg (fun a : Run δ κ CopyError Unit => a.apply _) (bind_pure _).symm
  · refine .inl ⟨_, .stream hs hd, ?_⟩
    rintro site - id s
    dsimp only
    rw [copyStdin, if_neg (by simpa using hd)]
    rfl

theorem copyPath_determined {path : String}
    (hr : Copy.Source.resolve host source = .ok (.path path)) :
    Determined host stdin source dest st
      fun site : Site δ κ => fun id => site.copyPath id path dest st := by
  cases ho : Copy.Origin.inspect host path with
  | error e =>
    refine .inl ⟨e, .unseen hr ho, ?_⟩
    rintro site rfl id s
    dsimp only
    rw [copyPath, ho]
    rfl
  | ok o =>
    have inspected (site : Site δ κ) (hh : site.host = host) (id : String) (s : Session δ κ) :
        (site.copyPath id path dest st).apply s =
          (liftM (Copy.Plan.make o ⟨dest, st⟩) >>= site.copyPacked id o).apply s := by
      rw [copyPath, hh, ho, Action.apply_bind_ok (Action.apply_lift _ _)]
    cases hm : Copy.Plan.make o ⟨dest, st⟩ with
    | error e =>
      refine .inl ⟨e, .unplanned hr ho hm, ?_⟩
      rintro site hh id s
      rw [inspected site hh, hm]
      rfl
    | ok plan =>
      refine .inr ⟨_, _, _, .packed hr ho hm, ?_⟩
      rintro site hh id s -
      refine ⟨s.stdin, ?_⟩
      rw [inspected site hh, hm, Action.apply_bind_ok (Action.apply_lift _ _), copyPacked_eq, hh]

theorem copyFrom_determined {r : Copy.Source} (hr : Copy.Source.resolve host source = .ok r) :
    Determined host stdin source dest st
      fun site : Site δ κ => fun id => site.copyFrom id dest st r := by
  cases r with
  | path path => exact copyPath_determined hr
  | stdin =>
    obtain ⟨hs, -⟩ | ⟨-, _, -, hr'⟩ | ⟨_, hr'⟩ := Copy.resolve_cases host source
    · exact copyStdin_determined hs
    all_goals cases hr.symm.trans hr'

end

/-- How a copy goes: the destination is looked at and then there is at most one upload, unless there
is no source. -/
inductive Transfers (host : Host) (stdin : Bytes) (id source dest : String) :
    List Event → Except CopyError Unit → Prop
  | sourceless {e : IoError} (hs : source ≠ "-") (ha : host.absolute source = .error e) :
    Transfers host stdin id source dest [] (.error (.archive source e))
  | refused {stat : Reply (Option PathStat)} {e : CopyError}
    (he : Refuses host source dest (found stat) e)
    (hn : ∀ dir content flaw, ¬Sends host stdin source dest (found stat) dir content flaw) :
    Transfers host stdin id source dest [.call (.statPath id dest) stat] (.error e)
  | sent {stat : Reply (Option PathStat)} {dir : String} {content : Upload}
    {flaw : Option CopyError} {reply : Reply Unit}
    (h : Sends host stdin source dest (found stat) dir content flaw) :
    Transfers host stdin id source dest
      [.call (.statPath id dest) stat, .call (.uploadArchive id dir content) reply]
      (Copy.closing reply flaw)

theorem stage_transfers (site : Site δ κ) (id source dest : String) (s : Session δ κ) :
    ∃ t, ((site.stage id source dest).apply s).2.events = s.events ++ t ∧
      Transfers site.host s.stdin id source dest t ((site.stage id source dest).apply s).1 := by
  cases hr : Copy.Source.resolve site.host source with
  | error e =>
    rw [stage_error hr]
    obtain ⟨-, hr'⟩ | ⟨hs, cause, ha, hr'⟩ | ⟨_, hr'⟩ := Copy.resolve_cases site.host source
    · cases hr.symm.trans hr'
    · cases hr.symm.trans hr'
      exact ⟨[], (List.append_nil _).symm, .sourceless hs ha⟩
    · cases hr.symm.trans hr'
  | ok r =>
    rw [stage_ok hr]
    obtain ⟨e, he, hc⟩ | ⟨dir, content, flaw, h, hc⟩ := copyFrom_determined (δ := δ) (κ := κ) hr
    · rw [hc site rfl]
      exact ⟨_, rfl, .refused he fun _ _ _ => he.not_sends⟩
    · obtain ⟨rest, hc⟩ := hc site rfl id (site.after (.statPath id dest) s) rfl
      rw [hc, send_apply]
      exact ⟨_, List.append_assoc _ _ _, .sent h⟩

/-- Daemons that show the same to be at the destination, and answer uploads alike, are asked the
same. -/
theorem stage_alike {a b : Site δ κ} (hh : a.host = b.host) {id dest : String} {s : Session δ κ}
    (hf : found (a.daemon.answer (.statPath id dest) s.daemon).1 =
      found (b.daemon.answer (.statPath id dest) s.daemon).1)
    (hd : (a.daemon.answer (.statPath id dest) s.daemon).2 =
      (b.daemon.answer (.statPath id dest) s.daemon).2)
    (hu : ∀ dir content d, a.daemon.answer (.uploadArchive id dir content) d =
      b.daemon.answer (.uploadArchive id dir content) d) (source : String) :
    ((a.stage id source dest).apply s).1 = ((b.stage id source dest).apply s).1 ∧
      ((a.stage id source dest).apply s).2.events.map Event.asked =
        ((b.stage id source dest).apply s).2.events.map Event.asked := by
  cases hr : Copy.Source.resolve a.host source with
  | error e =>
    rw [stage_error hr, stage_error (hh ▸ hr)]
    exact ⟨rfl, rfl⟩
  | ok r =>
    rw [stage_ok hr, stage_ok (hh ▸ hr), ← hf]
    have hl : (a.after (.statPath id dest) s).events.map Event.asked =
        (b.after (.statPath id dest) s).events.map Event.asked := by
      rw [asked_after, asked_after]
    -- What is sent depends on the machine and the look alone, and both are the same.
    obtain ⟨e, -, hc⟩ | ⟨dir, content, flaw, -, hc⟩ :=
      copyFrom_determined (δ := δ) (κ := κ) hr
    · rw [hc a rfl, hc b hh.symm]
      exact ⟨rfl, hl⟩
    · obtain ⟨rest, ha⟩ := hc a rfl id (a.after (.statPath id dest) s) rfl
      obtain ⟨rest', hb⟩ := hc b hh.symm id (b.after (.statPath id dest) s) rfl
      rw [ha, hb, send_apply, send_apply]
      have hs : (a.after (.statPath id dest) s).daemon = (b.after (.statPath id dest) s).daemon := hd
      constructor
      · dsimp only
        rw [hs, hu]
      · rw [asked_after a (.uploadArchive id dir content),
          asked_after b (.uploadArchive id dir content)]
        exact congrArg (· ++ [.inl (.uploadArchive id dir content)]) hl

/-- The site with a daemon that gives the same reply to every look at a place. -/
def seeing (site : Site δ κ) (reply : Reply (Option PathStat)) : Site δ κ where
  __ := site
  daemon :=
    { site.daemon with
      answer := fun
        | .statPath id path, d => (reply, (site.daemon.answer (.statPath id path) d).2)
        | c, d => site.daemon.answer c d }

/-- There is one look and at most one upload, and a look that fails is one that finds nothing. -/
theorem stage_looks_once (site : Site δ κ) (id source dest : String) (s : Session δ κ) :
    (∃ t, ((site.stage id source dest).apply s).2.events = s.events ++ t ∧
      Transfers site.host s.stdin id source dest t ((site.stage id source dest).apply s).1) ∧
    ∀ e,
      (((site.seeing (.error e)).stage id source dest).apply s).1 =
        (((site.seeing (.ok none)).stage id source dest).apply s).1 ∧
      (((site.seeing (.error e)).stage id source dest).apply s).2.events.map Event.asked =
        (((site.seeing (.ok none)).stage id source dest).apply s).2.events.map Event.asked :=
  ⟨stage_transfers site id source dest s, fun e =>
    stage_alike (a := site.seeing (.error e)) (b := site.seeing (.ok none)) rfl rfl rfl
      (fun _ _ _ => rfl) source⟩

end Site

end Provisioner
