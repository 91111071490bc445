import Provisioner.Command.Execute
import Provisioner.Proofs.Collection
import Provisioner.Proofs.Course
import Provisioner.Proofs.Edits

namespace Provisioner

open Provisioner.Action

/-- One thing done in a world: a move at its site or a turn at its desk. -/
inductive Deed where
  | move (move : Move)
  | turn (turn : Turn)

variable {δ κ : Type}

namespace Site

variable {site : Site δ κ} {s t : Session δ κ} {ms : List Move}

theorem Path.trail (h : site.Path s ms t) : Trail site.Step s ms t := by
  induction h with
  | nil s => exact .nil s
  | cons hm _ ih => exact .cons hm ih

theorem console_of_probes (h : Trail site.Step s ms t) (hm : ∀ m ∈ ms, m.Probes) :
    t.console = s.console := by
  refine h.keeps (f := Session.console) fun m hm' s t hs => ?_
  cases hm m hm' <;> cases hs <;> rfl

end Site

namespace World

def desk (w : World δ) : Desk := ⟨w.session.console, w.host⟩

def seat (w : World δ) (d : Desk) : World δ :=
  { session := { w.session with console := d.terminal }, host := d.host }

def site (daemon : Daemon δ) (settings : Settings) (w : World δ) : Site δ Terminal :=
  ⟨daemon, Console.screen, w.host, settings⟩

inductive Step (daemon : Daemon δ) (settings : Settings) : World δ → Deed → World δ → Prop
  | move {w : World δ} {m : Move} {s : Session δ Terminal}
    (h : (w.site daemon settings).Step w.session m s) :
    Step daemon settings w (.move m) { w with session := s }
  | turn {w : World δ} {t : Turn} {d : Desk} (h : Desk.Step w.desk t d) :
    Step daemon settings w (.turn t) (w.seat d)

variable {daemon : Daemon δ} {settings : Settings} {w : World δ}

theorem trail_moves {ms : List Move} {s : Session δ Terminal}
    (h : Trail (w.site daemon settings).Step w.session ms s) :
    Trail (Step daemon settings) w (ms.map .move) { w with session := s } :=
  h.lift (f := fun s => { w with session := s }) fun _ _ _ hs => .move hs

theorem trail_turns {ts : List Turn} {d : Desk} (h : Trail Desk.Step w.desk ts d) :
    Trail (Step daemon settings) w (ts.map .turn) (w.seat d) :=
  h.lift (f := w.seat) fun _ _ _ hs => .turn hs

end World

namespace Command

variable {α : Type} {daemon : Daemon δ} {settings : Settings} {w : World δ}

theorem provision_goes {run : Site δ Terminal → Run δ Terminal ProvisionError α}
    {P : List Move → Except ProvisionError α → Session δ Terminal → Prop}
    (h : Goes (w.site daemon settings).Step w.session (run (w.site daemon settings)) P) :
    Goes (World.Step daemon settings) w (provision daemon settings run) fun ds r w' =>
      ∃ ms r' s, ds = ms.map .move ∧ r = r'.mapError .provision ∧ w' = { w with session := s } ∧
        Trail (w.site daemon settings).Step w.session ms s ∧ P ms r' s := by
  obtain ⟨ms, ht, hp⟩ := h
  have ha : (provision daemon settings run).apply w =
      ((((run (w.site daemon settings)).orFail CommandError.provision).apply w.session).1, { w with
        session := (((run (w.site daemon settings)).orFail CommandError.provision).apply
          w.session).2 }) := rfl
  rw [apply_orFail] at ha
  unfold Goes
  rw [ha]
  exact ⟨ms.map .move, World.trail_moves ht, ms, _, _, rfl, rfl, rfl, ht, hp⟩

theorem setup_goes {a : Setup α} {P : List Turn → Except SetupError α → Desk → Prop}
    (h : Goes Desk.Step w.desk a P) :
    Goes (World.Step daemon settings) w (setup a) fun ds r w' => ∃ ts r' d,
      ds = ts.map .turn ∧ r = r'.mapError .setup ∧ w' = w.seat d ∧ a.apply w.desk = (r', d) ∧
        Trail Desk.Step w.desk ts d ∧ P ts r' d := by
  obtain ⟨ts, ht, hp⟩ := h
  have ha : (setup a).apply w =
      (((a.orFail CommandError.setup).apply w.desk).1,
        w.seat ((a.orFail CommandError.setup).apply w.desk).2) := rfl
  rw [apply_orFail] at ha
  unfold Goes
  rw [ha]
  exact ⟨ts.map .turn, World.trail_turns ht, ts, _, _, rfl, rfl, rfl, rfl, ht, hp⟩

theorem host_goes {k : Host → Command δ α} {Q : List Deed → Except CommandError α → World δ → Prop}
    (h : Goes (World.Step daemon settings) w (k w.host) Q) :
    Goes (World.Step daemon settings) w (host >>= k) Q := h

theorem say_goes (text : String) :
    Goes (World.Step daemon settings) w (say text) fun _ _ _ => True := by
  have ha : (say text).apply w =
      ((((Terminal.writeLine text).orFail CommandError.output).apply w.session.console).1,
        w.seat ⟨(((Terminal.writeLine text).orFail CommandError.output).apply
          w.session.console).2, w.host⟩) := rfl
  rw [apply_orFail] at ha
  have hs : World.Step daemon settings w _ (w.seat _) := .turn (.tell (text ++ "\n") w.desk)
  unfold Goes
  rw [ha]
  exact ⟨_, .single hs, trivial⟩

theorem bringUp_goes (config : InitConfig) :
    Goes (World.Step daemon settings) w (bringUp daemon settings config) fun _ _ _ => True := by
  have run (s : Session δ Terminal) : Goes (w.site daemon settings).Step s
      ((w.site daemon settings).run config) fun _ _ _ => True := by
    obtain ⟨ms, -, -, hp, -⟩ := (Site.run_keeps config).path s
    exact ⟨ms, hp.trail, trivial⟩
  refine Goes.bind (provision_goes (run w.session)) (fun _ outcome w' _ => ?_) fun _ _ _ _ => trivial
  split
  · exact say_goes _
  · exact goes_pure trivial

end Command

namespace Interview

/-- The first clear line says yes or nothing. The end of the input says nothing as well. -/
def Accepts (q : Question) (lines rest : List Bytes) : Prop :=
  Enters q ["", "y", "yes"] lines rest ∨ (∀ line ∈ lines, q.Unclear line) ∧ rest = []

inductive Confirms (i : Interview) (ps : Properties) (lines : List Bytes) :
    Except SetupError (Option InitConfig) → List Bytes → Prop
  | unshown (e : IoError) : Confirms i ps lines (.error (.output e)) lines
  | unanswered {cause : PromptError} {rest : List Bytes}
    (ha : Answered (i.about .proceed) i.attempts (.error cause) lines rest) :
    Confirms i ps lines (.error (.unsettled .proceed cause)) rest
  | refused {rest : List Bytes} (ha : Enters (i.about .proceed) ["n", "no"] lines rest) :
    Confirms i ps lines (.ok none) rest
  | accepted {config : InitConfig} {rest : List Bytes} (ha : Accepts (i.about .proceed) lines rest)
    (hc : InitConfig.ofProperties ps = .ok config) : Confirms i ps lines (.ok (some config)) rest

variable {i : Interview} {ps : Properties} {d : Desk}

theorem small_of_yes {q : Question} {value : String} (h : q.reading? value = some true) :
    Question.small value ∈ ["", "y", "yes"] := by
  unfold Question.reading? at h
  split at h
  all_goals simp [*] at h ⊢

theorem accepts_of_answered {q : Question} {n : Nat} {lines rest : List Bytes}
    (h : Answered q n (.ok true) lines rest) : Accepts q lines rest := by
  generalize ha : (Except.ok true : Except PromptError Bool) = a at h
  induction h with
  | @clear _ line value _ lines hv hb =>
    cases ha
    exact .inl ⟨[], line, rfl, List.forall_mem_nil _, value, hv, small_of_yes hb⟩
  | @unclear _ _ line _ _ hu _ ih =>
    obtain ⟨passed, last, rfl, hp, hs⟩ | ⟨hl, hr⟩ := ih ha
    · exact .inl ⟨line :: passed, last, rfl, List.forall_mem_cons.mpr ⟨hu, hp⟩, hs⟩
    · exact .inr ⟨List.forall_mem_cons.mpr ⟨hu, hl⟩, hr⟩
  | preset hb => exact .inr ⟨List.forall_mem_nil _, rfl⟩
  | silent _ ih => exact ih ha
  | unanswered lines => cases ha
  | broken e lines after => cases ha

theorem confirm_reads (hc : ps.isComplete = true) :
    i.Reads .proceed (i.Confirms ps d.terminal.lines) d (i.confirm ps) := by
  have shown {d : Desk} (text : String) : i.Reads .proceed (fun r lines =>
      lines = d.terminal.lines ∧ ∀ e, r = .error e → ∃ cause, e = .output cause) d
      (Setup.display text) := by
    have quiet : Setup.Asks d (fun _ => False) (fun e => ∃ cause, e = .output cause) _
        (Setup.display text) := Setup.display_asks text fun e => ⟨e, rfl⟩
    refine Goes.mono (reads_of_quiet (i := i) (m := .proceed) quiet) ?_
    rintro ts r d' ⟨hd, ht, hl, he, -⟩
    exact ⟨hd, ht, hl, he⟩
  have unshown {lines : List Bytes} (e : SetupError) (rest : List Bytes)
      (he : rest = lines ∧ ∀ e', (.error e : Except SetupError Unit) = .error e' →
        ∃ cause, e' = .output cause) : i.Confirms ps lines (.error e) rest := by
    obtain ⟨rfl, he⟩ := he
    obtain ⟨cause, rfl⟩ := he e rfl
    exact .unshown cause
  refine (shown _).bind (fun _ d₁ _ hl => ?_) unshown
  rw [← hl.1]
  refine Reads.bind (shown _) (fun _ d₂ _ hl => ?_) unshown
  rw [← hl.1]
  refine (settle_reads .proceed).bind ?_ ?_
  · rintro b d₃ - ⟨_ | _, ⟨⟩, ha⟩
    cases b with
    | false => exact reads_pure (.refused (ha.enters nofun))
    | true =>
      obtain ⟨config, hc, -⟩ := Properties.ofProperties_complete hc
      simp only [hc]
      exact reads_pure (.accepted (accepts_of_answered ha) hc)
  · rintro e rest ⟨_ | _, ⟨⟩, ha⟩
    exact .unanswered ha

theorem collect_complete (named : Option String) (d : Desk) :
    Goes Desk.Step d (i.collect named) fun _ r _ => ∀ ps, r = .ok ps → ps.isComplete = true := by
  refine Goes.mono (collect_goes named d) ?_
  rintro ts r d' (⟨-, -, e, rfl, -⟩ | ⟨path?, rest, -, hc⟩)
  · exact nofun
  · exact hc.complete

end Interview

namespace Command

structure Reached (ms : List Move) : Prop where
  only : ∀ m ∈ ms, m.Probes
  answered : .call .ping (.ok ()) ∈ ms

structure Collected (i : Interview) (configFile : Option String) (w : World δ) (ms : List Move)
    (ts : List Turn) (ps : Properties) (d : Desk) : Prop where
  reached : Reached ms
  turns : Trail Desk.Step w.desk ts d
  result : (i.collect configFile).apply w.desk = (.ok ps, d)
  complete : ps.isComplete = true

/-- It was asked whether to go ahead and nothing else, and nothing was saved. -/
structure Decided (i : Interview) (ps : Properties) (d : Desk) (us : List Turn)
    (r : Except SetupError (Option InitConfig)) (d' : Desk) : Prop where
  turns : Trail Desk.Step d us d'
  only : ∀ t ∈ us, t.Within (· = (i.about .proceed).text)
  result : i.Confirms ps d.terminal.lines r d'.terminal.lines

/-- How far the command gets, with all that is done on the way. -/
inductive Initiates (i : Interview) (configFile : Option String) (w : World δ) :
    List Deed → Except CommandError Unit → World δ → Prop
  /-- The daemon does not answer, and nobody notices but by the result. -/
  | unreached {ms : List Move} {cause : AttemptsError DaemonError} {w' : World δ}
    (hm : ∀ m ∈ ms, m.Probes) (hn : .call .ping (.ok ()) ∉ ms) (hd : w'.desk = w.desk) :
    Initiates i configFile w (ms.map .move) (.error (.provision (.connectivity cause))) w'
  | uncollected {ms : List Move} {ts : List Turn} {e : SetupError} {w' : World δ}
    (hm : Reached ms) (ht : Trail Desk.Step w.desk ts w'.desk)
    (hc : (i.collect configFile).apply w.desk = (.error e, w'.desk)) :
    Initiates i configFile w (ms.map .move ++ ts.map .turn) (.error (.setup e)) w'
  | unconfirmed {ms : List Move} {ts us : List Turn} {ps : Properties} {d : Desk} {e : SetupError}
    {w' : World δ} (hc : Collected i configFile w ms ts ps d)
    (hd : Decided i ps d us (.error e) w'.desk) :
    Initiates i configFile w (ms.map .move ++ (ts.map .turn ++ us.map .turn)) (.error (.setup e)) w'
  | refused {ms : List Move} {ts us : List Turn} {ps : Properties} {d : Desk} {w' : World δ}
    (hc : Collected i configFile w ms ts ps d) (hd : Decided i ps d us (.ok none) w'.desk) :
    Initiates i configFile w (ms.map .move ++ (ts.map .turn ++ us.map .turn)) (.ok ()) w'
  /-- Only now there is anything more. -/
  | accepted {ms : List Move} {ts us : List Turn} {ps : Properties} {d d' : Desk}
    {config : InitConfig} (hc : Collected i configFile w ms ts ps d)
    (hd : Decided i ps d us (.ok (some config)) d') (rest : List Deed)
    (r : Except CommandError Unit) (w' : World δ) :
    Initiates i configFile w (ms.map .move ++ (ts.map .turn ++ (us.map .turn ++ rest))) r w'

variable {daemon : Daemon δ} {settings : Settings} {w : World δ}

theorem probe_goes (daemon : Daemon δ) (settings : Settings) (w : World δ) :
    Goes (World.Step daemon settings) w (provision daemon settings Site.probe) fun ds r w' =>
      ∃ ms : List Move, ds = ms.map .move ∧ w'.desk = w.desk ∧ (r = .ok () ∧ Reached ms ∨
        (∀ m ∈ ms, m.Probes) ∧ .call .ping (.ok ()) ∉ ms ∧
          ∃ cause, r = .error (.provision (.connectivity cause))) := by
  have made : (w.site daemon settings).Makes (w.site daemon settings).probe _ := Site.probe_makes
  obtain ⟨ms, hp, hm, h⟩ := made w.session
  have probed : Goes (w.site daemon settings).Step w.session (w.site daemon settings).probe
      fun ms r _ => (∀ m ∈ ms, m.Probes) ∧ Probed settings.probe.maxRetries.toNat (incidents ms) r :=
    ⟨ms, hp.trail, hm, h⟩
  refine Goes.mono (provision_goes probed) ?_
  rintro _ _ _ ⟨ms, r, s, rfl, rfl, rfl, ht, hm, h⟩
  refine ⟨ms, rfl, ?_, ?_⟩
  · rw [World.desk, Site.console_of_probes ht hm, World.desk]
  · cases r with
    | ok => exact .inl ⟨rfl, hm, h.answered⟩
    | error e =>
      have hn := h.unanswered
      obtain ⟨cause, rfl⟩ := h.connectivity
      exact .inr ⟨hm, hn, cause, rfl⟩

variable {i : Interview} {configFile : Option String} {ms : List Move} {ts : List Turn}
  {ps : Properties}

theorem confirm_initiates {w₁ : World δ} (hc : Collected i configFile w ms ts ps w₁.desk) :
    Goes (World.Step daemon settings) w₁ (do
      match ← setup (i.confirm ps) with
      | some config => bringUp daemon settings config
      | none => return) fun ds => Initiates i configFile w (ms.map .move ++ (ts.map .turn ++ ds)) := by
  refine Goes.bind (setup_goes (Interview.confirm_reads hc.complete)) ?_ ?_
  · rintro _ answer _ ⟨us, _ | _, d, rfl, ⟨⟩, rfl, -, hu, -, hq, ha⟩
    cases answer with
    | none =>
      refine goes_pure ?_
      rw [List.append_nil]
      exact .refused hc ⟨hu, hq, ha⟩
    | some config =>
      refine Goes.mono (bringUp_goes config) fun rest r w' _ => ?_
      exact .accepted hc ⟨hu, hq, ha⟩ rest r w'
  · rintro _ _ _ ⟨us, _ | _, d, rfl, ⟨⟩, rfl, -, hu, -, hq, ha⟩
    exact .unconfirmed hc ⟨hu, hq, ha⟩

theorem collect_initiates {w₁ : World δ} (hm : Reached ms) (hd : w₁.desk = w.desk) :
    Goes (World.Step daemon settings) w₁ (do
      let properties ← setup (i.collect configFile)
      match ← setup (i.confirm properties) with
      | some config => bringUp daemon settings config
      | none => return) fun ds => Initiates i configFile w (ms.map .move ++ ds) := by
  refine Goes.bind (setup_goes (i.collect_complete configFile w₁.desk)) ?_ ?_
  · rintro _ ps _ ⟨ts, _ | _, d, rfl, ⟨⟩, rfl, hr, ht, hp⟩
    rw [hd] at hr ht
    exact confirm_initiates ⟨hm, ht, hr, hp ps rfl⟩
  · rintro _ _ _ ⟨ts, _ | _, d, rfl, ⟨⟩, rfl, hr, ht, -⟩
    rw [hd] at hr ht
    exact .uncollected hm ht hr

/-- Whatever the daemon and the terminal do, the command waits for an answer of the one before it
turns to the other, and for agreement at the other before it calls on the one. -/
theorem init_awaits_agreement (daemon : Daemon δ) (settings : Settings) (configFile : Option String)
    (w : World δ) : Goes (World.Step daemon settings) w (init daemon settings configFile)
      (Initiates (interview settings w.host) configFile w) := by
  refine Goes.bind (probe_goes daemon settings w) ?_ ?_
  · rintro _ _ w₁ ⟨ms, rfl, hd, ⟨-, hm⟩ | ⟨-, -, cause, ⟨⟩⟩⟩
    have hh : w₁.host = w.host := congrArg Desk.host hd
    refine host_goes ?_
    rw [hh]
    exact collect_initiates hm hd
  · rintro _ _ w₁ ⟨ms, rfl, hd, ⟨⟨⟩, -⟩ | ⟨hm, hn, cause, ⟨⟩⟩⟩
    exact .unreached hm hn hd

end Command

end Provisioner
