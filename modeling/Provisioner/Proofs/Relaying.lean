import Provisioner.Proofs.Output
import Provisioner.Provision.Init

namespace Provisioner.Site

variable {δ κ : Type} {site : Site δ κ} {s t : Session δ κ}

def heard (s : Settings) (config : InitConfig) (id session : String) (feed : Feed Bytes) :
    List Move :=
  [.call (.inspectContainer id) (.ok ()), .call (.createExec id (execSpec s config)) (.ok session),
    .call (.startExec session (execSpec s config).tty) (.ok feed)]

/-- The moves of a run of the script, what they may add to what was taken, and what comes of it. -/
inductive Relays (s : Settings) (config : InitConfig) (id : String) :
    List Move → Bytes → Except ExecError Unit → Prop
  | uninspected (e : DaemonError) :
    Relays s config id [.call (.inspectContainer id) (.error e)] [] (.error (.inspect e))
  | uncreated (e : DaemonError) :
    Relays s config id [.call (.inspectContainer id) (.ok ()),
      .call (.createExec id (execSpec s config)) (.error e)] [] (.error (.create e))
  | unnamed :
    Relays s config id [.call (.inspectContainer id) (.ok ()),
      .call (.createExec id (execSpec s config)) (.ok "")] [] (.error .emptySessionId)
  | unstarted {session : String} (hs : session ≠ "") (e : DaemonError) :
    Relays s config id [.call (.inspectContainer id) (.ok ()),
      .call (.createExec id (execSpec s config)) (.ok session),
      .call (.startExec session (execSpec s config).tty) (.error e)] [] (.error (.start e))
  | refused {session : String} (hs : session ≠ "") {feed : Feed Bytes} {ms : List Move}
    {out : Bytes} {e : ExecError} (h : Offers ExecError.write feed.items ms out (.error e)) :
    Relays s config id (heard s config id session feed ++ ms) out (.error e)
  | broken {session : String} (hs : session ≠ "") {feed : Feed Bytes} {e : DaemonError}
    (hf : feed.failure = some e) :
    Relays s config id (heard s config id session feed ++ feed.items.map accepted)
      feed.items.flatten (.error (.output e))
  | unflushed {session : String} (hs : session ≠ "") {feed : Feed Bytes}
    (hf : feed.failure = none) (e : IoError) :
    Relays s config id
      (heard s config id session feed ++ (feed.items.map accepted ++ [.flush (.error e)]))
      feed.items.flatten (.error (.write e))
  | relayed {session : String} (hs : session ≠ "") {feed : Feed Bytes}
    (hf : feed.failure = none) :
    Relays s config id
      (heard s config id session feed ++ (feed.items.map accepted ++ [.flush (.ok ())]))
      feed.items.flatten (.ok ())

theorem heard_append_inj {s : Settings} {config : InitConfig} {id session session' : String}
    {feed feed' : Feed Bytes} {ms ns : List Move}
    (h : heard s config id session feed ++ ms = heard s config id session' feed' ++ ns) :
    feed = feed' ∧ ms = ns := by
  injection h with _ h
  injection h with _ h
  injection h with h hm
  cases h
  exact ⟨rfl, hm⟩

/-- All goes well exactly if all that is called and said goes well to the end of a whole feed. -/
theorem Relays.ok_iff {s : Settings} {config : InitConfig} {id : String} {ms : List Move}
    {out : Bytes} {r : Except ExecError Unit} (h : Relays s config id ms out r) :
    r = .ok () ↔ ∃ session feed, session ≠ "" ∧ feed.failure = none ∧
      ms = heard s config id session feed ++ (feed.items.map accepted ++ [.flush (.ok ())]) := by
  constructor
  · rintro rfl
    cases h with
    | relayed hs hf => exact ⟨_, _, hs, hf, rfl⟩
  · rintro ⟨session, feed, -, hf, hm⟩
    cases h with
    | relayed => rfl
    | uninspected | uncreated | unnamed | unstarted => cases hm
    | refused hs h =>
      cases h with
      | refused =>
        obtain ⟨-, hm⟩ := heard_append_inj hm
        cases (List.append_inj' hm rfl).2
    | broken hs hf' =>
      obtain ⟨rfl, -⟩ := heard_append_inj hm
      cases hf.symm.trans hf'
    | unflushed =>
      obtain ⟨-, hm⟩ := heard_append_inj hm
      cases (List.append_inj' hm rfl).2

theorem relay_emits (chunks : List Bytes) :
    site.Emits (site.relay chunks) (Offers ExecError.write chunks) := by
  induction chunks with
  | nil => exact emits_pure .taken
  | cons chunk rest ih => exact (emits_write chunk _).thenOffer ih

/-- Every piece goes out before it is told that the feed has failed. -/
theorem relayFeed_emits {config : InitConfig} {id session : String} (hs : session ≠ "")
    (feed : Feed Bytes) : site.Emits (site.relayFeed feed) fun ms out r =>
      Relays site.settings config id (heard site.settings config id session feed ++ ms) out r := by
  refine (relay_emits feed.items).after ?_ fun ms out e h => .refused hs h
  cases hf : feed.failure with
  | some e =>
    refine emits_throw ?_
    rw [List.append_nil, List.append_nil]
    exact .broken hs hf
  | none =>
    refine (emits_flush _).mono ?_
    rintro ms out r ⟨e | _, rfl, rfl, rfl⟩ <;> rw [List.append_nil]
    · exact .unflushed hs hf e
    · exact .relayed hs hf

theorem runInit_emits (id : String) (config : InitConfig) :
    site.Emits (site.runInit id config) (Relays site.settings config id) := by
  refine emits_demand (told_move_call (.inspectContainer id)) (fun _ _ => Move.Adds.of_call) (fun _ => ?_)
    .uninspected
  refine emits_demand (told_move_call (.createExec id (execSpec site.settings config)))
    (fun _ _ => Move.Adds.of_call) (fun session => ?_) .uncreated
  by_cases hs : session = ""
  · subst hs
    exact emits_throw .unnamed
  · rw [if_neg (by simpa using hs)]
    exact emits_demand (told_move_call (.startExec session true)) (fun _ _ => Move.Adds.of_call)
      (relayFeed_emits hs) (.unstarted hs)

/-- The script is heard only in a session that was just opened in a container that is there. The
console is given what it says in order, up to a piece that is refused or to the end of the feed, and
the first thing that fails is what it fails with. -/
theorem runInit_relays {id : String} {config : InitConfig} {r : Except ExecError Unit}
    (h : (site.runInit id config).apply s = (r, t)) :
    ∃ ms, site.Path s ms t ∧ (∃ out, Relays site.settings config id ms out r) ∧
      (r = .ok () ↔ ∃ session feed, session ≠ "" ∧ feed.failure = none ∧
        ms = heard site.settings config id session feed ++
          (feed.items.map accepted ++ [.flush (.ok ())])) ∧
      ∀ taken, site.console.Takes taken → ∃ out, Relays site.settings config id ms out r ∧
        taken t.console = taken s.console ++ out := by
  obtain ⟨ms, hp, ⟨out, hr⟩, htaken⟩ := (runInit_emits id config).told h
  exact ⟨ms, hp, ⟨out, hr⟩, hr.ok_iff, htaken⟩

/-- The script says two pieces before the feed breaks, and there is room for one and a half. -/
def talkative : Session Rehearsal.Script Rehearsal.Answers where
  daemon := { output := [.ok (Text.bytes "loading "), .ok (Text.bytes "hosts"), .error (.broke "eof")] }
  console := { output := { limit := some 11 } }

theorem talkative_relays :
    ∃ t ms, (Rehearsal.site.runInit "c" ⟨"/key", "10.*", "/hosts"⟩).apply talkative =
        (.error (.write (.other "output full")), t) ∧
      Rehearsal.site.Path talkative ms t ∧
      Relays {} ⟨"/key", "10.*", "/hosts"⟩ "c" ms (Text.bytes "loading hos")
        (.error (.write (.other "output full"))) ∧
      t.console.output.written = Text.bytes "loading hos" := by
  have hr : ((Rehearsal.site.runInit "c" ⟨"/key", "10.*", "/hosts"⟩).apply talkative).1 =
      .error (.write (.other "output full")) := by decide +kernel
  have hw : ((Rehearsal.site.runInit "c" ⟨"/key", "10.*", "/hosts"⟩).apply
      talkative).2.console.output.written = Text.bytes "loading hos" := by decide +kernel
  obtain ⟨ms, hp, -, -, htaken⟩ := runInit_relays (Prod.ext hr rfl)
  obtain ⟨out, hrelays, hout⟩ := htaken _ Rehearsal.Answers.console_takes
  obtain rfl : Text.bytes "loading hos" = out := hw.symm.trans hout
  exact ⟨_, ms, Prod.ext hr rfl, hp, hrelays, hw⟩

end Provisioner.Site
