import Provisioner.Proofs.Answers
import Provisioner.Proofs.Contents
import Provisioner.Proofs.Endings
import Provisioner.Proofs.Groups

namespace Provisioner

def Turn.save? : Turn → Option (String × Bytes)
  | .save path content => some (path, content)
  | .ask .. | .tell .. => none

/-- The files that are written in these turns, one after the other. -/
def saves (ts : List Turn) : List (String × Bytes) := ts.filterMap Turn.save?

theorem saves_append (ts us : List Turn) : saves (ts ++ us) = saves ts ++ saves us :=
  List.filterMap_append

theorem saves_save (path : String) (content : Bytes) (ts : List Turn) :
    saves (.save path content :: ts) = (path, content) :: saves ts := rfl

theorem saves_of_within {allowed : String → Prop} {ts : List Turn}
    (h : ∀ t ∈ ts, t.Within allowed) : saves ts = [] := by
  refine List.filterMap_eq_nil_iff.mpr fun t ht => ?_
  cases t with
  | ask | tell => rfl
  | save => exact (h _ ht).elim

theorem Interview.inventoryPath_steps (i : Interview) : Files.steps i.inventoryPath ≠ [] :=
  Files.steps_join_ne_nil i.workdir ⟨by decide, by decide, by decide⟩

namespace Setup

open Provisioner.Action Terminal

/-- What the deployment is for, by the answer to the question about it. -/
def Deployment.ofAnswer : Except PromptError Bool → Deployment
  | .ok b => .ofBool b
  | .error _ => .production

section

variable (faults : Prop) (attempts : Nat) (lines : List Bytes)

/-- The question about the deployment ends so, after so many lines. -/
abbrev Deploys : Except PromptError Bool → Nat → Prop :=
  ComesTo faults (Deployment.question attempts).Settles (.error (.noValidAnswer attempts)) attempts
    lines

abbrev Monitors : Except PromptError (Option String) → Nat → Prop :=
  ComesTo faults ((monitoringRequest attempts).Settles addressCheck) (.ok none) attempts lines

/-- What comes of the lines for the proxies: their addresses, or the reason why there are none. -/
inductive Lists (deployment : Deployment) : Except SetupError (List String) → List Bytes → Prop
  | untold (e : IoError) (hf : faults) (rest : List Bytes) :
    Lists deployment (.error (.output e)) rest
  | ungathered {e : PromptError} {n : Nat} (hg : Gathers faults addressCheck lines (.error e) n)
    (rest : List Bytes) : Lists deployment (.error (.prompt e)) rest
  | few {n : Nat} (hc : Closes lines n)
    (hn : (gathered addressCheck lines n).length < deployment.minProxies) (rest : List Bytes) :
    Lists deployment (.error .missing) rest
  | enough {n : Nat} (hc : Closes lines n)
    (hn : deployment.minProxies ≤ (gathered addressCheck lines n).length) :
    Lists deployment (.ok (gathered addressCheck lines n)) (lines.drop (n + 1))

/-- What comes of all lines: an inventory, or the reason why there is none. -/
inductive Drafts : Except SetupError Inventory → Prop
  | untold (e : IoError) (hf : faults) : Drafts (.error (.output e))
  | unlisted {a : Except PromptError Bool} {k : Nat} {e : SetupError} {rest : List Bytes}
    (ha : Deploys faults attempts lines a k)
    (hl : Lists faults (lines.drop k) (.ofAnswer a) (.error e) rest) : Drafts (.error e)
  | unmonitored {a : Except PromptError Bool} {k m : Nat} {proxies : List String}
    {rest : List Bytes} {e : PromptError} (ha : Deploys faults attempts lines a k)
    (hl : Lists faults (lines.drop k) (.ofAnswer a) (.ok proxies) rest)
    (hm : Monitors faults attempts rest (.error e) m) : Drafts (.error (.prompt e))
  | drafted {a : Except PromptError Bool} {k m : Nat} {proxies : List String}
    {rest : List Bytes} {monitoring : Option String} (ha : Deploys faults attempts lines a k)
    (hl : Lists faults (lines.drop k) (.ofAnswer a) (.ok proxies) rest)
    (hm : Monitors faults attempts rest (.ok monitoring) m) :
    Drafts (.ok ⟨proxies, monitoring.filter (· != "")⟩)

end

variable {faults : Prop} {attempts : Nat} {lines : List Bytes}

theorem Lists.unique {deployment : Deployment} {r r' : Except SetupError (List String)}
    {rest rest' : List Bytes} (hf : ¬faults) (h : Lists faults lines deployment r rest)
    (h' : Lists faults lines deployment r' rest') :
    r = r' ∧ ∀ proxies, r = .ok proxies → rest = rest' := by
  cases h with
  | untold _ h => exact absurd h hf
  | ungathered hg =>
    cases h' with
    | untold _ h => exact absurd h hf
    | ungathered hg' => exact ⟨by rw [hg.error_eq hf, hg'.error_eq hf], nofun⟩
    | few hc | enough hc => cases (hg.of_closes hf hc).1
  | few hc hn =>
    cases h' with
    | untold _ h => exact absurd h hf
    | ungathered hg => cases (hg.of_closes hf hc).1
    | few => exact ⟨rfl, nofun⟩
    | enough hc' hn' =>
      obtain rfl := hc.unique hc'
      exact absurd hn (Nat.not_lt.mpr hn')
  | enough hc hn =>
    cases h' with
    | untold _ h => exact absurd h hf
    | ungathered hg => cases (hg.of_closes hf hc).1
    | few hc' hn' =>
      obtain rfl := hc.unique hc'
      exact absurd hn' (Nat.not_lt.mpr hn)
    | enough hc' =>
      obtain rfl := hc.unique hc'
      exact ⟨rfl, fun _ _ => rfl⟩

theorem Drafts.inv {r : Except SetupError Inventory} (hf : ¬faults)
    (h : Drafts faults attempts lines r) : ∃ a k listed rest, Deploys faults attempts lines a k ∧
      Lists faults (lines.drop k) (.ofAnswer a) listed rest ∧
      ((∃ e, listed = .error e ∧ r = .error e) ∨
        ∃ proxies b m, listed = .ok proxies ∧ Monitors faults attempts rest b m ∧
          r = (b.map fun answer => ⟨proxies, answer.filter (· != "")⟩).mapError .prompt) := by
  cases h with
  | untold _ h => exact absurd h hf
  | unlisted ha hl => exact ⟨_, _, _, _, ha, hl, .inl ⟨_, rfl, rfl⟩⟩
  | unmonitored ha hl hm => exact ⟨_, _, _, _, ha, hl, .inr ⟨_, _, _, rfl, hm, rfl⟩⟩
  | drafted ha hl hm => exact ⟨_, _, _, _, ha, hl, .inr ⟨_, _, _, rfl, hm, rfl⟩⟩

theorem Drafts.unique {r r' : Except SetupError Inventory} (hf : ¬faults)
    (h : Drafts faults attempts lines r) (h' : Drafts faults attempts lines r') : r = r' := by
  obtain ⟨a, k, listed, rest, ha, hl, hr⟩ := h.inv hf
  obtain ⟨a', k', listed', rest', ha', hl', hr'⟩ := h'.inv hf
  obtain ⟨rfl, rfl⟩ := ComesTo.unique hf (fun _ _ _ h => h.unique) ha ha'
  obtain ⟨rfl, hrest⟩ := hl.unique hf hl'
  obtain ⟨e, rfl, rfl⟩ | ⟨proxies, b, m, rfl, hm, rfl⟩ := hr
  · obtain ⟨_, ⟨⟩, rfl⟩ | ⟨_, _, _, ⟨⟩, -⟩ := hr'
    rfl
  · obtain ⟨_, ⟨⟩, -⟩ | ⟨_, b', m', ⟨⟩, hm', rfl⟩ := hr'
    obtain rfl := hrest _ rfl
    obtain ⟨rfl, -⟩ := ComesTo.unique hf (fun _ _ _ h => h.unique) hm hm'
    rfl

variable {ω : Type} {ready : ω → Prop} {d : Desk ω}

theorem finds_onTerminal {ε α : Type} {a : Action (TerminalOn ω) ε α}
    {Q : Except ε α → List Bytes → Prop} (h : a.Finds id ready d.terminal Q) :
    (onTerminal a).Finds Desk.terminal ready d Q := h

variable [Writer ω]

def Said (faults : Prop) (lines : List Bytes) (r : Except SetupError Unit) (rest : List Bytes) :
    Prop :=
  rest = lines ∧ (r = .ok () ∨ faults ∧ ∃ e, r = .error (.output e))

theorem Said.error {lines rest : List Bytes} {e : SetupError}
    (h : Said faults lines (.error e) rest) : faults ∧ ∃ c, e = .output c := by
  obtain ⟨-, h | ⟨hf, c, h⟩⟩ := h
  · cases h
  · cases h
    exact ⟨hf, c, rfl⟩

theorem say_finds (hw : Writer.Ready ready faults) (hd : ready d.terminal.screen) (text : String) :
    (say text).Finds Desk.terminal ready d (Said faults d.terminal.lines) := by
  refine finds_onTerminal (Finds.orFail (writeLine_finds hw hd text) ?_ ?_)
  · rintro ⟨⟩ lines ⟨hl, -⟩
    exact ⟨hl, .inl rfl⟩
  · rintro e lines ⟨hl, h⟩
    exact ⟨hl, .inr ⟨h.resolve_left nofun, e, rfl⟩⟩

theorem say_bind_finds {α : Type} {k : Unit → SetupOn ω α}
    {Q : Except SetupError α → List Bytes → Prop} (hw : Writer.Ready ready faults)
    (hd : ready d.terminal.screen) (text : String)
    (hk : ∀ d', ready d'.terminal.screen → d'.terminal.lines = d.terminal.lines →
      (k ()).Finds Desk.terminal ready d' Q)
    (he : ∀ e lines, faults → Q (.error (.output e)) lines) :
    (say text >>= k).Finds Desk.terminal ready d Q := by
  refine (say_finds hw hd text).bind (fun _ d' hd' hl => hk d' hd' hl.1) fun e lines h => ?_
  obtain ⟨hf, c, rfl⟩ := h.error
  exact he c lines hf

theorem askDeployment_finds (hw : Writer.Ready ready faults) (hd : ready d.terminal.screen) :
    (askDeployment attempts).Finds Desk.terminal ready d fun r lines =>
      (faults ∧ ∃ e, r = .error (.output e)) ∨
      ∃ a k, Deploys faults attempts d.terminal.lines a k ∧ r = .ok (.ofAnswer a) ∧
        lines = d.terminal.lines.drop k := by
  have asked := finds_onTerminal (askYesNo_finds hw (Deployment.question attempts) hd)
  refine Finds.bind (Finds.outcome (Q := fun r lines => ∃ a k, r = .ok a ∧
    lines = d.terminal.lines.drop k ∧ Deploys faults attempts d.terminal.lines a k) (asked.mono ?_))
    ?_ ?_
  · rintro a lines ⟨k, hl, ha⟩
    exact ⟨a, k, rfl, hl, ha⟩
  · rintro a d' hd' ⟨_, k, ⟨⟩, hl, ha⟩
    cases a with
    | ok b => exact finds_pure hd' (.inr ⟨_, k, ha, rfl, hl⟩)
    | error e =>
      refine say_bind_finds hw hd' _ (fun d'' hd'' hl' => ?_) fun e _ hf => .inl ⟨hf, e, rfl⟩
      exact finds_pure hd'' (.inr ⟨_, k, ha, rfl, hl'.trans hl⟩)
  · rintro e lines ⟨a, k, ⟨⟩, -⟩

theorem askProxies_finds (hw : Writer.Ready ready faults) (hd : ready d.terminal.screen)
    (deployment : Deployment) :
    (askProxies deployment).Finds Desk.terminal ready d
      (Lists faults d.terminal.lines deployment) := by
  refine say_bind_finds hw hd _ (fun d₁ h₁ hl₁ => ?_) fun e _ hf => .untold e hf _
  refine say_bind_finds hw h₁ _ (fun d₂ h₂ hl₂ => ?_) fun e _ hf => .untold e hf _
  refine say_bind_finds hw h₂ _ (fun d₃ h₃ hl₃ => ?_) fun e _ hf => .untold e hf _
  refine say_bind_finds hw h₃ _ (fun d₄ h₄ hl₄ => ?_) fun e _ hf => .untold e hf _
  have hl : d₄.terminal.lines = d.terminal.lines := by rw [hl₄, hl₃, hl₂, hl₁]
  rw [← hl]
  have addresses := finds_onTerminal (Finds.orFail
    (Q := fun r lines => ∃ a n, r = a.mapError SetupError.prompt ∧
      lines = d₄.terminal.lines.drop n ∧ Gathers faults addressCheck d₄.terminal.lines a n)
    (askUntilEmpty_finds hw proxyMessage addressCheck h₄)
    (fun v _ ⟨n, hn, hg⟩ => ⟨_, n, rfl, hn, hg⟩) fun e _ ⟨n, hn, hg⟩ => ⟨_, n, rfl, hn, hg⟩)
  refine addresses.bind ?_ ?_
  · rintro proxies d₅ h₅ ⟨_ | _, _, ⟨⟩, hn, hg⟩
    cases hg with
    | @closed n hc =>
      split
      · refine say_bind_finds hw h₅ _ (fun d₆ h₆ _ => ?_) fun e _ hf => .untold e hf _
        exact finds_throw h₆ (.few hc ‹_› _)
      · refine finds_pure h₅ ?_
        rw [hn]
        exact .enough hc (Nat.le_of_not_lt ‹_›)
  · rintro e lines ⟨_ | _, n, ⟨⟩, -, hg⟩
    exact .ungathered hg _

theorem askMonitoring_finds (hw : Writer.Ready ready faults) (hd : ready d.terminal.screen) :
    (askMonitoring attempts).Finds Desk.terminal ready d fun r _ =>
      ∃ a m, Monitors faults attempts d.terminal.lines a m ∧
        r = (a.map (·.filter (· != ""))).mapError .prompt := by
  refine Finds.bind (P := fun r _ => ∃ a m, Monitors faults attempts d.terminal.lines a m ∧
    r = a.mapError .prompt) ?_ ?_ ?_
  · refine finds_onTerminal (Finds.orFail (askValue_finds hw _ _ hd) ?_ ?_)
    · rintro v lines ⟨m, -, hm⟩
      exact ⟨_, m, hm, rfl⟩
    · rintro e lines ⟨m, -, hm⟩
      exact ⟨_, m, hm, rfl⟩
  · rintro v d' hd' ⟨_ | v, m, hm, ⟨⟩⟩
    exact finds_pure hd' ⟨_, m, hm, rfl⟩
  · rintro e lines ⟨_ | v, m, hm, ⟨⟩⟩
    exact ⟨_, m, hm, rfl⟩

def gather (attempts : Nat) : SetupOn ω Inventory := do
  say "This utility will create a new inventory file and populate it interactively."
  say (s!"The file will be called {inventoryName} and will be located in the current " ++
    "directory")
  let proxies ← askProxies (← askDeployment attempts)
  say ""
  let monitoring ← askMonitoring attempts
  say ""
  return ⟨proxies, monitoring⟩

theorem generateInventory_eq (workdir : String) (attempts : Nat) :
    (generateInventory workdir attempts : SetupOn ω String) = gather attempts >>= fun inv =>
      saveInventory (Files.Path.join workdir inventoryName) inv >>= fun _ =>
        pure (Files.Path.join workdir inventoryName) := by
  simp only [generateInventory, gather, bind_assoc, pure_bind]

theorem gather_finds (hw : Writer.Ready ready faults) (hd : ready d.terminal.screen)
    (attempts : Nat) : (gather attempts).Finds Desk.terminal ready d fun r _ =>
      Drafts faults attempts d.terminal.lines r := by
  refine say_bind_finds hw hd _ (fun d₁ h₁ hl₁ => ?_) fun e _ hf => .untold e hf
  refine say_bind_finds hw h₁ _ (fun d₂ h₂ hl₂ => ?_) fun e _ hf => .untold e hf
  have hl : d₂.terminal.lines = d.terminal.lines := hl₂.trans hl₁
  rw [← hl]
  refine (askDeployment_finds hw h₂).bind ?_ ?_
  · rintro deployment d₃ h₃ (⟨-, e, ⟨⟩⟩ | ⟨a, k, ha, ⟨⟩, hk⟩)
    have listed := askProxies_finds hw h₃ (.ofAnswer a)
    rw [hk] at listed
    refine listed.bind (fun proxies d₄ h₄ hp => ?_) fun e rest hp => .unlisted ha hp
    refine say_bind_finds hw h₄ _ (fun d₅ h₅ hl₅ => ?_) fun e _ hf => .untold e hf
    refine (askMonitoring_finds hw h₅).bind ?_ ?_
    · rintro monitoring d₆ h₆ ⟨_ | b, m, hm, ⟨⟩⟩
      rw [hl₅] at hm
      refine say_bind_finds hw h₆ _ (fun d₇ h₇ _ => ?_) fun e _ hf => .untold e hf
      exact finds_pure h₇ (.drafted ha hp hm)
    · rintro e lines ⟨_ | b, m, hm, ⟨⟩⟩
      rw [hl₅] at hm
      exact .unmonitored ha hp hm
  · rintro e lines (⟨hf, c, ⟨⟩⟩ | ⟨a, k, -, ⟨⟩, -⟩)
    exact .untold c hf

/-- The inventory is what these lines say: the first `k` of them are for the question about the
deployment, the next ones, up to the first with nothing on it, for the proxies. -/
structure Drafted (faults : Prop) (attempts : Nat) (lines : List Bytes) (inv : Inventory)
    (k n : Nat) : Prop where
  deploys : ∃ a, Deploys faults attempts lines a k
  closes : Closes (lines.drop k) n
  proxies : inv.proxies = gathered addressCheck (lines.drop k) n
  /-- Less than three are enough only if some line said that this is for testing. -/
  enough : 3 ≤ inv.proxies.length ∨ 1 ≤ inv.proxies.length ∧ ∃ i < attempts, k = i + 1 ∧
    Says ["y", "yes"] (lines.getD i []) ∧
    ∀ j < i, (Deployment.question attempts).Unclear (lines.getD j [])
  monitoring : ∀ address, inv.monitoring = some address ↔
    (monitoringRequest attempts).Accepts addressCheck ((lines.drop k).drop (n + 1)) address

variable {inv : Inventory} {k n : Nat}

omit [Writer ω] in
theorem Deploys.testing {a : Except PromptError Bool} (h : Deploys faults attempts lines a k)
    (ha : Deployment.ofAnswer a = .localTesting) : ∃ i < attempts, k = i + 1 ∧
      Says ["y", "yes"] (lines.getD i []) ∧
      ∀ j < i, (Deployment.question attempts).Unclear (lines.getD j []) := by
  cases h with
  | @settled i _ hi ho hs =>
    refine ⟨i, hi, rfl, ?_, fun j hj => Question.unclear_iff.mpr (ho j hj)⟩
    cases hs with
    | yes hs => exact hs
    | preset _ hb =>
      cases hb
      cases ha
    | broken | no => cases ha
  | spent | broken => cases ha

theorem Drafts.drafted_of_ok (h : Drafts faults attempts lines (.ok inv)) :
    ∃ k n, Drafted faults attempts lines inv k n := by
  cases h with
  | @drafted a k m _ _ monitoring ha hl hm =>
    cases hl with
    | @enough n hc hn =>
      refine ⟨k, n, ⟨a, ha⟩, hc, rfl, ?_, fun address => hm.accepts⟩
      cases h : Deployment.ofAnswer a with
      | production =>
        rw [h] at hn
        exact .inl hn
      | localTesting =>
        rw [h] at hn
        exact .inr ⟨hn, ha.testing h⟩

theorem addressCheck_eq_none {value : String} :
    addressCheck value = none ↔ Net.isAddress value = true := by
  unfold addressCheck
  split
  · exact iff_of_true rfl ‹_›
  · exact iff_of_false nofun ‹_›

theorem check_of_gathered {check : Validator} {value : String}
    (h : value ∈ gathered check lines n) : check value = none := by
  obtain ⟨line, -, ha⟩ := List.mem_filterMap.mp h
  unfold accepted? at ha
  split at ha
  · split at ha
    · cases ha
      assumption
    · cases ha
  · cases ha

theorem Drafted.addressed (h : Drafted faults attempts lines inv k n) : inv.Addressed where
  proxies address hm := by
    rw [h.proxies] at hm
    exact addressCheck_eq_none.mp (check_of_gathered hm)
  monitoring address hm := by
    obtain ⟨_, -, -, -, -, hc⟩ := (h.monitoring address).mp hm
    exact addressCheck_eq_none.mp hc

/-- What comes of making an inventory: the files that are written, the result, and the machine after
it. Only the message about a file that was written may be lost. -/
inductive Generates (faults : Prop) (i : Interview) (d : Desk ω) :
    List (String × Bytes) → Except SetupError String → Host → Prop
  | undrafted {e : SetupError} (h : Drafts faults i.attempts d.terminal.lines (.error e)) :
    Generates faults i d [] (.error e) d.host
  | unwritten {inv : Inventory} {c : IoError} {e : SetupError}
    (h : Drafts faults i.attempts d.terminal.lines (.ok inv))
    (hw : d.host.write i.inventoryPath (Text.bytes inv.text) = .error c)
    (he : e = .missing ∨ faults ∧ ∃ c, e = .output c) : Generates faults i d [] (.error e) d.host
  | written {inv : Inventory} {host : Host}
    (h : Drafts faults i.attempts d.terminal.lines (.ok inv))
    (hw : d.host.write i.inventoryPath (Text.bytes inv.text) = .ok host) :
    Generates faults i d [(i.inventoryPath, Text.bytes inv.text)] (.ok i.inventoryPath) host
  | unreported {inv : Inventory} {host : Host}
    (h : Drafts faults i.attempts d.terminal.lines (.ok inv))
    (hw : d.host.write i.inventoryPath (Text.bytes inv.text) = .ok host) (hf : faults)
    (e : IoError) :
    Generates faults i d [(i.inventoryPath, Text.bytes inv.text)] (.error (.output e)) host

theorem say_goes (hw : Writer.Ready ready faults) (hd : ready d.terminal.screen) (text : String) :
    Goes Desk.Step d (say text) fun ts r d' => saves ts = [] ∧ d'.host = d.host ∧
      (r = .ok () ∨ faults ∧ ∃ e, r = .error (.output e)) := by
  refine Goes.mono (Goes.also (R := fun r _ => r = .ok () ∨ faults ∧ ∃ e, r = .error (.output e))
    (Interview.say_quiet text) (say_finds hw hd text).2.2) ?_
  rintro ts r d' ⟨⟨hh, ht, -⟩, hr⟩
  exact ⟨saves_of_within ht, hh, hr⟩

theorem gather_goes (hw : Writer.Ready ready faults) (hd : ready d.terminal.screen)
    (i : Interview) :
    Goes Desk.Step d (gather i.attempts) fun ts r d' => saves ts = [] ∧ d'.host = d.host ∧
      ready d'.terminal.screen ∧ Drafts faults i.attempts d.terminal.lines r := by
  have asked : Asks d (· ∈ i.prompts .inventory) SetupError.Unconfigured (fun _ _ => True)
      (gather i.attempts) :=
    .bind (Interview.say_within _) fun _ _ _ _ _ => .bind (Interview.say_within _) fun _ _ _ _ _ =>
    .bind Interview.askDeployment_asks fun _ deployment _ _ _ =>
    .bind (Interview.askProxies_asks deployment) fun _ _ _ _ _ =>
    .bind (Interview.say_within _) fun _ _ _ _ _ =>
    .bind Interview.askMonitoring_asks fun _ _ _ _ _ =>
    .bind (Interview.say_within _) fun _ _ _ _ _ => asks_pure trivial
  have found := gather_finds hw hd i.attempts
  refine Goes.mono (Goes.also (R := fun r d' => ready d'.terminal.screen ∧
    Drafts faults i.attempts d.terminal.lines r) asked ⟨found.1, found.2⟩) ?_
  rintro ts r d' ⟨⟨hh, ht, -⟩, hr⟩
  exact ⟨saves_of_within ht, hh, hr⟩

theorem saveInventory_generates (hw : Writer.Ready ready faults) (i : Interview) {d d' : Desk ω}
    (h : Drafts faults i.attempts d.terminal.lines (.ok inv)) (hd : ready d'.terminal.screen)
    (hh : d'.host = d.host) :
    Goes Desk.Step d' (do
      saveInventory i.inventoryPath inv
      return i.inventoryPath) fun ts r d'' => Generates faults i d (saves ts) r d''.host := by
  unfold saveInventory
  rw [bind_assoc]
  refine goes_host ?_
  -- Whether it can be written is settled first. After that only output may fail.
  cases hx : d'.host.write i.inventoryPath (Text.bytes inv.text) with
  | error c =>
    rw [hh] at hx
    simp only [bind_assoc]
    refine Goes.bind (say_goes hw hd _) ?_ ?_
    · rintro ts - d'' ⟨hs, hh', -⟩
      refine Goes.bind (goes_throw (Q := fun us r u => us = [] ∧ r = .error .missing ∧ u = d'')
        ⟨rfl, rfl, rfl⟩) (fun _ _ _ h => nomatch h.2.1) ?_
      rintro us e u ⟨rfl, ⟨⟩, rfl⟩
      rw [List.append_nil, hs, hh', hh]
      exact .unwritten h hx (.inl rfl)
    · rintro ts e d'' ⟨hs, hh', hr | ⟨hf, c, ⟨⟩⟩⟩
      · cases hr
      · rw [hs, hh', hh]
        exact .unwritten h hx (.inr ⟨hf, c, rfl⟩)
  | ok host =>
    simp only [bind_assoc]
    refine goes_save hx ?_
    rw [hh] at hx
    refine Goes.bind (say_goes (d := { d' with host }) hw hd _) ?_ ?_
    · rintro ts - d'' ⟨hs, hh', -⟩
      refine goes_pure ?_
      rw [List.append_nil, saves_save, hs, hh']
      exact .written h hx
    · rintro ts e d'' ⟨hs, hh', hr | ⟨hf, c, ⟨⟩⟩⟩
      · cases hr
      · rw [saves_save, hs, hh']
        exact .unreported h hx hf c

theorem generateInventory_generates (hw : Writer.Ready ready faults) (i : Interview) (d : Desk ω)
    (hd : ready d.terminal.screen) :
    Goes Desk.Step d (generateInventory i.workdir i.attempts) fun ts r d' =>
      Generates faults i d (saves ts) r d'.host := by
  rw [generateInventory_eq]
  refine Goes.bind (gather_goes hw hd i) ?_ ?_
  · rintro ts inv d' ⟨hs, hh, hd', h⟩
    refine Goes.mono (saveInventory_generates hw i h hd' hh) fun us r d'' hg => ?_
    rwa [saves_append, hs]
  · rintro ts e d' ⟨hs, hh, -, h⟩
    rw [hs, hh]
    exact .undrafted h

/-- An inventory has what was entered for it, and it is read back from its text: in one group the
addresses that were accepted, in another one that of the monitoring host, if one was. Without enough
of them nothing is written. Any output is ready where there may be faults; where there are none, the
lines decide. -/
theorem generateInventory_writes_groups (hw : Writer.Ready ready faults) (i : Interview)
    (d : Desk ω) (hd : ready d.terminal.screen) :
    (∀ path d', (generateInventory i.workdir i.attempts).apply d = (.ok path, d') →
      path = i.inventoryPath ∧ ∃ inv k n,
        Drafted faults i.attempts d.terminal.lines inv k n ∧
        d.host.write path (Text.bytes inv.text) = .ok d'.host ∧
        (d'.host.content? path = some (Text.bytes inv.text) ∨
          d'.host = d.host ∧ d.host.isFile path = false) ∧
        Inventory.groups inv.text = ("[proxies]", inv.proxies.map Inventory.entry) ::
          (inv.monitoring.map fun a => ("[monitoring]", [Inventory.entry a])).toList ∧
        Inventory.ofText inv.text = inv) ∧
    (∀ e d', (generateInventory i.workdir i.attempts).apply d = (.error e, d') →
      d'.host = d.host ∨ faults ∧ ∃ inv k n,
        Drafted faults i.attempts d.terminal.lines inv k n ∧
        d.host.write i.inventoryPath (Text.bytes inv.text) = .ok d'.host) ∧
    (¬faults → ∀ a k n, Deploys faults i.attempts d.terminal.lines a k →
      Closes (d.terminal.lines.drop k) n →
      (gathered addressCheck (d.terminal.lines.drop k) n).length <
        (Deployment.ofAnswer a).minProxies →
      ∃ d', (generateInventory i.workdir i.attempts).apply d = (.error .missing, d') ∧
        d'.host = d.host) ∧
    (¬faults → ∀ inv host, Drafts faults i.attempts d.terminal.lines (.ok inv) →
      d.host.write i.inventoryPath (Text.bytes inv.text) = .ok host →
      ∃ d', (generateInventory i.workdir i.attempts).apply d = (.ok i.inventoryPath, d') ∧
        d'.host = host) := by
  obtain ⟨ts, -, hg⟩ := generateInventory_generates hw i d hd
  generalize saves ts = ws at hg
  rcases hx : (generateInventory i.workdir i.attempts).apply d with ⟨r, d'⟩
  rw [hx] at hg
  generalize hh : d'.host = host at hg
  -- The first two tell what a result goes back to, the last two what comes of the lines.
  -- For these the way that the dialogue went is the only one.
  refine ⟨?_, ?_, ?_, ?_⟩
  · rintro path _ ⟨⟩
    cases hg with
    | @written inv _ h hs =>
      obtain ⟨k, n, hdraft⟩ := h.drafted_of_ok
      refine ⟨rfl, inv, k, n, hdraft, hh ▸ hs, ?_, Inventory.groups_text hdraft.addressed,
        Inventory.ofText_text hdraft.addressed⟩
      rw [hh]
      exact Host.content?_written i.inventoryPath_steps hs
  · rintro e _ ⟨⟩
    cases hg with
    | undrafted | unwritten => exact .inl hh
    | @unreported inv _ h hs hf =>
      obtain ⟨k, n, hdraft⟩ := h.drafted_of_ok
      exact .inr ⟨hf, inv, k, n, hdraft, hh ▸ hs⟩
  · intro hf a k n ha hc hn
    have hfew := Drafts.unlisted ha (.few hc hn [])
    refine ⟨d', ?_⟩
    cases hg with
    | undrafted h =>
      cases h.unique hf hfew
      exact ⟨rfl, hh⟩
    | unwritten h | written h | unreported h => cases h.unique hf hfew
  · intro hf inv host ha hs
    refine ⟨d', ?_⟩
    cases hg with
    | undrafted h => cases h.unique hf ha
    | unwritten h hs' =>
      cases h.unique hf ha
      cases hs.symm.trans hs'
    | written h hs' =>
      cases h.unique hf ha
      cases hs.symm.trans hs'
      exact ⟨rfl, hh⟩
    | unreported _ _ h => exact absurd h hf

def workplace (entered : List String) : Desk where
  terminal := ⟨entered.map Text.bytes, {}⟩
  host := { root := .dir 0o755 [("work", .dir 0o755 [])], cwd := [], home := none,
            userProfile := none }

def tester : Desk :=
  workplace ["Y", "10.0.0.1", "10.0.0.256", " \"10.0.0.1\"", "", "none", "fd00::7", "rest"]

def hesitater : Desk := workplace ["maybe", "later", "ja", "10.0.0.1", "10.0.0.2", "", "10.0.0.3"]

def testerText : String :=
  "[proxies]\n10.0.0.1 ansible_connection=ssh ansible_user=ubuntu\n" ++
  "10.0.0.1 ansible_connection=ssh ansible_user=ubuntu\n\n" ++
  "[monitoring]\nfd00::7 ansible_connection=ssh ansible_user=ubuntu\n"

/-- For testing one proxy is enough. Without an answer in three lines three of them are needed, and
two are too few. -/
theorem tester_writes_groups : (Writer.Ready (fun s => ∃ written, Sink.Open s written) False ∧
      (∃ written, Sink.Open tester.terminal.screen written) ∧
      ∃ written, Sink.Open hesitater.terminal.screen written) ∧
    (∃ d' k n, (generateInventory "/work" 3).apply tester =
        (.ok "/work/cloudgate_inventory", d') ∧
      d'.host.content? "/work/cloudgate_inventory" = some (Text.bytes testerText) ∧
      Drafted False 3 tester.terminal.lines ⟨["10.0.0.1", "10.0.0.1"], some "fd00::7"⟩ k n) ∧
    ∃ d', (generateInventory "/work" 3).apply hesitater = (.error .missing, d') ∧
      d'.host = hesitater.host := by
  have hw := Sink.open_unfailing.ready
  have ht : ∃ written, Sink.Open tester.terminal.screen written := ⟨[], rfl⟩
  have hh : ∃ written, Sink.Open hesitater.terminal.screen written := ⟨[], rfl⟩
  have writes (d : Desk) := generateInventory_writes_groups (d := d) hw
    { attempts := 3, workdir := "/work" }
  refine ⟨⟨hw, ht, hh⟩, ?_, ?_⟩
  · obtain ⟨hr, hc⟩ : ((generateInventory "/work" 3).apply tester).1.toOption =
          some "/work/cloudgate_inventory" ∧
        ((generateInventory "/work" 3).apply tester).2.host.content?
          "/work/cloudgate_inventory" = some (Text.bytes testerText) := by decide +kernel
    rcases hx : (generateInventory "/work" 3).apply tester with ⟨e | path, d'⟩ <;>
      rw [hx] at hr hc <;> cases hr
    obtain ⟨-, inv, k, n, hdraft, -, hfile, -, hread⟩ := (writes tester ht).1 _ d' hx
    have hf : tester.host.content? "/work/cloudgate_inventory" = none := by decide +kernel
    -- The text that was written tells what was entered.
    have htext : inv.text = testerText := by
      obtain hkept | ⟨hsame, -⟩ := hfile
      · have hb := congrArg Text.decode? (Option.some.inj (hkept.symm.trans hc))
        rwa [Text.decode?_bytes, Text.decode?_bytes, Option.some.injEq] at hb
      · rw [hsame, hf] at hc
        cases hc
    have hinv : inv = ⟨["10.0.0.1", "10.0.0.1"], some "fd00::7"⟩ := by
      rw [← hread, htext]
      decide +kernel
    exact ⟨d', k, n, rfl, hc, hinv ▸ hdraft⟩
  · refine (writes hesitater hh).2.2.1 id (.error (.noValidAnswer 3)) 3 2 (.spent ?_) ?_ ?_
    · intro j hj
      refine Question.unclear_iff.mp ?_
      have hj : j < 3 := hj
      obtain rfl | rfl | rfl : j = 0 ∨ j = 1 ∨ j = 2 := by omega
      · exact ⟨"maybe", by decide +kernel, rfl⟩
      · exact ⟨"later", by decide +kernel, rfl⟩
      · exact ⟨"ja", by decide +kernel, rfl⟩
    · have hf : Filled (Text.bytes "10.0.0.1") ∧ Filled (Text.bytes "10.0.0.2") :=
        ⟨⟨"10.0.0.1", by decide +kernel, by decide⟩, "10.0.0.2", by decide +kernel, by decide⟩
      exact closes_succ.mpr ⟨hf.1, closes_succ.mpr ⟨hf.2, closes_zero.mpr (by decide +kernel)⟩⟩
    · decide +kernel

end Setup

end Provisioner
