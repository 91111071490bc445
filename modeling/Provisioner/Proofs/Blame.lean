import Mathlib.Data.List.Basic
import Provisioner.Proofs.Account
import Provisioner.Provision.Run

namespace Provisioner

variable {δ κ ε ε' α β : Type}

def Reply.failure? : Reply α → Option DaemonError
  | .ok _ => none
  | .error e => some e

/-- What went wrong with a call, be it in the middle of what it answers. -/
def Call.failure? : (c : Call) → c.Answer → Option DaemonError
  | .ping, a => Reply.failure? a
  | .listImages _, a => Reply.failure? a
  | .pullImage _, feed => feed.failure
  | .listContainers _, a => Reply.failure? a
  | .createContainer _, a => Reply.failure? a
  | .startContainer _, a => Reply.failure? a
  | .removeContainer _, a => Reply.failure? a
  | .statPath .., a => Reply.failure? a
  | .uploadArchive .., a => Reply.failure? a
  | .inspectContainer _, a => Reply.failure? a
  | .createExec .., a => Reply.failure? a
  | .startExec .., .error e => some e
  | .startExec .., .ok feed => feed.failure

def Call.mayFail : Call → Bool
  | .ping | .statPath .. => true
  | _ => false

def PromptSettings.tolerates (p : PromptSettings) : PromptError → Bool
  | .noValidAnswer _ => p.unansweredIsDecline
  | .io _ => false

def Question.decision? (q : Question) : Option Decision :=
  [.useExisting, .recreate].find? fun d => q.message = d.question ∧ q.preset = d.preset

theorem Site.decision?_questionOf (site : Site δ κ) (d : Decision) :
    (site.questionOf d).decision? = some d := by
  cases d with
  | useExisting => exact List.find?_cons_of_pos (decide_eq_true ⟨rfl, rfl⟩)
  | recreate =>
    have h : ¬((site.questionOf .recreate).message = Decision.useExisting.question ∧
        (site.questionOf .recreate).preset = Decision.useExisting.preset) := fun h => nomatch h.2
    exact (List.find?_cons_of_neg (by simpa using h)).trans
      (List.find?_cons_of_pos (decide_eq_true ⟨rfl, rfl⟩))

def ProvisionError.isLocalCopy : ProvisionError → Bool
  | .fileStage _ _ _ cause => cause.daemonError?.isNone
  | _ => false

structure Juncture where
  keyCopied : Bool := false
  /-- The script was started and its output has not come to an end. -/
  relaying : Bool := false
  deriving DecidableEq, Repr

namespace Juncture

def next (j : Juncture) : Move → Juncture
  | .call (.uploadArchive ..) _ => { j with keyCopied := true }
  | .call (.startExec ..) _ => { j with relaying := true }
  | .flush _ => { j with relaying := false }
  | _ => j

def past (j : Juncture) (ms : List Move) : Juncture := ms.foldl next j

@[simp] theorem past_cons (j : Juncture) (m : Move) (ms : List Move) :
    j.past (m :: ms) = (j.next m).past ms := rfl

@[simp] theorem past_append (j : Juncture) (ms ns : List Move) :
    j.past (ms ++ ns) = (j.past ms).past ns := List.foldl_append

def source (j : Juncture) (config : InitConfig) : String :=
  if j.keyCopied then config.inventory else config.sshKey

def dest (j : Juncture) (s : Settings) : String :=
  if j.keyCopied then s.inventoryDir else s.sshKeyDir

end Juncture

section Table

variable (s : Settings) (config : InitConfig) (j : Juncture)

def Call.blame? : (c : Call) → c.Answer → Option ProvisionError
  | .ping, _ | .statPath .., _ => none
  | .listImages r, a => (Reply.failure? a).map (.imagePull r.text)
  | .pullImage r, feed => feed.failure.map (.imagePull r.text)
  | .listContainers name, .error e => some (.resolution name e)
  | .listContainers name, .ok ls =>
    if 1 < ls.length then some (.ambiguous name ls.length) else none
  | .createContainer spec, a => (Reply.failure? a).map (.containerCreate spec.name)
  | .startContainer id, a => (Reply.failure? a).map (.containerStart id)
  | .removeContainer id, a => (Reply.failure? a).map (.containerRemove id)
  | .uploadArchive .., a => (Reply.failure? a).map fun e =>
    .fileStage s.containerName (j.source config) (j.dest s) (.transfer e)
  | .inspectContainer _, a => (Reply.failure? a).map fun e => .exec s.containerName (.inspect e)
  | .createExec .., .error e => some (.exec s.containerName (.create e))
  | .createExec .., .ok session =>
    if session = "" then some (.exec s.containerName .emptySessionId) else none
  | .startExec .., .error e => some (.exec s.containerName (.start e))
  | .startExec .., .ok feed => feed.failure.map fun e => .exec s.containerName (.output e)

/-- The error that a move at this juncture is blamed for, if something is wrong with it. -/
def Move.blame? : Move → Option ProvisionError
  | .call c a => c.blame? s config j a
  | .question _ (.ok _) => none
  | .question q (.error e) =>
    if s.prompt.tolerates e then none else q.decision?.map fun d => .confirmation d e
  | .write _ (.error e) | .flush (.error e) =>
    some (if j.relaying then .exec s.containerName (.write e) else .output e)
  | .write _ (.ok _) | .flush (.ok _) | .takeStdin _ | .setClock _ => none

end Table

def Move.isOutput : Move → Bool
  | .write .. | .flush _ => true
  | _ => false

def Move.isTaken : Move → Bool
  | .write _ (.ok _) | .flush (.ok _) => true
  | _ => false

/-- How many items came with a call. What they say may be shown after it. -/
def Move.items : Move → Nat
  | .call (.pullImage _) feed => Feed.items (α := Progress) feed |>.length
  | .call (.startExec ..) (.ok feed) => Feed.items (α := Bytes) feed |>.length
  | _ => 0

theorem Move.isOutput_of_isTaken {m : Move} (h : m.isTaken = true) : m.isOutput = true := by
  cases m with
  | write bs r | flush r => rfl
  | _ => cases h

/-- A call that failed is blamed for an error that holds the failure. -/
theorem Call.blame?_of_failure? (s : Settings) (config : InitConfig) (j : Juncture) {c : Call}
    {a : c.Answer} {cause : DaemonError} (hc : c.mayFail = false) (h : c.failure? a = some cause) :
    ∃ e, c.blame? s config j a = some e ∧ e.daemonError? = some cause := by
  cases c with
  | ping | statPath => cases hc
  | startExec =>
    cases a with
    | error e =>
      cases h
      exact ⟨_, rfl, rfl⟩
    | ok feed =>
      rw [Call.blame?, show feed.failure = some cause from h]
      exact ⟨_, rfl, rfl⟩
  | pullImage r =>
    rw [Call.blame?, show Feed.failure a = some cause from h]
    exact ⟨_, rfl, rfl⟩
  | listContainers | createExec | _ =>
    cases a with
    | ok v => cases h
    | error e =>
      cases h
      exact ⟨_, rfl, rfl⟩

section Chronicles

variable (s : Settings) (config : InitConfig)

def Blameless (ms : List Move) : Prop := ∀ m ∈ ms, ∀ j, m.blame? s config j = none

/-- Output that is shown in `n` moves at most. It leads from one juncture to another, or the last of
it is to blame. -/
inductive Shows (f : ε → ProvisionError) (n : Nat) (j j' : Juncture) : Chronicle ε Unit
  | shown {ms : List Move} (h : ∀ m ∈ ms, m.isTaken = true) (hn : ms.length ≤ n)
    (hj : j.past ms = j') : Shows f n j j' ms (.ok ())
  | failed {ms : List Move} {m : Move} {e : ε} (h : ∀ m ∈ ms, m.isTaken = true)
    (hm : m.isOutput = true) (hn : (ms ++ [m]).length ≤ n)
    (he : m.blame? s config (j.past ms) = some (f e)) : Shows f n j j' (ms ++ [m]) (.error e)

/-- After a failure only what had come before it is shown, and that can fail too. -/
inductive Ends (f : ε → ProvisionError) (n : Nat) (j : Juncture) (blamed : ProvisionError) :
    Chronicle ε α
  | stop {ms : List Move} {e : ε} (h : ∀ m ∈ ms, m.isTaken = true) (hn : ms.length ≤ n)
    (he : f e = blamed) : Ends f n j blamed ms (.error e)
  | cutOff {ms : List Move} {m : Move} {e : ε} (h : ∀ m ∈ ms, m.isTaken = true)
    (hm : m.isOutput = true) (hn : (ms ++ [m]).length ≤ n)
    (he : m.blame? s config (j.past ms) = some (f e)) : Ends f n j blamed (ms ++ [m]) (.error e)

/-- How a part of a run comes out that starts at a juncture: it leads to another one, or one of its
moves is to blame, or nothing is wrong but the copy that was to be made. Its errors are seen as
those of the run by `f`. -/
inductive Told (f : ε → ProvisionError) (j : Juncture) (J : α → Juncture) : Chronicle ε α
  | fine {ms : List Move} {v : α} (h : Blameless s config ms) (hj : j.past ms = J v) :
    Told f j J ms (.ok v)
  | locally {ms : List Move} {e : ε} (h : Blameless s config ms) (he : (f e).isLocalCopy = true) :
    Told f j J ms (.error e)
  | blamed {before after : List Move} {m : Move} {e : ProvisionError} {r : Except ε α}
    (h : Blameless s config before) (hm : m.blame? s config (j.past before) = some e)
    (hr : Ends s config f m.items ((j.past before).next m) e after r) :
    Told f j J (before ++ m :: after) r

end Chronicles

variable {s : Settings} {config : InitConfig} {f : ε → ProvisionError} {j j' : Juncture}
  {n n' : Nat} {ms ns : List Move} {m : Move}

theorem Move.blame?_of_isTaken (h : m.isTaken = true) (j : Juncture) :
    m.blame? s config j = none := by
  cases m with
  | write bs r | flush r =>
    cases r with
    | ok => rfl
    | error e => cases h
  | _ => cases h

theorem blameless_of_isTaken (h : ∀ m ∈ ms, m.isTaken = true) : Blameless s config ms :=
  fun m hm => Move.blame?_of_isTaken (h m hm)

theorem blameless_nil : Blameless s config [] := List.forall_mem_nil _

theorem blameless_singleton : Blameless s config [m] ↔ ∀ j, m.blame? s config j = none :=
  List.forall_mem_singleton

theorem Blameless.append (h : Blameless s config ms) (h' : Blameless s config ns) :
    Blameless s config (ms ++ ns) := List.forall_mem_append.mpr ⟨h, h'⟩

theorem Ends.recast {blamed : ProvisionError} {e : ε}
    (h : Ends s config f n j blamed ms (.error e : Except ε α)) :
    Ends s config f n j blamed ms (.error e : Except ε β) := by
  cases h with
  | stop ht hn he => exact .stop ht hn he
  | cutOff ht hm hn he => exact .cutOff ht hm hn he

theorem Ends.mapError {g : ε → ε'} {f : ε' → ProvisionError} {blamed : ProvisionError}
    {r : Except ε α} (h : Ends s config (fun e => f (g e)) n j blamed ms r) :
    Ends s config f n j blamed ms (r.mapError g) := by
  cases h with
  | stop ht hn he => exact .stop ht hn he
  | cutOff ht hm hn he => exact .cutOff ht hm hn he

theorem Told.recast {J : α → Juncture} {K : β → Juncture} {e : ε}
    (h : Told s config f j J ms (.error e)) : Told s config f j K ms (.error e) := by
  cases h with
  | locally hb he => exact .locally hb he
  | blamed hb hm hr => exact .blamed hb hm hr.recast

theorem Told.mapError {g : ε → ε'} {f : ε' → ProvisionError} {J : α → Juncture} {r : Except ε α}
    (h : Told s config (fun e => f (g e)) j J ms r) :
    Told s config f j J ms (r.mapError g) := by
  cases h with
  | fine hb hj => exact .fine hb hj
  | locally hb he => exact .locally hb he
  | blamed hb hm hr => exact .blamed hb hm hr.mapError

theorem Told.of_ok {J : α → Juncture} {v : α} (h : Told s config f j J ms (.ok v)) :
    Blameless s config ms ∧ j.past ms = J v := by
  cases h with
  | fine hb hj => exact ⟨hb, hj⟩
  | blamed hb hm hr => cases hr

theorem Told.alone {J : α → Juncture} {e : ε} (hm : m.blame? s config j = some (f e)) :
    Told s config f j J [m] (.error e) := by
  have hr : Ends s config f m.items (j.next m) (f e) [] (.error e : Except ε α) :=
    .stop (List.forall_mem_nil _) (Nat.zero_le _) rfl
  exact .blamed blameless_nil hm hr

theorem Told.prepend {J : α → Juncture} {r : Except ε α} (h : Blameless s config ms)
    (ht : Told s config f (j.past ms) J ns r) : Told s config f j J (ms ++ ns) r := by
  cases ht with
  | fine hb hj => exact .fine (h.append hb) (by rwa [Juncture.past_append])
  | locally hb he => exact .locally (h.append hb) he
  | blamed hb hm hr =>
    rw [← List.append_assoc]
    rw [← Juncture.past_append] at hm hr
    exact .blamed (h.append hb) hm hr

theorem Shows.alone {e : ε} (hm : m.isOutput = true) (he : m.blame? s config j = some (f e)) :
    Shows s config f 1 j j' [m] (.error e) := by
  have ht : ∀ m ∈ ([] : List Move), m.isTaken = true := List.forall_mem_nil _
  exact .failed ht hm (Nat.le_refl 1) he

theorem Shows.told {r : Except ε Unit} (h : Shows s config f n j j' ms r) :
    Told s config f j (fun _ => j') ms r := by
  cases h with
  | shown ht _ hj => exact .fine (blameless_of_isTaken ht) hj
  | failed ht _ _ he =>
    exact .blamed (blameless_of_isTaken ht) he (.stop (List.forall_mem_nil _) (Nat.zero_le _) rfl)

theorem Shows.prepend {k : Juncture} {r : Except ε Unit} (h : ∀ m ∈ ms, m.isTaken = true)
    (hn : ms.length ≤ n) (hj : j.past ms = k) (hs : Shows s config f n' k j' ns r) :
    Shows s config f (n + n') j j' (ms ++ ns) r := by
  subst hj
  have le {l : List Move} (hl : l.length ≤ n') : (ms ++ l).length ≤ n + n' := by
    rw [List.length_append]
    exact Nat.add_le_add hn hl
  cases hs with
  | shown ht hn' hj =>
    exact .shown (List.forall_mem_append.mpr ⟨h, ht⟩) (le hn') (by rwa [Juncture.past_append])
  | failed ht hm hn' he =>
    have hn'' := le hn'
    rw [← List.append_assoc] at hn'' ⊢
    rw [← Juncture.past_append] at he
    exact .failed (List.forall_mem_append.mpr ⟨h, ht⟩) hm hn'' he

theorem Ends.taken {blamed : ProvisionError} {r : Except ε α}
    (h : Ends s config f n j blamed ms r) (ht : ∀ m ∈ ms, m.isTaken = true) :
    ∃ e, r = .error e ∧ f e = blamed := by
  cases h with
  | stop _ _ he => exact ⟨_, rfl, he⟩
  | cutOff _ _ _ he =>
    have hm := ht _ (List.mem_append_right _ List.mem_cons_self)
    rw [Move.blame?_of_isTaken hm] at he
    cases he

theorem Ends.isOutput {blamed : ProvisionError} {r : Except ε α}
    (h : Ends s config f n j blamed ms r) (m : Move) (hm : m ∈ ms) : m.isOutput = true := by
  cases h with
  | stop ht => exact Move.isOutput_of_isTaken (ht m hm)
  | cutOff ht ho =>
    rcases List.mem_append.mp hm with hm | hm
    · exact Move.isOutput_of_isTaken (ht m hm)
    · exact List.mem_singleton.mp hm ▸ ho

theorem Ends.length_le {blamed : ProvisionError} {r : Except ε α}
    (h : Ends s config f n j blamed ms r) : ms.length ≤ n := by
  cases h with
  | stop _ hn => exact hn
  | cutOff _ _ hn => exact hn

/-- A failure among what is shown at the end is the last of it. -/
theorem Ends.place {blamed e : ProvisionError} {r : Except ε α} {u v : List Move}
    (h : Ends s config f n j blamed (u ++ m :: v) r)
    (hm : m.blame? s config (j.past u) = some e) : v = [] ∧ ∃ e', r = .error e' ∧ f e' = e := by
  have hn {w : List Move} (hw : ∀ n ∈ w, n.isTaken = true) : m ∉ w := fun h => by
    rw [Move.blame?_of_isTaken (hw m h)] at hm
    cases hm
  generalize hms : u ++ m :: v = ms at h
  cases h with
  | stop ht => exact absurd (hms ▸ List.mem_append_right u List.mem_cons_self) (hn ht)
  | cutOff ht _ _ he =>
    obtain ⟨rfl, rfl, rfl⟩ :=
      (List.append_cons_inj_of_notMem (hn ht) List.not_mem_nil).mp hms.symm
    exact ⟨rfl, _, rfl, Option.some.inj (he.symm.trans hm)⟩

/-- A failure on the way ends the part, but for what is shown of what had come before. -/
theorem Told.place {J : α → Juncture} {r : Except ε α} {u v : List Move} {e : ProvisionError}
    (h : Told s config f j J (u ++ m :: v) r) (hm : m.blame? s config (j.past u) = some e) :
    Ends s config f m.items ((j.past u).next m) e v r := by
  have hn {w : List Move} (hw : Blameless s config w) : m ∉ w := fun h => by
    rw [hw m h] at hm
    cases hm
  generalize hms : u ++ m :: v = ms at h
  cases h with
  | fine hb | locally hb => exact absurd (hms ▸ List.mem_append_right u List.mem_cons_self) (hn hb)
  | @blamed before after m' e' _ hb hm' hr =>
    -- The move is not in front of the one to blame. It is that one or comes behind it.
    obtain ⟨w, rfl, hw⟩ | ⟨w, rfl, hw⟩ := List.append_eq_append_iff.mp hms
    · cases w with
      | cons n w =>
        obtain ⟨rfl, -⟩ := List.cons.inj hw
        exact absurd (List.mem_append_right u List.mem_cons_self) (hn hb)
      | nil =>
        obtain ⟨rfl, rfl⟩ := List.cons.inj hw
        rw [List.append_nil] at hm'
        obtain rfl : e' = e := Option.some.inj (hm'.symm.trans hm)
        rwa [List.append_nil] at hr
    · cases w with
      | nil =>
        obtain ⟨rfl, rfl⟩ := List.cons.inj hw
        rw [List.append_nil] at hm ⊢
        obtain rfl : e' = e := Option.some.inj (hm'.symm.trans hm)
        exact hr
      | cons n w =>
        obtain ⟨rfl, rfl⟩ := List.cons.inj hw
        rw [Juncture.past_append] at hm
        obtain ⟨rfl, e'', rfl, he⟩ := hr.place hm
        exact .stop (List.forall_mem_nil _) (Nat.zero_le _) he

/-- What a part ends with was to blame, unless it is the copy that was to be made. -/
theorem Told.culprit {J : α → Juncture} {e : ε} (h : Told s config f j J ms (.error e)) :
    (f e).isLocalCopy = true ∨ ∃ u m v, ms = u ++ m :: v ∧
      m.blame? s config (j.past u) = some (f e) ∧ ∀ n ∈ v, n.isTaken = true := by
  cases h with
  | locally _ he => exact .inl he
  | @blamed before after m _ _ hb hm hr =>
    right
    cases hr with
    | stop ht _ he => exact ⟨before, m, after, rfl, he ▸ hm, ht⟩
    | @cutOff ms n _ ht _ _ he =>
      refine ⟨before ++ m :: ms, n, [], by simp, ?_, List.forall_mem_nil _⟩
      rwa [Juncture.past_append]

namespace Site

variable {site : Site δ κ}

def Tells (site : Site δ κ) (config : InitConfig) (f : ε → ProvisionError) (j : Juncture)
    (J : α → Juncture) (a : Run δ κ ε α) : Prop :=
  site.Makes a (Told site.settings config f j J)

variable {J : α → Juncture} {K : β → Juncture} {a : Run δ κ ε α}

theorem tells_pure {v : α} (h : j = J v) : site.Tells config f j J (pure v) :=
  makes_pure (.fine blameless_nil h)

theorem tells_throw {e : ε} (h : (f e).isLocalCopy = true) :
    site.Tells config f j J (throw e) :=
  makes_throw (.locally blameless_nil h)

theorem tells_lift {r : Except ε α} {k : α → Run δ κ ε β}
    (he : ∀ e, r = .error e → (f e).isLocalCopy = true)
    (hk : ∀ v, site.Tells config f j K (k v)) : site.Tells config f j K (liftM r >>= k) := by
  cases r with
  | error e => exact makes_still (fun _ => rfl) (.locally blameless_nil (he e rfl))
  | ok v => exact hk v

theorem Tells.bind {k : α → Run δ κ ε β} (ha : site.Tells config f j J a)
    (hk : ∀ v, site.Tells config f (J v) K (k v)) : site.Tells config f j K (a >>= k) := by
  refine Makes.bind ha (fun ms v h => ?_) fun ms e => Told.recast
  obtain ⟨hb, hj⟩ := h.of_ok
  exact (hk v).mono fun ns r h => Told.prepend hb (by rwa [hj])

theorem Tells.orFail {g : ε → ε'} {f : ε' → ProvisionError}
    (h : site.Tells config (fun e => f (g e)) j J a) : site.Tells config f j J (a.orFail g) :=
  Makes.orFail (h.mono fun _ _ => Told.mapError)

theorem Tells.behind (hm : ∀ j, m.blame? site.settings config j = none)
    (h : site.Tells config f (j.next m) J a) :
    site.Makes a fun ms r => Told site.settings config f j J (m :: ms) r :=
  have hb : Blameless site.settings config [m] := blameless_singleton.mpr hm
  Makes.mono h fun _ _ => Told.prepend hb

theorem makes_throw_behind {e : ε} (hm : m.blame? site.settings config j = some (f e)) :
    site.Makes (throw e : Run δ κ ε α) fun ms r =>
      Told site.settings config f j J (m :: ms) r :=
  makes_throw (.alone hm)

theorem Makes.behindBlamed {e : ProvisionError}
    (hm : m.blame? site.settings config j = some e)
    (h : site.Makes a (Ends site.settings config f m.items (j.next m) e)) :
    site.Makes a fun ms r => Told site.settings config f j J (m :: ms) r :=
  h.mono fun _ _ => Told.blamed blameless_nil hm

theorem tells_demand {a : Run δ κ ε (Reply α)} {move : Reply α → Move} {k : α → Run δ κ ε β}
    {g : DaemonError → ε}
    (ha : site.Makes a fun ms r => ∃ reply, ms = [move reply] ∧ r = .ok reply)
    (he : ∀ e, (move (.error e)).blame? site.settings config j = some (f (g e)))
    (hk : ∀ v, site.Makes (k v) fun ms r =>
      Told site.settings config f j K (move (.ok v) :: ms) r) :
    site.Tells config f j K (a >>= fun reply => demand reply g >>= k) := by
  refine Makes.bind ha ?_ ?_
  · rintro ms reply ⟨_, rfl, h⟩
    cases h
    cases reply with
    | ok v => exact hk v
    | error e =>
      exact makes_still (r := .error (g e)) (fun _ => rfl) (.alone (he e))
  · rintro ms e ⟨_, -, h⟩
    cases h

theorem write_shows {bs : Bytes} {g : IoError → ε}
    (h : ∀ e, (Move.write bs (.error e)).blame? site.settings config j = some (f (g e))) :
    site.Makes ((site.write bs).orFail g) (Shows site.settings config f 1 j j) := by
  refine .orFail (makes_of_step fun s => ⟨_, .write bs s, ?_⟩)
  change Shows _ _ _ _ _ _ _ ((site.console.write bs s.console).1.mapError g)
  rcases (site.console.write bs s.console).1 with e | _
  · exact .alone rfl (h e)
  · exact .shown (List.forall_mem_singleton.mpr rfl) (Nat.le_refl 1) rfl

theorem flush_shows {g : IoError → ε}
    (h : ∀ e, (Move.flush (.error e)).blame? site.settings config j = some (f (g e))) :
    site.Makes (site.flush.orFail g)
      (Shows site.settings config f 1 j { j with relaying := false }) := by
  refine .orFail (makes_of_step fun s => ⟨_, .flush s, ?_⟩)
  change Shows _ _ _ _ _ _ _ ((site.console.flush s.console).1.mapError g)
  rcases (site.console.flush s.console).1 with e | _
  · exact .alone rfl (h e)
  · exact .shown (List.forall_mem_singleton.mpr rfl) (Nat.le_refl 1) rfl

theorem Makes.thenShow {a b : Run δ κ ε Unit} {k : Juncture}
    (ha : site.Makes a (Shows site.settings config f n j k))
    (hb : site.Makes b (Shows site.settings config f n' k j')) :
    site.Makes (a >>= fun _ => b) (Shows site.settings config f (n + n') j j') := by
  refine Makes.bind ha (fun ms v h => ?_) fun ms e h => ?_
  · cases h with
    | shown ht hn hj => exact hb.mono fun ns r => Shows.prepend ht hn hj
  · cases h with
    | failed ht hm hn he => exact .failed ht hm (Nat.le_add_right_of_le hn) he

/-- What had come before a failure is shown, and then that is reported. -/
theorem Makes.thenEnd {a : Run δ κ ε Unit} {e : ε} (hn : n ≤ n')
    (ha : site.Makes a (Shows site.settings config f n j j')) :
    site.Makes (a >>= fun _ => (throw e : Run δ κ ε α))
      (Ends site.settings config f n' j (f e)) := by
  refine Makes.bind ha (fun ms v h => ?_) fun ms e h => ?_
  · cases h with
    | shown ht hs =>
      refine makes_throw ?_
      rw [List.append_nil]
      exact .stop ht (Nat.le_trans hs hn) rfl
  · cases h with
    | failed ht hm hs he => exact .cutOff ht hm (Nat.le_trans hs hn) he

theorem Makes.tells {a : Run δ κ ε Unit}
    (ha : site.Makes a (Shows site.settings config f n j j')) :
    site.Tells config f j (fun _ => j') a :=
  ha.mono fun _ _ => Shows.told

end Site

end Provisioner
