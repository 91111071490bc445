import Provisioner.Proofs.Ambiguity
import Provisioner.Proofs.Removal

namespace Provisioner

variable {δ κ : Type}

def Daemon.after (daemon : Daemon δ) (d : δ) : List Event → δ
  | [] => d
  | .call c _ :: t => daemon.after (daemon.answer c d).2 t
  | .question _ _ :: t => daemon.after d t

def Daemon.Gave (daemon : Daemon δ) (d : δ) : List Event → Prop
  | [] => True
  | .call c a :: t => (daemon.answer c d).1 = a ∧ daemon.Gave (daemon.answer c d).2 t
  | .question _ _ :: t => daemon.Gave d t

def marked (id : String) (t : List ContainerListing) : List ContainerListing :=
  t.map fun l => if l.id = id then { l with state := "running" } else l

/-- What a call may do to the table of the containers of this name. One that fails does nothing, and
an entry is added under an id that is new. -/
def Reflects (name : String) :
    (c : Call) → c.Answer → List ContainerListing → List ContainerListing → Prop
  | .listContainers n, .ok ls, t, t' => t' = t ∧ (n = name → ls = t)
  | .createContainer spec, .ok id, t, t' =>
    if spec.name = name then
      ∃ state, (⟨id, state⟩ : ContainerListing).isRunning = false ∧ (∀ l ∈ t, l.id ≠ id) ∧
        t' = t ++ [⟨id, state⟩]
    else t' = t
  | .startContainer id, .ok _, t, t' => t' = marked id t
  | .removeContainer id, .ok _, t, t' => t' = t.filter (·.id != id)
  | _, _, t, t' => t' = t

theorem Reflects.eq {name : String} {c : Call} {a : c.Answer} {t t' : List ContainerListing}
    (h : Reflects name c a t t') (hc : c.changes = false) : t' = t := by
  cases c with
  | createContainer | startContainer | removeContainer => cases hc
  | listContainers n =>
    cases a with
    | ok ls => exact h.1
    | error e => exact h
  | _ => exact h

theorem Reflects.length_le {name : String} {c : Call} {a : c.Answer} {t t' : List ContainerListing}
    (h : Reflects name c a t t') (hc : c.isCreation = false) : t'.length ≤ t.length := by
  cases c with
  | createContainer spec => cases hc
  | startContainer id =>
    cases a with
    | ok =>
      obtain rfl : t' = marked id t := h
      exact Nat.le_of_eq (List.length_map _)
    | error e => exact Nat.le_of_eq (congrArg List.length h)
  | removeContainer id =>
    cases a with
    | ok =>
      obtain rfl : t' = t.filter (·.id != id) := h
      exact List.length_filter_le _ t
    | error e => exact Nat.le_of_eq (congrArg List.length h)
  | _ => exact Nat.le_of_eq (congrArg List.length (h.eq rfl))

def Daemon.HasTable (daemon : Daemon δ) (name : String) (table : δ → List ContainerListing) :
    Prop :=
  ∀ c d, Reflects name c (daemon.answer c d).1 (table d) (table (daemon.answer c d).2)

section

variable {daemon : Daemon δ} {d : δ} {t u : List Event}

theorem Daemon.after_append : daemon.after d (t ++ u) = daemon.after (daemon.after d t) u := by
  induction t generalizing d with
  | nil => rfl
  | cons x t ih =>
    cases x with
    | call | question => exact ih

theorem Daemon.gave_append :
    daemon.Gave d (t ++ u) ↔ daemon.Gave d t ∧ daemon.Gave (daemon.after d t) u := by
  induction t generalizing d with
  | nil => exact (and_iff_right trivial).symm
  | cons x t ih =>
    cases x with
    | call c a => exact (and_congr_right fun _ => ih).trans and_assoc.symm
    | question => exact ih

theorem Site.Path.gave {site : Site δ κ} {s s' : Session δ κ} {ms : List Move}
    (h : site.Path s ms s') :
    site.daemon.Gave s.daemon (recorded (incidents ms)) ∧
      s'.daemon = site.daemon.after s.daemon (recorded (incidents ms)) := by
  induction h with
  | nil s => exact ⟨trivial, rfl⟩
  | cons hm _ ih =>
    cases hm with
    | call => exact ⟨⟨rfl, ih.1⟩, ih.2⟩
    | question | takeStdin | setClock => exact ih
    | write =>
      rw [recorded_write]
      exact ih
    | flush =>
      rw [recorded_flush]
      exact ih

variable {name : String} {table : δ → List ContainerListing}

theorem Daemon.HasTable.length_le (hd : daemon.HasTable name table)
    (h : Lacks Call.isCreation t) (hg : daemon.Gave d t) :
    (table (daemon.after d t)).length ≤ (table d).length := by
  induction t generalizing d with
  | nil => exact Nat.le_refl _
  | cons x t ih =>
    cases x with
    | call c a =>
      obtain ⟨hc, h⟩ := lacks_call.mp h
      exact Nat.le_trans (ih h hg.2) ((hd c d).length_le hc)
    | question q a => exact ih (lacks_question.mp h) hg

theorem Daemon.HasTable.quiet (hd : daemon.HasTable name table) (h : Lacks Call.changes t)
    (hg : daemon.Gave d t) : table (daemon.after d t) = table d := by
  induction t generalizing d with
  | nil => rfl
  | cons x t ih =>
    cases x with
    | call c a =>
      obtain ⟨hc, h⟩ := lacks_call.mp h
      exact (ih h hg.2).trans ((hd c d).eq hc)
    | question q a => exact ih (lacks_question.mp h) hg

/-- An entry is added to an empty table, and so it is the only one. -/
theorem Daemon.HasTable.create_length_le (hd : daemon.HasTable name table) (spec : ContainerSpec)
    (h : table d = []) : (table (daemon.answer (.createContainer spec) d).2).length ≤ 1 := by
  have hr := hd (.createContainer spec) d
  rw [h] at hr
  generalize (daemon.answer (.createContainer spec) d).1 = a at hr
  cases a with
  | error e =>
    rw [show table _ = [] from hr]
    exact Nat.zero_le _
  | ok id =>
    simp only [Reflects] at hr
    split at hr
    · obtain ⟨state, -, -, ht⟩ := hr
      rw [ht]
      exact Nat.le_refl _
    · rw [hr]
      exact Nat.zero_le _

/-- If something is created only once the table is empty, there is never a second entry. -/
theorem Daemon.HasTable.once_le (hd : daemon.HasTable name table)
    (ht : Once Call.isCreation (fun u _ => daemon.Gave d u → table (daemon.after d u) = []) t)
    (hg : daemon.Gave d t) (h : (table d).length ≤ 1) (hu : u <+: t) :
    (table (daemon.after d u)).length ≤ 1 := by
  obtain hl | ⟨v, x, w, rfl, hx, hv, hw, he⟩ := ht
  · obtain ⟨w, rfl⟩ := hu
    have hle := hd.length_le (lacks_append.mp hl).1 (Daemon.gave_append.mp hg).1
    exact Nat.le_trans hle h
  · obtain ⟨hgv, hgx⟩ := Daemon.gave_append.mp hg
    -- Up to the creation the table only gets shorter. By then it is empty, and one is added.
    rcases List.prefix_or_prefix_of_prefix hu (List.prefix_append v (x :: w)) with
      ⟨k, rfl⟩ | ⟨k, rfl⟩
    · have hle := hd.length_le (lacks_append.mp hv).1 (Daemon.gave_append.mp hgv).1
      exact Nat.le_trans hle h
    · rw [List.prefix_append_right_inj] at hu
      rw [Daemon.after_append]
      have he := he hgv
      cases k with
      | nil => exact Nat.le_trans (Nat.le_of_eq (congrArg List.length he)) (Nat.zero_le 1)
      | cons z k =>
        obtain ⟨rfl, k', rfl⟩ := List.cons_prefix_cons.mp hu
        cases z with
        | question => cases hx
        | call c a =>
          obtain ⟨spec, rfl⟩ := Call.eq_create hx
          have hk := hd.length_le (lacks_append.mp hw).1 (Daemon.gave_append.mp hgx.2).1
          exact Nat.le_trans hk (hd.create_length_le spec he)

theorem Daemon.HasTable.listed (hd : daemon.HasTable name table) {ls : List ContainerListing}
    (hg : daemon.Gave d (.call (.listContainers name) (.ok ls) :: t)) :
    table d = ls ∧ table (daemon.answer (.listContainers name) d).2 = ls := by
  have hr := hd (.listContainers name) d
  rw [hg.1] at hr
  obtain ⟨ht, hl⟩ := hr
  exact ⟨(hl rfl).symm, ht.trans (hl rfl).symm⟩

end

namespace Site

variable {site : Site δ κ} {config : InitConfig} {w : List Event}

inductive Clears (site : Site δ κ) : List ContainerListing → List Event → Prop
  | none : Clears site [] []
  | removed (l : ContainerListing) {w : List Event} (h : site.DecidesRemoval true w) :
    Clears site [l] (w ++ [.call (.removeContainer l.id) (.ok ())])

theorem Clears.table {name : String} {table : δ → List ContainerListing} {d : δ}
    {ls : List ContainerListing} (h : site.Clears ls w) (hd : site.daemon.HasTable name table)
    (ht : table d = ls) (hg : site.daemon.Gave d w) : table (site.daemon.after d w) = [] := by
  cases h with
  | none => exact ht
  | removed l h =>
    cases h with
    | condemned hf =>
      -- Questions leave the daemon alone, so the table is still what was listed.
      obtain ⟨hr, -⟩ : (site.daemon.answer (.removeContainer l.id) d).1 = .ok () ∧ True := hg
      have ht' := hd (.removeContainer l.id) d
      rw [hr, ht] at ht'
      refine Eq.trans ht' ?_
      simp

/-- Up to a container that is ready one is created at most, and only once none is left. -/
theorem Readies.creation {ls : List ContainerListing} {r : Ready} (h : site.Readies ls r w) :
    Once Call.isCreation (fun u _ => site.Clears ls u) w := by
  cases h with
  | keep l h hw => exact .inl (hw.lacks _)
  | start l h => exact .inl (by simp [Call.isCreation])
  | create new =>
    refine .inr ⟨[], _, _, rfl, rfl, lacks_nil _, ?_, .none⟩
    simp [Call.isCreation]
  | recreate l h hw new =>
    refine .inr ⟨_, _, _, (List.append_assoc _ [_] _).symm, rfl, ?_, ?_, .removed l hw⟩
    · refine lacks_append.mpr ⟨hw.lacks _, ?_⟩
      simp [Call.isCreation]
    · simp [Call.isCreation]

variable {table : δ → List ContainerListing}

/-- One run. At a creation the table is empty, and apart from that it does not grow. -/
theorem run_table (hd : site.daemon.HasTable site.settings.containerName table)
    (config : InitConfig) (s : Session δ κ) (h : (table s.daemon).length ≤ 1) :
    ∃ t, ((site.run config).apply s).2.events = s.events ++ t ∧
      ((site.run config).apply s).2.daemon = site.daemon.after s.daemon t ∧
      site.daemon.Gave s.daemon t ∧
      ∀ u, u <+: t → (table (site.daemon.after s.daemon u)).length ≤ 1 := by
  obtain ⟨ms, hp, ho⟩ := run_once Call.isCreation_of_changes Readies.creation config s
  obtain ⟨hg, ht⟩ := hp.gave
  refine ⟨_, hp.events, ht, hg, fun u hu => hd.once_le (ho.mono ?_) hg h hu⟩
  rintro _ x ⟨start, ls, clear, y, -, rfl, -, hc⟩ hb
  obtain ⟨-, hgl⟩ := Daemon.gave_append.mp hb
  rw [Daemon.after_append]
  exact hc.table hd (hd.listed hgl).2 hgl.2

theorem run_unambiguous (hd : site.daemon.HasTable site.settings.containerName table)
    (config : InitConfig) (s : Session δ κ) (h : (table s.daemon).length ≤ 1) (n : String)
    (k : Nat) : ((site.run config).apply s).1 ≠ .error (.ambiguous n k) := by
  intro hr
  obtain ⟨t, ht, -, hg, hle⟩ := run_table hd config s h
  obtain ⟨ms, hp, ha⟩ := run_clear config s
  obtain ⟨ls, hl, hm⟩ := ha n k hr
  rw [List.append_cancel_left (hp.events.symm.trans ht)] at hm
  obtain ⟨u, v, rfl⟩ := List.append_of_mem hm
  have hu := hle u (List.prefix_append u _)
  rw [(hd.listed (Daemon.gave_append.mp hg).2).1] at hu
  exact absurd hu (Nat.not_le.mpr hl)

end Site

/-- A run to come: whatever a run depends on, apart from what the daemon does by then. -/
structure Visit (daemon : Daemon δ) (name : String) where
  κ : Type
  console : Console κ
  host : Host
  settings : Settings
  named : settings.containerName = name
  config : InitConfig
  seat : κ
  stdin : Bytes
  clock : Clock

namespace Visit

variable {daemon : Daemon δ} {name : String}

def site (v : Visit daemon name) : Site δ v.κ := ⟨daemon, v.console, v.host, v.settings⟩

/-- The run, with the daemon as the runs before have left it. -/
def run (v : Visit daemon name) (d : δ) : Except ProvisionError Outcome × Session δ v.κ :=
  (v.site.run v.config).apply ⟨d, v.seat, v.stdin, v.clock, []⟩

def leave (d : δ) (v : Visit daemon name) : δ := (v.run d).2.daemon

end Visit

section

variable {daemon : Daemon δ} {name : String} {table : δ → List ContainerListing}

theorem Visit.table_le (hd : daemon.HasTable name table) {d : δ} (h : (table d).length ≤ 1)
    (v : Visit daemon name) :
    v.leave d = daemon.after d (v.run d).2.events ∧
      ∀ u, u <+: (v.run d).2.events → (table (daemon.after d u)).length ≤ 1 := by
  have hs : v.site.daemon.HasTable v.site.settings.containerName table := by
    rw [show v.site.settings.containerName = name from v.named]
    exact hd
  obtain ⟨t, ht, hl, -, hu⟩ := Site.run_table hs v.config ⟨d, v.seat, v.stdin, v.clock, []⟩ h
  have he : (v.run d).2.events = t := ht
  rw [he]
  exact ⟨hl, hu⟩

theorem Visit.leave_le (hd : daemon.HasTable name table) {d : δ} (h : (table d).length ≤ 1)
    (before : List (Visit daemon name)) :
    (table (before.foldl (fun d v => v.leave d) d)).length ≤ 1 := by
  induction before generalizing d with
  | nil => exact h
  | cons v before ih =>
    obtain ⟨hl, hu⟩ := Visit.table_le hd h v
    have hv := hu _ (List.prefix_refl _)
    rw [← hl] at hv
    exact ih hv

/-- However often it is run, and wherever the runs end, there is never a second container of the
name. So no run finds several. -/
theorem Visit.table_stays_single (hd : daemon.HasTable name table) {d : δ}
    (h : (table d).length ≤ 1) (before : List (Visit daemon name)) (v : Visit daemon name) :
    let d' := before.foldl (fun d v => v.leave d) d
    v.leave d' = daemon.after d' (v.run d').2.events ∧
      (∀ u, u <+: (v.run d').2.events → (table (daemon.after d' u)).length ≤ 1) ∧
      ∀ n k, (v.run d').1 ≠ .error (.ambiguous n k) := by
  intro d'
  have hb : (table d').length ≤ 1 := Visit.leave_le hd h before
  obtain ⟨hl, hu⟩ := Visit.table_le hd hb v
  refine ⟨hl, hu, ?_⟩
  have hs : v.site.daemon.HasTable v.site.settings.containerName table := by
    rw [show v.site.settings.containerName = name from v.named]
    exact hd
  exact Site.run_unambiguous hs v.config ⟨d', v.seat, v.stdin, v.clock, []⟩ hb

end

namespace Rehearsal.Script

def unused (cs : List ContainerListing) : String :=
  .ofList ('c' :: (cs.map (·.id.toList)).flatten)

theorem unused_ne {cs : List ContainerListing} {l : ContainerListing} (h : l ∈ cs) :
    l.id ≠ unused cs := by
  intro hl
  have hm : l.id.toList ∈ cs.map (·.id.toList) := List.mem_map_of_mem h
  have hle := (List.sublist_flatten_of_mem hm).length_le
  rw [hl, unused, String.toList_ofList, List.length_cons] at hle
  exact Nat.not_succ_le_self _ hle

/-- The rehearsed daemon, whose containers all have the one name, with ids that are new. -/
def shelf (name : String) : Daemon Script where
  answer
    | .createContainer spec, s =>
      if spec.name = name then
        answer (.createContainer spec) { s with createdIds := [unused s.containers] }
      else (.ok "", s)
    | c, s => answer c s
  interrupted := interrupted

theorem shelf_hasTable (name : String) : (shelf name).HasTable name Script.containers := by
  intro c s
  cases c with
  | createContainer spec =>
    by_cases hn : spec.name = name
    · simp only [shelf, if_pos hn, answer, orMishap]
      cases s.mishaps.lookup .createContainer with
      | some m => rfl
      | none =>
        simp only [Reflects, if_pos hn]
        refine ⟨"created", ?_, fun l hl => unused_ne hl, rfl⟩
        simp only [ContainerListing.isRunning]
        decide +kernel
    · simp only [shelf, if_neg hn, Reflects]
  | listContainers n =>
    simp only [shelf, answer, orMishap]
    cases s.mishaps.lookup .listContainers with
    | some m => rfl
    | none => exact ⟨rfl, fun _ => rfl⟩
  | startContainer id =>
    simp only [shelf, answer, orMishap]
    cases s.mishaps.lookup .startContainer with
    | some m => rfl
    | none =>
      refine congrArg (fun f => s.containers.map f) (funext fun l => ?_)
      simp [started]
  | removeContainer id =>
    simp only [shelf, answer, orMishap]
    cases s.mishaps.lookup .removeContainer with
    | some m => rfl
    | none => rfl
  | ping =>
    simp only [shelf, answer, ping, countPing, Reflects]
    split <;> split <;> rfl
  | pullImage => rfl
  | _ =>
    simp only [shelf, answer, orMishap]
    split <;> rfl

end Rehearsal.Script

def Visit.rehearsed (lines : List Bytes) :
    Visit (Rehearsal.Script.shelf Site.rehearsal.settings.containerName)
      Site.rehearsal.settings.containerName where
  κ := TerminalOn Unit
  console := Site.rehearsal.console
  host := Site.rehearsal.host
  settings := Site.rehearsal.settings
  named := rfl
  config := Site.rehearsalConfig
  seat := ⟨lines, ()⟩
  stdin := []
  clock := {}

def Visit.rehearsalOpening : Rehearsal.Script where
  images := [⟨"image", []⟩]

theorem Visit.rehearsed_stays_single :
    let daemon := Rehearsal.Script.shelf Site.rehearsal.settings.containerName
    let d := (rehearsed []).leave rehearsalOpening
    let v := rehearsed [[110], [121]]
    d.containers.length = 1 ∧ ¬Lacks Call.isRemoval (v.run d).2.events ∧
      (v.leave d = daemon.after d (v.run d).2.events ∧
        (∀ u, u <+: (v.run d).2.events → (daemon.after d u).containers.length ≤ 1) ∧
        ∀ n k, (v.run d).1 ≠ .error (.ambiguous n k)) := by
  intro daemon d v
  have h : rehearsalOpening.containers.length ≤ 1 := Nat.zero_le 1
  have ht := Rehearsal.Script.shelf_hasTable Site.rehearsal.settings.containerName
  refine ⟨by decide +kernel, by decide +kernel, ?_⟩
  exact Visit.table_stays_single ht h [rehearsed []] v

end Provisioner
