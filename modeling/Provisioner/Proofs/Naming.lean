import Provisioner.Proofs.Edits
import Provisioner.Proofs.Landing
import Provisioner.Proofs.Records

namespace Provisioner

namespace Tar

/-- An archive of one thing: its first entry has this name, and all the others are below it. -/
def Holds (name : String) (a : Archive) : Prop :=
  a.head?.map (·.name) = some [name] ∧ ∀ e ∈ a, e.name.head? = some name

theorem entryName_cons {name : String} (hn : name ≠ ".") (ns : List String) :
    entryName (name :: ns) = name :: ns := by
  unfold entryName
  split
  · rename_i h
    cases h
    exact absurd rfl hn
  · rfl

mutual

theorem ofNode_below {name : String} (hn : name ≠ ".") (ns : List String) (node : Files.Node) :
    ∀ e ∈ ofNode (name :: ns) node, e.name.head? = some name := by
  cases node with
  | file | link | device => simp [ofNode, entryName_cons hn]
  | dir mode es =>
    refine List.forall_mem_cons.mpr ⟨?_, ofEntries_below hn ns es⟩
    simp [entryName_cons hn]

theorem ofEntries_below {name : String} (hn : name ≠ ".") (ns : List String)
    (es : List (String × Files.Node)) :
    ∀ e ∈ ofEntries (name :: ns) es, e.name.head? = some name := by
  cases es with
  | nil => exact List.forall_mem_nil _
  | cons e es =>
    exact List.forall_mem_append.mpr
      ⟨ofNode_below hn (ns ++ [e.1]) e.2, ofEntries_below hn ns es⟩

end

theorem ofNode_holds {name : String} (hn : name ≠ ".") (node : Files.Node) :
    Holds name (ofNode [name] node) := by
  refine ⟨?_, ofNode_below hn [] node⟩
  cases node with
  | file | link | device | dir => simp [ofNode, entryName_cons hn]

end Tar

def Call.isExec : Call → Bool
  | .createExec .. => true
  | _ => false

/-- Bytes are uploaded as they came. This is all that is ever done with what is read from standard
input. -/
def Call.isStream : Call → Bool
  | .uploadArchive _ _ (.bytes _) => true
  | _ => false

theorem Call.isExec_of_furnishes (c : Call) (h : c.furnishes = false) : c.isExec = false := by
  cases c <;> first | rfl | cases h

theorem Call.isStream_of_furnishes (c : Call) (h : c.furnishes = false) : c.isStream = false := by
  cases c <;> first | rfl | cases h

namespace Site

variable {δ κ : Type} {site : Site δ κ}

/-- A place in a container is looked at and an archive is uploaded. If a directory is found there,
the archive goes into it and holds one thing, under the name that the path of the file ends in. -/
inductive Brings (id source dest : String) : Words Unit
  | bring (stat : Reply (Option PathStat)) (dir : String) (entries : Tar.Archive)
    (h : ∀ st, stat = .ok (some st) → st.kind = .directory →
      dir = dest ∧ ∃ name, Files.Path.fileName? source = some name ∧ Tar.Holds name entries) :
    Brings id source dest ()
      [.call (.statPath id dest) stat, .call (.uploadArchive id dir (.archive entries)) (.ok ())]

theorem copyPacked_streamless (id : String) (o : Copy.Origin) (plan : Copy.Plan) :
    site.Avoids Call.isStream (site.copyPacked id o plan) := by
  have hu (entries : Tar.Archive) :
      site.Avoids Call.isStream (site.upload id plan.extractDir (.archive entries)) :=
    (upload_granted id _ _).avoids fun _ _ h => h ▸ lacks_call.mpr ⟨rfl, lacks_nil _⟩
  refine (hu _).bind fun _ => ?_
  cases (Copy.pack site.host o plan.root).failure with
  | some e | none => exact avoids_still fun _ => rfl

section

variable {source : String} (hp : FilePath source)

include hp

theorem stage_streamless (id dest : String) :
    site.Avoids Call.isStream (site.stage id source dest) := by
  refine .lift fun resolved hr => ?_
  obtain ⟨path, _, rfl, -⟩ := Copy.resolved_filePath hp hr
  have hs : site.Avoids Call.isStream (site.statDestination id dest) :=
    (statDestination_keeps id dest).avoids fun _ _ ⟨_, h⟩ => h ▸ lacks_call.mpr ⟨rfl, lacks_nil _⟩
  exact hs.bind fun st => .lift fun origin _ => .lift fun plan _ =>
    copyPacked_streamless id origin plan

theorem stageFile_streamless (id what dest : String) :
    site.Avoids Call.isStream (site.stageFile id what source dest) :=
  (stage_streamless hp id dest).orFail.bind fun _ => avoids_shown (say_performs _)

theorem copyPath_brings (id dest : String) {path : String}
    (hr : Copy.Source.resolve site.host source = .ok (.path path)) (st : Option PathStat) :
    site.Yields (site.copyPath id path dest st) fun v w => ∀ stat, found stat = st →
      Brings id source dest v (.call (.statPath id dest) stat :: w) := by
  refine .lift fun origin ho => .lift fun plan hm => ?_
  refine (copyPacked_yields id origin plan).mono ?_
  rintro _ w ⟨hf, rfl⟩ stat rfl
  refine .bring stat _ _ ?_
  rintro st rfl hk
  obtain ⟨hd, name, node, hn, hname, -, -, he⟩ := Copy.filePath_inside hp hr ho hk hm hf
  exact ⟨hd, name, hn, he ▸ Tar.ofNode_holds hname.ne_dot node⟩

theorem stage_brings (id dest : String) :
    site.Yields (site.stage id source dest) (Brings id source dest) := by
  refine .lift fun resolved hr => ?_
  obtain ⟨path, _, rfl, -⟩ := Copy.resolved_filePath hp hr
  refine ((statDestination_yields id dest).seq fun st => copyPath_brings hp id dest hr st).mono ?_
  rintro _ w ⟨_, _, _, ⟨stat, rfl, rfl⟩, h, rfl⟩
  exact h stat rfl

theorem stageFile_brings (id what dest : String) :
    site.Yields (site.stageFile id what source dest) (Brings id source dest) := by
  refine ((stage_brings hp id dest).orFail.seq fun _ =>
    (keeps_shown (say_performs _)).yields).mono ?_
  rintro _ w ⟨_, w, _, h, rfl, rfl⟩
  rwa [List.append_nil]

end

inductive Briefs (site : Site δ κ) (config : InitConfig) : List Event → Event → Prop
  | brief {id : String} {copy : List Event} (before : List Event)
    (a : (Call.createExec id (execSpec site.settings config)).Answer)
    (h : Brings id config.inventory site.settings.inventoryDir () copy) :
    Briefs site config (before ++ (copy ++ [.call (.inspectContainer id) (.ok ())]))
      (.call (.createExec id (execSpec site.settings config)) a)

theorem Briefs.append_left {config : InitConfig} (w u : List Event) (x : Event)
    (h : site.Briefs config u x) : site.Briefs config (w ++ u) x := by
  cases h with
  | brief before a h =>
    rw [← List.append_assoc]
    exact .brief (w ++ before) a h

theorem runInit_once (id : String) (config : InitConfig) : site.MakesOnce Call.isExec
    (fun u x => u = [.call (.inspectContainer id) (.ok ())] ∧
      x.asked = .inl (.createExec id (execSpec site.settings config))) (site.runInit id config) := by
  intro s
  obtain ⟨ms, _, w, hm, hw, ha, -⟩ := (site.runInit_keeps id config).path s
  refine ⟨ms, hm, ?_⟩
  cases hw with
  | session session feed hs hf =>
    have ho : Once Call.isExec
        (fun u x => u = [.call (.inspectContainer id) (.ok ())] ∧
          x.asked = .inl (.createExec id (execSpec site.settings config)))
        [.call (.inspectContainer id) (.ok ()),
          .call (.createExec id (execSpec site.settings config)) (.ok session),
          .call (.startExec session true) (.ok feed)] :=
      .inr ⟨[_], _, [_], rfl, rfl, by simp [Call.isExec], by simp [Call.isExec], rfl, rfl⟩
    refine (ho.agrees ha).mono ?_
    rintro u x ⟨y, hy, hu, hx⟩
    exact ⟨hu, hy ▸ hx⟩

section

variable {config : InitConfig} (hk : FilePath config.sshKey) (hi : FilePath config.inventory)

include hi

theorem furnish_once (id : String) :
    site.MakesOnce Call.isExec (site.Briefs config) (site.furnish id config) := by
  have copied (what source dest : String) :
      site.Avoids Call.isExec (site.stageFile id what source dest) :=
    (stageFile_keeps id what source dest).avoids fun _ _ ⟨_, _, _⟩ => by simp [Call.isExec]
  refine (copied _ _ _).andOnce Briefs.append_left fun _ => ?_
  refine (copied _ _ _).once (stageFile_brings hi id _ _) fun _ => ?_
  refine ((runInit_once id config).mono ?_).orFail.andAvoid fun _ => avoids_shown (say_performs _)
  rintro _ x ⟨rfl, hx⟩ w hw
  obtain ⟨a, rfl⟩ := Event.eq_call hx
  exact .brief [] a hw

include hk

theorem furnish_streamless (id : String) :
    site.Avoids Call.isStream (site.furnish id config) := by
  have script : site.Avoids Call.isStream (site.runInit id config) :=
    (runInit_keeps id config).avoids fun _ _ ⟨_, _, _, _⟩ => by simp [Call.isStream]
  exact (stageFile_streamless hk id _ _).bind fun _ => (stageFile_streamless hi id _ _).bind fun _ =>
    script.orFail.bind fun _ => avoids_shown (say_performs _)

end

section

variable {config : InitConfig} (hk : FilePath config.sshKey) (hi : FilePath config.inventory)

include hi

theorem run_briefs : site.MakesOnce Call.isExec (site.Briefs config) (site.run config) := by
  have early {α : Type} {a : Run δ κ ProvisionError α} (h : site.Avoids Call.furnishes a) :
      site.Avoids Call.isExec a := h.mono Call.isExec_of_furnishes
  refine (early probe_avoids).andOnce Briefs.append_left fun _ => ?_
  refine (early (ensureImage_avoids _)).andOnce Briefs.append_left fun _ => ?_
  refine (early (resolve_avoids _)).andOnce Briefs.append_left fun found => ?_
  refine (early (reconcile_avoids _)).andOnce Briefs.append_left fun r => ?_
  cases r with
  | reuse id => exact Avoids.makesOnce (avoids_still fun _ => rfl)
  | fresh id => exact (furnish_once hi id).andAvoid fun _ => avoids_still fun _ => rfl

include hk

theorem run_streamless : site.Avoids Call.isStream (site.run config) := by
  have early {α : Type} {a : Run δ κ ProvisionError α} (h : site.Avoids Call.furnishes a) :
      site.Avoids Call.isStream a := h.mono Call.isStream_of_furnishes
  refine (early probe_avoids).bind fun _ => (early (ensureImage_avoids _)).bind fun _ =>
    (early (resolve_avoids _)).bind fun found => (early (reconcile_avoids _)).bind fun r => ?_
  cases r with
  | reuse id => exact avoids_still fun _ => rfl
  | fresh id => exact (furnish_streamless hk hi id).bind fun _ => avoids_still fun _ => rfl

end

/-- What the script is told is the name under which the inventory was uploaded into a directory, and
nothing that is uploaded comes from standard input, whatever the paths were entered as. -/
theorem script_names_inventory {es : List (Host × Edit)} {config : InitConfig}
    (hc : InitConfig.ofProperties (Properties.edited es) = .ok config) (s : Session δ κ) :
    (∀ source ∈ [config.sshKey, config.inventory],
        ∃ path, Copy.Source.resolve site.host source = .ok (.path path)) ∧
      ∃ t, ((site.run config).apply s).2.events = s.events ++ t ∧ Lacks Call.isStream t ∧
        ∀ u id spec a v, t = u ++ .call (.createExec id spec) a :: v →
          ∃ before stat dir entries,
            u = before ++ [.call (.statPath id site.settings.inventoryDir) stat,
              .call (.uploadArchive id dir (.archive entries)) (.ok ()),
              .call (.inspectContainer id) (.ok ())] ∧
            ∀ st, stat = .ok (some st) → st.kind = .directory →
              dir = site.settings.inventoryDir ∧
                ∃ name, Tar.Holds name entries ∧ spec.command[2]? = some ("-i " ++ name) := by
  obtain ⟨hk, hi⟩ := InitConfig.ofProperties_get hc
  have hv := Properties.edited_validated es
  have hk : FilePath config.sshKey := hv.filePath (p := .sshKey) nofun hk
  have hi : FilePath config.inventory := hv.filePath (p := .inventory) nofun hi
  have paths (source : String) (hp : FilePath source) :
      ∃ path, Copy.Source.resolve site.host source = .ok (.path path) := by
    obtain ⟨path, _, hr, -⟩ := Copy.resolve_filePath hp site.host
    exact ⟨path, hr⟩
  obtain ⟨t, he, hl, ho⟩ := ((run_streamless hk hi).also (run_briefs hi)).events s
  refine ⟨by simp [paths, hk, hi], t, he, hl, fun u id spec a v ht => ?_⟩
  obtain ⟨-, -, hb⟩ := (ht ▸ ho).place rfl
  cases hb with
  | brief before a h =>
    cases h with
    | bring stat dir entries h =>
      refine ⟨before, stat, dir, entries, rfl, fun st hst hd => ?_⟩
      obtain ⟨hdir, name, hn, he⟩ := h st hst hd
      have hf : config.inventoryFileName = name := by
        rw [InitConfig.inventoryFileName, hn, Option.getD_some]
      exact ⟨hdir, name, he, congrArg (fun n => some ("-i " ++ n)) hf⟩

/-- A file is read, and then both paths are entered. -/
def rehearsalEdits : List (Host × Edit) :=
  [(rehearsal.host, .parse "proxy_ip_address_prefix: 10.*"),
    (rehearsal.host, .insert "ssh_key_path_on_host" "/./key"),
    (rehearsal.host, .insert "ansible_inventory_path_on_host" "inventory")]

def rehearsalExpected : Session Rehearsal.Script (TerminalOn Unit) where
  daemon := { stats := [(rehearsal.settings.inventoryDir, .ok .directory)] }
  console := ⟨[], ()⟩

theorem rehearsal_names_inventory :
    InitConfig.ofProperties (Properties.edited rehearsalEdits) = .ok rehearsalConfig ∧
      Files.Path.join rehearsal.settings.inventoryDir "inventory" ∈
        landings ((rehearsal.run rehearsalConfig).apply rehearsalExpected).2.events ∧
      ∃ u id spec a v,
        ((rehearsal.run rehearsalConfig).apply rehearsalExpected).2.events =
          u ++ .call (.createExec id spec) a :: v ∧
        ∃ before stat dir entries,
          u = before ++ [.call (.statPath id rehearsal.settings.inventoryDir) stat,
            .call (.uploadArchive id dir (.archive entries)) (.ok ()),
            .call (.inspectContainer id) (.ok ())] ∧
          ∀ st, stat = .ok (some st) → st.kind = .directory →
            dir = rehearsal.settings.inventoryDir ∧
              ∃ name, Tar.Holds name entries ∧ spec.command[2]? = some ("-i " ++ name) := by
  have hc : InitConfig.ofProperties (Properties.edited rehearsalEdits) = .ok rehearsalConfig := by
    decide +kernel
  have hr : ¬Lacks Call.isExec
      ((rehearsal.run rehearsalConfig).apply rehearsalExpected).2.events := by decide +kernel
  obtain ⟨-, t, ht, -, hs⟩ := script_names_inventory hc rehearsalExpected
  obtain ⟨u, c, a, v, h, hx⟩ := exists_call hr
  cases c with
  | createExec id spec =>
    exact ⟨hc, by decide +kernel, u, id, spec, a, v, h, hs u id spec a v (ht.symm.trans h)⟩
  | _ => cases hx

end Site

end Provisioner
