import Provisioner.Proofs.Course
import Provisioner.Proofs.Plans
import Provisioner.Proofs.Removal

namespace Provisioner.Site

variable {δ κ : Type} {site : Site δ κ} {config : InitConfig}

/-- What a reply shows to be at a place. A failure to find out shows nothing. -/
def found : Reply (Option PathStat) → Option PathStat
  | .ok st => st
  | .error _ => none

/-- A file is looked for in a container and uploaded, and it lands. -/
inductive Stages (host : Host) (id source dest : String) : Words Unit
  | stage (stat : Reply (Option PathStat)) (dir : String) (entries : Tar.Archive)
    (h : Copy.Lands host source dest (found stat) dir entries) :
    Stages host id source dest ()
      [.call (.statPath id dest) stat, .call (.uploadArchive id dir (.archive entries)) (.ok ())]

theorem statDestination_yields (id dest : String) : site.Yields (site.statDestination id dest)
    fun st w => ∃ stat, st = found stat ∧ w = [.call (.statPath id dest) stat] := by
  refine ((call_yields (.statPath id dest)).seq (X := fun reply st w => st = found reply ∧ w = [])
    fun reply => ?_).mono ?_
  · cases reply with
    | ok st | error e => exact yields_pure ⟨rfl, rfl⟩
  · rintro st w ⟨reply, _, _, rfl, ⟨rfl, rfl⟩, rfl⟩
    exact ⟨reply, rfl, rfl⟩

theorem copyPacked_yields (id : String) (o : Copy.Origin) (plan : Copy.Plan) :
    site.Yields (site.copyPacked id o plan) fun _ w =>
      (Copy.pack site.host o plan.root).failure = none ∧
        w = [.call (.uploadArchive id plan.extractDir
          (.archive (Copy.pack site.host o plan.root).entries)) (.ok ())] := by
  refine ((upload_granted id _ _).yields.seq (X := fun _ _ w =>
    (Copy.pack site.host o plan.root).failure = none ∧ w = []) fun _ => ?_).mono ?_
  · cases (Copy.pack site.host o plan.root).failure with
    | some e => exact yields_throw _
    | none => exact yields_pure ⟨rfl, rfl⟩
  · rintro _ w ⟨_, _, _, rfl, ⟨hf, rfl⟩, rfl⟩
    exact ⟨hf, rfl⟩

section

variable {source dest : String} (hp : FilePath source)
  (ha : Files.Path.isAbsolute dest = true) (hd : Files.Path.endsWithSlash dest = false)

include hp ha hd

theorem copyPath_yields (id : String) {path : String}
    (hr : Copy.Source.resolve site.host source = .ok (.path path)) (st : Option PathStat) :
    site.Yields (site.copyPath id path dest st) fun _ w => ∃ dir entries,
      Copy.Lands site.host source dest st dir entries ∧
        w = [.call (.uploadArchive id dir (.archive entries)) (.ok ())] := by
  refine .lift fun origin ho => .lift fun plan hm => ?_
  refine (copyPacked_yields id origin plan).mono ?_
  rintro _ w ⟨hf, rfl⟩
  exact ⟨_, _, Copy.filePath_lands hp hr ho hm hf ha hd, rfl⟩

theorem stage_yields (id : String) :
    site.Yields (site.stage id source dest) (Stages site.host id source dest) := by
  refine .lift fun resolved hr => ?_
  obtain ⟨path, _, rfl, -⟩ := Copy.resolved_filePath hp hr
  refine ((statDestination_yields id dest).seq fun st =>
    copyPath_yields hp ha hd id hr st).mono ?_
  rintro _ w ⟨_, _, _, ⟨stat, rfl, rfl⟩, ⟨dir, entries, h, rfl⟩, rfl⟩
  exact .stage stat dir entries h

theorem stageFile_yields (id what : String) :
    site.Yields (site.stageFile id what source dest) (Stages site.host id source dest) := by
  refine ((stage_yields hp ha hd id).orFail.seq fun _ => (keeps_shown (say_performs _)).yields).mono
    ?_
  rintro _ w ⟨_, w, _, h, rfl, rfl⟩
  rwa [List.append_nil]

end

/-- What is done to furnish a fresh container stands at the end of a run. -/
theorem run_furnishes {W : String → Words Unit}
    (hf : ∀ id, site.Yields (site.furnish id config) (W id)) :
    site.Yields (site.run config) fun o w => o.reused = false →
      ∃ before rest, w = before ++ rest ∧ W o.containerId () rest := by
  refine (probe_keeps.yields.seq fun _ => (ensureImage_keeps _).yields.seq fun _ =>
    (resolve_keeps _).yields.seq fun found => (reconcile_keeps (.ofRecord found)).yields.seq
      (X := fun _ o w => o.reused = false → W o.containerId () w) fun r => ?_).mono ?_
  · cases r with
    | reuse id => exact yields_pure nofun
    | fresh id =>
      refine ((hf id).seq (X := fun _ o w => o = ⟨id, false⟩ ∧ w = []) fun _ =>
        yields_pure ⟨rfl, rfl⟩).mono ?_
      rintro _ w ⟨_, w, _, h, ⟨rfl, rfl⟩, rfl⟩ -
      rwa [List.append_nil]
  · rintro o w ⟨_, w₁, _, _, ⟨_, w₂, _, _, ⟨_, w₃, _, _, ⟨_, w₄, rest, _, h, rfl⟩, rfl⟩, rfl⟩, rfl⟩ ho
    exact ⟨w₁ ++ (w₂ ++ (w₃ ++ w₄)), rest, by simp, h ho⟩

inductive Stocks (site : Site δ κ) (config : InitConfig) (id : String) : Words Unit
  | stock {key inventory after : List Event}
    (hk : Stages site.host id config.sshKey site.settings.sshKeyDir () key)
    (hi : Stages site.host id config.inventory site.settings.inventoryDir () inventory) :
    Stocks site config id () (key ++ (inventory ++ after))

section

variable (hk : FilePath config.sshKey) (hi : FilePath config.inventory)
  (hka : Files.Path.isAbsolute site.settings.sshKeyDir = true)
  (hkd : Files.Path.endsWithSlash site.settings.sshKeyDir = false)
  (hia : Files.Path.isAbsolute site.settings.inventoryDir = true)
  (hid : Files.Path.endsWithSlash site.settings.inventoryDir = false)

include hk hi hka hkd hia hid

theorem furnish_yields (id : String) :
    site.Yields (site.furnish id config) (site.Stocks config id) := by
  refine ((stageFile_yields hk hka hkd id _).seq fun _ =>
    (stageFile_yields hi hia hid id _).seq fun _ =>
      ((runInit_keeps id config).orFail.andShow (say_performs _)).yields).mono ?_
  rintro _ w ⟨_, _, _, hk, ⟨_, _, _, hi, _, rfl⟩, rfl⟩
  exact .stock hk hi

theorem run_yields : site.Yields (site.run config) fun o w => o.reused = false →
    ∃ before rest, w = before ++ rest ∧ site.Stocks config o.containerId () rest :=
  run_furnishes fun id => furnish_yields hk hi hka hkd hia hid id

end

/-- Once a fresh container is ready, its files have landed: in a directory that was found in their
place under their own names, and else in the place of that directory. -/
theorem fresh_files_land {ps : Properties} (hp : ps.Validated)
    (hc : InitConfig.ofProperties ps = .ok config)
    (hka : Files.Path.isAbsolute site.settings.sshKeyDir = true)
    (hkd : Files.Path.endsWithSlash site.settings.sshKeyDir = false)
    (hia : Files.Path.isAbsolute site.settings.inventoryDir = true)
    (hid : Files.Path.endsWithSlash site.settings.inventoryDir = false) (s : Session δ κ)
    {id : String} (h : ((site.run config).apply s).1 = .ok ⟨id, false⟩) :
    ∃ before key inventory after,
      ((site.run config).apply s).2.events = s.events ++ (before ++ (key ++ (inventory ++ after))) ∧
      Stages site.host id config.sshKey site.settings.sshKeyDir () key ∧
      Stages site.host id config.inventory site.settings.inventoryDir () inventory := by
  obtain ⟨hk, hi⟩ := InitConfig.ofProperties_get hc
  obtain ⟨ms, hm, hy⟩ := run_yields (hp.filePath (p := .sshKey) nofun hk)
    (hp.filePath (p := .inventory) nofun hi) hka hkd hia hid s
  obtain ⟨before, rest, hr, ⟨hk, hi⟩⟩ := hy _ h rfl
  exact ⟨before, _, _, _, hr ▸ hm.events, hk, hi⟩

def rehearsalProperties : Properties := ⟨some "/key", some "10.*", some "/inventory"⟩

theorem rehearsalProperties_validated : rehearsalProperties.Validated := by
  have key : Properties.insert {} rehearsal.host "ssh_key_path_on_host" "/key" =
      .ok ⟨some "/key", none, none⟩ := by decide +kernel
  have subnet : Properties.insert ⟨some "/key", none, none⟩ rehearsal.host
      "proxy_ip_address_prefix" "10.*" = .ok ⟨some "/key", some "10.*", none⟩ := by decide +kernel
  have inventory : Properties.insert ⟨some "/key", some "10.*", none⟩ rehearsal.host
      "ansible_inventory_path_on_host" "/inventory" = .ok rehearsalProperties := by decide +kernel
  exact .insert (.insert (.insert .empty key) subnet) inventory

/-- The directory of the key is there, and nothing else is. -/
def rehearsalFurnished : Session Rehearsal.Script (TerminalOn Unit) where
  daemon := { stats := [(rehearsal.settings.sshKeyDir, .ok .directory)] }
  console := ⟨[], ()⟩

theorem rehearsal_files_land : ∃ before key inventory after,
    ((rehearsal.run rehearsalConfig).apply rehearsalFurnished).2.events =
      rehearsalFurnished.events ++ (before ++ (key ++ (inventory ++ after))) ∧
    Stages rehearsal.host "new-container" rehearsalConfig.sshKey rehearsal.settings.sshKeyDir ()
      key ∧
    Stages rehearsal.host "new-container" rehearsalConfig.inventory
      rehearsal.settings.inventoryDir () inventory :=
  fresh_files_land rehearsalProperties_validated (by decide +kernel) (by decide +kernel)
    (by decide +kernel) (by decide +kernel) (by decide +kernel) rehearsalFurnished
    (by decide +kernel)

def landings (t : List Event) : List String :=
  t.flatMap fun
    | .call (.uploadArchive _ dir (.archive entries)) _ =>
      entries.map fun e => Files.Path.join dir e.path
    | _ => []

/-- The directory of the key is not there, so the key lands in its place, and the run succeeds. -/
theorem rehearsal_key_takes_place :
    rehearsalProperties.Validated ∧
      InitConfig.ofProperties rehearsalProperties = .ok rehearsalConfig ∧
      rehearsal.host.isFile rehearsalConfig.sshKey = true ∧
      rehearsal.host.isFile rehearsalConfig.inventory = true ∧
      Files.Path.isAbsolute rehearsal.settings.sshKeyDir = true ∧
      Files.Path.endsWithSlash rehearsal.settings.sshKeyDir = false ∧
      Files.Path.isAbsolute rehearsal.settings.inventoryDir = true ∧
      Files.Path.endsWithSlash rehearsal.settings.inventoryDir = false ∧
      ((rehearsal.run rehearsalConfig).apply rehearsalStart).1 = .ok ⟨"new-container", false⟩ ∧
      landings ((rehearsal.run rehearsalConfig).apply rehearsalStart).2.events =
        [rehearsal.settings.sshKeyDir, rehearsal.settings.inventoryDir] ∧
      Files.Path.join rehearsal.settings.sshKeyDir "key" ∉
        landings ((rehearsal.run rehearsalConfig).apply rehearsalStart).2.events := by
  refine ⟨rehearsalProperties_validated, ?_⟩
  decide +kernel

end Provisioner.Site
