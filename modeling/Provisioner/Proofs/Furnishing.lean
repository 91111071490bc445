import Provisioner.Proofs.Words
import Provisioner.Provision.Run

namespace Provisioner.Site

variable {δ κ : Type} {site : Site δ κ}

inductive Uploads (id : String) : Words Unit
  | upload (dir : String) (content : Upload) :
    Uploads id () [.call (.uploadArchive id dir content) (.ok ())]

inductive Copies (id dest : String) : Words Unit
  | copy (stat : Reply (Option PathStat)) (dir : String) (content : Upload) :
    Copies id dest ()
      [.call (.statPath id dest) stat, .call (.uploadArchive id dir content) (.ok ())]

inductive Initializes (site : Site δ κ) (id : String) (config : InitConfig) : Words Unit
  | session (session : String) (feed : Feed Bytes) (hs : session ≠ "") (hf : feed.failure = none) :
    Initializes site id config ()
      [.call (.inspectContainer id) (.ok ()),
        .call (.createExec id (execSpec site.settings config)) (.ok session),
        .call (.startExec session true) (.ok feed)]

inductive Furnishes (site : Site δ κ) (id : String) (config : InitConfig) : Words Unit
  | furnish {key inventory script : List Event} (hk : Copies id site.settings.sshKeyDir () key)
    (hi : Copies id site.settings.inventoryDir () inventory)
    (hs : site.Initializes id config () script) :
    Furnishes site id config () (key ++ (inventory ++ script))

theorem Uploads.nonempty (id : String) : ∃ v w, Uploads id v w :=
  ⟨_, _, .upload "" (.bytes [])⟩

theorem upload_granted (id dir : String) (content : Upload) :
    site.Keeps (site.upload id dir content)
      fun _ w => w = [.call (.uploadArchive id dir content) (.ok ())] :=
  Keeps.reply (told_call (.uploadArchive id dir content)) (fun _ => rfl) fun _ _ => rfl

theorem upload_keeps (id dir : String) (content : Upload) :
    site.Keeps (site.upload id dir content) (Uploads id) := by
  refine (upload_granted id dir content).mono ?_
  rintro _ w rfl
  exact .upload dir content

theorem copyStdin_keeps (id dest : String) (stat : Option PathStat) :
    site.Keeps (site.copyStdin id dest stat) (Uploads id) := by
  unfold copyStdin
  split
  · refine Performs.bind (performs_takeStdin (P := fun is _ => is = []) fun _ => rfl) ?_ ?_
    · rintro _ bs rfl
      exact upload_keeps id dest (.bytes bs)
    · rintro _ e rfl
      exact .error (.upload dest (.bytes [])) (agrees_nil _)
  · exact keeps_throw (.upload dest (.bytes []))

theorem copyPacked_keeps (id : String) (o : Copy.Origin) (plan : Copy.Plan) :
    site.Keeps (site.copyPacked id o plan) (Uploads id) := by
  refine ((upload_keeps id _ _).seq (X := fun _ _ w => w = []) fun _ => ?_).mono ?_
  · cases (Copy.pack site.host o plan.root).failure with
    | some e => exact keeps_throw (v := ()) rfl
    | none => exact keeps_pure rfl
  · rintro _ w ⟨_, w, _, h, rfl, rfl⟩
    rwa [List.append_nil]

theorem copyPath_keeps (id path dest : String) (stat : Option PathStat) :
    site.Keeps (site.copyPath id path dest stat) (Uploads id) :=
  .lift (Uploads.nonempty id) fun origin _ => .lift (Uploads.nonempty id) fun plan _ =>
    copyPacked_keeps id origin plan

/-- What is there is asked for, and a failure to find out stops nothing. -/
theorem statDestination_keeps (id dest : String) : site.Keeps (site.statDestination id dest)
    fun _ w => ∃ stat, w = [.call (.statPath id dest) stat] := by
  refine performs_call fun reply => ?_
  cases reply with
  | ok stat => exact performs_pure (.ok ⟨.ok stat, rfl⟩)
  | error e => exact performs_pure (.ok ⟨.error e, rfl⟩)

theorem stage_keeps (id source dest : String) :
    site.Keeps (site.stage id source dest) (Copies id dest) := by
  refine .lift ⟨_, _, .copy (.ok none) "" (.bytes [])⟩ fun resolved _ => ?_
  refine ((statDestination_keeps id dest).seq (X := fun _ => Uploads id) fun stat => ?_).mono ?_
  · cases resolved with
    | stdin => exact copyStdin_keeps id dest stat
    | path path => exact copyPath_keeps id path dest stat
  · rintro _ w ⟨_, _, _, ⟨stat, rfl⟩, ⟨dir, content⟩, rfl⟩
    exact .copy stat dir content

theorem relay_performs (chunks : List Bytes) : site.Performs (site.relay chunks) (Shown .write) := by
  induction chunks with
  | nil => exact performs_pure .shown
  | cons chunk rest ih => exact (write_performs chunk _).afterShowing ih .failed

/-- Showing output asks nothing of anyone, and it comes to its end only if the output does. -/
theorem relayFeed_performs (feed : Feed Bytes) : site.Performs (site.relayFeed feed)
    fun is r => recorded is = [] ∧ (r = .ok () → feed.failure = none) := by
  refine (relay_performs feed.items).afterShowing ?_ fun e => ⟨rfl, nofun⟩
  cases h : feed.failure with
  | some e => exact performs_throw ⟨rfl, nofun⟩
  | none =>
    refine Performs.mono (flush_performs _) fun is r h => ?_
    cases h with
    | shown => exact ⟨rfl, fun _ => rfl⟩
    | failed e => exact ⟨rfl, nofun⟩

theorem runInit_keeps (id : String) (config : InitConfig) :
    site.Keeps (site.runInit id config) (site.Initializes id config) := by
  have word (session : String) (hs : session ≠ "") :
      site.Initializes id config () _ := .session session {} hs rfl
  refine (told_call (.inspectContainer id)).demand (fun _ => ?_) fun e =>
    .error (word "session" (by decide)) (agrees_call _ _ _ _)
  refine (told_call (.createExec id (execSpec site.settings config))).demand (fun session => ?_)
    fun e => .error (word "session" (by decide)) ((agrees_call _ _ _ _).cons _)
  by_cases hs : session = ""
  · rw [if_pos (by simpa using hs)]
    exact performs_throw (.error (word "session" (by decide)) ((agrees_call _ _ _ _).cons _))
  · rw [if_neg (by simpa using hs)]
    refine (told_call (.startExec session true)).demand (fun feed => ?_)
      fun e => .error (word session hs) (((agrees_call _ _ _ _).cons _).cons _)
    refine Performs.mono (relayFeed_performs feed) fun is r ⟨hi, hf⟩ => ?_
    cases r with
    | ok =>
      refine .ok ?_
      simp only [recorded_append, hi, List.append_nil]
      exact .session session feed hs (hf rfl)
    | error e =>
      refine .error (word session hs) ?_
      simp only [recorded_append, hi, List.append_nil]
      exact ((agrees_call _ _ _ _).cons _).cons _

theorem stageFile_keeps (id what source dest : String) :
    site.Keeps (site.stageFile id what source dest) (Copies id dest) :=
  (stage_keeps id source dest).orFail.andShow (say_performs _)

theorem furnish_keeps (id : String) (config : InitConfig) :
    site.Keeps (site.furnish id config) (site.Furnishes id config) := by
  refine ((stageFile_keeps id _ _ _).seq fun _ => (stageFile_keeps id _ _ _).seq fun _ =>
    (runInit_keeps id config).orFail.andShow (say_performs _)).mono ?_
  rintro _ w ⟨_, _, _, hk, ⟨_, _, _, hi, hs, rfl⟩, rfl⟩
  exact .furnish hk hi hs

end Provisioner.Site
