import Provisioner.Proofs.Layouts
import Provisioner.Proofs.Reading
import Provisioner.Property.File

namespace Provisioner

open Json

def IsNat (bound : Nat) (d : Draft) (n : Nat) : Prop :=
  n < bound ∧ ∃ digits, d = .number ⟨false, digits, [], none⟩ ∧ decimal digits = n

theorem IsNat.read {bound n : Nat} {d : Draft} (h : IsNat bound d n) : d.asNat bound = .ok n := by
  obtain ⟨hn, digits, rfl, rfl⟩ := h
  simp [Draft.asNat, Numeral.isWhole, Numeral.wholePart, hn]

inductive ProbeSettings.Field where
  | maxRetries
  | delayMs

def ProbeSettings.layout : Layout ProbeSettings where
  Field := Field
  name
    | .maxRetries => "max_retries"
    | .delayMs => "delay_ms"
  Value
    | .maxRetries => UInt32
    | .delayMs => Nat
  get
    | .maxRetries, p => p.maxRetries
    | .delayMs, p => p.delayMs
  put
    | .maxRetries, n, p => { p with maxRetries := n }
    | .delayMs, n, p => { p with delayMs := n }
  Says
    | .maxRetries, d, n => IsNat UInt32.size d n.toNat
    | .delayMs, d, n => IsNat UInt64.size d n
  name_injective x y h := by cases x <;> cases y <;> first | rfl | exact absurd h (by decide)
  get_put x _ _ := by cases x <;> rfl
  get_put_ne {x y} h _ _ := by cases x <;> cases y <;> first | rfl | exact absurd rfl h
  ext {a b} h := by
    cases a
    cases b
    exact ProbeSettings.mk.injEq .. ▸ ⟨h .maxRetries, h .delayMs⟩

theorem ProbeSettings.fields_read : layout.ReadBy fields where
  field
    | .maxRetries => by
      refine ⟨_, rfl, fun d (v : UInt32) a (h : IsNat UInt32.size d v.toNat) _ => ?_⟩
      simp only [h.read]
      exact congrArg (fun n => Except.ok { a with maxRetries := n }) UInt32.ofNat_toNat
    | .delayMs => by
      refine ⟨_, rfl, fun d (v : Nat) a (h : IsNat UInt64.size d v) _ => ?_⟩
      simp only [h.read]
      rfl
  rest name h := by
    simp only [fields, List.find?_eq_none, List.forall_mem_cons, beq_iff_eq]
    exact ⟨h .maxRetries, h .delayMs, List.forall_mem_nil _⟩

inductive PromptSettings.Field where
  | maxAttempts
  | unansweredIsDecline

def PromptSettings.layout : Layout PromptSettings where
  Field := Field
  name
    | .maxAttempts => "max_attempts"
    | .unansweredIsDecline => "unanswered_is_decline"
  Value
    | .maxAttempts => Nat
    | .unansweredIsDecline => Bool
  get
    | .maxAttempts, p => p.maxAttempts
    | .unansweredIsDecline, p => p.unansweredIsDecline
  put
    | .maxAttempts, n, p => { p with maxAttempts := n }
    | .unansweredIsDecline, b, p => { p with unansweredIsDecline := b }
  Says
    | .maxAttempts, d, n => IsNat UInt32.size d n
    | .unansweredIsDecline, d, b => d = .bool b
  name_injective x y h := by cases x <;> cases y <;> first | rfl | exact absurd h (by decide)
  get_put x _ _ := by cases x <;> rfl
  get_put_ne {x y} h _ _ := by cases x <;> cases y <;> first | rfl | exact absurd rfl h
  ext {a b} h := by
    cases a
    cases b
    exact PromptSettings.mk.injEq .. ▸ ⟨h .maxAttempts, h .unansweredIsDecline⟩

theorem PromptSettings.fields_read : layout.ReadBy fields where
  field
    | .maxAttempts => by
      refine ⟨_, rfl, fun d (v : Nat) a (h : IsNat UInt32.size d v) _ => ?_⟩
      simp only [h.read]
      rfl
    | .unansweredIsDecline => by
      refine ⟨_, rfl, ?_⟩
      rintro _ b a rfl -
      rfl
  rest name h := by
    simp only [fields, List.find?_eq_none, List.forall_mem_cons, beq_iff_eq]
    exact ⟨h .maxAttempts, h .unansweredIsDecline, List.forall_mem_nil _⟩

inductive Settings.Field where
  | image
  | containerName
  | sshKeyDir
  | inventoryDir
  | initScript
  | execUser
  | execWorkingDir
  | probe
  | prompt

def Settings.layout : Layout Settings where
  Field := Field
  name
    | .image => "image"
    | .containerName => "container_name"
    | .sshKeyDir => "ssh_key_dir_in_container"
    | .inventoryDir => "inventory_dir_in_container"
    | .initScript => "init_script"
    | .execUser => "exec_user"
    | .execWorkingDir => "exec_working_dir"
    | .probe => "probe"
    | .prompt => "prompt"
  Value
    | .probe => ProbeSettings
    | .prompt => PromptSettings
    | _ => String
  get
    | .image, s => s.image
    | .containerName, s => s.containerName
    | .sshKeyDir, s => s.sshKeyDir
    | .inventoryDir, s => s.inventoryDir
    | .initScript, s => s.initScript
    | .execUser, s => s.execUser
    | .execWorkingDir, s => s.execWorkingDir
    | .probe, s => s.probe
    | .prompt, s => s.prompt
  put
    | .image, v, s => { s with image := v }
    | .containerName, v, s => { s with containerName := v }
    | .sshKeyDir, v, s => { s with sshKeyDir := v }
    | .inventoryDir, v, s => { s with inventoryDir := v }
    | .initScript, v, s => { s with initScript := v }
    | .execUser, v, s => { s with execUser := v }
    | .execWorkingDir, v, s => { s with execWorkingDir := v }
    | .probe, v, s => { s with probe := v }
    | .prompt, v, s => { s with prompt := v }
  Says
    | .image, d, v | .containerName, d, v | .sshKeyDir, d, v | .inventoryDir, d, v
    | .initScript, d, v | .execUser, d, v | .execWorkingDir, d, v => d = .string v
    | .probe, d, p => ProbeSettings.layout.Gives {} d p
    | .prompt, d, p => PromptSettings.layout.Gives {} d p
  name_injective x y h := by cases x <;> cases y <;> first | rfl | exact absurd h (by decide)
  get_put x _ _ := by cases x <;> rfl
  get_put_ne {x y} h _ _ := by cases x <;> cases y <;> first | rfl | exact absurd rfl h
  ext {a b} h := by
    cases a
    cases b
    exact Settings.mk.injEq .. ▸ ⟨h .image, h .containerName, h .sshKeyDir, h .inventoryDir,
      h .initScript, h .execUser, h .execWorkingDir, h .probe, h .prompt⟩

theorem Settings.fields_read : layout.ReadBy fields where
  field
    | .image | .containerName | .sshKeyDir | .inventoryDir | .initScript | .execUser
    | .execWorkingDir => by
      refine ⟨_, rfl, ?_⟩
      rintro _ v a rfl -
      rfl
    | .probe => by
      refine ⟨_, rfl, fun d (p : ProbeSettings) a h hs => ?_⟩
      simp only [ProbeSettings.fields_read.record h hs]
      rfl
    | .prompt => by
      refine ⟨_, rfl, fun d (p : PromptSettings) a h hs => ?_⟩
      simp only [PromptSettings.fields_read.record h hs]
      rfl
  rest name h := by
    simp only [fields, List.find?_eq_none, List.forall_mem_cons, beq_iff_eq]
    exact ⟨h .image, h .containerName, h .sshKeyDir, h .inventoryDir, h .initScript, h .execUser,
      h .execWorkingDir, h .probe, h .prompt, List.forall_mem_nil _⟩

namespace Settings

variable {s : Settings}

def IsBlank (text : String) : Prop := ∀ c ∈ text.toList, Text.isBlank c = true

/-- No text is blank, and there is at least one attempt. -/
structure Valid (s : Settings) : Prop where
  image : ¬IsBlank s.image
  containerName : ¬IsBlank s.containerName
  sshKeyDir : ¬IsBlank s.sshKeyDir
  inventoryDir : ¬IsBlank s.inventoryDir
  initScript : ¬IsBlank s.initScript
  execUser : ¬IsBlank s.execUser
  execWorkingDir : ¬IsBlank s.execWorkingDir
  asked : 1 ≤ s.prompt.maxAttempts

def declared (s : Settings) : List (String × String) :=
  [(layout.name .image, s.image), (layout.name .containerName, s.containerName),
    (layout.name .sshKeyDir, s.sshKeyDir), (layout.name .inventoryDir, s.inventoryDir),
    (layout.name .initScript, s.initScript), (layout.name .execUser, s.execUser),
    (layout.name .execWorkingDir, s.execWorkingDir)]

inductive Flawed (s : Settings) : Flaw → Prop
  | blank {before after : List (String × String)} {name text : String}
    (ht : s.declared = before ++ (name, text) :: after) (hb : ∀ t ∈ before, ¬IsBlank t.2)
    (h : IsBlank text) : Flawed s (.blank name)
  | noAttempts (ht : ∀ t ∈ s.declared, ¬IsBlank t.2) (h : s.prompt.maxAttempts = 0) :
    Flawed s .noAttempts

theorem allBlank_iff {text : String} : Text.allBlank text = true ↔ IsBlank text :=
  List.all_eq_true

theorem find?_blank_eq_none : s.texts.find? (fun t => Text.allBlank t.2) = none ↔
    ∀ t ∈ s.declared, ¬IsBlank t.2 := by
  change s.declared.find? _ = none ↔ _
  simp only [List.find?_eq_none, allBlank_iff]

theorem valid_iff :
    s.Valid ↔ (∀ t ∈ s.declared, ¬IsBlank t.2) ∧ s.prompt.maxAttempts ≠ 0 := by
  simp only [declared, List.forall_mem_cons, List.not_mem_nil, false_imp_iff, implies_true,
    and_true, ← Nat.one_le_iff_ne_zero]
  constructor
  · rintro ⟨h₁, h₂, h₃, h₄, h₅, h₆, h₇, h₈⟩
    exact ⟨⟨h₁, h₂, h₃, h₄, h₅, h₆, h₇⟩, h₈⟩
  · rintro ⟨⟨h₁, h₂, h₃, h₄, h₅, h₆, h₇⟩, h₈⟩
    exact ⟨h₁, h₂, h₃, h₄, h₅, h₆, h₇, h₈⟩

theorem flaw?_eq_none : s.flaw? = none ↔ s.Valid := by
  rw [valid_iff]
  unfold flaw?
  constructor
  · intro h
    split at h
    · cases h
    · rename_i hf
      split at h
      · cases h
      · rename_i hp
        exact ⟨find?_blank_eq_none.mp hf, hp⟩
  · rintro ⟨ht, hp⟩
    rw [find?_blank_eq_none.mpr ht]
    exact if_neg hp

theorem flaw?_eq_some {flaw : Flaw} : s.flaw? = some flaw ↔ s.Flawed flaw := by
  -- The search for a blank text stops at the first one. The attempts only count if there is none.
  unfold flaw?
  constructor
  · intro h
    split at h
    · rename_i t hf
      cases h
      obtain ⟨hb, before, after, ht, hn⟩ := List.find?_eq_some_iff_append.mp hf
      refine .blank ht (fun t ht => ?_) (allBlank_iff.mp hb)
      rw [← allBlank_iff, Bool.not_eq_true]
      simpa using hn t ht
    · rename_i hf
      split at h
      · rename_i hp
        cases h
        exact .noAttempts (find?_blank_eq_none.mp hf) hp
      · cases h
  · intro h
    cases h with
    | @blank before after name text ht hb h =>
      have hf : s.texts.find? (fun t => Text.allBlank t.2) = some (name, text) := by
        refine List.find?_eq_some_iff_append.mpr ⟨allBlank_iff.mpr h, before, after, ht, ?_⟩
        intro t ht
        rw [Bool.not_eq_true', ← Bool.not_eq_true, allBlank_iff]
        exact hb t ht
      rw [hf]
    | noAttempts ht h =>
      rw [find?_blank_eq_none.mpr ht]
      exact if_pos h

theorem load_given {h : Host} {path text : String} {d : Draft} (ht : h.readText path = .ok text)
    (hd : Padded d text.toList) (hg : layout.Gives {} d s) :
    load h path = s.flaw?.elim (.ok s) fun flaw => .error (.flawedSettings flaw) := by
  have hr : ofText text = .ok s := (hd.decode ofDraft).trans (fields_read.record hg hd.skip)
  unfold load
  rw [ht]
  simp only [hr]
  cases s.flaw? with
  | none | some => rfl

theorem load_valid {h : Host} {path : String} (hl : load h path = .ok s) : s.Valid := by
  unfold load at hl
  split at hl
  · cases hl
  · split at hl
    · cases hl
    · split at hl
      · cases hl
      · rename_i hf
        cases hl
        exact flaw?_eq_none.mp hf

/-- A list with a number in it and half of a pair of surrogates under a name that is not known, then
how often to retry, then a name of the container. -/
def patch : String := "\x7b\"new\": [1, \"\\ud800\"], \"probe\": \x7b\"max_retries\": 0\x7d, " ++
  "\"container_name\": \"c\"\x7d"

def patchMembers : List (String × Draft) :=
  [("new", .array [.number ⟨false, ['1'], [], none⟩, .flawed .malformed none] none),
   ("probe", .object (named [("max_retries", .number ⟨false, ['0'], [], none⟩)]) none),
   ("container_name", .string "c")]

/-- Two texts that are blank, the one that is declared first in the second place. -/
def blankPatch : String := "\x7b\"exec_user\": \"\", \"init_script\": \" \"\x7d"

def blankMembers : List (String × Draft) := [("exec_user", .string ""), ("init_script", .string " ")]

theorem member_plain {text : String} (h : text.toList.all isPlain = true) {d : Draft}
    {before cs : List Char} (hd : Spells d cs) (hb : Blank before) :
    Member (.string text, d) (before ++ (('"' :: (text.toList ++ ['"'])) ++ ([] ++ ':' ::
      ([' '] ++ (cs ++ []))))) :=
  have bare : Blank [] := by decide
  .mk hb (quoted_plain text h) bare (.mk (by decide) hd bare)

theorem spells_plain {text : String} (h : text.toList.all isPlain = true) :
    Spells (.string text) ('"' :: (text.toList ++ ['"'])) :=
  .scalar (.quoted (quoted_plain text h))

theorem patch_spells : Padded (.object (named patchMembers) none) patch.toList := by
  have bare : Blank [] := by decide
  have blank : Blank [' '] := by decide
  have digit (c : Char) (h : isDecimal c = true) :
      Spells (.number ⟨false, [c], [], none⟩) ([c] ++ ([] ++ [])) := by
    refine .scalar (.number (.plain (.mk ?_ .none .none)))
    refine ⟨⟨List.cons_ne_nil _ _, List.forall_mem_singleton.mpr h⟩, fun hc => ?_⟩
    cases hc
    rfl
  have half : Spells (.flawed .malformed none) ('"' :: (['\\', 'u', 'd', '8', '0', '0'] ++ ['"'])) := by
    refine .scalar (.quoted (.garbled (.unit (i := 13) (j := 8) (k := 0) (l := 0) rfl rfl rfl rfl .nil) ?_))
    rintro text (_ | _ | ⟨hn, -⟩)
    cases hn
  have list := Spells.array (.cons (.mk bare (digit '1' rfl) bare) (.last (.mk blank half bare)))
  have retries : "max_retries".toList.all isPlain = true := by decide
  have probe := Spells.object (.last (member_plain retries (digit '0' rfl) bare))
  have names : "new".toList.all isPlain = true ∧ "probe".toList.all isPlain = true ∧
      "container_name".toList.all isPlain = true ∧ "c".toList.all isPlain = true := by decide
  obtain ⟨new, tries, container, c⟩ := names
  have all := Padded.mk bare (.object (.cons (member_plain new list bare)
    (.cons (member_plain tries probe blank)
      (.last (member_plain container (spells_plain c) blank))))) bare
  exact all

theorem blankPatch_spells : Padded (.object (named blankMembers) none) blankPatch.toList := by
  have bare : Blank [] := by decide
  have user : "exec_user".toList.all isPlain = true := by decide
  have script : "init_script".toList.all isPlain = true := by decide
  have empty : "".toList.all isPlain = true := by decide
  have space : " ".toList.all isPlain = true := by decide
  have all := Padded.mk bare (.object (.cons (member_plain user (spells_plain empty) bare)
    (.last (member_plain script (spells_plain space) (by decide : Blank [' ']))))) bare
  exact all

def patchHost : Host where
  root := .dir 0o755 [("settings", .file 0o644 (Text.bytes patch)),
    ("blank", .file 0o644 (Text.bytes blankPatch))]
  cwd := []
  home := none
  userProfile := none

theorem patch_merges :
    layout.Merges patchMembers {} { containerName := "c", probe := { maxRetries := 0 } } := by
  have absent (name : String) (h : name ∉ patchMembers.map Prod.fst) (d : Draft) :
      (name, d) ∉ patchMembers := fun hd => h (List.mem_map.mpr ⟨_, hd, rfl⟩)
  have hp : ProbeSettings.layout.Gives {} (.object (named [("max_retries",
      .number ⟨false, ['0'], [], none⟩)]) none) { maxRetries := 0 } := by
    refine ⟨_, rfl, fun x => by cases x <;> decide, fun x => ?_⟩
    cases x with
    | maxRetries => exact .given List.mem_cons_self ⟨by decide, ['0'], rfl, rfl⟩
    | delayMs => exact .kept fun d hd => by simp [ProbeSettings.layout] at hd
  intro x
  cases x with
  | containerName => exact .given (.tail _ (.tail _ (.head _))) rfl
  | probe => exact .given (.tail _ (.head _)) hp
  | image | sshKeyDir | inventoryDir | initScript | execUser | execWorkingDir | prompt =>
    exact .kept (absent _ (by decide))

theorem blankPatch_merges :
    layout.Merges blankMembers {} { initScript := " ", execUser := "" } := by
  have absent (name : String) (h : name ∉ blankMembers.map Prod.fst) (d : Draft) :
      (name, d) ∉ blankMembers := fun hd => h (List.mem_map.mpr ⟨_, hd, rfl⟩)
  intro x
  cases x with
  | execUser => exact .given (.head _) rfl
  | initScript => exact .given (.tail _ (.head _)) rfl
  | image | containerName | sshKeyDir | inventoryDir | execWorkingDir | probe | prompt =>
    exact .kept (absent _ (by decide))

end Settings

end Provisioner
