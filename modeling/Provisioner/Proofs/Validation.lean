import Provisioner.Proofs.Paths
import Provisioner.Proofs.Walking
import Provisioner.Property.Basic

namespace Provisioner

namespace Files

def Onward.Proper (follow : Onward) : Prop :=
  ∀ {here wantsDir names location n wants}, follow here wantsDir names = .ok ⟨.node location n, wants⟩ →
    n.isDir = false → (wantsDir = true → wants = true) ∧
      ∀ l, names.getLast? = some l → l ≠ "." ∧ l ≠ ".."

theorem walkUpToLink_proper {root : Node} {purpose : Purpose} {follow : Onward}
    (hf : follow.Proper) : Onward.Proper (walkUpToLink root purpose follow) := by
  intro here wantsDir names location n wants h hn
  induction names generalizing here wantsDir with
  | nil =>
    obtain ⟨_, _, ha⟩ := walkUpToLink_nil_eq_ok.mp h
    cases ha
    exact ⟨id, nofun⟩
  | cons name rest ih =>
    have further (hr : rest ≠ []) {here' : Location}
        (h : walkUpToLink root purpose follow here' wantsDir rest = .ok ⟨.node location n, wants⟩) :
        (wantsDir = true → wants = true) ∧
          ∀ l, (name :: rest).getLast? = some l → l ≠ "." ∧ l ≠ ".." := by
      rw [List.getLast?_cons_of_ne_nil hr]
      exact ih h
    -- A `.` or a `..` is not the last step, since it leads to a directory.
    have onward {here' : Location} (hd : (root.at? here').any Node.isDir = true)
        (h : walkUpToLink root purpose follow here' wantsDir rest = .ok ⟨.node location n, wants⟩) :
        rest ≠ [] := by
      rintro rfl
      obtain ⟨_, hm, ha⟩ := walkUpToLink_nil_eq_ok.mp h
      cases ha
      rw [hm, Option.any_some, hn] at hd
      cases hd
    cases walkUpToLink_passes h with
    | dot hd _ h => exact further (onward hd h) h
    | dotDot hd _ h =>
      have hd := Node.at?_dropLast_isDir hd
      exact further (onward hd h) h
    | free _ _ _ ha => cases ha
    | link hs _ h =>
      obtain ⟨hw, hl⟩ := hf h hn
      refine ⟨fun h => hw (by simp [h]), fun l hlast => ?_⟩
      by_cases hr : rest = []
      · rw [hr, List.getLast?_singleton] at hlast
        obtain rfl := Option.some.inj hlast
        exact ⟨hs.ne_dot, hs.ne_dotDot⟩
      · rw [List.getLast?_cons_of_ne_nil hr] at hlast
        refine hl l ?_
        rw [List.getLast?_append, hlast, Option.some_or]
    | down _ _ _ hr h => exact further hr h
    | last hs _ _ hr ha =>
      cases ha
      refine ⟨id, fun l hlast => ?_⟩
      rw [hr, List.getLast?_singleton] at hlast
      obtain rfl := Option.some.inj hlast
      exact ⟨hs.ne_dot, hs.ne_dotDot⟩

theorem walk_proper (root : Node) (purpose : Purpose) (links : Nat) :
    (walk root purpose links).Proper := by
  induction links with
  | zero =>
    refine walkUpToLink_proper ?_
    intro _ _ _ _ _ _ h
    cases h
  | succ links ih => exact walkUpToLink_proper ih

theorem arrive_proper {root : Node} {cwd location : Location} {purpose : Purpose} {p : String}
    {n : Node} {wants : Bool} (h : arrive root cwd purpose p = .ok ⟨.node location n, wants⟩)
    (hn : n.isDir = false) : p ≠ "" ∧ (Path.endsWithSlash p = true → wants = true) ∧
      ∀ l, (steps p).getLast? = some l → l ≠ "." ∧ l ≠ ".." := by
  obtain ⟨⟨_, hp, _⟩, h⟩ := arrive_eq_ok.mp h
  exact ⟨hp, walk_proper root purpose linkLimit h hn⟩

theorem find_endsIn {root : Node} {cwd location : Location} {p : String} {n : Node}
    (h : find root cwd p = .ok (location, n)) (hn : n.isDir = false) :
    ∃ l, Path.EndsIn p l ∧ Path.IsName l ∧ l ≠ ".." := by
  obtain ⟨wants, ha, hw⟩ := find_eq_ok.mp h
  rw [hn, Bool.not_false, Bool.and_true] at hw
  obtain ⟨hp, hs, hl⟩ := arrive_proper ha hn
  have hs : Path.endsWithSlash p = false :=
    Bool.eq_false_iff.mpr fun h => Bool.eq_false_iff.mp hw (hs h)
  obtain ⟨l, he, hls, hle⟩ := Path.exists_endsIn hp hs
  obtain ⟨h₁, h₂⟩ := hl l (he.steps hle)
  exact ⟨l, he, ⟨hls, hle, h₁⟩, h₂⟩

end Files

/-- The properties are reached by storing values, each in a state of this machine of its own. -/
inductive Properties.Validated : Properties → Prop
  | empty : Validated {}
  | insert {ps ps' : Properties} {h : Host} {name value : String} (hp : Validated ps)
    (hi : ps.insert h name value = .ok ps') : Validated ps'

def FilePath (p : String) : Prop := ∃ (h : Host) (name raw : String), h.validateFile name raw = .ok p

theorem Properties.get_set (ps : Properties) (p q : Property) (value : String) :
    (ps.set q value).get p = if p = q then some value else ps.get p := by
  cases p <;> cases q <;> rfl

theorem Properties.Validated.filePath {ps : Properties} (h : ps.Validated) {p : Property}
    (hp : p ≠ .addressPrefix) {path : String} (hg : ps.get p = some path) : FilePath path := by
  induction h with
  | empty => cases p <;> cases hg
  | @insert ps ps' h name value _ hi ih =>
    unfold Properties.insert at hi
    split at hi
    · cases hi
    · rename_i q hq
      cases hc : q.check h value with
      | error e =>
        rw [hc] at hi
        cases hi
      | ok v =>
        rw [hc] at hi
        cases hi
        rw [get_set] at hg
        split at hg
        · rename_i hqp
          subst hqp
          cases hg
          cases p with
          | sshKey | inventory => exact ⟨h, _, value, hc⟩
          | addressPrefix => exact absurd rfl hp
        · exact ih hg

theorem InitConfig.ofProperties_get {ps : Properties} {config : InitConfig}
    (h : ofProperties ps = .ok config) :
    ps.get .sshKey = some config.sshKey ∧ ps.get .inventory = some config.inventory := by
  obtain ⟨_ | key, _ | subnet, _ | inventory⟩ := ps <;> cases h
  exact ⟨rfl, rfl⟩

theorem Host.absolute_ok {h : Host} {p q : String} (ha : h.absolute p = .ok q) :
    Files.Path.absolute? h.cwdPath p = some q := by
  unfold Host.absolute at ha
  split at ha
  · cases ha
    assumption
  · cases ha

theorem Host.resolvePath_ok {h : Host} {raw p : String} (hr : h.resolvePath raw = .ok p) :
    Files.Path.absolute? h.cwdPath (h.expand raw) = some p := by
  unfold Host.resolvePath at hr
  cases ha : h.absolute (h.expand raw) with
  | error e =>
    simp only [ha] at hr
    cases hr
  | ok q =>
    simp only [ha] at hr
    cases hr
    exact absolute_ok ha

theorem Host.validateFile_ok {h : Host} {name raw p : String}
    (hv : h.validateFile name raw = .ok p) : h.resolvePath raw = .ok p ∧
      ∃ node, h.statAbsolute (h.expand raw) = .ok node ∧ node.isDir = false := by
  unfold Host.validateFile at hv
  cases hr : h.resolvePath raw with
  | error e =>
    rw [hr] at hv
    cases hv
  | ok q =>
    rw [hr] at hv
    simp only [bind, Except.bind] at hv
    split at hv
    · cases hv
    · split at hv
      · cases hv
      · cases hv
        exact ⟨rfl, _, by assumption, Bool.eq_false_iff.mpr (by assumption)⟩

theorem Host.stat_endsIn {h : Host} {p : String} {n : Files.Node} (hs : h.stat p = .ok n)
    (hn : n.isDir = false) : ∃ l, Files.Path.EndsIn p l ∧ Files.Path.IsName l ∧ l ≠ ".." := by
  unfold Host.stat at hs
  cases hf : Files.find h.root h.cwd p with
  | error e =>
    rw [hf] at hs
    cases hs
  | ok found =>
    rw [hf] at hs
    cases hs
    exact Files.find_endsIn hf hn

theorem FilePath.shape {p : String} (h : FilePath p) : Files.Path.isAbsolute p = true ∧
    ∃ l, Files.Path.EndsIn p l ∧ Files.Path.IsName l ∧ l ≠ ".." := by
  obtain ⟨h, name, raw, hv⟩ := h
  obtain ⟨hr, node, hs, hn⟩ := Host.validateFile_ok hv
  have hp := Host.resolvePath_ok hr
  have hc : Files.Path.isAbsolute h.cwdPath = true := by
    simp [Host.cwdPath, Files.Path.isAbsolute]
  refine ⟨Files.Path.absolute?_isAbsolute hc hp, ?_⟩
  unfold Host.statAbsolute at hs
  split at hs
  · have ha : h.absolute (h.expand raw) = .ok p := by rw [Host.absolute, hp]
    rw [ha] at hs
    exact Host.stat_endsIn hs hn
  · split at hs
    · cases hs
    · split at hs
      · cases hs
      · obtain ⟨l, hl, hi, hd⟩ := Host.stat_endsIn hs hn
        exact ⟨l, Files.Path.absolute?_endsIn ‹_› hl hi hp, hi, hd⟩

end Provisioner
