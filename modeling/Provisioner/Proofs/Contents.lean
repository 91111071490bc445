import Provisioner.Proofs.Overwriting

namespace Provisioner

namespace Files

namespace Node

def content? : Node → Option Bytes
  | .file _ content => some content
  | .dir .. => none
  | .link _ | .device => some []

theorem isDir_of_content? {n : Node} {content : Bytes} (h : n.content? = some content) :
    n.isDir = false := by
  cases n with
  | dir => cases h
  | file | link | device => rfl

theorem eq_of_face {m n : Node} (h : m.face = n.face) (hn : n.isDir = false) : m = n := by
  cases n with
  | dir => cases hn
  | file | link | device =>
    cases m with
    | dir => cases h
    | file | link | device => exact h

theorem isDir_root {root : Node} {l : Location} (h : (root.at? l).any isDir = true) :
    root.isDir = true := by
  cases l with
  | nil => exact h
  | cons name l =>
    refine Bool.not_eq_false _ ▸ fun hr => ?_
    rw [at?_cons_of_not_isDir hr] at h
    cases h

end Node

theorem Place.Holds.node {root n : Node} {place : Place} (h : place.Holds root)
    (hn : root.at? place.location = some n) : place = .node place.location n := by
  cases place with
  | node here m =>
    cases h.symm.trans hn
    rfl
  | vacant dir name => cases h.2.symm.trans hn

theorem Passes.within {root : Node} {purpose : Purpose} {follow : Onward} {here : Location}
    {wantsDir : Bool} {name : String} {rest : List String} {a : Arrival}
    (h : Passes root purpose follow here wantsDir name rest a) :
    (root.at? here).any Node.isDir = true := by
  cases h with
  | dot hd | dotDot hd => exact hd
  | free hs | link hs | last hs | down hs => exact hs.within

theorem walkUpToLink_within {root : Node} {purpose : Purpose} {follow : Onward} {here : Location}
    {wantsDir : Bool} {names : List String} {a : Arrival}
    (h : walkUpToLink root purpose follow here wantsDir names = .ok a) (hn : names ≠ []) :
    (root.at? here).any Node.isDir = true := by
  obtain ⟨name, rest, rfl⟩ := List.exists_cons_of_ne_nil hn
  exact (walkUpToLink_passes h).within

/-- Where a file is to be written, a slash at the end is taken only from a directory. -/
def Onward.Granted (root : Node) (follow : Onward) : Prop :=
  ∀ {here wantsDir names a}, (names = [] → (root.at? here).any Node.isDir = true) →
    follow here wantsDir names = .ok a → a.wantsDir = true →
      (root.at? a.place.location).any Node.isDir = true

theorem walkUpToLink_granted {root : Node} {follow : Onward} (hf : follow.Granted root) :
    Onward.Granted root (walkUpToLink root .write follow) := by
  intro here wantsDir names a hd h ha
  induction names generalizing here with
  | nil =>
    obtain ⟨n, -, rfl⟩ := walkUpToLink_nil_eq_ok.mp h
    exact hd rfl
  | cons name rest ih =>
    cases walkUpToLink_passes h with
    | dot hd _ h => exact ih (fun _ => hd) h
    | dotDot hd _ h => exact ih (fun _ => Node.at?_dropLast_isDir hd) h
    | free hs _ hr he =>
      subst he
      exact absurd ⟨rfl, ha, List.isEmpty_iff.mpr hr⟩ hs.granted
    | link hs _ h =>
      refine hf (fun _ => ?_) h ha
      split
      · exact Node.isDir_root hs.within
      · exact hs.within
    | last hs _ _ hr he =>
      subst he
      exact absurd ⟨rfl, ha, List.isEmpty_iff.mpr hr⟩ hs.granted
    | down _ _ _ hn h => exact ih (fun h => absurd h hn) h

theorem walk_granted (root : Node) (links : Nat) : (walk root .write links).Granted root := by
  induction links with
  | zero =>
    refine walkUpToLink_granted ?_
    intro _ _ _ _ _ h
    cases h
  | succ links ih => exact walkUpToLink_granted ih

namespace Written

variable {root root' : Node} {here : Location} {content : Bytes}

def Back (here : Location) (follow follow' : Onward) : Prop :=
  ∀ {start wantsDir names a}, (names = [] → start ≠ here) → follow' start wantsDir names = .ok a →
    ∃ b, follow start wantsDir names = .ok b ∧ b.place.location = a.place.location ∧
      b.wantsDir = a.wantsDir

variable (hw : Written root root' here content)

include hw

theorem before_elsewhere {l : Location} (hl : l ≠ here) {n : Node} (h : root'.at? l = some n) :
    ∃ m, root.at? l = some m ∧ m.face = n.face := by
  have he := hw.elsewhere l hl
  rw [h] at he
  exact Option.map_eq_some_iff.mp he.symm

theorem free_before {l : Location} (h : root'.at? l = none) : root.at? l = none := by
  have hl : l ≠ here := by
    rintro rfl
    obtain ⟨mode, hf⟩ := hw.file
    rw [hf] at h
    cases h
  have he := hw.elsewhere l hl
  rw [h] at he
  exact Option.map_eq_none_iff.mp he.symm

theorem ne_here {l : Location} (h : (root'.at? l).any Node.isDir = true) : l ≠ here := by
  rintro rfl
  obtain ⟨mode, hf⟩ := hw.file
  rw [hf] at h
  cases h

theorem walkUpToLink_back {purpose : Purpose} {follow follow' : Onward}
    (hf : Back here follow follow') :
    Back here (walkUpToLink root purpose follow) (walkUpToLink root' purpose follow') := by
  intro start wantsDir names a hn h
  -- No walk gets past what was written, so up to its end it passes what was there before.
  induction names generalizing start with
  | nil =>
    obtain ⟨n, hm, rfl⟩ := walkUpToLink_nil_eq_ok.mp h
    obtain ⟨m, hm', -⟩ := hw.before_elsewhere (hn rfl) hm
    exact ⟨_, walkUpToLink_nil_eq_ok.mpr ⟨m, hm', rfl⟩, rfl, rfl⟩
  | cons name rest ih =>
    have sought (hs : Sought root' purpose start wantsDir name rest) :
        Sought root purpose start wantsDir name rest :=
      ⟨(hw.isDir start).symm.trans hs.within, hs.ne_dot, hs.ne_dotDot, hs.granted, hs.short⟩
    cases walkUpToLink_passes h with
    | dot hd he h =>
      obtain ⟨b, hb, hl⟩ := ih (fun _ => hw.ne_here hd) h
      exact ⟨b, Passes.walk (.dot ((hw.isDir start).symm.trans hd) he hb), hl⟩
    | dotDot hd he h =>
      obtain ⟨b, hb, hl⟩ := ih (fun _ => hw.ne_here (Node.at?_dropLast_isDir hd)) h
      exact ⟨b, Passes.walk (.dotDot ((hw.isDir start).symm.trans hd) he hb), hl⟩
    | free hs he hr ha =>
      subst ha
      exact ⟨_, Passes.walk (.free (sought hs) (hw.free_before he) hr rfl), rfl, rfl⟩
    | @link hs target he h =>
      have hl : start ++ [name] ≠ here := by
        rintro hl
        obtain ⟨mode, hf⟩ := hw.file
        rw [hl, hf] at he
        cases he
      obtain ⟨m, hm, hface⟩ := hw.before_elsewhere hl he
      obtain rfl := Node.eq_of_face hface rfl
      have hn : (if Path.isAbsolute target then [] else start) ≠ here := by
        split
        · exact hw.ne_here (Node.isDir_root hs.within)
        · exact hw.ne_here hs.within
      obtain ⟨b, hb, hl⟩ := hf (fun _ => hn) h
      exact ⟨b, Passes.walk (.link (sought hs) hm hb), hl⟩
    | last hs he hl hr ha =>
      subst ha
      cases hm : root.at? (start ++ [name]) with
      | none => exact ⟨_, Passes.walk (.free (sought hs) hm hr rfl), rfl, rfl⟩
      | some m =>
        have hl : ∀ target, m ≠ .link target := by
          rintro target rfl
          cases Option.some.inj (he.symm.trans (hw.link hm))
          exact hl target rfl
        exact ⟨_, Passes.walk (.last (sought hs) hm hl hr rfl), rfl, rfl⟩
    | down hs he hl hr h =>
      have hn := hw.ne_here (walkUpToLink_within h hr)
      obtain ⟨m, hm, hface⟩ := hw.before_elsewhere hn he
      have hl : ∀ target, m ≠ .link target := by
        rintro target rfl
        exact hl target (Node.eq_of_face hface.symm rfl)
      obtain ⟨b, hb, hl'⟩ := ih (fun _ => hn) h
      exact ⟨b, Passes.walk (.down (sought hs) hm hl hr hb), hl'⟩

theorem walk_back (purpose : Purpose) (links : Nat) :
    Back here (walk root purpose links) (walk root' purpose links) := by
  induction links with
  | zero =>
    refine hw.walkUpToLink_back ?_
    intro _ _ _ _ _ h
    cases h
  | succ links ih => exact hw.walkUpToLink_back ih

/-- Where a path leads that was written to, or past what was written, it led before. -/
theorem arrive_back {cwd : Location} {purpose : Purpose} {p : String} (hp : steps p ≠ [])
    {a : Arrival} (h : arrive root' cwd purpose p = .ok a) :
    ∃ b, arrive root cwd purpose p = .ok b ∧ b.place.location = a.place.location ∧
      b.wantsDir = a.wantsDir := by
  obtain ⟨ht, h⟩ := arrive_eq_ok.mp h
  obtain ⟨b, hb, hl⟩ := hw.walk_back purpose linkLimit (fun h => absurd h hp) h
  exact ⟨b, arrive_eq_ok.mpr ⟨ht, hb⟩, hl⟩

end Written

theorem steps_join_ne_nil (base : String) {name : String} (h : Path.IsName name) :
    steps (Path.join base name) ≠ [] := by
  intro hs
  have hl := (Path.join_endsIn base h).steps h.ne_empty
  rw [hs] at hl
  cases hl

end Files

namespace Host

open Files

variable {h h' : Host} {p q : String} {content found : Bytes}

def content? (h : Host) (p : String) : Option Bytes := (h.read p).toOption

/-- What is written to the first path is not what is seen at the second. -/
def Apart (h : Host) (p q : String) : Prop :=
  ∀ a b, arrive h.root h.cwd .write p = .ok a → arrive h.root h.cwd .look q = .ok b →
    a.place.location ≠ b.place.location

theorem apart_of_locations (l l' : Location)
    (hp : (arrive h.root h.cwd .write p).toOption.map (·.place.location) = some l)
    (hq : (arrive h.root h.cwd .look q).toOption.map (·.place.location) = some l') (hl : l ≠ l') :
    h.Apart p q := by
  intro a b ha hb
  rw [ha] at hp
  rw [hb] at hq
  cases hp
  cases hq
  exact hl

theorem content?_found {l : Location} {n : Node} (hf : find h.root h.cwd p = .ok (l, n)) :
    h.content? p = n.content? := by
  unfold content? read stat
  rw [hf]
  cases n <;> rfl

theorem content?_eq_some : h.content? p = some content ↔
    ∃ l n, find h.root h.cwd p = .ok (l, n) ∧ n.content? = some content := by
  constructor
  · intro hc
    cases hf : find h.root h.cwd p with
    | error e =>
      unfold content? read stat at hc
      rw [hf] at hc
      cases hc
    | ok found => exact ⟨found.1, found.2, rfl, (content?_found hf).symm.trans hc⟩
  · rintro ⟨l, n, hf, hc⟩
    exact (content?_found hf).trans hc

/-- What is read elsewhere stays, and nothing more can be read there. -/
theorem content?_apart (hq : steps q ≠ []) (ha : h.Apart p q) (hw : h.write p content = .ok h') :
    h'.content? q = h.content? q := by
  cases write_ok hw with
  | device => rfl
  | @file a root' hp hr =>
    refine Option.ext fun found => ?_
    rw [content?_eq_some, content?_eq_some]
    -- What is found after the write was there before, and the other way round.
    constructor
    · rintro ⟨l, n, hf, hc⟩
      obtain ⟨wantsDir, hl, hd⟩ := find_eq_ok.mp hf
      obtain ⟨⟨place, _⟩, hb, hat, rfl⟩ := hr.arrive_back hq hl
      change place.location = l at hat
      subst hat
      obtain ⟨m, hm, hface⟩ := hr.before_elsewhere (ha a _ hp hb).symm (arrive_truthful hl)
      obtain rfl := Node.eq_of_face hface (Node.isDir_of_content? hc)
      have hplace : place = .node place.location m := (arrive_truthful hb).node hm
      exact ⟨_, m, find_eq_ok.mpr ⟨_, hplace ▸ hb, hd⟩, hc⟩
    · rintro ⟨l, n, hf, hc⟩
      have hd := Node.isDir_of_content? hc
      obtain ⟨n', hf', hd'⟩ := find_keeps hr.keeps hf hd
      refine ⟨l, n', hf', ?_⟩
      obtain ⟨_, hb, -⟩ := find_eq_ok.mp hf
      obtain ⟨_, hb', -⟩ := find_eq_ok.mp hf'
      have hat : h.root.at? l = some n := arrive_truthful hb
      have hat' : root'.at? l = some n' := arrive_truthful hb'
      have hface := hr.elsewhere l (ha a _ hp hb).symm
      rw [hat, hat', Option.map_some, Option.map_some] at hface
      rw [Node.eq_of_face (Option.some.inj hface) hd, hc]

/-- What was written is read, unless it was taken by what is no file and keeps nothing. -/
theorem content?_written (hp : steps p ≠ []) (hw : h.write p content = .ok h') :
    h'.content? p = some content ∨ h' = h ∧ h.isFile p = false := by
  cases write_ok hw with
  | @file a root' ha hr =>
    obtain ⟨mode, hn⟩ := hr.file
    obtain ⟨n, hl, hat⟩ := arrive_leads hr.keeps ha fun dir name hp =>
      ⟨mode, content, by rwa [hp] at hn⟩
    obtain rfl := Option.some.inj (hat.symm.trans hn)
    -- A slash behind the name would have been refused.
    have hwants : a.wantsDir = false := by
      refine Bool.not_eq_true _ ▸ fun hwants => ?_
      have hd := walk_granted h.root linkLimit (fun h => absurd h hp) (arrive_eq_ok.mp ha).2 hwants
      exact hr.ne_here ((hr.isDir _).trans hd) rfl
    refine .inl (content?_eq_some.mpr ⟨_, _, find_eq_ok.mpr ⟨_, hl, ?_⟩, rfl⟩)
    rw [hwants]
    rfl
  | @device here n wantsDir ha hn =>
    refine .inr ⟨rfl, ?_⟩
    refine Bool.not_eq_true _ ▸ fun hf => ?_
    obtain ⟨mode, old, hs⟩ := stat_of_isFile hf
    obtain ⟨l, hl⟩ := stat_eq_ok.mp hs
    obtain ⟨_, ha', -⟩ := find_eq_ok.mp hl
    obtain ⟨m, hm, hat⟩ := arrive_leads (.refl _) ha nofun
    cases ha'.symm.trans hm
    exact hn _ _ (Option.some.inj ((arrive_truthful ha).symm.trans hat))

end Host

end Provisioner
