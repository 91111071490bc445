import Provisioner.Proofs.Paths

namespace Provisioner.Files

namespace Node

theorem at?_append (n : Node) (here there : Location) :
    n.at? (here ++ there) = (n.at? here).bind (at? · there) := by
  induction here generalizing n with
  | nil => rfl
  | cons name here ih =>
    rw [List.cons_append, at?, at?, Option.bind_assoc]
    exact congrArg _ (funext ih)

def Reaches (root : Node) (here : Location) : Prop :=
  here = [] ∨ (root.at? here.dropLast).any isDir = true

theorem reaches_of_at? {root n : Node} {here : Location} (h : root.at? here = some n) :
    root.Reaches here := by
  obtain rfl | ⟨above, name, rfl⟩ := here.eq_nil_or_concat
  · exact .inl rfl
  · rw [List.concat_eq_append] at h ⊢
    refine .inr ?_
    rw [List.dropLast_concat]
    rw [at?_append] at h
    obtain ⟨d, hd, hn⟩ := Option.bind_eq_some_iff.mp h
    rw [hd, Option.any_some]
    cases d with
    | dir => rfl
    | file | link | device => cases hn

theorem at?_dropLast_isDir {root : Node} {here : Location}
    (h : (root.at? here).any isDir = true) : (root.at? here.dropLast).any isDir = true := by
  cases hn : root.at? here with
  | none =>
    rw [hn] at h
    cases h
  | some n =>
    obtain rfl | hr := reaches_of_at? hn
    · exact h
    · exact hr

end Node

section

variable (root : Node) (purpose : Purpose) (follow : Onward) (here : Location) (wantsDir : Bool)
  (name : String) (rest : List String) (a : Arrival)

/-- What it takes to look for a name: a directory to look in, a name that may be looked for, and no
slash behind the last name where a file is to be written. -/
structure Sought : Prop where
  within : (root.at? here).any Node.isDir = true
  ne_dot : name ≠ "."
  ne_dotDot : name ≠ ".."
  granted : ¬(purpose = .write ∧ wantsDir = true ∧ rest.isEmpty = true)
  short : ¬nameLimit < name.utf8ByteSize

inductive Passes : Prop
  | dot (hd : (root.at? here).any Node.isDir = true) (hn : name = ".")
    (h : walkUpToLink root purpose follow here wantsDir rest = .ok a)
  | dotDot (hd : (root.at? here).any Node.isDir = true) (hn : name = "..")
    (h : walkUpToLink root purpose follow here.dropLast wantsDir rest = .ok a)
  | free (hs : Sought root purpose here wantsDir name rest) (hn : root.at? (here ++ [name]) = none)
    (hr : rest = []) (ha : a = ⟨.vacant here name, wantsDir⟩)
  | link (hs : Sought root purpose here wantsDir name rest) {target : String}
    (hn : root.at? (here ++ [name]) = some (.link target))
    (h : follow (if Path.isAbsolute target then [] else here)
      (wantsDir || (rest.isEmpty && Path.endsWithSlash target)) (steps target ++ rest) = .ok a)
  | last (hs : Sought root purpose here wantsDir name rest) {n : Node}
    (hn : root.at? (here ++ [name]) = some n) (hl : ∀ target, n ≠ .link target) (hr : rest = [])
    (ha : a = ⟨.node (here ++ [name]) n, wantsDir⟩)
  | down (hs : Sought root purpose here wantsDir name rest) {n : Node}
    (hn : root.at? (here ++ [name]) = some n) (hl : ∀ target, n ≠ .link target) (hr : rest ≠ [])
    (h : walkUpToLink root purpose follow (here ++ [name]) wantsDir rest = .ok a)

variable {root purpose follow here wantsDir name rest a}

theorem walkUpToLink_nil_eq_ok : walkUpToLink root purpose follow here wantsDir [] = .ok a ↔
    ∃ n, root.at? here = some n ∧ a = ⟨.node here n, wantsDir⟩ := by
  rw [walkUpToLink]
  cases root.at? here with
  | none => simp
  | some n => simp [eq_comm]

theorem walkUpToLink_passes
    (h : walkUpToLink root purpose follow here wantsDir (name :: rest) = .ok a) :
    Passes root purpose follow here wantsDir name rest a := by
  rw [walkUpToLink] at h
  split at h
  · cases h
  have hd : (root.at? here).any Node.isDir = true := by simpa using ‹¬(!_) = true›
  split at h
  · exact .dot hd (by simpa using ‹(name == ".") = true›) h
  split at h
  · exact .dotDot hd (by simpa using ‹(name == "..") = true›) h
  split at h
  · cases h
  split at h
  · cases h
  have hs : Sought root purpose here wantsDir name rest :=
    ⟨hd, by simpa using ‹¬(name == ".") = true›, by simpa using ‹¬(name == "..") = true›,
      ‹_›, ‹_›⟩
  split at h
  · split at h
    · cases h
      exact .free hs ‹_› (List.isEmpty_iff.mp ‹_›) rfl
    · cases h
  · exact .link hs ‹_› h
  · split at h
    · cases h
      exact .last hs ‹_› ‹_› (List.isEmpty_iff.mp ‹_›) rfl
    · exact .down hs ‹_› ‹_› (fun hr => ‹¬rest.isEmpty = true› (List.isEmpty_iff.mpr hr)) h

theorem Sought.walk (hs : Sought root purpose here wantsDir name rest) :
    walkUpToLink root purpose follow here wantsDir (name :: rest) =
      match root.at? (here ++ [name]) with
      | none => if rest.isEmpty then .ok ⟨.vacant here name, wantsDir⟩ else .error .notFound
      | some (.link target) =>
        follow (if Path.isAbsolute target then [] else here)
          (wantsDir || (rest.isEmpty && Path.endsWithSlash target)) (steps target ++ rest)
      | some n =>
        if rest.isEmpty then .ok ⟨.node (here ++ [name]) n, wantsDir⟩
        else walkUpToLink root purpose follow (here ++ [name]) wantsDir rest := by
  rewrite [walkUpToLink, if_neg (by simp [hs.within]), if_neg (by simp [hs.ne_dot]),
    if_neg (by simp [hs.ne_dotDot]), if_neg hs.granted, if_neg hs.short]
  rfl

theorem Passes.walk (h : Passes root purpose follow here wantsDir name rest a) :
    walkUpToLink root purpose follow here wantsDir (name :: rest) = .ok a := by
  cases h with
  | dot hd hn h =>
    rw [walkUpToLink, if_neg (by simp [hd]), if_pos (beq_iff_eq.mpr hn), h]
  | dotDot hd hn h =>
    rw [walkUpToLink, if_neg (by simp [hd]), if_neg (by simp [hn]), if_pos (beq_iff_eq.mpr hn), h]
  | free hs hn hr ha =>
    rw [hs.walk, hn, hr, ha]
    rfl
  | link hs hn h =>
    rw [hs.walk, hn]
    exact h
  | @last hs n hn hl hr ha =>
    rw [hs.walk, hn, hr, ha]
    cases n with
    | link target => exact absurd rfl (hl target)
    | file | dir | device => rfl
  | @down hs n hn hl hr h =>
    rw [hs.walk, hn]
    have hr : ¬rest.isEmpty = true := fun he => hr (List.isEmpty_iff.mp he)
    cases n with
    | link target => exact absurd rfl (hl target)
    | file | dir | device => exact (if_neg hr).trans h

end

def Walkable (p : String) : Prop :=
  '\x00' ∉ p.toList ∧ p ≠ "" ∧ ¬pathLimit ≤ p.utf8ByteSize

theorem arrive_eq_ok {root : Node} {cwd : Location} {purpose : Purpose} {p : String} {a : Arrival} :
    arrive root cwd purpose p = .ok a ↔ Walkable p ∧
      walk root purpose linkLimit (if Path.isAbsolute p then [] else cwd) (Path.endsWithSlash p)
        (steps p) = .ok a := by
  unfold arrive
  by_cases hz : '\x00' ∈ p.toList
  · simp [Walkable, hz]
  · by_cases he : p = ""
    · simp [Walkable, he]
    · by_cases hl : pathLimit ≤ p.utf8ByteSize
      · simp [Walkable, hz, he, hl]
      · simp [Walkable, hz, he, hl]

def Place.location : Place → Location
  | .node here _ => here
  | .vacant dir name => dir ++ [name]

/-- What a walk says of the place that it arrives at. -/
def Place.Holds (root : Node) : Place → Prop
  | .node here n => root.at? here = some n
  | .vacant dir name => (root.at? dir).any Node.isDir = true ∧ root.at? (dir ++ [name]) = none

def Onward.Truthful (root : Node) (follow : Onward) : Prop :=
  ∀ {here wantsDir names a}, follow here wantsDir names = .ok a → a.place.Holds root

theorem walkUpToLink_truthful {root : Node} {purpose : Purpose} {follow : Onward}
    (hf : follow.Truthful root) : Onward.Truthful root (walkUpToLink root purpose follow) := by
  intro here wantsDir names a h
  induction names generalizing here wantsDir with
  | nil =>
    obtain ⟨n, hn, rfl⟩ := walkUpToLink_nil_eq_ok.mp h
    exact hn
  | cons name rest ih =>
    cases walkUpToLink_passes h with
    | dot _ _ h | dotDot _ _ h | down _ _ _ _ h => exact ih h
    | free hs hn _ ha => exact ha ▸ ⟨hs.within, hn⟩
    | link _ _ h => exact hf h
    | last _ hn _ _ ha => exact ha ▸ hn

theorem walk_truthful (root : Node) (purpose : Purpose) (links : Nat) :
    (walk root purpose links).Truthful root := by
  induction links with
  | zero =>
    refine walkUpToLink_truthful ?_
    intro _ _ _ _ h
    cases h
  | succ links ih => exact walkUpToLink_truthful ih

structure Keeps (root root' : Node) : Prop where
  isDir : ∀ l, (root'.at? l).any Node.isDir = (root.at? l).any Node.isDir
  link : ∀ {l target}, root.at? l = some (.link target) → root'.at? l = some (.link target)
  node : ∀ {l n}, root.at? l = some n → ∃ n', root'.at? l = some n' ∧
    ((∀ target, n ≠ .link target) → ∀ target, n' ≠ .link target)

theorem Keeps.trans {root root' root'' : Node} (h : Keeps root root') (h' : Keeps root' root'') :
    Keeps root root'' where
  isDir l := (h'.isDir l).trans (h.isDir l)
  link hl := h'.link (h.link hl)
  node hn := by
    obtain ⟨n', hn', hl'⟩ := h.node hn
    obtain ⟨n'', hn'', hl''⟩ := h'.node hn'
    exact ⟨n'', hn'', fun hl => hl'' (hl' hl)⟩

theorem Keeps.refl (root : Node) : Keeps root root :=
  ⟨fun _ => rfl, id, fun h => ⟨_, h, id⟩⟩

def Place.Filled (root' : Node) (place : Place) : Prop :=
  ∀ dir name, place = .vacant dir name → ∃ mode content,
    root'.at? (dir ++ [name]) = some (.file mode content)

def Onward.Leads (root' : Node) (follow follow' : Onward) : Prop :=
  ∀ {here wantsDir names a}, follow here wantsDir names = .ok a → a.place.Filled root' →
    ∃ n, follow' here wantsDir names = .ok ⟨.node a.place.location n, a.wantsDir⟩ ∧
      root'.at? a.place.location = some n

section

variable {root root' : Node} (hk : Keeps root root')

include hk

theorem walkUpToLink_leads {purpose : Purpose} {follow follow' : Onward}
    (hf : follow.Leads root' follow') :
    Onward.Leads root' (walkUpToLink root purpose follow)
      (walkUpToLink root' .look follow') := by
  intro here wantsDir names a h hv
  -- What a look asks of a name is asked of it where a file is to be written as well.
  induction names generalizing here wantsDir with
  | nil =>
    obtain ⟨n, hn, rfl⟩ := walkUpToLink_nil_eq_ok.mp h
    obtain ⟨n', hn', -⟩ := hk.node hn
    exact ⟨n', walkUpToLink_nil_eq_ok.mpr ⟨n', hn', rfl⟩, hn'⟩
  | cons name rest ih =>
    have sought {rest : List String} (hs : Sought root purpose here wantsDir name rest) :
        Sought root' .look here wantsDir name rest :=
      ⟨(hk.isDir here).trans hs.within, hs.ne_dot, hs.ne_dotDot, nofun, hs.short⟩
    cases walkUpToLink_passes h with
    | dot hd hn h =>
      obtain ⟨n, h, hl⟩ := ih h
      exact ⟨n, Passes.walk (.dot ((hk.isDir here).trans hd) hn h), hl⟩
    | dotDot hd hn h =>
      obtain ⟨n, h, hl⟩ := ih h
      exact ⟨n, Passes.walk (.dotDot ((hk.isDir here).trans hd) hn h), hl⟩
    | free hs hn hr ha =>
      subst ha
      obtain ⟨mode, content, hf⟩ := hv here name rfl
      exact ⟨_, Passes.walk (.last (sought hs) hf nofun hr rfl), hf⟩
    | link hs hn h =>
      obtain ⟨n, h, hl⟩ := hf h hv
      exact ⟨n, Passes.walk (.link (sought hs) (hk.link hn) h), hl⟩
    | last hs hn hl hr ha =>
      subst ha
      obtain ⟨n', hn', hl'⟩ := hk.node hn
      exact ⟨n', Passes.walk (.last (sought hs) hn' (hl' hl) hr rfl), hn'⟩
    | down hs hn hl hr h =>
      obtain ⟨n', hn', hl'⟩ := hk.node hn
      obtain ⟨n, h, hl''⟩ := ih h
      exact ⟨n, Passes.walk (.down (sought hs) hn' (hl' hl) hr h), hl''⟩

theorem walk_leads (purpose : Purpose) (links : Nat) :
    (walk root purpose links).Leads root' (walk root' .look links) := by
  induction links with
  | zero =>
    refine walkUpToLink_leads hk ?_
    intro _ _ _ _ h
    cases h
  | succ links ih => exact walkUpToLink_leads hk ih

/-- A path that leads to a node, or to where a file is now, leads there now. -/
theorem arrive_leads {cwd : Location} {purpose : Purpose} {p : String} {a : Arrival}
    (h : arrive root cwd purpose p = .ok a) (hv : a.place.Filled root') :
    ∃ n, arrive root' cwd .look p = .ok ⟨.node a.place.location n, a.wantsDir⟩ ∧
      root'.at? a.place.location = some n := by
  obtain ⟨hp, h⟩ := arrive_eq_ok.mp h
  obtain ⟨n, h, hn⟩ := walk_leads hk purpose linkLimit h hv
  exact ⟨n, arrive_eq_ok.mpr ⟨hp, h⟩, hn⟩

end

theorem arrive_truthful {root : Node} {cwd : Location} {purpose : Purpose} {p : String}
    {a : Arrival} (h : arrive root cwd purpose p = .ok a) : a.place.Holds root :=
  walk_truthful root purpose linkLimit (arrive_eq_ok.mp h).2

/-- What is found is where a look arrives, unless a slash asks for a directory. -/
theorem find_eq_ok {root : Node} {cwd : Location} {p : String} {l : Location} {n : Node} :
    find root cwd p = .ok (l, n) ↔ ∃ wantsDir,
      arrive root cwd .look p = .ok ⟨.node l n, wantsDir⟩ ∧ (wantsDir && !n.isDir) = false := by
  unfold find
  cases arrive root cwd .look p with
  | error e => exact ⟨nofun, nofun⟩
  | ok a =>
    obtain ⟨place, wantsDir⟩ := a
    cases place with
    | vacant dir name =>
      refine ⟨nofun, ?_⟩
      rintro ⟨_, ha, -⟩
      cases ha
    | node l' n' =>
      change (if (wantsDir && !n'.isDir) = true then throw IoError.notADirectory
        else pure (l', n')) = Except.ok (l, n) ↔ _
      split
      · rename_i hw
        refine ⟨nofun, ?_⟩
        rintro ⟨_, ha, hw'⟩
        cases ha
        exact absurd hw (Bool.eq_false_iff.mp hw')
      · rename_i hw
        constructor
        · intro h
          cases h
          exact ⟨wantsDir, rfl, Bool.eq_false_iff.mpr hw⟩
        · rintro ⟨_, ha, -⟩
          cases ha
          rfl

theorem find_keeps {root root' : Node} (hk : Keeps root root') {cwd : Location} {p : String}
    {l : Location} {n : Node} (h : find root cwd p = .ok (l, n)) (hn : n.isDir = false) :
    ∃ n', find root' cwd p = .ok (l, n') ∧ n'.isDir = false := by
  obtain ⟨wantsDir, ha, hw⟩ := find_eq_ok.mp h
  obtain ⟨n', ha', hn'⟩ := arrive_leads hk ha nofun
  have hl : root.at? l = some n := arrive_truthful ha
  have hl' : root'.at? l = some n' := hn'
  have hd := hk.isDir l
  rw [hl, hl', Option.any_some, Option.any_some, hn] at hd
  rw [hn] at hw
  exact ⟨n', find_eq_ok.mpr ⟨wantsDir, ha', by rwa [hd]⟩, hd⟩

def Onward.Follows (root : Node) (follow : Onward) : Prop :=
  ∀ {here wantsDir names location n wants},
    (names = [] → (root.at? here).any Node.isDir = true) →
      follow here wantsDir names = .ok ⟨.node location n, wants⟩ → ∀ target, n ≠ .link target

theorem walkUpToLink_follows {root : Node} (hr : root.isDir = true) {purpose : Purpose}
    {follow : Onward} (hf : follow.Follows root) :
    Onward.Follows root (walkUpToLink root purpose follow) := by
  intro here wantsDir names location n wants hd h
  -- Where no name is left the walk stands in a directory; it gets on by a name only if there is one
  -- behind it, or in what a link says.
  induction names generalizing here with
  | nil =>
    obtain ⟨_, hm, ha⟩ := walkUpToLink_nil_eq_ok.mp h
    cases ha
    have hd := hd rfl
    rw [hm, Option.any_some] at hd
    rintro target rfl
    cases hd
  | cons name rest ih =>
    cases walkUpToLink_passes h with
    | dot hd _ h => exact ih (fun _ => hd) h
    | dotDot hd _ h => exact ih (fun _ => Node.at?_dropLast_isDir hd) h
    | free _ _ _ ha => cases ha
    | link hs _ h =>
      refine hf (fun _ => ?_) h
      split
      · exact hr
      · exact hs.within
    | last _ _ hl _ ha =>
      cases ha
      exact hl
    | down _ _ _ hn h => exact ih (fun h => absurd h hn) h

theorem walk_follows {root : Node} (hr : root.isDir = true) (purpose : Purpose) (links : Nat) :
    (walk root purpose links).Follows root := by
  induction links with
  | zero =>
    refine walkUpToLink_follows hr ?_
    intro _ _ _ _ _ _ _ h
    cases h
  | succ links ih => exact walkUpToLink_follows hr ih

theorem steps_ne_nil {p : String} (hp : p ≠ "") (ha : Path.isAbsolute p = false) :
    steps p ≠ [] := by
  obtain ⟨c, cs, hc⟩ := List.exists_cons_of_ne_nil (fun h => hp (String.toList_inj.mp h))
  have hs : c ≠ '/' := by
    rintro rfl
    exact Bool.eq_false_iff.mp ha (Path.isAbsolute_iff.mpr ⟨cs, hc⟩)
  obtain ⟨f, fs, -, hf⟩ := Text.fields_cons hs cs
  unfold steps
  rw [hc, hf, List.map_cons, List.filter_cons_of_pos (by simp)]
  exact List.cons_ne_nil _ _

theorem find_follows {root : Node} (hr : root.isDir = true) {cwd location : Location} {p : String}
    {n : Node} (h : find root cwd p = .ok (location, n)) (target : String) : n ≠ .link target := by
  obtain ⟨wants, ha, -⟩ := find_eq_ok.mp h
  obtain ⟨⟨-, hp, -⟩, ha⟩ := arrive_eq_ok.mp ha
  refine walk_follows hr _ _ (fun hs => ?_) ha target
  split
  · exact hr
  · exact absurd hs (steps_ne_nil hp (Bool.eq_false_iff.mpr ‹_›))

end Provisioner.Files
