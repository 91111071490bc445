import Provisioner.Copy.Pack
import Provisioner.Proofs.Validation

namespace Provisioner

open Files.Path (IsName EndsIn)

/-- Both paths start at the root or neither does, and they have the same names. -/
def SamePlace (p q : String) : Prop :=
  Files.Path.isAbsolute p = Files.Path.isAbsolute q ∧ Files.Path.names p = Files.Path.names q

namespace Copy

variable {host : Host} {p q dest : String} {o : Origin} {plan : Plan}

theorem stripChars?_some {start cs rest : List Char}
    (h : Files.Path.stripChars? start cs = some rest) : cs = start ++ rest := by
  induction start generalizing cs with
  | nil => exact Option.some.inj h
  | cons d ds ih =>
    cases cs with
    | nil => cases h
    | cons c cs =>
      rw [Files.Path.stripChars?] at h
      split at h
      · rename_i hd
        rw [ih h, eq_of_beq hd, List.cons_append]
      · cases h

theorem marksContents_false {l : String} (h : EndsIn p l) (hl : l ≠ ".") :
    marksContents p = false := by
  unfold marksContents Files.Path.stripEnd?
  cases hs : Files.Path.stripChars? contentsMark.toList.reverse p.toList.reverse with
  | none => rfl
  | some rest =>
    have hp : p.toList = rest.reverse ++ '/' :: ['.'] := by
      have hr := congrArg List.reverse (stripChars?_some hs)
      rw [List.reverse_reverse, List.reverse_append] at hr
      exact hr
    have hd : l.toList = ['.'] := h.unique hp (by decide)
    exact absurd (String.toList_inj.mp hd) hl

/-- A validated path is taken for what it names, whatever the working directory. -/
theorem resolve_filePath (hp : FilePath p) (host : Host) :
    ∃ q l, Source.resolve host p = .ok (.path q) ∧ SamePlace q p ∧ EndsIn q l ∧ IsName l ∧
      Files.Path.fileName? p = some l ∧ Files.Path.fileName? q = some l := by
  obtain ⟨ha, l, he, hl, hu⟩ := hp.shape
  have hn : p ≠ "" := by
    rintro rfl
    cases ha
  have hd : p ≠ "-" := by
    rintro rfl
    cases ha
  obtain ⟨q, hq⟩ := Files.Path.absolute?_some host.cwdPath hn
  obtain ⟨hqa, hqn, hqe⟩ := Files.Path.absolute?_names ha he hl hq
  refine ⟨q, l, ?_, ⟨hqa.trans ha.symm, hqn⟩, hqe, hl, he.fileName hl hu, hqe.fileName hl hu⟩
  unfold Source.resolve Host.absolute
  rw [if_neg (by simpa using hd), hq]
  simp [marksContents_false he hl.ne_dot, he.endsWithSlash hl.ne_empty]

theorem resolved_filePath {r : Source} (hp : FilePath p) (hr : Source.resolve host p = .ok r) :
    ∃ q l, r = .path q ∧ SamePlace q p ∧ EndsIn q l ∧ IsName l ∧
      Files.Path.fileName? p = some l ∧ Files.Path.fileName? q = some l := by
  obtain ⟨q, l, hq, h⟩ := resolve_filePath hp host
  rw [hq] at hr
  cases hr
  exact ⟨q, l, rfl, h⟩

theorem inspect_file {l : String} (h : EndsIn q l) (hl : IsName l)
    (ho : Origin.inspect host q = .ok o) : o.path = q ∧ o.contentsOnly = false := by
  unfold Origin.inspect at ho
  simp only [marksContents_false h hl.ne_dot, h.endsWithSlash hl.ne_empty, Bool.or_false,
    Bool.false_eq_true, if_false] at ho
  split at ho
  · cases ho
  · cases ho
    exact ⟨rfl, rfl⟩

/-- A path is the last name in it and what that name is put to: the working directory if there is no
slash, and the root if the only slash comes first. -/
inductive Splits : String → String → String → Prop
  | alone {name : String} (h : '/' ∉ name.toList) : Splits name "." name
  | atRoot (name : String) : Splits ("/" ++ name) "/" name
  | below {dir name : String} (h : dir ≠ "") : Splits (dir ++ "/" ++ name) dir name

theorem Splits.samePlace {dir name : String} (h : Splits p dir name) (hs : '/' ∉ name.toList) :
    SamePlace (Files.Path.join dir name) p := by
  have hr := Files.Path.isAbsolute_slashless hs
  have hn := Files.Path.names_join_relative dir hr
  cases h with
  | alone =>
    refine ⟨?_, by rw [hn]; rfl⟩
    rw [Files.Path.join, hr, if_neg Bool.false_ne_true, if_neg (by decide), String.append_assoc,
      Files.Path.isAbsolute_append (by decide)]
    rfl
  | atRoot =>
    have hj : Files.Path.join "/" name = "/" ++ name := by
      rw [Files.Path.join, hr, if_neg Bool.false_ne_true, if_pos (by decide)]
    rw [hj]
    exact ⟨rfl, rfl⟩
  | below hd =>
    have hj : Files.Path.isAbsolute (Files.Path.join dir name) = Files.Path.isAbsolute dir := by
      rw [Files.Path.join, hr, if_neg Bool.false_ne_true]
      split
      · exact Files.Path.isAbsolute_append hd name
      · rw [String.append_assoc, Files.Path.isAbsolute_append hd]
    constructor
    · rw [hj, String.append_assoc, Files.Path.isAbsolute_append hd]
    · have ha := Files.Path.names_append dir.toList name.toList
      rw [String.ofList_toList, String.ofList_toList] at ha
      rw [hn, ← ha]
      exact congrArg Files.Path.names (String.toList_inj.mp (by simp))

/-- What is renamed goes under the last name of its new path, into what stands in front of that. -/
theorem renaming_splits (hd : ∃ c ∈ dest.toList, c ≠ '/') :
    ∃ dir name, Plan.renaming dest = ⟨dir, .named name⟩ ∧ name ≠ "" ∧ '/' ∉ name.toList ∧
      Splits (Files.Path.trimEnd dest) dir name := by
  have he := Files.Path.trimEnd_ne_empty hd
  have hs := Files.Path.endsWithSlash_trimEnd dest
  unfold Plan.renaming
  generalize Files.Path.trimEnd dest = trimmed at he hs
  obtain hn | ⟨ys, zs, ht, hz⟩ := Text.exists_last '/' trimmed.toList
  · simp only [Text.splitAtLast?_of_notMem hn]
    exact ⟨_, _, rfl, he, hn, .alone hn⟩
  have hz' : zs ≠ [] := fun h =>
    Bool.eq_false_iff.mp hs (Files.Path.endsWithSlash_iff.mpr ⟨ys, h ▸ ht⟩)
  have ht' : trimmed = String.ofList ys ++ "/" ++ String.ofList zs := by
    rw [← String.toList_inj, ht]
    simp
  simp only [ht, Text.splitAtLast?_append hz]
  cases ys with
  | nil =>
    refine ⟨_, _, rfl, by simpa using hz', by simpa using hz, ?_⟩
    rw [ht']
    exact .atRoot _
  | cons y ys =>
    refine ⟨_, _, rfl, by simpa using hz', by simpa using hz, ?_⟩
    rw [ht']
    exact .below (by simp)

theorem renaming_samePlace (ha : Files.Path.isAbsolute dest = true)
    (hs : Files.Path.endsWithSlash dest = false) :
    ∃ d name, Plan.renaming dest = ⟨d, .named name⟩ ∧ name ≠ "" ∧
      SamePlace (Files.Path.join d name) dest := by
  have hc : ∃ c ∈ dest.toList, c ≠ '/' := by
    obtain ⟨xs, hx⟩ := Files.Path.isAbsolute_iff.mp ha
    refine ⟨_, List.getLast_mem (hx ▸ List.cons_ne_nil _ _), fun hl => ?_⟩
    have hg := List.getLast?_eq_some_getLast (hx ▸ List.cons_ne_nil '/' xs : dest.toList ≠ [])
    rw [hl] at hg
    exact Bool.eq_false_iff.mp hs (beq_iff_eq.mpr hg)
  obtain ⟨dir, name, hr, hn, hsl, h⟩ := renaming_splits hc
  rw [Files.Path.trimEnd_eq hs] at h
  exact ⟨dir, name, hr, hn, h.samePlace hsl⟩

theorem packFile_entries {name : String} {node : Files.Node} (hn : name ≠ "")
    (hf : (packFile name node).failure = none) :
    (packFile name node).entries = Tar.ofNode [name] node := by
  unfold packFile at hf ⊢
  rw [if_neg (by simpa using hn)] at hf ⊢
  split at hf
  · cases hf
  · rfl

theorem packDir_entries {name : String} {mode : Nat} {es : List (String × Files.Node)}
    (hn : name ≠ "") (hf : (packDir name mode es).failure = none) :
    (packDir name mode es).entries = Tar.ofNode [name] (.dir mode es) := by
  unfold packDir at hf ⊢
  rw [if_neg (by simpa using hn)] at hf ⊢
  split at hf
  · cases hf
  · rfl

theorem packNode_entries {name : String} {node : Files.Node} (hn : name ≠ "")
    (hf : (packNode name node).failure = none) :
    (packNode name node).entries = Tar.ofNode [name] node := by
  cases node with
  | dir mode es => exact packDir_entries hn hf
  | file | link | device => exact packFile_entries hn hf

theorem Packed.upTo_complete {p : Packed} {faults : List (Option IoError)}
    (hf : (p.upTo faults).failure = none) : p.upTo faults = p := by
  unfold upTo at hf ⊢
  split at hf
  · rfl
  · cases hf

/-- What is packed without a failure could be opened, all of it. -/
theorem pack_complete {root : Root} (hf : (pack host o root).failure = none) :
    ∃ node, host.stat o.path = .ok node ∧ pack host o root = packNode root.name node := by
  unfold pack at hf ⊢
  unfold Host.stat
  cases h : Files.find host.root host.cwd o.path with
  | error e =>
    rw [h] at hf
    cases hf
  | ok found =>
    obtain ⟨location, node⟩ := found
    rw [h] at hf
    cases hs : host.shut location with
    | some e =>
      simp only [hs] at hf
      cases hf
    | none =>
      simp only [hs] at hf ⊢
      exact ⟨node, rfl, Packed.upTo_complete hf⟩

theorem pack_named {name : String} (hn : name ≠ "")
    (hf : (pack host o (.named name)).failure = none) :
    ∃ node, host.stat o.path = .ok node ∧
      (pack host o (.named name)).entries = Tar.ofNode [name] node := by
  obtain ⟨node, hs, hp⟩ := pack_complete hf
  rw [hp] at hf ⊢
  exact ⟨node, hs, packNode_entries hn hf⟩

/-- A copy goes into a directory under its own name, or it takes the place of what is there. -/
inductive Lands (host : Host) (p dest : String) : Option PathStat → String → Tar.Archive → Prop
  | inside {st : PathStat} {name q : String} {node : Files.Node} (hk : st.kind = .directory)
    (hn : Files.Path.fileName? p = some name) (hq : SamePlace q p) (hs : host.stat q = .ok node) :
    Lands host p dest (some st) dest (Tar.ofNode [name] node)
  | renamed {st : Option PathStat} {d name q : String} {node : Files.Node}
    (hk : ∀ s, st = some s → s.kind = .file ∨ s.kind = .symlink)
    (hd : SamePlace (Files.Path.join d name) dest) (hq : SamePlace q p)
    (hs : host.stat q = .ok node) : Lands host p dest st d (Tar.ofNode [name] node)

theorem inside_named (hc : o.contentsOnly = false) (dir : String) :
    Plan.inside o dir = ⟨dir, .named o.baseName⟩ := by
  rw [Plan.inside, hc, if_neg Bool.false_ne_true]

/-- A copy goes into what is there only if that is a directory. -/
theorem make_eq {d : Destination} (hm : Plan.make o d = .ok plan) :
    (∃ st, d.stat = some st ∧ st.kind = .directory) ∧ plan = .inside o d.path ∨
      (∀ st, d.stat = some st → st.kind = .file ∨ st.kind = .symlink) ∧
        plan = .renaming d.path := by
  unfold Plan.make at hm
  split at hm
  · cases hm
  · cases hs : d.stat with
    | none =>
      simp only [hs, Option.map_none] at hm
      split at hm
      · cases hm
      · exact .inr ⟨nofun, (Except.ok.inj hm).symm⟩
    | some st =>
      simp only [hs, Option.map_some] at hm
      cases hk : st.kind with
      | device | irregular =>
        simp only [hk] at hm
        cases hm
      | directory =>
        simp only [hk] at hm
        exact .inl ⟨⟨st, rfl, hk⟩, (Except.ok.inj hm).symm⟩
      | file | symlink =>
        simp only [hk] at hm
        split at hm
        · cases hm
        · refine .inr ⟨?_, (Except.ok.inj hm).symm⟩
          rintro _ ⟨⟩
          simp [hk]

/-- What is at a validated path goes into a directory under the name that the path ends in. -/
theorem filePath_inside {st : PathStat} (hp : FilePath p)
    (hr : Source.resolve host p = .ok (.path q)) (ho : Origin.inspect host q = .ok o)
    (hk : st.kind = .directory) (hm : Plan.make o ⟨dest, some st⟩ = .ok plan)
    (hf : (pack host o plan.root).failure = none) :
    plan.extractDir = dest ∧ ∃ name node, Files.Path.fileName? p = some name ∧ IsName name ∧
      SamePlace q p ∧ host.stat q = .ok node ∧
      (pack host o plan.root).entries = Tar.ofNode [name] node := by
  obtain ⟨_, l, ⟨⟩, hq, he, hl, hpl, hql⟩ := resolved_filePath hp hr
  obtain ⟨rfl, hc⟩ := inspect_file he hl ho
  obtain ⟨-, hplan⟩ | ⟨hk', -⟩ := make_eq hm
  · rw [inside_named hc] at hplan
    have hb : o.baseName = l := by rw [Origin.baseName, hql, Option.getD_some]
    rw [hplan] at hf ⊢
    obtain ⟨node, hn, hn'⟩ := pack_named (hb ▸ hl.ne_empty) hf
    exact ⟨rfl, l, node, hpl, hl, hq, hn, hb ▸ hn'⟩
  · obtain hk' | hk' := hk' st rfl <;> cases hk.symm.trans hk'

/-- A copy of what is at a validated path that comes to its end lands. -/
theorem filePath_lands {st : Option PathStat} (hp : FilePath p)
    (hr : Source.resolve host p = .ok (.path q)) (ho : Origin.inspect host q = .ok o)
    (hm : Plan.make o ⟨dest, st⟩ = .ok plan) (hf : (pack host o plan.root).failure = none)
    (ha : Files.Path.isAbsolute dest = true) (hd : Files.Path.endsWithSlash dest = false) :
    Lands host p dest st plan.extractDir (pack host o plan.root).entries := by
  obtain ⟨_, l, ⟨⟩, hq, he, hl, -, -⟩ := resolved_filePath hp hr
  obtain ⟨rfl, hc⟩ := inspect_file he hl ho
  obtain ⟨⟨s, rfl, hk⟩, -⟩ | ⟨hk, hplan⟩ := make_eq hm
  · obtain ⟨hd, name, node, hn, -, hq, hs, he⟩ := filePath_inside hp hr ho hk hm hf
    rw [hd, he]
    exact .inside hk hn hq hs
  · obtain ⟨d, name, hrn, hname, hdn⟩ := renaming_samePlace ha hd
    rw [hplan, hrn] at hf ⊢
    obtain ⟨node, hn, hn'⟩ := pack_named hname hf
    rw [hn']
    exact .renamed hk hdn hq hn

end Copy

end Provisioner
