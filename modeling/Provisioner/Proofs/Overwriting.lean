import Provisioner.Files.Host
import Provisioner.Proofs.Validation

namespace Provisioner

namespace Files

namespace Node

def face : Node → Node
  | .dir mode _ => .dir mode []
  | n => n

theorem face_isDir (n : Node) : n.face.isDir = n.isDir := by
  cases n <;> rfl

theorem at?_cons (n : Node) (name : String) (l : Location) :
    n.at? (name :: l) = (n.entries.lookup name).bind (at? · l) := rfl

theorem at?_cons_of_not_isDir {n : Node} (h : n.isDir = false) (name : String) (l : Location) :
    n.at? (name :: l) = none := by
  cases n with
  | dir => cases h
  | file | link | device => rfl

theorem lookup_cons (e : String × Node) (es : List (String × Node)) (other : String) :
    (e :: es).lookup other = if other = e.1 then some e.2 else es.lookup other := by
  rw [List.lookup_cons]
  by_cases h : other = e.1
  · rw [if_pos h, beq_iff_eq.mpr h]
  · rw [if_neg h, beq_false_of_ne h]

theorem lookup_putEntry (name other : String) (node : Node) (es : List (String × Node)) :
    (putEntry name node es).lookup other =
      if other = name then some node else es.lookup other := by
  induction es with
  | nil => rw [putEntry, lookup_cons]
  | cons e es ih =>
    rw [putEntry]
    split
    · obtain rfl : e.1 = name := beq_iff_eq.mp ‹_›
      rw [lookup_cons, lookup_cons]
      split <;> rfl
    · have hn : e.1 ≠ name := fun h => ‹¬(e.1 == name) = true› (beq_iff_eq.mpr h)
      rw [lookup_cons, lookup_cons, ih]
      split
      · rename_i ho
        rw [if_neg (ho ▸ hn)]
      · rfl

/-- The way to a location leads into a directory, to what is there or to a free name. -/
theorem Reaches.cons {root : Node} {name : String} {rest : Location}
    (h : root.Reaches (name :: rest)) : ∃ mode es, root = .dir mode es ∧
      ((rest = [] ∧ es.lookup name = none) ∨ ∃ d, es.lookup name = some d ∧ d.Reaches rest) := by
  obtain h | h := h
  · cases h
  · cases rest with
    | nil =>
      cases root with
      | dir mode es =>
        refine ⟨mode, es, rfl, ?_⟩
        cases he : es.lookup name with
        | none => exact .inl ⟨rfl, rfl⟩
        | some d => exact .inr ⟨d, rfl, .inl rfl⟩
      | file | link | device => cases h
    | cons next rest =>
      cases root with
      | dir mode es =>
        rw [List.dropLast_cons_of_ne_nil (List.cons_ne_nil _ _), at?_cons] at h
        cases he : es.lookup name with
        | none =>
          rw [entries, he] at h
          cases h
        | some d =>
          rw [entries, he] at h
          exact ⟨mode, es, rfl, .inr ⟨d, he, .inr h⟩⟩
      | file | link | device => cases h

theorem at?_put_cons {mode : Nat} {es : List (String × Node)} (name other : String)
    (rest l : Location) (node : Node) :
    (put (.dir mode es) (name :: rest) node).at? (other :: l) =
      if other = name then (put ((es.lookup name).getD (.dir 0o755 [])) rest node).at? l
      else (dir mode es).at? (other :: l) := by
  rw [put, at?_cons, entries, lookup_putEntry]
  split
  · rfl
  · rfl

theorem at?_put_self {root : Node} {here : Location} (h : root.Reaches here) (node : Node) :
    (root.put here node).at? here = some node := by
  induction here generalizing root with
  | nil => rfl
  | cons name rest ih =>
    obtain ⟨mode, es, rfl, ⟨rfl, -⟩ | ⟨d, hd, hr⟩⟩ := h.cons
    · rw [at?_put_cons, if_pos rfl]
      rfl
    · rw [at?_put_cons, if_pos rfl, hd]
      exact ih hr

/-- A file takes no directory's place, so nothing else is gone or new. -/
theorem face_at?_put {root : Node} {here : Location} (h : root.Reaches here)
    (hb : ∀ n, root.at? here = some n → n.isDir = false) (mode : Nat) (content : Bytes)
    {l : Location} (hl : l ≠ here) :
    ((root.put here (.file mode content)).at? l).map face = (root.at? l).map face := by
  -- Only the entry that the location begins with changes, and in it what the rest of it says.
  induction here generalizing root l with
  | nil =>
    cases l with
    | nil => exact absurd rfl hl
    | cons other l => rw [at?_cons_of_not_isDir (hb root rfl)]; rfl
  | cons name rest ih =>
    obtain ⟨_, es, rfl, hr⟩ := h.cons
    cases l with
    | nil => rfl
    | cons other l =>
      rw [at?_put_cons]
      split
      · rename_i ho
        subst ho
        have hl : l ≠ rest := fun h => hl (h ▸ rfl)
        obtain ⟨rfl, he⟩ | ⟨d, hd, hr⟩ := hr
        · rw [at?_cons, entries, he]
          cases l with
          | nil => exact absurd rfl hl
          | cons => rfl
        · rw [at?_cons, entries, hd] at hb ⊢
          exact ih hr hb hl
      · rfl

end Node

structure Written (root root' : Node) (here : Location) (content : Bytes) : Prop where
  file : ∃ mode, root'.at? here = some (.file mode content)
  before : ∀ n, root.at? here = some n → ∃ mode old, n = .file mode old
  elsewhere : ∀ l ≠ here, (root'.at? l).map Node.face = (root.at? l).map Node.face

theorem written_put {root : Node} {here : Location} (h : root.Reaches here)
    (hb : ∀ n, root.at? here = some n → ∃ mode old, n = .file mode old) (mode : Nat)
    (content : Bytes) : Written root (root.put here (.file mode content)) here content where
  file := ⟨mode, Node.at?_put_self h _⟩
  before := hb
  elsewhere := by
    intro l hl
    refine Node.face_at?_put h (fun n hn => ?_) mode content hl
    obtain ⟨mode, old, rfl⟩ := hb n hn
    rfl

namespace Written

variable {root root' : Node} {here l : Location} {content : Bytes}
  (hw : Written root root' here content)

include hw

theorem isDir (l : Location) :
    (root'.at? l).any Node.isDir = (root.at? l).any Node.isDir := by
  have hface (n : Option Node) : (n.map Node.face).any Node.isDir = n.any Node.isDir := by
    cases n with
    | none => rfl
    | some n => exact n.face_isDir
  by_cases hl : l = here
  · subst hl
    obtain ⟨mode, hf⟩ := hw.file
    rw [hf]
    cases hn : root.at? l with
    | none => rfl
    | some n =>
      obtain ⟨mode, old, rfl⟩ := hw.before n hn
      rfl
  · rw [← hface, hw.elsewhere l hl, hface]

theorem link {target : String} (h : root.at? l = some (.link target)) :
    root'.at? l = some (.link target) := by
  by_cases hl : l = here
  · subst hl
    obtain ⟨_, _, hn⟩ := hw.before _ h
    cases hn
  · have hf := hw.elsewhere l hl
    rw [h] at hf
    obtain ⟨n, hn, he⟩ := Option.map_eq_some_iff.mp hf
    rw [hn]
    cases n with
    | link => exact congrArg some he
    | file | dir | device => cases he

theorem node {n : Node} (h : root.at? l = some n) : ∃ n', root'.at? l = some n' ∧
    ((∀ target, n ≠ .link target) → ∀ target, n' ≠ .link target) := by
  by_cases hl : l = here
  · subst hl
    obtain ⟨mode, hf⟩ := hw.file
    exact ⟨_, hf, nofun⟩
  · have hf := hw.elsewhere l hl
    rw [h] at hf
    obtain ⟨n', hn', he⟩ := Option.map_eq_some_iff.mp hf
    refine ⟨n', hn', ?_⟩
    rintro hn target rfl
    cases n with
    | link => exact hn _ rfl
    | file | dir | device => cases he

theorem keeps : Keeps root root' := ⟨hw.isDir, hw.link, hw.node⟩

end Written

end Files

namespace Host

open Files

inductive Writes (h : Host) (p : String) (content : Bytes) : Host → Prop
  | file {a : Arrival} {root' : Node} (ha : arrive h.root h.cwd .write p = .ok a)
    (hw : Written h.root root' a.place.location content) :
    Writes h p content { h with root := root' }
  | device {here : Location} {n : Node} {wantsDir : Bool}
    (ha : arrive h.root h.cwd .write p = .ok ⟨.node here n, wantsDir⟩)
    (hn : ∀ mode old, n ≠ .file mode old) : Writes h p content h

variable {h h' : Host} {p : String} {content : Bytes}

theorem write_ok (hw : h.write p content = .ok h') : Writes h p content h' := by
  unfold write at hw
  cases ha : arrive h.root h.cwd .write p with
  | error e =>
    rw [ha] at hw
    cases hw
  | ok a =>
    rw [ha] at hw
    obtain ⟨place, wantsDir⟩ := a
    have ht := arrive_truthful ha
    cases place with
    | vacant dir name =>
      cases hw
      have hr : (h.root.at? (dir ++ [name]).dropLast).any Node.isDir = true := by
        rw [List.dropLast_concat]
        exact ht.1
      refine .file ha (written_put (.inr hr) (fun n hn => ?_) _ _)
      cases ht.2.symm.trans hn
    | node here n =>
      cases n with
      | file mode old =>
        cases hw
        refine .file ha (written_put (Node.reaches_of_at? ht) (fun n hn => ?_) _ _)
        exact ⟨mode, old, Option.some.inj (hn.symm.trans ht)⟩
      | dir => cases hw
      | link | device =>
        cases hw
        exact .device ha nofun

/-- The same machine at a later time: nothing that paths lead to is gone. -/
structure Later (h h' : Host) : Prop where
  cwd : h'.cwd = h.cwd
  home : h'.home = h.home
  userProfile : h'.userProfile = h.userProfile
  keeps : Keeps h.root h'.root

theorem Later.refl (h : Host) : Later h h := ⟨rfl, rfl, rfl, .refl _⟩

theorem Later.trans {h'' : Host} (hl : Later h h') (hl' : Later h' h'') : Later h h'' where
  cwd := hl'.cwd.trans hl.cwd
  home := hl'.home.trans hl.home
  userProfile := hl'.userProfile.trans hl.userProfile
  keeps := hl.keeps.trans hl'.keeps

theorem later_of_write (hw : h.write p content = .ok h') : Later h h' := by
  cases write_ok hw with
  | file _ hf => exact ⟨rfl, rfl, rfl, hf.keeps⟩
  | device => exact .refl h

theorem stat_eq_ok {n : Node} :
    h.stat p = .ok n ↔ ∃ l, find h.root h.cwd p = .ok (l, n) := by
  unfold stat
  cases find h.root h.cwd p with
  | error e => exact ⟨nofun, nofun⟩
  | ok found =>
    constructor
    · rintro hn
      cases hn
      exact ⟨found.1, rfl⟩
    · rintro ⟨l, hl⟩
      cases hl
      rfl

theorem Later.stat (hl : Later h h') {n : Node} (hs : h.stat p = .ok n) (hn : n.isDir = false) :
    ∃ n', h'.stat p = .ok n' ∧ n'.isDir = false := by
  obtain ⟨l, hf⟩ := stat_eq_ok.mp hs
  obtain ⟨n', hf', hn'⟩ := find_keeps hl.keeps hf hn
  exact ⟨n', stat_eq_ok.mpr ⟨l, hl.cwd ▸ hf'⟩, hn'⟩

theorem stat_of_isFile (h' : h.isFile p = true) :
    ∃ mode content, h.stat p = .ok (.file mode content) := by
  unfold isFile at h'
  split at h'
  · exact ⟨_, _, by assumption⟩
  · cases h'

theorem read_written (hw : h.write p content = .ok h') (hf : h'.isFile p = true) :
    h'.read p = .ok content := by
  obtain ⟨mode', content', hs⟩ := stat_of_isFile hf
  obtain ⟨l, hl⟩ := stat_eq_ok.mp hs
  obtain ⟨wantsDir, ha', -⟩ := find_eq_ok.mp hl
  have hc : content' = content := by
    cases write_ok hw with
    | @file a root' ha hr =>
      obtain ⟨mode, hn⟩ := hr.file
      obtain ⟨n, hn', hat⟩ := arrive_leads hr.keeps ha fun dir name hp =>
        ⟨mode, content, by rwa [hp] at hn⟩
      cases ha'.symm.trans hn'
      cases hat.symm.trans hn
      rfl
    | device ha hn =>
      obtain ⟨n, hn', hat⟩ := arrive_leads (.refl _) ha nofun
      cases ha'.symm.trans hn'
      have ht := arrive_truthful ha
      exact absurd (Option.some.inj (ht.symm.trans hat)) (hn _ _)
  unfold read
  rw [hs, hc]
  rfl

end Host

end Provisioner
