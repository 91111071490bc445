import Mathlib.Tactic.MkIffOfInductiveProp
import Provisioner.Proofs.Archiving
import Provisioner.Proofs.Marks

namespace Provisioner.Copy

open Files.Path

variable {host : Host} {p : String} {o : Origin} {d : Destination} {node : Files.Node} {plan : Plan}

theorem inspect_meant (hi : Origin.inspect host p = .ok o) :
    (o.assertsDir = true ↔ Marked "/" p ∨ Marked "/." p) ∧
      (o.contentsOnly = true ↔ Marked "/." p) := by
  unfold Origin.inspect at hi
  dsimp only at hi
  split at hi
  · cases hi
  · cases hi
    simp only [marksContents_eq, Bool.or_eq_true, decide_eq_true_eq, Mark.of_contents,
      ← marked_slash, and_true]
    exact or_comm

@[mk_iff]
structure Allowed (p : String) (node : Files.Node) (d : Destination) : Prop where
  meant : Marked "/" p ∨ Marked "/." p → node.isDir = true
  copyable : ∀ st, d.stat = some st → st.kind ≠ .device ∧ st.kind ≠ .irregular
  overFile : node.isDir = true → ∀ st, d.stat = some st → st.kind ≠ .file ∧ st.kind ≠ .symlink
  missingDir : node.isDir = false → d.stat = none → ¬Marked "/" d.path

theorem make_ok_iff (ha : o.assertsDir = true ↔ Marked "/" p ∨ Marked "/." p)
    (hn : node.isDir = o.isDir) : (∃ plan, Plan.make o d = .ok plan) ↔ Allowed p node d := by
  rw [allowed_iff, ← ha, hn, marked_slash]
  unfold Plan.make
  split
  · rename_i hg
    have hm : o.assertsDir = true ∧ o.isDir = false := by
      rwa [Bool.and_eq_true, Bool.not_eq_true'] at hg
    simp [hm]
  · rename_i hg
    have hm : o.assertsDir = true → o.isDir = true := by simpa using hg
    -- From here on it counts what is at the destination and whether the source is a directory.
    cases hs : d.stat with
    | none => cases hd : o.isDir <;> cases he : endsWithSlash d.path <;> simp_all
    | some st => cases hk : st.kind <;> cases hd : o.isDir <;> simp_all

/-- What is copied goes into a directory that is there, with its name or without, or it takes the
place of whatever else is there or is to be. -/
inductive Fits (p : String) (node : Files.Node) (o : Origin) (d : Destination) : Plan → Prop
  | contents (hd : ∃ st, d.stat = some st ∧ st.kind = .directory) (hp : Marked "/." p)
    (hn : node.isDir = true) : Fits p node o d ⟨d.path, .contents⟩
  | inside (hd : ∃ st, d.stat = some st ∧ st.kind = .directory) (hp : ¬Marked "/." p) :
    Fits p node o d ⟨d.path, .named o.baseName⟩
  | inPlace {dir name : String} (hd : ∀ st, d.stat = some st → st.kind ≠ .directory)
    (hn : name ≠ "" ∧ '/' ∉ name.toList) (hs : Splits (trimEnd d.path) dir name)
    (hj : SamePlace (Files.Path.join dir name) (trimEnd d.path)) :
    Fits p node o d ⟨dir, .named name⟩

theorem make_fits (hc : o.contentsOnly = true ↔ Marked "/." p) (ha : Allowed p node d)
    (hd : ∃ c ∈ d.path.toList, c ≠ '/') (hm : Plan.make o d = .ok plan) :
    Fits p node o d plan := by
  obtain ⟨hk, rfl⟩ | ⟨hk, rfl⟩ := make_eq hm
  · unfold Plan.inside
    split
    · have hp : Marked "/." p := hc.mp ‹_›
      exact .contents hk hp (ha.meant (.inr hp))
    · exact .inside hk (mt hc.mpr ‹_›)
  · have hk' (st : PathStat) (hs : d.stat = some st) : st.kind ≠ .directory := by
      rcases hk st hs with h | h <;> simp [h]
    obtain ⟨dir, name, hr, hn, hs, h⟩ := renaming_splits hd
    rw [hr]
    exact .inPlace hk' ⟨hn, hs⟩ h (h.samePlace hs)

def contentsOrigin : Origin := ⟨"/src", true, true, true⟩

def doubledDestination : Destination := ⟨"/a//b//", none⟩

end Provisioner.Copy
