import Provisioner.Proofs.Overwriting
import Provisioner.Proofs.Plans
import Provisioner.Proofs.Texts

namespace Provisioner

open Files.Path (IsName EndsIn)

theorem Files.Path.EndsIn.subset {p l : String} (h : EndsIn p l) : l.toList ⊆ p.toList := by
  rcases Text.exists_last '/' p.toList with hn | ⟨ys, zs, hp, hz⟩
  · rw [EndsIn, Text.fields_single hn, List.getLast?_singleton, Option.some.injEq] at h
    exact h ▸ List.Subset.refl _
  · rw [h.unique hp hz, hp]
    exact fun c hc => List.mem_append_right ys (List.mem_cons_of_mem '/' hc)

namespace Copy

variable {host : Host} {p source dest name : String} {mode : Nat} {content : Bytes}

theorem nameFault?_none (hd : name ≠ "..") (hz : '\x00' ∉ name.toList) :
    nameFault? name = none := by
  have hz : ((Text.bytes name).take Tar.pathField).contains 0 = false := by
    rw [Bool.eq_false_iff, ne_eq, List.contains_iff_mem]
    exact fun h => Text.zero_notMem_bytes hz (List.mem_of_mem_take h)
  rw [nameFault?, if_neg (by simpa using hd), if_neg (Bool.eq_false_iff.mp hz)]

def Opens (host : Host) (p : String) : Prop :=
  ∀ location node, Files.find host.root host.cwd p = .ok (location, node) → host.shut location = none

/-- A path that leads to a file: what is looked at, and the archive that it is packed into if the
file can be opened. -/
theorem pack_isFile (h : host.isFile p = true) (ho : Opens host p) : ∃ name mode content,
    Files.Path.fileName? p = some name ∧ host.stat p = .ok (.file mode content) ∧
      Origin.inspect host p = .ok ⟨p, false, false, false⟩ ∧
      pack host ⟨p, false, false, false⟩ (.named name) =
        { entries := Tar.ofNode [name] (.file mode content) } := by
  obtain ⟨mode, content, hs⟩ := Host.stat_of_isFile h
  obtain ⟨location, hf⟩ := Host.stat_eq_ok.mp hs
  obtain ⟨l, he, hl, hd⟩ := Files.find_endsIn hf rfl
  obtain ⟨wants, ha, -⟩ := Files.find_eq_ok.mp hf
  have hz : '\x00' ∉ l.toList := fun hz => (Files.arrive_eq_ok.mp ha).1.1 (he.subset hz)
  refine ⟨l, mode, content, he.fileName hl hd, hs, ?_, ?_⟩
  · unfold Origin.inspect
    simp only [marksContents_false he hl.ne_dot, he.endsWithSlash hl.ne_empty,
      Bool.or_false, Bool.false_eq_true, if_false]
    rw [hs]
    simp only [Files.Node.isDir]
  · have hn : ¬(l == "") = true := by simpa using hl.ne_empty
    have hp : packNode l (.file mode content) =
        { entries := Tar.ofNode [l] (.file mode content) } := by
      simp only [packNode, packFile, if_neg hn, nameFault?_none hd hz]
    simp only [pack, hf, ho location _ hf, Root.name, hp, if_neg hn, faults]
    rfl

def IsFile (host : Host) (source : String) : Prop :=
  ∃ p, Source.resolve host source = .ok (.path p) ∧ host.isFile p = true ∧ Opens host p

inductive Wraps (host : Host) (source : String) : Tar.Archive → Prop
  | wrap {p name : String} {mode : Nat} {content : Bytes}
    (hr : Source.resolve host source = .ok (.path p)) (hn : Files.Path.fileName? p = some name)
    (hs : host.stat p = .ok (.file mode content)) :
    Wraps host source (Tar.ofNode [name] (.file mode content))

end Copy

end Provisioner
