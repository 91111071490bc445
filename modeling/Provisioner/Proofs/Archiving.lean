import Mathlib.Data.List.Nodup
import Provisioner.Proofs.Packing

namespace Provisioner

namespace Files

def isProper (name : String) : Bool :=
  name != "" && name != "." && name != ".." && !name.toList.contains '/'

namespace Node

mutual

/-- In each directory the names are proper and all different. -/
def orderly : Node → Bool
  | .dir _ es => orderlyEntries es
  | _ => true

def orderlyEntries : List (String × Node) → Bool
  | [] => true
  | e :: es => isProper e.1 && (es.lookup e.1).isNone && e.2.orderly && orderlyEntries es

end

mutual

/-- All nodes of a tree and where they are, each directory in front of what is in it. -/
def all : Node → List (Location × Node)
  | .dir mode es => ([], .dir mode es) :: allEntries es
  | n => [([], n)]

def allEntries : List (String × Node) → List (Location × Node)
  | [] => []
  | e :: es => (e.2.all.map fun p => (e.1 :: p.1, p.2)) ++ allEntries es

end

variable {n m : Node} {es : List (String × Node)} {name : String} {l : Location} {mode : Nat}

theorem isProper_iff : isProper name = true ↔
    name ≠ "" ∧ name ≠ "." ∧ name ≠ ".." ∧ '/' ∉ name.toList := by
  simp [isProper, and_assoc]

theorem orderlyEntries_cons {e : String × Node} : orderlyEntries (e :: es) = true ↔
    isProper e.1 = true ∧ es.lookup e.1 = none ∧ e.2.orderly = true ∧ orderlyEntries es = true := by
  simp [orderlyEntries, and_assoc]

theorem orderlyEntries_lookup (h : orderlyEntries es = true) (hl : es.lookup name = some m) :
    isProper name = true ∧ m.orderly = true := by
  induction es with
  | nil => cases hl
  | cons e es ih =>
    obtain ⟨hp, -, ho, hes⟩ := orderlyEntries_cons.mp h
    rw [lookup_cons] at hl
    split at hl
    · obtain rfl : name = e.1 := ‹_›
      cases hl
      exact ⟨hp, ho⟩
    · exact ih hes hl

/-- Whatever is below is orderly, and the way there has proper names. -/
theorem orderly_at? (h : n.orderly = true) (hm : n.at? l = some m) :
    m.orderly = true ∧ ∀ x ∈ l, isProper x = true := by
  induction l generalizing n with
  | nil =>
    cases hm
    exact ⟨h, List.forall_mem_nil _⟩
  | cons x l ih =>
    rw [at?_cons] at hm
    obtain ⟨c, hc, hm'⟩ := Option.bind_eq_some_iff.mp hm
    cases n with
    | dir mode es =>
      rw [orderly] at h
      obtain ⟨hx, hc⟩ := orderlyEntries_lookup h hc
      obtain ⟨hm, hl⟩ := ih hc hm'
      exact ⟨hm, List.forall_mem_cons.mpr ⟨hx, hl⟩⟩
    | file | link | device => cases hc

theorem ne_nil_of_mem_allEntries (h : (l, m) ∈ allEntries es) : l ≠ [] := by
  induction es with
  | nil => cases h
  | cons e es ih =>
    rw [allEntries, List.mem_append] at h
    rcases h with h | h
    · obtain ⟨p, -, hp⟩ := List.mem_map.mp h
      cases hp
      exact List.cons_ne_nil _ _
    · exact ih h

mutual

theorem mem_all (n : Node) (l : Location) (m : Node) (h : n.orderly = true) :
    (l, m) ∈ n.all ↔ n.at? l = some m := by
  cases n with
  | dir mode es =>
    rw [orderly] at h
    rw [all, List.mem_cons, Prod.mk.injEq]
    cases l with
    | nil =>
      have hn : ([], m) ∉ allEntries es := fun h => ne_nil_of_mem_allEntries h rfl
      simp [hn, at?, eq_comm]
    | cons x l =>
      simp only [reduceCtorEq, false_and, false_or, at?_cons, entries]
      exact mem_allEntries es x l m h
  | file | link | device =>
    cases l with
    | nil => simp [all, at?, eq_comm]
    | cons x l => simp [all, at?_cons, entries]

theorem mem_allEntries (es : List (String × Node)) (x : String) (l : Location) (m : Node)
    (h : orderlyEntries es = true) :
    (x :: l, m) ∈ allEntries es ↔ (es.lookup x).bind (at? · l) = some m := by
  cases es with
  | nil => simp [allEntries]
  | cons e es =>
    obtain ⟨-, hn, ho, hes⟩ := orderlyEntries_cons.mp h
    rw [allEntries, List.mem_append, mem_allEntries es x l m hes, lookup_cons]
    by_cases hx : x = e.1
    · -- Further on there is nothing else of this name.
      rw [if_pos hx, hx, hn, Option.bind_some, ← mem_all e.2 l m ho]
      simp
    · have hm : (x :: l, m) ∉ e.2.all.map fun p => (e.1 :: p.1, p.2) := by
        simp [Ne.symm hx]
      rw [if_neg hx, or_iff_right hm]

end

mutual

theorem all_nodup (n : Node) (h : n.orderly = true) : (n.all.map (·.1)).Nodup := by
  cases n with
  | dir mode es =>
    rw [orderly] at h
    rw [all, List.map_cons, List.nodup_cons]
    refine ⟨fun hm => ?_, allEntries_nodup es h⟩
    obtain ⟨⟨l, m⟩, hp, hl⟩ := List.mem_map.mp hm
    exact ne_nil_of_mem_allEntries hp hl
  | file | link | device => exact List.nodup_singleton _

theorem allEntries_nodup (es : List (String × Node)) (h : orderlyEntries es = true) :
    ((allEntries es).map (·.1)).Nodup := by
  cases es with
  | nil => exact List.nodup_nil
  | cons e es =>
    obtain ⟨-, hn, ho, hes⟩ := orderlyEntries_cons.mp h
    rw [allEntries, List.map_append, List.map_map, List.nodup_append]
    refine ⟨?_, allEntries_nodup es hes, ?_⟩
    · have hm := (all_nodup e.2 ho).map (List.cons_injective (a := e.1))
      rwa [List.map_map] at hm
    · -- A location in both parts would begin with a name that is in the directory twice.
      rintro l hl _ hl' rfl
      obtain ⟨⟨k, m⟩, -, rfl⟩ := List.mem_map.mp hl
      obtain ⟨⟨_, m'⟩, hm', rfl⟩ := List.mem_map.mp hl'
      have hk := (mem_allEntries es e.1 k m' hes).mp hm'
      rw [hn] at hk
      cases hk

end

end Node

end Files

namespace Tar

/-- Where an entry lands, seen from where its archive is unpacked. -/
def Entry.place (e : Entry) : List String := e.name.filter (· != ".")

def Entry.Shows (e : Entry) : Files.Node → Prop
  | .file mode bytes => e.mode = mode ∧ e.content = .file bytes
  | .dir mode _ => e.mode = mode ∧ e.content = .dir
  | .link target => e.mode = 0o777 ∧ e.content = .link (entryTarget target)
  | .device => e.content = .special

/-- The archive has one entry for each node of the tree, in its place below `base`, and no others.
The tree itself has one only if it is `whole`. -/
structure Depicts (base : List String) (whole : Prop) (tree : Files.Node) (a : Archive) : Prop where
  each : ∀ l m, tree.at? l = some m → (l = [] → whole) →
    ∃ e ∈ a, e.place = base ++ l ∧ e.Shows m
  only : ∀ e ∈ a, ∃ l m, tree.at? l = some m ∧ (l = [] → whole) ∧ e.place = base ++ l ∧ e.Shows m
  once : (a.map Entry.place).Nodup
  inside : ∀ e ∈ a, ∀ x ∈ e.name, x ≠ ".." ∧ '/' ∉ x.toList

def entryOf (name : List String) : Files.Node → Entry
  | .file mode bytes => ⟨entryName name, mode, .file bytes⟩
  | .dir mode _ => ⟨entryName name, mode, .dir⟩
  | .link target => ⟨entryName name, 0o777, .link (entryTarget target)⟩
  | .device => ⟨entryName name, 0o666, .special⟩

mutual

theorem ofNode_eq (name : List String) (n : Files.Node) :
    ofNode name n = n.all.map fun p => entryOf (name ++ p.1) p.2 := by
  cases n with
  | dir mode es =>
    rw [ofNode, Files.Node.all, List.map_cons, ofEntries_eq, List.append_nil]
    rfl
  | file | link | device => simp [ofNode, Files.Node.all, entryOf]

theorem ofEntries_eq (name : List String) (es : List (String × Files.Node)) :
    ofEntries name es =
      (Files.Node.allEntries es).map fun p => entryOf (name ++ p.1) p.2 := by
  cases es with
  | nil => rfl
  | cons e es =>
    rw [ofEntries, Files.Node.allEntries, List.map_append, List.map_map, ← ofEntries_eq,
      ofNode_eq]
    simp [Function.comp_def]

end

theorem entryName_place (name : List String) :
    (entryName name).filter (· != ".") = name.filter (· != ".") := by
  unfold entryName
  split
  · split <;> simp
  · rfl

theorem entryName_subset (name : List String) : entryName name ⊆ name := by
  unfold entryName
  split
  · split
    · exact List.subset_cons_self _ _
    · exact List.Subset.refl _
  · exact List.Subset.refl _

theorem entryOf_name (name : List String) (m : Files.Node) :
    (entryOf name m).name = entryName name := by
  cases m <;> rfl

theorem entryOf_shows (name : List String) (m : Files.Node) : (entryOf name m).Shows m := by
  cases m with
  | file | dir | link => exact ⟨rfl, rfl⟩
  | device => rfl

theorem entryOf_place {name l : List String} (m : Files.Node)
    (hl : ∀ x ∈ l, Files.isProper x = true) :
    (entryOf (name ++ l) m).place = name.filter (· != ".") ++ l := by
  have hs : l.filter (· != ".") = l := by
    refine List.filter_eq_self.mpr fun x hx => ?_
    simpa using (Files.Node.isProper_iff.mp (hl x hx)).2.1
  rw [Entry.place, entryOf_name, entryName_place, List.filter_append, hs]

section

variable {tree : Files.Node} (ht : tree.orderly = true) {name : List String}
  (hn : ∀ x ∈ name, x ≠ ".." ∧ '/' ∉ x.toList)

include ht hn

theorem depicts_of_nodes {whole : Prop} {nodes : List (Files.Location × Files.Node)}
    (hm : ∀ l m, (l, m) ∈ nodes ↔ tree.at? l = some m ∧ (l = [] → whole))
    (ho : (nodes.map (·.1)).Nodup) :
    Depicts (name.filter (· != ".")) whole tree
      (nodes.map fun p => entryOf (name ++ p.1) p.2) := by
  have proper {l : Files.Location} {m : Files.Node} (h : (l, m) ∈ nodes) :
      ∀ x ∈ l, Files.isProper x = true := (Files.Node.orderly_at? ht ((hm l m).mp h).1).2
  refine ⟨fun l m hl hw => ?_, fun e he => ?_, ?_, fun e he x hx => ?_⟩
  · have h := (hm l m).mpr ⟨hl, hw⟩
    exact ⟨_, List.mem_map_of_mem h, entryOf_place m (proper h), entryOf_shows _ m⟩
  · obtain ⟨⟨l, m⟩, h, rfl⟩ := List.mem_map.mp he
    obtain ⟨hl, hw⟩ := (hm l m).mp h
    exact ⟨l, m, hl, hw, entryOf_place m (proper h), entryOf_shows _ m⟩
  · have hp : (nodes.map fun p => entryOf (name ++ p.1) p.2).map Entry.place =
        (nodes.map (·.1)).map (name.filter (· != ".") ++ ·) := by
      rw [List.map_map, List.map_map]
      exact List.map_congr_left fun p h => entryOf_place p.2 (proper h)
    rw [hp]
    exact ho.map (List.append_right_injective _)
  · obtain ⟨⟨l, m⟩, h, rfl⟩ := List.mem_map.mp he
    rw [entryOf_name] at hx
    rcases List.mem_append.mp (entryName_subset _ hx) with hx | hx
    · exact hn x hx
    · exact (Files.Node.isProper_iff.mp (proper h x hx)).2.2

theorem ofNode_depicts : Depicts (name.filter (· != ".")) True tree (ofNode name tree) := by
  rw [ofNode_eq]
  refine depicts_of_nodes ht hn (fun l m => ?_) (Files.Node.all_nodup tree ht)
  rw [Files.Node.mem_all tree l m ht]
  simp

end

theorem ofEntries_depicts {mode : Nat} {es : List (String × Files.Node)}
    (ht : (Files.Node.dir mode es).orderly = true) :
    Depicts [] False (.dir mode es) (ofEntries [] es) := by
  rw [ofEntries_eq]
  refine depicts_of_nodes ht (List.forall_mem_nil _) (fun l m => ?_)
    (Files.Node.allEntries_nodup es ht)
  cases l with
  | nil =>
    exact iff_of_false (fun h => Files.Node.ne_nil_of_mem_allEntries h rfl) fun h => h.2 rfl
  | cons x l =>
    rw [Files.Node.mem_allEntries es x l m ht, Files.Node.at?_cons]
    simp [Files.Node.entries]

end Tar

namespace Copy

variable {host : Host} {p : String} {o : Origin} {d : Destination} {plan : Plan} {root : Root}

theorem baseName_slashless (o : Origin) : '/' ∉ o.baseName.toList := by
  unfold Origin.baseName
  cases h : Files.Path.fileName? o.path with
  | none => decide
  | some name =>
    unfold Files.Path.fileName? at h
    split at h
    · cases h
    · exact (Files.Path.isName_of_mem_names (List.mem_of_getLast? h)).slashless

theorem renaming_slashless (path : String) : '/' ∉ (Plan.renaming path).root.name.toList := by
  unfold Plan.renaming
  obtain hn | ⟨ys, zs, hd, hz⟩ := Text.exists_last '/' (Files.Path.trimEnd path).toList
  · simp only [Text.splitAtLast?_of_notMem hn]
    exact hn
  · simp only [hd, Text.splitAtLast?_append hz]
    cases ys with
    | nil | cons => rwa [Root.name, String.toList_ofList]

theorem make_slashless (hm : Plan.make o d = .ok plan) : '/' ∉ plan.root.name.toList := by
  obtain ⟨-, rfl⟩ | ⟨-, rfl⟩ := make_eq hm
  · unfold Plan.inside
    cases o.contentsOnly with
    | true => exact (by decide : '/' ∉ Root.contents.name.toList)
    | false => exact baseName_slashless o
  · exact renaming_slashless _

/-- The name that comes in front of all others in the archive. -/
def Root.base (root : Root) : List String := [root.name].filter fun n => n != "" && n != "."

theorem inspect_ok (hi : Origin.inspect host p = .ok o) :
    ∃ node, host.stat o.path = .ok node ∧ node.isDir = o.isDir := by
  unfold Origin.inspect at hi
  dsimp only at hi
  split at hi
  · cases hi
  · cases hi
    exact ⟨_, ‹_›, rfl⟩

theorem packNode_unnamed {node : Files.Node} (hf : (packNode "" node).failure = none) :
    ∃ mode es, node = .dir mode es ∧ (packNode "" node).entries = Tar.ofEntries [] es := by
  cases node with
  | dir mode es => exact ⟨mode, es, rfl, rfl⟩
  | file | link | device => cases hf

theorem packNode_parent (node : Files.Node) : (packNode ".." node).failure = some parentName := by
  cases node <;> rfl

theorem Root.name_eq_empty : root.name = "" ↔ root = .named "" := by
  cases root with
  | named name => rw [Root.name, Root.named.injEq]
  | contents => decide

theorem Root.base_eq (h : root.name ≠ "") : root.base = [root.name].filter (· != ".") := by
  have hb : (root.name != "") = true := bne_iff_ne.mpr h
  simp [Root.base, List.filter_cons, hb]

/-- A directory with a file and another directory, a link in that, and a link to all of it. -/
def linkedHost : Host where
  root := .dir 0o755 [("alias", .link "src"), ("src", .dir 0o750 [("f", .file 0o600 [107]),
    ("sub", .dir 0o700 [("l", .link "../f")])])]
  cwd := []
  home := none
  userProfile := none

def linkedOrigin : Origin := ⟨"/alias", true, false, false⟩

def respelledHost : Host where
  root := .dir 0o755 [("src", .dir 0o755 [("l", .link "a//b")])]
  cwd := []
  home := none
  userProfile := none

def respelledOrigin : Origin := ⟨"/src", true, false, false⟩

end Copy

end Provisioner
