import Provisioner.Proofs.Grammar

namespace Provisioner.Json

/-- The fields of a record, each under its name, and what says which value of it. -/
structure Layout (α : Type) where
  Field : Type
  name : Field → String
  Value : Field → Type
  get : (x : Field) → α → Value x
  put : (x : Field) → Value x → α → α
  Says : (x : Field) → Draft → Value x → Prop
  name_injective : Function.Injective name
  get_put (x : Field) (v : Value x) (a : α) : get x (put x v a) = v
  get_put_ne {x y : Field} (h : y ≠ x) (v : Value x) (a : α) : get y (put x v a) = get y a
  ext {a b : α} (h : ∀ x, get x a = get x b) : a = b

def named (ms : List (String × Draft)) : List (Draft × Draft) := ms.map fun m => (.string m.1, m.2)

/-- A member gives a value under a name, or there is none of that name and the value stays. -/
inductive Stands {β : Type} (ms : List (String × Draft)) (name : String) (Says : Draft → β → Prop)
    (before : β) : β → Prop
  | given {d : Draft} {v : β} (hm : (name, d) ∈ ms) (h : Says d v) : Stands ms name Says before v
  | kept (h : ∀ d, (name, d) ∉ ms) : Stands ms name Says before before

section

variable {α : Type} {fs : List (RecordField α)} {f : RecordField α} {seen : List String}
  {name : String} {d : Draft} {ms : List (Draft × Draft)} {a b : α}

theorem readMembers_field (hf : fs.find? (·.name == name) = some f) (hs : name ∉ seen)
    (hr : f.read d a = .ok b) :
    readMembers fs seen ((.string name, d) :: ms) a = readMembers fs (name :: seen) ms b := by
  rw [readMembers]
  simp [Draft.asString, hf, hs, hr, bind, Except.bind]

theorem readMembers_pass (hf : fs.find? (·.name == name) = none) (hd : d.skip = .ok ()) :
    readMembers fs seen ((.string name, d) :: ms) a = readMembers fs seen ms a := by
  rw [readMembers]
  simp [Draft.asString, hf, hd, bind, Except.bind]

end

namespace Stands

variable {β : Type} {ms : List (String × Draft)} {name name' : String} {Says : Draft → β → Prop}
  {before v : β} {d : Draft}

theorem of_absent (h : Stands ms name Says before v) (hm : ∀ d, (name, d) ∉ ms) : v = before := by
  cases h with
  | given h => exact absurd h (hm _)
  | kept => rfl

theorem of_head (h : Stands ((name, d) :: ms) name Says before v) (hm : ∀ d, (name, d) ∉ ms) :
    Says d v := by
  cases h with
  | given h hs =>
    obtain h | h := List.mem_cons.mp h
    · cases h
      exact hs
    · exact absurd h (hm _)
  | kept h => exact absurd List.mem_cons_self (h d)

theorem of_tail (h : Stands ((name', d) :: ms) name Says before v) (hn : name ≠ name') :
    Stands ms name Says before v := by
  cases h with
  | given h hs =>
    obtain h | h := List.mem_cons.mp h
    · cases h
      exact absurd rfl hn
    · exact .given h hs
  | kept h => exact .kept fun d hd => h d (.tail _ hd)

end Stands

namespace Layout

variable {α : Type} (l : Layout α)

def Once (ms : List (String × Draft)) : Prop := ∀ x, (ms.map Prod.fst).count (l.name x) ≤ 1

/-- A record with exactly the fields that are given in the place of those of another. -/
def Merges (ms : List (String × Draft)) (a b : α) : Prop :=
  ∀ x, Stands ms (l.name x) (l.Says x) (l.get x a) (l.get x b)

/-- The same fields are given by the same values, in any order and beside any other members. -/
def Alike (ms ms' : List (String × Draft)) : Prop := ∀ x d, (l.name x, d) ∈ ms ↔ (l.name x, d) ∈ ms'

/-- An object whose members give fields, each at most once, beside others of any name. -/
def Gives (before : α) (d : Draft) (a : α) : Prop :=
  ∃ ms, d = .object (named ms) none ∧ l.Once ms ∧ l.Merges ms before a

structure ReadBy (fs : List (RecordField α)) : Prop where
  field (x : l.Field) : ∃ f, fs.find? (·.name == l.name x) = some f ∧
    ∀ d v a, l.Says x d v → d.skip = .ok () → f.read d a = .ok (l.put x v a)
  rest (name : String) (h : ∀ x, l.name x ≠ name) : fs.find? (·.name == name) = none

variable {l} {fs : List (RecordField α)} {ms : List (String × Draft)} {m : String × Draft} {a b : α}

theorem Once.tail (h : l.Once (m :: ms)) : l.Once ms := fun x =>
  Nat.le_trans List.count_le_count_cons (h x)

theorem Once.absent {x : l.Field} {d : Draft} (h : l.Once ((l.name x, d) :: ms)) (d' : Draft) :
    (l.name x, d') ∉ ms := by
  intro hm
  have hc := h x
  rw [List.map_cons, List.count_cons_self] at hc
  have hp : 0 < (ms.map Prod.fst).count (l.name x) :=
    List.count_pos_iff.mpr (List.mem_map.mpr ⟨_, hm, rfl⟩)
  omega

theorem Merges.of_nil (h : l.Merges [] a b) : b = a :=
  l.ext fun x => (h x).of_absent fun _ => List.not_mem_nil

theorem Merges.pass {name : String} {d : Draft} (h : l.Merges ((name, d) :: ms) a b)
    (hn : ∀ x, l.name x ≠ name) : l.Merges ms a b := fun x => (h x).of_tail (hn x)

theorem Merges.alike {ms' : List (String × Draft)} (h : l.Merges ms a b) (hm : l.Alike ms ms') :
    l.Merges ms' a b := by
  intro x
  have hx := h x
  generalize l.get x b = v at hx
  cases hx with
  | given hd hs => exact .given ((hm x _).mp hd) hs
  | kept hd => exact .kept fun d hd' => hd d ((hm x d).mpr hd')

/-- Once a field has its value, the rest of the members merges into the record with it. -/
theorem Merges.put {x : l.Field} {d : Draft} (h : l.Merges ((l.name x, d) :: ms) a b)
    (ho : l.Once ((l.name x, d) :: ms)) : l.Merges ms (l.put x (l.get x b) a) b := by
  intro y
  by_cases hy : y = x
  · subst hy
    rw [l.get_put]
    exact .kept ho.absent
  · rw [l.get_put_ne hy]
    exact (h y).of_tail fun he => hy (l.name_injective he)

theorem ReadBy.members (hr : l.ReadBy fs) {seen : List String} (ho : l.Once ms) (hm : l.Merges ms a b)
    (hs : ∀ m ∈ ms, m.2.skip = .ok ()) (hn : ∀ name ∈ seen, ∀ d, (name, d) ∉ ms) :
    ∃ seen', readMembers fs seen (named ms) a = .ok (b, seen') := by
  induction ms generalizing a seen with
  | nil =>
    obtain rfl := hm.of_nil
    exact ⟨seen, rfl⟩
  | cons m ms ih =>
    obtain ⟨name, d⟩ := m
    obtain ⟨hd, hmore⟩ := List.forall_mem_cons.mp hs
    by_cases hx : ∃ x, l.name x = name
    · obtain ⟨x, rfl⟩ := hx
      obtain ⟨f, hf, hread⟩ := hr.field x
      have hseen : l.name x ∉ seen := fun h => hn _ h d List.mem_cons_self
      have hd := hread d _ a ((hm x).of_head ho.absent) hd
      rw [named, List.map_cons, readMembers_field hf hseen hd]
      refine ih ho.tail (hm.put ho) hmore ?_
      exact List.forall_mem_cons.mpr ⟨ho.absent, fun name h d' hd' => hn name h d' (.tail _ hd')⟩
    · have hx (x : l.Field) : l.name x ≠ name := fun h => hx ⟨x, h⟩
      rw [named, List.map_cons, readMembers_pass (hr.rest name hx) hd]
      exact ih ho.tail (hm.pass hx) hmore fun name h d' hd' => hn name h d' (.tail _ hd')

theorem skip_of_object (h : (Draft.object (named ms) none).skip = .ok ()) :
    ∀ m ∈ ms, m.2.skip = .ok () := by
  have hs : skipMembers (named ms) = .ok () := by
    rw [Draft.skip] at h
    cases hs : skipMembers (named ms) with
    | error f =>
      rw [hs] at h
      cases h
    | ok => rfl
  clear h
  induction ms with
  | nil => exact List.forall_mem_nil _
  | cons m ms ih =>
    rw [named, List.map_cons, skipMembers] at hs
    cases hm : m.2.skip with
    | error f =>
      simp only [hm] at hs
      cases hs
    | ok =>
      simp only [hm] at hs
      exact List.forall_mem_cons.mpr ⟨hm, ih hs⟩

/-- What the members of an object give takes the place of what was there before. -/
theorem ReadBy.record (hr : l.ReadBy fs) {d : Draft} (h : l.Gives a d b) (hs : d.skip = .ok ()) :
    readRecord fs a d = .ok b := by
  obtain ⟨ms, rfl, ho, hm⟩ := h
  obtain ⟨seen, h⟩ := hr.members ho hm (skip_of_object hs) (List.forall_mem_nil _)
  unfold readRecord readRecordWith
  simp only [h]
  rfl

end Layout

end Provisioner.Json
