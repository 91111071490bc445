import Provisioner.Files.Walk
import Provisioner.Proofs.Texts

namespace Provisioner

namespace Text

variable {α : Type} {sep : α}

theorem exists_last (sep : α) (xs : List α) :
    sep ∉ xs ∨ ∃ ys zs, xs = ys ++ sep :: zs ∧ sep ∉ zs := by
  induction xs with
  | nil => exact .inl List.not_mem_nil
  | cons x xs ih =>
    rcases ih with h | ⟨ys, zs, rfl, h⟩
    · by_cases hx : x = sep
      · exact .inr ⟨[], xs, by rw [hx, List.nil_append], h⟩
      · refine .inl fun hm => ?_
        rcases List.mem_cons.mp hm with rfl | hm
        · exact hx rfl
        · exact h hm
    · exact .inr ⟨x :: ys, zs, rfl, h⟩

variable [BEq α]

theorem fields_ne_nil (sep : α) (xs : List α) : fields sep xs ≠ [] := by
  cases xs with
  | nil => simp [fields]
  | cons x xs =>
    rw [fields]
    split
    · simp
    · split <;> simp

variable [LawfulBEq α]

theorem fields_cons_sep (xs : List α) : fields sep (sep :: xs) = [] :: fields sep xs := by
  simp [fields]

theorem fields_cons {x : α} (hx : x ≠ sep) (xs : List α) :
    ∃ f fs, fields sep xs = f :: fs ∧ fields sep (x :: xs) = (x :: f) :: fs := by
  cases h : fields sep xs with
  | nil => exact absurd h (fields_ne_nil sep xs)
  | cons f fs => exact ⟨f, fs, rfl, by simp [fields, hx, h]⟩

theorem fields_append (xs ys : List α) :
    fields sep (xs ++ sep :: ys) = fields sep xs ++ fields sep ys := by
  induction xs with
  | nil => rw [List.nil_append, fields_cons_sep, fields, List.singleton_append]
  | cons x xs ih =>
    by_cases hx : x = sep
    · rw [hx, List.cons_append, fields_cons_sep, fields_cons_sep, ih, List.cons_append]
    · obtain ⟨f, fs, hf, hx'⟩ := fields_cons hx xs
      obtain ⟨g, gs, hg, hy⟩ := fields_cons hx (xs ++ sep :: ys)
      rw [ih, hf, List.cons_append, List.cons.injEq] at hg
      rw [List.cons_append, hy, hx', ← hg.1, ← hg.2, List.cons_append]

theorem fields_single {xs : List α} (h : sep ∉ xs) : fields sep xs = [xs] := by
  induction xs with
  | nil => rfl
  | cons x xs ih =>
    rw [List.mem_cons, not_or] at h
    obtain ⟨f, fs, hf, hx⟩ := fields_cons (Ne.symm h.1) xs
    rw [ih h.2, List.cons.injEq] at hf
    rw [hx, ← hf.1, ← hf.2]

theorem notMem_of_mem_fields {xs f : List α} (h : f ∈ fields sep xs) : sep ∉ f := by
  induction xs generalizing f with
  | nil =>
    obtain rfl := List.mem_singleton.mp h
    exact List.not_mem_nil
  | cons x xs ih =>
    by_cases hx : x = sep
    · rw [hx, fields_cons_sep, List.mem_cons] at h
      rcases h with rfl | h
      · exact List.not_mem_nil
      · exact ih h
    · obtain ⟨g, gs, hg, hc⟩ := fields_cons hx xs
      rw [hc, List.mem_cons] at h
      rcases h with rfl | h
      · have := ih (hg ▸ List.mem_cons_self)
        simp [Ne.symm hx, this]
      · exact ih (hg ▸ List.mem_cons_of_mem _ h)

theorem fields_getLast_append {ys zs : List α} (h : sep ∉ zs) :
    (fields sep (ys ++ sep :: zs)).getLast? = some zs := by
  rw [fields_append, fields_single h, List.getLast?_concat]

theorem bne_of_notMem {xs : List α} (h : sep ∉ xs) : ∀ x ∈ xs, (x != sep) = true :=
  fun _ hx => bne_iff_ne.mpr fun hs => h (hs ▸ hx)

theorem dropWhile_of_notMem {xs : List α} (h : sep ∉ xs) : xs.dropWhile (· != sep) = [] := by
  rw [← List.append_nil xs, List.dropWhile_append_of_pos (bne_of_notMem h), List.dropWhile_nil]

theorem splitAtLast?_append {ys zs : List α} (h : sep ∉ zs) :
    splitAtLast? sep (ys ++ sep :: zs) = some (ys, zs) := by
  have hp := bne_of_notMem (mt List.mem_reverse.mp h)
  have hr : (ys ++ sep :: zs).reverse = zs.reverse ++ sep :: ys.reverse := by simp
  have hd : (zs.reverse ++ sep :: ys.reverse).dropWhile (· != sep) = sep :: ys.reverse := by
    rw [List.dropWhile_append_of_pos hp]
    simp
  have ht : (zs.reverse ++ sep :: ys.reverse).takeWhile (· != sep) = zs.reverse := by
    rw [List.takeWhile_append_of_pos hp]
    simp
  simp only [splitAtLast?, hr, hd, ht, List.reverse_reverse]

theorem splitAtLast?_of_notMem {xs : List α} (h : sep ∉ xs) : splitAtLast? sep xs = none := by
  simp only [splitAtLast?, dropWhile_of_notMem (mt List.mem_reverse.mp h)]

end Text

namespace Files.Path

structure IsName (n : String) : Prop where
  slashless : '/' ∉ n.toList
  ne_empty : n ≠ ""
  ne_dot : n ≠ "."

def EndsIn (p l : String) : Prop := (Text.fields '/' p.toList).getLast? = some l.toList

theorem isName_of_mem_names {p n : String} (h : n ∈ names p) : IsName n := by
  unfold names at h
  rw [List.mem_filter, List.mem_map] at h
  obtain ⟨⟨cs, hc, rfl⟩, hn⟩ := h
  rw [Bool.and_eq_true, bne_iff_ne, bne_iff_ne] at hn
  refine ⟨?_, hn.1, hn.2⟩
  rw [String.toList_ofList]
  exact Text.notMem_of_mem_fields hc

theorem names_append (xs ys : List Char) :
    names (String.ofList (xs ++ '/' :: ys)) =
      names (String.ofList xs) ++ names (String.ofList ys) := by
  unfold names
  simp only [String.toList_ofList, Text.fields_append, List.map_append, List.filter_append]

theorem names_single {n : String} (h : IsName n) : names n = [n] := by
  unfold names
  rw [Text.fields_single h.slashless]
  simp [h.ne_empty, h.ne_dot]

theorem isAbsolute_slashless {n : String} (h : '/' ∉ n.toList) : isAbsolute n = false := by
  unfold isAbsolute
  cases hn : n.toList with
  | nil => rfl
  | cons c cs =>
    rw [hn] at h
    have hc : c ≠ '/' := fun hc => h (hc ▸ List.mem_cons_self)
    simpa using hc

theorem endsWithSlash_iff {p : String} :
    endsWithSlash p = true ↔ ∃ xs, p.toList = xs ++ ['/'] := by
  unfold endsWithSlash
  rw [beq_iff_eq, List.getLast?_eq_some_iff]

theorem trimEnd_eq {p : String} (h : endsWithSlash p = false) : trimEnd p = p := by
  unfold trimEnd
  obtain hp | ⟨xs, c, hp⟩ := p.toList.eq_nil_or_concat
  · rw [hp, ← String.toList_inj, hp]
    rfl
  · rw [List.concat_eq_append] at hp
    have hc : c ≠ '/' := fun hc =>
      Bool.eq_false_iff.mp h (endsWithSlash_iff.mpr ⟨xs, hc ▸ hp⟩)
    rw [hp, Text.dropEndWhile_concat (by simpa using hc), ← hp, String.ofList_toList]

theorem endsWithSlash_trimEnd (p : String) : endsWithSlash (trimEnd p) = false := by
  rw [Bool.eq_false_iff, ne_eq, endsWithSlash, beq_iff_eq, trimEnd, String.toList_ofList]
  exact fun h => absurd (Text.getLast?_dropEndWhile_false h) (by decide)

theorem exists_trimmed (p : String) :
    ∃ slashes, p.toList = (trimEnd p).toList ++ slashes ∧ ∀ c ∈ slashes, c = '/' := by
  obtain ⟨slashes, hp, hs⟩ := Text.exists_dropEndWhile (· == '/') p.toList
  rw [trimEnd, String.toList_ofList]
  exact ⟨slashes, hp, fun c hc => beq_iff_eq.mp (hs c hc)⟩

theorem trimEnd_ne_empty {p : String} (hp : ∃ c ∈ p.toList, c ≠ '/') : trimEnd p ≠ "" := by
  obtain ⟨c, hc, hs⟩ := hp
  obtain ⟨slashes, ht, ha⟩ := exists_trimmed p
  intro he
  rw [ht, he] at hc
  exact hs (ha c hc)

/-- Joining puts a path behind a slash, unless there is nothing to join it to. -/
theorem join_relative (b : String) {n : String} (h : isAbsolute n = false) :
    (b = "" ∧ join b n = n) ∨
      ∃ ys, join b n = String.ofList (ys ++ '/' :: n.toList) ∧ names (String.ofList ys) = names b := by
  rw [join, h, if_neg Bool.false_ne_true]
  by_cases hb : b = ""
  · subst hb
    exact .inl ⟨rfl, String.empty_append⟩
  · right
    by_cases hs : endsWithSlash b = true
    · obtain ⟨ys, hy⟩ := endsWithSlash_iff.mp hs
      have hb : b = String.ofList (ys ++ '/' :: []) := by rw [← hy, String.ofList_toList]
      refine ⟨ys, ?_, ?_⟩
      · rw [hs, Bool.or_true, if_pos rfl, ← String.toList_inj, String.toList_append, hy,
          String.toList_ofList, List.append_assoc, List.singleton_append]
      · rw [hb, names_append]
        exact (List.append_nil _).symm
    · refine ⟨b.toList, ?_, by rw [String.ofList_toList]⟩
      rw [if_neg (by simp [hb, hs]), ← String.toList_inj]
      simp

theorem names_join_relative (b : String) {n : String} (h : isAbsolute n = false) :
    names (join b n) = names b ++ names n := by
  rcases join_relative b h with ⟨rfl, hj⟩ | ⟨ys, hj, hy⟩
  · rw [hj]
    rfl
  · rw [hj, names_append, hy, String.ofList_toList]

theorem names_join (b : String) {n : String} (h : IsName n) : names (join b n) = names b ++ [n] := by
  rw [names_join_relative b (isAbsolute_slashless h.slashless), names_single h]

theorem join_endsIn (b : String) {n : String} (h : IsName n) : EndsIn (join b n) n := by
  unfold EndsIn
  rcases join_relative b (isAbsolute_slashless h.slashless) with ⟨-, hj⟩ | ⟨ys, hj, -⟩
  · rw [hj, Text.fields_single h.slashless, List.getLast?_singleton]
  · rw [hj, String.toList_ofList, Text.fields_getLast_append h.slashless]

theorem EndsIn.names {p l : String} (h : EndsIn p l) (hl : IsName l) :
    (names p).getLast? = some l := by
  obtain ⟨fs, hf⟩ := List.getLast?_eq_some_iff.mp h
  unfold Path.names
  rw [hf, List.map_append, List.filter_append]
  simp [hl.ne_empty, hl.ne_dot]

theorem EndsIn.fileName {p l : String} (h : EndsIn p l) (hl : IsName l) (hu : l ≠ "..") :
    fileName? p = some l := by
  unfold fileName?
  rw [h.names hl]
  split
  · rename_i hs
    exact absurd (Option.some.inj hs) hu
  · rfl

theorem EndsIn.steps {p l : String} (h : EndsIn p l) (hl : l ≠ "") :
    (steps p).getLast? = some l := by
  obtain ⟨fs, hf⟩ := List.getLast?_eq_some_iff.mp h
  unfold Files.steps
  rw [hf, List.map_append, List.filter_append]
  simp [hl]

theorem EndsIn.endsWithSlash {p l : String} (h : EndsIn p l) (hl : l ≠ "") :
    endsWithSlash p = false := by
  rw [Bool.eq_false_iff]
  intro hs
  obtain ⟨xs, hx⟩ := endsWithSlash_iff.mp hs
  have hf : (Text.fields '/' (xs ++ '/' :: [])).getLast? = some [] :=
    Text.fields_getLast_append List.not_mem_nil
  rw [EndsIn, hx, hf] at h
  exact hl (String.toList_inj.mp (Option.some.inj h).symm)

theorem EndsIn.unique {p l : String} {xs ys : List Char} (h : EndsIn p l)
    (hp : p.toList = xs ++ '/' :: ys) (hy : '/' ∉ ys) : l.toList = ys := by
  unfold EndsIn at h
  rw [hp, Text.fields_getLast_append hy] at h
  exact (Option.some.inj h).symm

theorem exists_endsIn {p : String} (hp : p ≠ "") (hs : endsWithSlash p = false) :
    ∃ l, EndsIn p l ∧ '/' ∉ l.toList ∧ l ≠ "" := by
  rcases Text.exists_last '/' p.toList with h | ⟨ys, zs, hp', hz⟩
  · refine ⟨p, ?_, h, hp⟩
    rw [EndsIn, Text.fields_single h, List.getLast?_singleton]
  · refine ⟨String.ofList zs, ?_, ?_, ?_⟩
    · rw [EndsIn, hp', Text.fields_getLast_append hz, String.toList_ofList]
    · rwa [String.toList_ofList]
    · rintro hz
      have hz : zs = [] := by simpa using hz
      rw [Bool.eq_false_iff] at hs
      exact hs (endsWithSlash_iff.mpr ⟨ys, by rw [hp', hz]⟩)

theorem isAbsolute_iff {p : String} : isAbsolute p = true ↔ ∃ xs, p.toList = '/' :: xs := by
  unfold isAbsolute
  rw [beq_iff_eq, List.head?_eq_some_iff]

theorem isAbsolute_append {b : String} (hb : b ≠ "") (s : String) :
    isAbsolute (b ++ s) = isAbsolute b := by
  obtain ⟨c, cs, hc⟩ := List.exists_cons_of_ne_nil fun h => hb (String.toList_inj.mp h)
  unfold isAbsolute
  rw [String.toList_append, hc]
  rfl

theorem join_isAbsolute {b : String} (hb : isAbsolute b = true) (n : String) :
    isAbsolute (join b n) = true := by
  unfold join
  split
  · assumption
  · obtain ⟨xs, hx⟩ := isAbsolute_iff.mp hb
    split <;> simp [isAbsolute, hx]

theorem foldl_join_isAbsolute {b : String} (hb : isAbsolute b = true) (ns : List String) :
    isAbsolute (ns.foldl join b) = true := by
  induction ns generalizing b with
  | nil => exact hb
  | cons n ns ih => exact ih (join_isAbsolute hb n)

theorem join_ne_empty {b : String} (hb : b ≠ "") (n : String) : join b n ≠ "" := by
  unfold join
  split
  · rintro rfl
    exact absurd ‹_› (by decide)
  · split <;> simp [hb]

theorem foldl_join_ne_empty {b : String} (hb : b ≠ "") (ns : List String) :
    ns.foldl join b ≠ "" := by
  induction ns generalizing b with
  | nil => exact hb
  | cons n ns ih => exact ih (join_ne_empty hb n)

theorem names_foldl_join (b : String) {ns : List String} (h : ∀ n ∈ ns, IsName n) :
    names (ns.foldl join b) = names b ++ ns := by
  induction ns generalizing b with
  | nil => exact (List.append_nil _).symm
  | cons n ns ih =>
    rw [List.forall_mem_cons] at h
    rw [List.foldl_cons, ih _ h.2, names_join b h.1, List.append_assoc, List.singleton_append]

theorem root_cases (p : String) : root p = "/" ∨ root p = "//" := by
  unfold root
  split
  · exact .inr rfl
  · split
    · exact .inl rfl
    · exact .inr rfl
  · exact .inl rfl

theorem root_isAbsolute (p : String) : isAbsolute (root p) = true := by
  rcases root_cases p with h | h <;> rw [h] <;> rfl

theorem names_root (p : String) : names (root p) = [] := by
  rcases root_cases p with h | h <;> rw [h] <;> rfl

theorem absolute?_isAbsolute {cwd p q : String} (hc : isAbsolute cwd = true)
    (h : absolute? cwd p = some q) : isAbsolute q = true := by
  have hs : isAbsolute (if isAbsolute p then root p else cwd) = true := by
    split
    · exact root_isAbsolute p
    · exact hc
  have hl := foldl_join_isAbsolute hs (names p)
  unfold absolute? at h
  split at h
  · cases h
  · obtain rfl := Option.some.inj h
    split
    · exact join_isAbsolute hl ""
    · exact hl

theorem absolute?_some (cwd : String) {p : String} (hp : p ≠ "") :
    ∃ q, absolute? cwd p = some q := by
  unfold absolute?
  rw [if_neg (by simpa using hp)]
  exact ⟨_, rfl⟩

theorem endsWithSlash_join_empty {b : String} (hb : b ≠ "") :
    endsWithSlash (join b "") = true := by
  have hj : join b "" = if b == "" || endsWithSlash b then b ++ "" else b ++ "/" ++ "" := by
    rw [join, isAbsolute_slashless (by decide), if_neg Bool.false_ne_true]
  rw [hj, String.append_empty, String.append_empty]
  split
  · rename_i h
    rwa [beq_false_of_ne hb, Bool.false_or] at h
  · exact endsWithSlash_iff.mpr ⟨b.toList, String.toList_append⟩

theorem absolute?_names {cwd p q l : String} (hp : isAbsolute p = true) (he : EndsIn p l)
    (hl : IsName l) (h : absolute? cwd p = some q) :
    isAbsolute q = true ∧ names q = names p ∧ EndsIn q l := by
  have hq : q = (names p).foldl join (root p) := by
    unfold absolute? at h
    split at h
    · cases h
    · obtain rfl := Option.some.inj h
      simp only [he.endsWithSlash hl.ne_empty, Bool.false_eq_true, if_false]
  have hn : ∀ n ∈ names p, IsName n := fun n => isName_of_mem_names
  refine ⟨?_, ?_, ?_⟩
  · rw [hq]
    exact foldl_join_isAbsolute (root_isAbsolute p) _
  · rw [hq, names_foldl_join _ hn, names_root, List.nil_append]
  · obtain ⟨ns, hns⟩ := List.getLast?_eq_some_iff.mp (he.names hl)
    rw [hq, hns, List.foldl_append]
    exact join_endsIn _ hl

/-- Where one is does not matter for the name that a path ends in. -/
theorem absolute?_endsIn {cwd p q q' l : String} (hq : absolute? "." p = some q) (hl : EndsIn q l)
    (hi : IsName l) (hq' : absolute? cwd p = some q') : EndsIn q' l := by
  by_cases ha : isAbsolute p = true
  · have he : absolute? cwd p = absolute? "." p := by simp only [absolute?, ha, if_true]
    rw [he, hq] at hq'
    exact Option.some.inj hq' ▸ hl
  have hn : ∀ n ∈ names p, IsName n := fun n => isName_of_mem_names
  have hp : (p == "") = false := by
    refine Bool.eq_false_iff.mpr fun hp => ?_
    rw [absolute?, hp] at hq
    cases hq
  simp only [absolute?, hp, Bool.eq_false_iff.mpr ha, Bool.false_eq_true, if_false,
    Option.some.injEq] at hq hq'
  have hlong : names ((names p).foldl join ".") = names p := names_foldl_join "." hn
  have hs : endsWithSlash p = false := by
    refine Bool.eq_false_iff.mpr fun hs => Bool.eq_false_iff.mp (hl.endsWithSlash hi.ne_empty) ?_
    rw [hs, if_pos rfl] at hq
    rw [← hq]
    exact endsWithSlash_join_empty (foldl_join_ne_empty (by decide) _)
  rw [hs, if_neg Bool.false_ne_true] at hq hq'
  have hlast := hl.names hi
  rw [← hq, hlong] at hlast
  obtain ⟨ns, hns⟩ := List.getLast?_eq_some_iff.mp hlast
  rw [← hq', hns, List.foldl_append]
  exact join_endsIn _ hi

end Files.Path

end Provisioner
