import Provisioner.Proofs.Marks

namespace Provisioner

namespace Files.Path

def components (p : String) : List String :=
  if isAbsolute p then "/" :: names p else if startsHere p then "." :: names p else names p

theorem components_of_isAbsolute {p : String} (ha : isAbsolute p = true) :
    components p = "/" :: names p := by
  rw [components, if_pos ha]

variable {cwd p q home rest : String}

theorem ne_empty_of_isAbsolute (ha : isAbsolute p = true) : p ≠ "" := by
  rintro rfl
  cases ha

theorem components_absolute (ha : isAbsolute p = true) (h : absolute? cwd p = some q) :
    isAbsolute q = true ∧ components q = components p := by
  have hn : names (goal cwd p) = names p := by
    rw [goal, if_pos ha, names_foldl_join _ fun n => isName_of_mem_names, names_root]
    rfl
  have hg : isAbsolute (goal cwd p) = true := by
    rw [goal, if_pos ha]
    exact foldl_join_isAbsolute (root_isAbsolute p) _
  have hq : isAbsolute q = true ∧ names q = names p := by
    rw [absolute?_eq cwd (ne_empty_of_isAbsolute ha)] at h
    obtain rfl := Option.some.inj h
    split
    · refine ⟨join_isAbsolute hg "", ?_⟩
      rw [names_join_relative _ (by decide), hn]
      exact List.append_nil _
    · exact ⟨hg, hn⟩
  rw [components_of_isAbsolute ha, components_of_isAbsolute hq.1, hq.2]
  exact ⟨hq.1, rfl⟩

theorem names_below (home rest : String) : names (home ++ "/" ++ rest) = names home ++ names rest := by
  have hn := names_append home.toList rest.toList
  rwa [String.ofList_toList, String.ofList_toList, String.ofList_append, String.ofList_toList,
    String.ofList_cons, String.ofList_toList, ← String.append_assoc] at hn

theorem isAbsolute_below (ha : isAbsolute home = true) (rest : String) :
    isAbsolute (home ++ "/" ++ rest) = true := by
  rwa [String.append_assoc, isAbsolute_append (ne_empty_of_isAbsolute ha)]

theorem endsWithSlash_append (p : String) (hr : rest ≠ "") :
    endsWithSlash (p ++ rest) = endsWithSlash rest := by
  have hl : rest.toList.getLast?.isSome = true := by simpa using hr
  rw [endsWithSlash, endsWithSlash, String.toList_append, List.getLast?_append,
    Option.or_of_isSome hl]

/-- A slash more does not change the root, unless there are no more than two. -/
theorem root_below (ha : isAbsolute home = true) (hs : endsWithSlash home = true)
    (h₁ : home ≠ "/") (h₂ : home ≠ "//") (rest : String) :
    root (home ++ rest) = root (home ++ "/" ++ rest) := by
  obtain ⟨xs, hx⟩ := isAbsolute_iff.mp ha
  unfold root
  rw [String.toList_append, String.toList_append, String.toList_append, hx]
  match xs with
  | [] => exact absurd (String.toList_inj.mp hx) h₁
  | [c] =>
    have hc : c = '/' := by simpa [endsWithSlash, hx] using hs
    rw [hc] at hx
    exact absurd (String.toList_inj.mp hx) h₂
  | c :: d :: ds => by_cases hc : c = '/' <;> simp [hc]

/-- What is joined to a directory is seen from the root as the text of the two with a slash. -/
theorem absolute?_join (ha : isAbsolute home = true) (hr : rest ≠ "")
    (hs : isAbsolute rest = false) (h₁ : home ≠ "/") (h₂ : home ≠ "//") (cwd : String) :
    absolute? cwd (join home rest) = absolute? cwd (home ++ "/" ++ rest) := by
  have hn := ne_empty_of_isAbsolute ha
  -- Only behind a directory that ends in a slash do the two texts differ, by one slash.
  by_cases he : endsWithSlash home = true
  · have hj : join home rest = home ++ rest := by
      rw [join, hs, if_neg Bool.false_ne_true, he, Bool.or_true, if_pos rfl]
    have hm : names (home ++ rest) = names (home ++ "/" ++ rest) := by
      rw [← hj, names_join_relative home hs, names_below]
    have hb : ∀ p, (p ++ rest == "") = false := fun p => by simp [hr]
    unfold absolute?
    rw [hj, hb, hb, hm, isAbsolute_append hn, ha, isAbsolute_below ha, root_below ha he h₁ h₂,
      endsWithSlash_append _ hr, endsWithSlash_append _ hr]
  · rw [join, hs, if_neg Bool.false_ne_true, if_neg (by simp [hn, he])]

end Files.Path

open Files.Path

theorem Host.expand_home {h : Host} {home : String} (hh : h.home = some home) (rest : String) :
    h.expand ("~/" ++ rest) = join home rest := by
  have hs : stripStart? "~/" ("~/" ++ rest) = some rest := by
    rw [stripStart?, String.toList_append, stripChars?_append, Option.map_some, String.ofList_toList]
  unfold expand
  rw [hs, hh]
  rfl

/-- From the root an absolute path is seen with the components that it has. -/
theorem Host.absolute_components (h : Host) {p : String} (ha : isAbsolute p = true) :
    ∃ q, h.absolute p = .ok q ∧ absolute? h.cwdPath p = some q ∧ components q = "/" :: names p := by
  obtain ⟨q, hq⟩ := absolute?_some h.cwdPath (ne_empty_of_isAbsolute ha)
  refine ⟨q, ?_, hq, ?_⟩
  · unfold absolute
    rw [hq]
  · rw [(components_absolute ha hq).2, components_of_isAbsolute ha]

/-- What is entered behind `~/` leads to where the text of the home directory, a slash and the rest
leads, which is below the home directory, unless the rest is itself an absolute path. The two are the
same as texts, but for a home directory that is a root and has its slash already. -/
theorem Host.home_expands {h : Host} {home rest : String} (hh : h.home = some home)
    (ha : isAbsolute home = true) (hr : rest ≠ "") :
    ∃ p q, h.resolvePath ("~/" ++ rest) = .ok p ∧ h.absolute (home ++ "/" ++ rest) = .ok q ∧
      ((components p = components q ∧ components home <+: components p) ↔
        isAbsolute rest = false ∨ names home = []) ∧
      (isAbsolute rest = false → p = q ∨ home = "/" ∨ home = "//") := by
  obtain ⟨p, hp, hp', hcp⟩ := h.absolute_components (join_isAbsolute ha rest)
  obtain ⟨q, hq, hq', hcq⟩ := h.absolute_components (isAbsolute_below ha rest)
  have hres : h.resolvePath ("~/" ++ rest) = .ok p := by
    unfold resolvePath
    simp only [expand_home hh, hp]
  rw [names_below] at hcq
  refine ⟨p, q, hres, hq, ?_, fun hs => ?_⟩
  · rw [hcp, hcq, components_of_isAbsolute ha]
    cases hs : isAbsolute rest with
    | false =>
      rw [names_join_relative home hs]
      exact iff_of_true ⟨rfl, List.cons_prefix_cons.mpr ⟨rfl, List.prefix_append _ _⟩⟩ (.inl rfl)
    | true =>
      have hj : join home rest = rest := by rw [join, hs, if_pos rfl]
      rw [hj]
      -- The home directory is lost, which is no loss if there are no names in it.
      constructor
      · rintro ⟨he, -⟩
        exact .inr (List.self_eq_append_left.mp (List.cons.inj he).2)
      · rintro (hn | hn)
        · cases hn
        · rw [hn]
          exact ⟨rfl, List.cons_prefix_cons.mpr ⟨rfl, List.nil_prefix⟩⟩
  · by_cases h₁ : home = "/"
    · exact .inr (.inl h₁)
    · by_cases h₂ : home = "//"
      · exact .inr (.inr h₂)
      · have he := absolute?_join ha hr hs h₁ h₂ h.cwdPath
        exact .inl (Option.some.inj (hp'.symm.trans (he.trans hq')))

/-- A machine with a home directory that has a slash at its end. -/
def lodging : Host where
  root := .dir 0o755 []
  cwd := ["work"]
  home := some "/home/me/"
  userProfile := some "/profile"

theorem lodging_expands : lodging.home = some "/home/me/" ∧ isAbsolute "/home/me/" = true ∧
    ".ssh/.//key" ≠ "" ∧ lodging.resolvePath "~/.ssh/.//key" = .ok "/home/me/.ssh/key" ∧
    lodging.absolute "/home/me//.ssh/.//key" = .ok "/home/me/.ssh/key" ∧
    components "/home/me/" <+: components "/home/me/.ssh/key" := by
  have hr : lodging.resolvePath ("~/" ++ ".ssh/.//key") = .ok "/home/me/.ssh/key" := by
    decide +kernel
  have ha : isAbsolute "/home/me/" = true := by decide +kernel
  have hs : isAbsolute ".ssh/.//key" = false := by decide +kernel
  obtain ⟨p, q, hp, hq, hu, he⟩ :=
    Host.home_expands (h := lodging) rfl ha (by decide : ".ssh/.//key" ≠ "")
  obtain rfl := Except.ok.inj (hp.symm.trans hr)
  obtain rfl := (he hs).resolve_right (by decide)
  exact ⟨rfl, ha, by decide, hr, hq, (hu.mpr (.inl hs)).2⟩

/-- With a slash more than it needs, what is entered leaves the home directory. -/
theorem doubled_slash_leaves : lodging.resolvePath "~//etc/key" = .ok "/etc/key" ∧
    lodging.absolute "/home/me///etc/key" = .ok "/home/me/etc/key" ∧
    ¬ components "/home/me/" <+: components "/etc/key" := by
  decide +kernel

end Provisioner
