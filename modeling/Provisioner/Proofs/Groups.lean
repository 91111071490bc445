import Provisioner.Proofs.Persistence

namespace Provisioner

namespace Net

def InAddress (c : Char) : Prop := isDigit 16 c = true ∨ c = '.' ∨ c = ':'

/-- What is read off the front of a text stands in an address. -/
def Takes (cs rest : List Char) : Prop := ∃ used, cs = used ++ rest ∧ ∀ c ∈ used, InAddress c

theorem InAddress.ne {c : Char} (h : InAddress c) : c ≠ ' ' ∧ c ≠ '\n' ∧ c ≠ '[' := by
  refine ⟨?_, ?_, ?_⟩
  all_goals
    rintro rfl
    unfold InAddress at h
    revert h
    decide

variable {α : Type} {cs rest rest' : List Char}

theorem Takes.refl (cs : List Char) : Takes cs cs := ⟨[], rfl, List.forall_mem_nil _⟩

theorem Takes.trans (h : Takes cs rest) (h' : Takes rest rest') : Takes cs rest' := by
  obtain ⟨used, rfl, hu⟩ := h
  obtain ⟨used', rfl, hu'⟩ := h'
  exact ⟨used ++ used', (List.append_assoc _ _ _).symm, List.forall_mem_append.mpr ⟨hu, hu'⟩⟩

theorem isDigit_mono {c : Char} (h : isDigit 10 c = true) : isDigit 16 c = true := by
  grind [isDigit, digit?]

theorem digits?_takes {base most : Nat} {ds : List Char}
    (hb : ∀ c, isDigit base c = true → isDigit 16 c = true)
    (h : digits? base most cs = some (ds, rest)) : Takes cs rest := by
  unfold digits? at h
  dsimp only at h
  split at h
  · cases h
  · cases h
    exact ⟨_, List.takeWhile_append_dropWhile.symm, fun c hc =>
      .inl (hb c (List.all_eq_true.mp List.all_takeWhile c hc))⟩

theorem octet?_takes {n : Nat} (h : octet? cs = some (n, rest)) : Takes cs rest := by
  unfold octet? at h
  obtain ⟨⟨ds, after⟩, hd, h⟩ := Option.bind_eq_some_iff.mp h
  have ht := digits?_takes (fun _ => isDigit_mono) hd
  grind

theorem expect?_takes {c : Char} (hc : InAddress c) (h : expect? c cs = some rest) :
    Takes cs rest :=
  ⟨[c], expect?_eq_some h, List.forall_mem_singleton.mpr hc⟩

theorem dotted?_takes {octets : List Nat} (h : dotted? cs = some (octets, rest)) :
    Takes cs rest := by
  unfold dotted? at h
  simp only [Option.bind_eq_bind, Option.bind_eq_some_iff] at h
  obtain ⟨⟨a, _⟩, h₁, _, d₁, ⟨b, _⟩, h₂, _, d₂, ⟨c, _⟩, h₃, _, d₃, ⟨d, _⟩, h₄, h⟩ := h
  cases h
  have hd : InAddress '.' := .inr (.inl rfl)
  exact (octet?_takes h₁).trans <| (expect?_takes hd d₁).trans <| (octet?_takes h₂).trans <|
    (expect?_takes hd d₂).trans <| (octet?_takes h₃).trans <| (expect?_takes hd d₃).trans <|
    octet?_takes h₄

theorem group?_takes {n : Nat} (h : group? cs = some (n, rest)) : Takes cs rest := by
  unfold group? at h
  obtain ⟨⟨ds, after⟩, hd, h⟩ := Option.bind_eq_some_iff.mp h
  cases h
  exact digits?_takes (fun _ => id) hd

theorem separated?_takes {first : Bool} {read : List Char → Option (α × List Char)} {a : α}
    (hr : ∀ {cs a rest}, read cs = some (a, rest) → Takes cs rest)
    (h : separated? first read cs = some (a, rest)) : Takes cs rest := by
  unfold separated? at h
  split at h
  · exact hr h
  · obtain ⟨after, he, h⟩ := Option.bind_eq_some_iff.mp h
    exact (expect?_takes (.inr (.inr rfl)) he).trans (hr h)

theorem groups_takes (first : Bool) (room : Nat) (cs : List Char) :
    Takes cs (groups first room cs).2.2 := by
  induction room generalizing first cs with
  | zero => exact .refl cs
  | succ room ih =>
    rw [groups]
    split
    · rename_i hd
      split at hd
      · cases hd
      · exact separated?_takes dotted?_takes hd
    · split
      · exact .refl cs
      · rename_i hg
        exact (separated?_takes group?_takes hg).trans (ih false _)

theorem grouped?_takes {gs : List Nat} (h : grouped? cs = some (gs, rest)) : Takes cs rest := by
  have ht := groups_takes true 8 cs
  unfold grouped? at h
  dsimp only at h
  split at h
  · cases h
    exact ht
  split at h
  · cases h
  obtain ⟨after, h₁, h⟩ := Option.bind_eq_some_iff.mp h
  obtain ⟨after', h₂, h⟩ := Option.bind_eq_some_iff.mp h
  cases h
  have hc : InAddress ':' := .inr (.inr rfl)
  exact ht.trans <| (expect?_takes hc h₁).trans <| (expect?_takes hc h₂).trans <|
    groups_takes true _ after'

theorem inAddress_of_isAddress {s : String} (h : isAddress s = true) :
    s ≠ "" ∧ ∀ c ∈ s.toList, InAddress c := by
  refine ⟨?_, ?_⟩
  · rintro rfl
    exact absurd h (by decide)
  obtain ⟨a, ha⟩ := Option.isSome_iff_exists.mp h
  have ht : Takes s.toList [] := by
    unfold Address.ofString? Address.ofChars? at ha
    split at ha
    · rename_i hd
      split at ha
      · rename_i hr
        exact List.isEmpty_iff.mp hr ▸ dotted?_takes hd
      · cases ha
    · obtain ⟨gs, hg, -⟩ := Option.map_eq_some_iff.mp ha
      exact grouped?_takes (whole?_eq_some hg)
  obtain ⟨used, hu, hc⟩ := ht
  rwa [hu, List.append_nil]

end Net

namespace Inventory

def entry (address : String) : String := s!"{address} ansible_connection=ssh ansible_user=ubuntu"

/-- A line in front of what comes after it: lines without a heading yet, and groups. -/
def place (line : String) (after : List String × List (String × List String)) :
    List String × List (String × List String) :=
  if line.toList.head? = some '[' then ([], (line, after.1) :: after.2)
  else if line = "" then after
  else (line :: after.1, after.2)

/-- The groups of a text: headings with the lines below them. -/
def groups (text : String) : List (String × List String) :=
  (((Text.lines text.toList).map String.ofList).foldr place ([], [])).2

def firstWord (line : String) : String := String.ofList (line.toList.takeWhile (· != ' '))

def ofText (text : String) : Inventory where
  proxies := (((groups text).lookup "[proxies]").getD []).map firstWord
  monitoring := ((groups text).lookup "[monitoring]").bind fun hosts => hosts.head?.map firstWord

structure Addressed (inv : Inventory) : Prop where
  proxies : ∀ a ∈ inv.proxies, Net.isAddress a = true
  monitoring : ∀ a ∈ inv.monitoring, Net.isAddress a = true

def lines (inv : Inventory) : List String :=
  "[proxies]" :: (inv.proxies.map entry ++ "" ::
    inv.monitoring.elim [] fun a => ["[monitoring]", entry a])

variable {inv : Inventory} {a : String}

theorem host_eq (a : String) : host a = entry a ++ "\n" := by
  simp [host, entry, access, toString, String.append_assoc]

theorem text_toList (inv : Inventory) :
    inv.text.toList = (inv.lines.map String.toList).flatMap fun l => l ++ ['\n'] := by
  have hp : (String.join (inv.proxies.map host)).toList =
      ((inv.proxies.map entry).map String.toList).flatMap fun l => l ++ ['\n'] := by
    rw [String.toList_join, List.flatMap_map, List.flatMap_map, List.flatMap_map]
    exact congrArg inv.proxies.flatMap (funext fun a => by simp [host_eq])
  unfold text lines
  cases inv.monitoring <;> simp [hp, host_eq]

theorem toList_entry (a : String) :
    (entry a).toList = a.toList ++ ' ' :: "ansible_connection=ssh ansible_user=ubuntu".toList := by
  simp [entry, toString]

/-- The line of an address is a line, and not a heading. -/
theorem entry_plain (h : Net.isAddress a = true) : ('\n' ∉ (entry a).toList ∧
    (entry a).toList.getLast? ≠ some '\r') ∧ (entry a).toList.head? ≠ some '[' ∧ entry a ≠ "" := by
  obtain ⟨hn, hc⟩ := Net.inAddress_of_isAddress h
  obtain ⟨c, cs, ha⟩ := List.exists_cons_of_ne_nil (mt (@String.toList_inj a "").mp hn)
  have hl : (' ' :: "ansible_connection=ssh ansible_user=ubuntu".toList).getLast? = some 'u' := by
    decide
  refine ⟨⟨fun hm => ?_, ?_⟩, ?_, fun he => ?_⟩
  · rw [toList_entry, List.mem_append] at hm
    exact hm.elim (fun hm => (hc _ hm).ne.2.1 rfl) (by decide)
  · rw [toList_entry, List.getLast?_append, hl, Option.some_or]
    decide
  · rw [toList_entry, ha, List.cons_append, List.head?_cons]
    exact fun he => (hc c (ha ▸ List.mem_cons_self)).ne.2.2 (Option.some.inj he)
  · rw [← String.toList_inj, toList_entry, ha] at he
    cases he

theorem firstWord_entry (h : Net.isAddress a = true) : firstWord (entry a) = a := by
  have hs : ' ' ∉ a.toList := fun hm => ((Net.inAddress_of_isAddress h).2 _ hm).ne.1 rfl
  rw [firstWord, toList_entry, List.takeWhile_append_of_pos (Text.bne_of_notMem hs),
    List.takeWhile_cons_of_neg (by decide), List.append_nil, String.ofList_toList]

theorem foldr_place {as : List String} (h : ∀ a ∈ as, Net.isAddress a = true)
    (after : List String × List (String × List String)) :
    (as.map entry).foldr place after = (as.map entry ++ after.1, after.2) := by
  induction as with
  | nil => rfl
  | cons a as ih =>
    rw [List.forall_mem_cons] at h
    obtain ⟨-, hh, hn⟩ := entry_plain h.1
    rw [List.map_cons, List.foldr_cons, ih h.2, place, if_neg hh, if_neg hn, List.cons_append]

theorem lines_text (h : inv.Addressed) :
    (Text.lines inv.text.toList).map String.ofList = inv.lines := by
  have hl : ∀ l ∈ inv.lines.map String.toList, '\n' ∉ l ∧ l.getLast? ≠ some '\r' := by
    intro l hl
    obtain ⟨line, hm, rfl⟩ := List.mem_map.mp hl
    rw [lines, List.mem_cons, List.mem_append, List.mem_cons] at hm
    obtain rfl | hm | rfl | hm := hm
    · decide
    · obtain ⟨a, ha, rfl⟩ := List.mem_map.mp hm
      exact (entry_plain (h.proxies a ha)).1
    · decide
    · cases ha : inv.monitoring with
      | none =>
        rw [ha] at hm
        cases hm
      | some a =>
        rw [ha, Option.elim_some, List.mem_cons, List.mem_singleton] at hm
        obtain rfl | rfl := hm
        · decide
        · exact (entry_plain (h.monitoring a ha)).1
  rw [text_toList, Text.lines_ended hl, List.map_map]
  exact (List.map_congr_left fun s _ => String.ofList_toList).trans (List.map_id _)

theorem groups_text (h : inv.Addressed) :
    groups inv.text = ("[proxies]", inv.proxies.map entry) ::
      (inv.monitoring.map fun a => ("[monitoring]", [entry a])).toList := by
  have hb (after : List String × List (String × List String)) : place "" after = after := rfl
  rw [groups, lines_text h, lines, List.foldr_cons, List.foldr_append, List.foldr_cons, hb,
    foldr_place h.proxies]
  cases ha : inv.monitoring with
  | none => simp [place]
  | some a =>
    have hm : [entry a].foldr place ([], []) = ([entry a], []) :=
      foldr_place (List.forall_mem_singleton.mpr (h.monitoring a ha)) ([], [])
    rw [Option.elim_some, List.foldr_cons, hm]
    simp [place]

theorem ofText_text (h : inv.Addressed) : ofText inv.text = inv := by
  have hp : (inv.proxies.map entry).map firstWord = inv.proxies := by
    rw [List.map_map]
    exact (List.map_congr_left fun a ha => firstWord_entry (h.proxies a ha)).trans (List.map_id _)
  rw [ofText, groups_text h]
  obtain ⟨proxies, _ | a⟩ := inv
  · simp [List.lookup_cons, hp]
  · have hm : firstWord (entry a) = a := firstWord_entry (h.monitoring a rfl)
    simp [List.lookup_cons, hp, hm]

end Inventory

end Provisioner
