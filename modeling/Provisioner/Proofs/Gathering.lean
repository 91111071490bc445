import Provisioner.Proofs.Refusals
import Provisioner.Setup.Generation

namespace Provisioner.Terminal

/-- Something is left of the line once the blanks and the quotes around it are gone. -/
def Filled (line : Bytes) : Prop := ∃ value, valueOf line = .ok value ∧ value ≠ ""

/-- So many lines are filled before the first one with nothing on it, or before the input ends. -/
structure Closes (lines : List Bytes) (n : Nat) : Prop where
  filled : ∀ j < n, Filled (lines.getD j [])
  empty : valueOf (lines.getD n []) = .ok ""

def accepted? (check : Validator) (line : Bytes) : Option String :=
  match valueOf line with
  | .ok value => if check value = none then some value else none
  | .error _ => none

def gathered (check : Validator) (lines : List Bytes) (n : Nat) : List String :=
  (lines.take n).filterMap (accepted? check)

/-- What is shown for a filled line: the request for it, and the reason if it is refused. -/
def exchange (message : String) (check : Validator) (line : Bytes) : List String :=
  s!"{message}: " :: (Request.objections check line).map (· ++ "\n")

variable {lines : List Bytes} {line : Bytes} {value message : String} {check : Validator}
  {n m : Nat}

theorem Filled.not_empty (h : Filled line) : valueOf line ≠ .ok "" := by
  obtain ⟨value, hv, hn⟩ := h
  rw [hv]
  exact fun he => hn (Except.ok.inj he)

theorem closes_zero : Closes lines 0 ↔ valueOf (lines.getD 0 []) = .ok "" :=
  ⟨Closes.empty, fun h => ⟨nofun, h⟩⟩

theorem closes_succ : Closes (line :: lines) (n + 1) ↔ Filled line ∧ Closes lines n := by
  constructor
  · intro h
    exact ⟨h.filled 0 (Nat.succ_pos n), fun j hj => h.filled (j + 1) (Nat.succ_lt_succ hj), h.empty⟩
  · rintro ⟨hf, h⟩
    refine ⟨fun j hj => ?_, h.empty⟩
    cases j with
    | zero => exact hf
    | succ j => exact h.filled j (Nat.lt_of_succ_lt_succ hj)

theorem Closes.le_length (h : Closes lines n) : n ≤ lines.length := by
  refine Nat.le_of_not_lt fun hn => ?_
  have hf := h.filled lines.length hn
  rw [List.getD_eq_getElem?_getD, List.getElem?_eq_none (Nat.le_refl _)] at hf
  exact hf.not_empty valueOf_nil

theorem Closes.unique (h : Closes lines n) (h' : Closes lines m) : n = m := by
  obtain hn | rfl | hn := Nat.lt_trichotomy n m
  · exact absurd h.empty (h'.filled n hn).not_empty
  · rfl
  · exact absurd h'.empty (h.filled m hn).not_empty

theorem exists_closes (h : ∀ line ∈ lines, Text.decode? line ≠ none) : ∃ n, Closes lines n := by
  induction lines with
  | nil => exact ⟨0, closes_zero.mpr valueOf_nil⟩
  | cons line lines ih =>
    rw [List.forall_mem_cons] at h
    obtain ⟨n, hn⟩ := ih h.2
    cases hv : valueOf line with
    | error e => exact absurd (valueOf_eq_error hv).1 h.1
    | ok value =>
      by_cases he : value = ""
      · exact ⟨0, closes_zero.mpr (he ▸ hv)⟩
      · exact ⟨n + 1, closes_succ.mpr ⟨⟨value, hv, he⟩, hn⟩⟩

theorem gathered_succ (hv : valueOf line = .ok value) :
    gathered check (line :: lines) (n + 1) =
      (if check value = none then [value] else []) ++ gathered check lines n := by
  have ha : accepted? check line = if check value = none then some value else none := by
    simp only [accepted?, hv]
  rw [gathered, List.take_succ_cons, List.filterMap_cons, ha, gathered]
  cases check value <;> rfl

theorem exchange_eq (hv : valueOf line = .ok value) (hn : value ≠ "") :
    exchange message check line =
      s!"{message}: " :: (check value).toList.map (· ++ "\n") := by
  simp only [exchange, Request.objections, hv, if_neg hn]

variable {ω : Type} {holds : ω → Bytes → Prop} {written : Bytes} {t u : TerminalOn ω}
  {kept values : List String}

theorem Filled.lines_eq (h : Filled (t.line 0)) : t.lines = t.line 0 :: t.lines.drop 1 := by
  cases ht : t.lines with
  | nil =>
    rw [TerminalOn.line, ht] at h
    exact absurd valueOf_nil h.not_empty
  | cons line rest => rw [TerminalOn.line, ht]; rfl

variable [Writer ω]

theorem collect_failed (check : Validator) (kept : List String) {e : IoError}
    (hu : (ask s!"{message}: ").apply t = (.error e, u)) :
    (collect message check kept t.lines).apply t = (.error e, u) := by
  cases t.lines with
  | nil => exact Action.apply_bind_error hu _
  | cons line rest => exact Action.apply_bind_error hu _

theorem collect_empty (check : Validator) (kept : List String)
    (hu : (ask s!"{message}: ").apply t = (.ok "", u)) :
    (collect message check kept t.lines).apply t = (.ok kept, u) := by
  cases t.lines with
  | nil => exact Action.apply_bind_ok hu _
  | cons line rest => exact Action.apply_bind_ok hu _

theorem collect_filled (check : Validator) (kept : List String)
    (hu : (ask s!"{message}: ").apply t = (.ok value, u)) (hn : value ≠ "") :
    (collect message check kept t.lines).apply t =
      (writeLines (check value).toList >>= fun _ =>
        collect message check (kept ++ if check value = none then [value] else []) u.lines).apply
          u := by
  obtain ⟨hv, hl⟩ := ask_reads hu
  cases ht : t.lines with
  | nil =>
    rw [TerminalOn.line, ht] at hv
    exact absurd (Except.ok.inj (hv.symm.trans valueOf_nil)) hn
  | cons line rest =>
    have hu' : u.lines = rest := by rw [hl, ht]; rfl
    have he : ¬value.isEmpty = true := mt String.isEmpty_iff.mp hn
    rw [collect, Action.apply_bind_ok hu, if_neg he, hu']
    cases check value with
    | none => rfl
    | some reason => simp [writeLines]

theorem collect_leads (hw : Writer.Unfailing holds) (message : String) (check : Validator)
    (ht : holds t.screen written) (hc : Closes t.lines n) (kept : List String) :
    ∃ u, (collect message check kept t.lines).apply t =
        (.ok (kept ++ gathered check t.lines n), u) ∧
      Leads holds t u (n + 1)
        ((t.lines.take n).flatMap (exchange message check) ++ [s!"{message}: "]) := by
  -- By induction on the lines up to the empty one. What is kept grows by each that is accepted.
  induction n generalizing t written kept with
  | zero =>
    obtain ⟨u, hu, hl⟩ := ask_leads hw ht s!"{message}: "
    have hv : valueOf (t.line 0) = .ok "" := hc.empty
    rw [hv] at hu
    rw [gathered, List.take_zero, List.filterMap_nil, List.append_nil]
    exact ⟨u, collect_empty check kept hu, hl⟩
  | succ n ih =>
    have hf : Filled (t.line 0) := hc.filled 0 (Nat.succ_pos n)
    have ⟨value, hv, hn⟩ := hf
    obtain ⟨u, hu, hl⟩ := ask_leads hw ht s!"{message}: "
    obtain ⟨v, hs, hl'⟩ := writeLines_leads hw (hl.screen ht) (check value).toList
    have hr := hl.trans hl'
    rw [hv] at hu
    have hd : v.lines = u.lines := hl'.lines
    rw [hf.lines_eq, closes_succ] at hc
    have hc' : Closes v.lines n := hr.lines ▸ hc.2
    obtain ⟨w, hw', hl''⟩ :=
      ih (hr.screen ht) hc' (kept ++ if check value = none then [value] else [])
    refine ⟨w, ?_, ?_⟩
    · rw [collect_filled check kept hu hn, Action.apply_bind_ok hs, ← hd, hw', hf.lines_eq,
        gathered_succ hv, ← hr.lines, List.append_assoc]
    · have hx := hr.trans hl''
      rw [hr.lines, Nat.add_zero, Nat.add_comm 1] at hx
      rw [hf.lines_eq, List.take_succ_cons, List.flatMap_cons, exchange_eq hv hn,
        List.append_assoc]
      exact hx

/-- A dialogue that comes to its end has read the lines up to theirs. Output may fail here. -/
theorem collect_ok (h : (collect message check kept t.lines).apply t = (.ok values, u)) :
    ∃ n, Closes t.lines n ∧ values = kept ++ gathered check t.lines n ∧
      u.lines = t.lines.drop (n + 1) := by
  -- Each round but the last one takes a line.
  induction hn : t.lines.length using Nat.strongRecOn generalizing t kept with
  | ind length ih =>
    rcases ha : (ask s!"{message}: ").apply t with ⟨e | value, t₁⟩
    · rw [collect_failed check kept ha] at h
      cases h
    obtain ⟨hv, hl⟩ := ask_reads ha
    by_cases he : value = ""
    · subst he
      rw [collect_empty check kept ha] at h
      cases h
      exact ⟨0, closes_zero.mpr hv, by simp [gathered], hl⟩
    · have hf : Filled (t.line 0) := ⟨value, hv, he⟩
      rw [collect_filled check kept ha he] at h
      have hw := writeLines_lines (check value).toList t₁
      rcases hs : (writeLines (check value).toList).apply t₁ with ⟨e | done, t₂⟩ <;> rw [hs] at hw
      · rw [Action.apply_bind_error hs] at h
        cases h
      · rw [Action.apply_bind_ok hs, ← hw] at h
        have hd : t₂.lines = t.lines.drop 1 := hw.trans hl
        have hlt : t₂.lines.length < length := by
          rw [← hn, hf.lines_eq, hd]
          exact Nat.lt_succ_self _
        obtain ⟨n, hc, rfl, hu⟩ := ih _ hlt h rfl
        refine ⟨n + 1, ?_, ?_, ?_⟩
        · rw [hf.lines_eq, closes_succ, ← hd]
          exact ⟨hf, hc⟩
        · rw [hf.lines_eq, gathered_succ hv, ← hd, List.append_assoc]
        · rw [hu, hd, List.drop_drop, Nat.add_comm 1]

/-- Values are gathered up to the first line with nothing on it, and that line comes: lines that
are text end. The values are those of the lines before it that the check accepts. -/
theorem askUntilEmpty_gathers (hw : Writer.Unfailing holds) (message : String) (check : Validator)
    (t : TerminalOn ω) (ht : holds t.screen written)
    (hl : ∀ line ∈ t.lines, Text.decode? line ≠ none) :
    ∃ n ≤ t.lines.length, Closes t.lines n ∧
      ∃ u, (askUntilEmpty message check).apply t = (.ok (gathered check t.lines n), u) ∧
        Leads holds t u (n + 1)
          ((t.lines.take n).flatMap (exchange message check) ++ [s!"{message}: "]) := by
  obtain ⟨n, hc⟩ := exists_closes hl
  obtain ⟨u, hu, hl⟩ := collect_leads hw message check ht hc []
  exact ⟨n, hc.le_length, hc, u, Action.apply_orFail_ok hu _, hl⟩

def addresses : Terminal :=
  ⟨["10.0.0.1", "nope", " \"10.0.0.1\" \r", "\" \"", "10.0.0.2"].map Text.bytes, {}⟩

/-- The address that is entered twice is there twice, and the one behind the empty line is not
read. -/
theorem addresses_gathered : (Writer.Unfailing Sink.Open ∧ Sink.Open addresses.screen [] ∧
      ∀ line ∈ addresses.lines, Text.decode? line ≠ none) ∧
    ∃ u, (askUntilEmpty "Address" Setup.addressCheck).apply addresses =
        (.ok ["10.0.0.1", "10.0.0.1"], u) ∧ u.lines = [Text.bytes "10.0.0.2"] ∧
      u.screen.written =
        Text.bytes "Address: Address: nope is not a valid IP address\nAddress: Address: " := by
  have hl : ∀ line ∈ addresses.lines, Text.decode? line ≠ none := by
    intro line hm
    obtain ⟨s, -, rfl⟩ := List.mem_map.mp hm
    rw [Text.decode?_bytes]
    exact Option.some_ne_none s
  have h₃ : Closes addresses.lines 3 := by
    have hf : Filled (Text.bytes "10.0.0.1") ∧ Filled (Text.bytes "nope") ∧
        Filled (Text.bytes " \"10.0.0.1\" \r") :=
      ⟨⟨"10.0.0.1", by decide +kernel, by decide⟩, ⟨"nope", by decide +kernel, by decide⟩,
        "10.0.0.1", by decide +kernel, by decide⟩
    exact closes_succ.mpr ⟨hf.1, closes_succ.mpr ⟨hf.2.1, closes_succ.mpr ⟨hf.2.2,
      closes_zero.mpr (by decide +kernel)⟩⟩⟩
  have hw : Writer.Unfailing Sink.Open ∧ Sink.Open addresses.screen [] ∧
      ∀ line ∈ addresses.lines, Text.decode? line ≠ none := ⟨Sink.open_unfailing, rfl, hl⟩
  obtain ⟨n, -, hc, u, hu, hs⟩ :=
    askUntilEmpty_gathers hw.1 "Address" Setup.addressCheck addresses hw.2.1 hw.2.2
  obtain rfl := hc.unique h₃
  have hg : gathered Setup.addressCheck addresses.lines 3 = ["10.0.0.1", "10.0.0.1"] := by
    decide +kernel
  refine ⟨hw, u, hg ▸ hu, hs.lines, ?_⟩
  exact (congrArg Sink.written (hs.screen hw.2.1)).trans (by decide +kernel)

end Provisioner.Terminal
