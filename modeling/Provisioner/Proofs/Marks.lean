import Provisioner.Proofs.Checking
import Provisioner.Proofs.Plans

namespace Provisioner

namespace Files.Path

def Marked (mark p : String) : Prop := mark.toList <:+ p.toList

instance (mark p : String) : Decidable (Marked mark p) :=
  inferInstanceAs (Decidable (mark.toList <:+ p.toList))

inductive Mark where
  | plain
  | slash
  | contents
  deriving DecidableEq, Repr

namespace Mark

def text : Mark → String
  | .plain => ""
  | .slash => "/"
  | .contents => "/."

def assertsDir : Mark → Bool
  | .plain => false
  | .slash | .contents => true

def contentsOnly : Mark → Bool
  | .plain | .slash => false
  | .contents => true

theorem assertsDir_eq {m : Mark} (hm : m ≠ .plain) : m.assertsDir = true := by
  cases m with
  | plain => exact absurd rfl hm
  | slash | contents => rfl

def of (p : String) : Mark :=
  if Marked "/." p then .contents else if Marked "/" p then .slash else .plain

end Mark

variable {p : String}

theorem marked_append (mark p : String) : Marked mark (p ++ mark) :=
  ⟨p.toList, String.toList_append.symm⟩

theorem marked_iff {mark : String} : Marked mark p ↔ ∃ q, p = q ++ mark := by
  constructor
  · rintro ⟨cs, hc⟩
    refine ⟨String.ofList cs, String.toList_inj.mp ?_⟩
    rw [String.toList_append, String.toList_ofList, hc]
  · rintro ⟨q, rfl⟩
    exact marked_append mark q

theorem marked_slash : Marked "/" p ↔ endsWithSlash p = true := by
  rw [endsWithSlash_iff]
  exact exists_congr fun _ => eq_comm

theorem Marked.unslashed (h : Marked "/." p) : ¬Marked "/" p := by
  obtain ⟨q, rfl⟩ := marked_iff.mp h
  rw [marked_slash, endsWithSlash, String.toList_append, List.getLast?_append]
  exact Bool.false_ne_true

theorem stripChars?_append (start rest : List Char) :
    stripChars? start (start ++ rest) = some rest := by
  induction start with
  | nil => rfl
  | cons c cs ih => rw [List.cons_append, stripChars?, if_pos (beq_self_eq_true c), ih]

theorem stripEnd?_append (mark p : String) : stripEnd? mark (p ++ mark) = some p := by
  unfold stripEnd?
  rw [String.toList_append, List.reverse_append, stripChars?_append, Option.map_some,
    List.reverse_reverse, String.ofList_toList]

theorem stripEnd?_none {mark : String} (h : ¬Marked mark p) : stripEnd? mark p = none := by
  unfold stripEnd?
  rw [Option.map_eq_none_iff, Option.eq_none_iff_forall_not_mem]
  intro rest hr
  refine h ⟨rest.reverse, ?_⟩
  rw [← List.reverse_reverse p.toList, Copy.stripChars?_some hr, List.reverse_append,
    List.reverse_reverse]

theorem trimEnd_slash (p : String) : trimEnd (p ++ "/") = trimEnd p := by
  unfold trimEnd
  rw [String.toList_append, Text.dropEndWhile_append]
  exact List.forall_mem_singleton.mpr (beq_self_eq_true '/')

theorem names_marked (p : String) (m : Mark) : names (p ++ m.text) = names p := by
  have hn (ys : List Char) (hy : names (String.ofList ys) = []) :
      names (p ++ String.ofList ('/' :: ys)) = names p := by
    have ha := names_append p.toList ys
    rwa [hy, List.append_nil, String.ofList_append, String.ofList_toList] at ha
  cases m with
  | plain => exact congrArg names String.append_empty
  | slash => exact hn [] rfl
  | contents => exact hn ['.'] rfl

theorem Mark.of_plain : Mark.of p = .plain ↔ ¬Marked "/" p ∧ ¬Marked "/." p := by
  unfold Mark.of
  split
  · simp [*]
  · split <;> simp [*]

theorem Mark.of_slash : Mark.of p = .slash ↔ Marked "/" p := by
  unfold Mark.of
  split
  · simp [Marked.unslashed ‹_›]
  · split <;> simp [*]

theorem Mark.of_contents : Mark.of p = .contents ↔ Marked "/." p := by
  unfold Mark.of
  split
  · simp [*]
  · split <;> simp [*]

theorem Mark.assertsDir_of (p : String) :
    (Mark.of p).assertsDir = decide (Marked "/" p ∨ Marked "/." p) := by
  rw [Bool.eq_iff_iff, decide_eq_true_iff, ← Mark.of_slash, ← Mark.of_contents]
  cases Mark.of p <;> decide

theorem Mark.contentsOnly_of (p : String) : (Mark.of p).contentsOnly = decide (Marked "/." p) := by
  rw [Bool.eq_iff_iff, decide_eq_true_iff, ← Mark.of_contents]
  cases Mark.of p <;> decide

theorem endsWithSlash_eq (p : String) : endsWithSlash p = decide (Mark.of p = .slash) := by
  rw [Bool.eq_iff_iff, decide_eq_true_iff, Mark.of_slash, marked_slash]

/-- A path without a mark has the mark that is put to it. -/
theorem Mark.of_append (hp : Mark.of p = .plain) (m : Mark) : Mark.of (p ++ m.text) = m := by
  cases m with
  | plain => rwa [Mark.text, String.append_empty]
  | slash => exact Mark.of_slash.mpr (marked_append "/" p)
  | contents => exact Mark.of_contents.mpr (marked_append "/." p)

theorem root_marked (hp : ¬Marked "/" p) (m : Mark) : root (p ++ m.text) = root p := by
  have hl : p.toList.getLast? ≠ some '/' := fun h => hp (marked_slash.mpr (beq_iff_eq.mpr h))
  unfold root
  rw [String.toList_append]
  match h : p.toList with
  | [] => cases m <;> rfl
  | [a] =>
    have ha : a ≠ '/' := by simpa [h] using hl
    cases m <;> simp [Mark.text, ha]
  | [a, b] =>
    have hb : b ≠ '/' := by simpa [h] using hl
    cases m <;> simp [Mark.text, hb]
  | a :: b :: c :: cs => by_cases ha : a = '/' <;> by_cases hb : b = '/' <;> simp [ha, hb]

def goal (cwd p : String) : String :=
  (names p).foldl join (if isAbsolute p then root p else cwd)

theorem absolute?_eq (cwd : String) (hp : p ≠ "") : absolute? cwd p =
    some (if Mark.of p = .slash then join (goal cwd p) "" else goal cwd p) := by
  unfold absolute?
  rw [if_neg (by simpa using hp), endsWithSlash_eq]
  simp only [decide_eq_true_eq, goal]

theorem goal_marked (cwd : String) (hp : p ≠ "") (hm : Mark.of p = .plain) (m : Mark) :
    goal cwd (p ++ m.text) = goal cwd p := by
  unfold goal
  rw [names_marked, isAbsolute_append hp, root_marked (Mark.of_plain.mp hm).1]

structure Settled (p : String) : Prop where
  strung : Strung p
  named : ∃ l, EndsIn p l ∧ IsName l

theorem join_empty (hp : p ≠ "") (hs : endsWithSlash p = false) : join p "" = p ++ "/" := by
  rw [join, isAbsolute_slashless (by decide), if_neg Bool.false_ne_true, hs,
    if_neg (by simpa using hp), String.append_empty]

theorem trimEnd_marked (hs : endsWithSlash p = false) : trimEnd (p ++ "/") = p := by
  rw [trimEnd_slash, trimEnd_eq hs]

namespace Settled

variable (h : Settled p)

include h

theorem ne_empty : p ≠ "" := by
  rintro rfl
  exact absurd h.strung.isAbsolute (by decide)

theorem plain : Mark.of p = .plain := by
  obtain ⟨l, he, hl⟩ := h.named
  refine Mark.of_plain.mpr ⟨?_, fun hc => ?_⟩
  · rw [marked_slash, he.endsWithSlash hl.ne_empty]
    exact Bool.false_ne_true
  · obtain ⟨q, rfl⟩ := marked_iff.mp hc
    have hd : l.toList = ['.'] := he.unique String.toList_append (by decide)
    exact hl.ne_dot (String.toList_inj.mp hd)

theorem unslashed : endsWithSlash p = false := by
  rw [endsWithSlash_eq, h.plain]
  rfl

theorem goal_eq (cwd : String) : goal cwd p = p := by
  have ha := h.strung.absolute? h.unslashed cwd
  rw [absolute?_eq cwd h.ne_empty, h.plain, if_neg (by decide)] at ha
  exact Option.some.inj ha

end Settled

/-- What is strung together is a root, or it ends in a name. -/
theorem Strung.root_or_settled (h : Strung p) : p = "/" ∨ p = "//" ∨ Settled p := by
  have hs := h
  obtain ⟨q, ns, hn⟩ := h
  rcases ns.eq_nil_or_concat with rfl | ⟨ms, n, rfl⟩
  · exact (root_cases q).imp_right .inl
  · refine .inr (.inr ⟨hs, n, ?_, hn n (by simp)⟩)
    rw [List.concat_eq_append, List.foldl_append]
    exact join_endsIn _ (hn n (by simp))

end Files.Path

namespace Copy

open Files.Path

variable {h : Host} {raw long p path : String}

theorem marksContents_eq (p : String) : marksContents p = decide (Mark.of p = .contents) := by
  rw [Bool.eq_iff_iff, decide_eq_true_iff, Mark.of_contents, marksContents, contentsMark]
  by_cases hp : Marked "/." p
  · obtain ⟨q, rfl⟩ := marked_iff.mp hp
    rw [stripEnd?_append]
    exact iff_of_true rfl hp
  · rw [stripEnd?_none hp]
    exact iff_of_false Bool.false_ne_true hp

theorem absolute_goal (hg : Settled (goal h.cwdPath raw)) (hn : raw ≠ "") : h.absolute raw =
    .ok (if Mark.of raw = .slash then goal h.cwdPath raw ++ "/" else goal h.cwdPath raw) := by
  unfold Host.absolute
  rw [absolute?_eq _ hn, join_empty hg.ne_empty hg.unslashed]

/-- What is not the root from the start is not the root, and its slashes are those of its mark. -/
theorem settled_goal (hl : h.Located) (ha : h.absolute raw = .ok long) (hr : long ≠ "/")
    (hr' : long ≠ "//") :
    raw ≠ "" ∧ Settled (goal h.cwdPath raw) ∧ trimEnd long = goal h.cwdPath raw := by
  have hn : raw ≠ "" := by
    rintro rfl
    cases ha
  have hg : Settled (goal h.cwdPath raw) := by
    have hs : Strung (goal h.cwdPath raw) := strung_names hl.cwdPath_strung raw
    have ht := Host.absolute_ok ha
    rw [absolute?_eq _ hn, Option.some.injEq] at ht
    obtain he | he | hg := hs.root_or_settled
    · refine absurd ?_ hr
      rw [← ht, he]
      split <;> rfl
    · refine absurd ?_ hr'
      rw [← ht, he]
      split <;> rfl
    · exact hg
  refine ⟨hn, hg, ?_⟩
  rw [absolute_goal hg hn] at ha
  rw [← Except.ok.inj ha]
  split
  · exact trimEnd_marked hg.unslashed
  · exact trimEnd_eq hg.unslashed

theorem resolve_goal (hg : Settled (goal h.cwdPath raw)) (hn : raw ≠ "") (hd : raw ≠ "-") :
    Source.resolve h raw = .ok (.path (goal h.cwdPath raw ++ (Mark.of raw).text)) := by
  unfold Source.resolve
  rw [if_neg (by simpa using hd), absolute_goal hg hn]
  simp only [marksContents_eq, endsWithSlash_eq]
  cases hm : Mark.of raw with
  | plain => simp [Mark.text]
  | slash =>
    have hs : Mark.of (goal h.cwdPath raw ++ "/") = .slash := Mark.of_append hg.plain .slash
    simp [Mark.text, hs]
  | contents => simp [Mark.text, hg.plain, trimEnd_eq hg.unslashed, contentsMark]

/-- A mark that is put to a path is put to what that is resolved to. -/
theorem resolve_append (hg : Settled (goal h.cwdPath raw)) (hn : raw ≠ "") (hd : raw ≠ "-")
    (hp : Mark.of raw = .plain) (m : Mark) :
    Source.resolve h (raw ++ m.text) = .ok (.path (goal h.cwdPath raw ++ m.text)) := by
  have he : goal h.cwdPath (raw ++ m.text) = goal h.cwdPath raw := goal_marked _ hn hp m
  have hg' : Settled (goal h.cwdPath (raw ++ m.text)) := by rwa [he]
  have hn' : raw ++ m.text ≠ "" := fun h => hn (String.append_eq_empty_iff.mp h).1
  have hd' : raw ++ m.text ≠ "-" := by
    intro h
    have hm : m = .plain := by
      rw [← Mark.of_append hp m, h]
      rfl
    rw [hm, Mark.text, String.append_empty] at h
    exact hd h
  rw [resolve_goal hg' hn' hd', he, Mark.of_append hp]

/-- A path from the root to a name is resolved to itself, with any mark. -/
theorem resolve_settled (hg : Settled p) (m : Mark) :
    Source.resolve h (p ++ m.text) = .ok (.path (p ++ m.text)) := by
  have hd : p ≠ "-" := by
    rintro rfl
    exact absurd hg.strung.isAbsolute (by decide)
  have he : goal h.cwdPath p = p := hg.goal_eq _
  have hg' : Settled (goal h.cwdPath p) := by rwa [he]
  rw [resolve_append hg' hg.ne_empty hd hg.plain, he]

def Origin.seen (h : Host) (path : String) (assertsDir contentsOnly : Bool) :
    Except CopyError Origin :=
  ((h.stat path).mapError (.archive path)).map fun node =>
    ⟨path, node.isDir, assertsDir, contentsOnly⟩

theorem bare_marked (hg : Settled p) {m : Mark} (hm : m ≠ .plain) : bare (p ++ m.text) = p := by
  have hp : (if p.isEmpty then "/" else p) = p := if_neg (by simpa using hg.ne_empty)
  unfold bare
  cases m with
  | plain => exact absurd rfl hm
  | slash =>
    have hc : ¬Marked "/." (p ++ "/") := fun hc => hc.unslashed (marked_append "/" p)
    simp only [Mark.text, contentsMark, stripEnd?_none hc, Option.getD_none,
      trimEnd_marked hg.unslashed, hp]
  | contents =>
    simp only [Mark.text, contentsMark, stripEnd?_append, Option.getD_some,
      trimEnd_eq hg.unslashed, hp]

/-- A mark is no part of the path that is looked at. -/
theorem inspect_marked (hg : Settled p) (m : Mark) :
    Origin.inspect h (p ++ m.text) = Origin.seen h p m.assertsDir m.contentsOnly := by
  have hc : marksContents (p ++ m.text) = m.contentsOnly := by
    rw [marksContents_eq, Mark.of_append hg.plain]
    cases m <;> rfl
  have ha : (m.contentsOnly || endsWithSlash (p ++ m.text)) = m.assertsDir := by
    rw [endsWithSlash_eq, Mark.of_append hg.plain]
    cases m <;> rfl
  have hb : (if m.assertsDir then bare (p ++ m.text) else p ++ m.text) = p := by
    by_cases hm : m = .plain
    · rw [hm, Mark.assertsDir, if_neg Bool.false_ne_true, Mark.text, String.append_empty]
    · rw [bare_marked hg hm, Mark.assertsDir_eq hm, if_pos rfl]
  unfold Origin.inspect Origin.seen
  simp only [hc, ha, hb]
  cases h.stat p <;> rfl

/-- A path that is resolved keeps its mark. It is looked at without it, and the mark only says how
it is meant. All this is about texts, which name what the paths do if the way to the working
directory is a text. -/
theorem resolved_as_marked (hl : h.Located) (hd : raw ≠ "-") (ha : h.absolute raw = .ok long)
    (hr : long ≠ "/" ∧ long ≠ "//") :
    ∃ path, Source.resolve h raw = .ok (.path path) ∧
      Source.resolve h path = .ok (.path path) ∧
      Origin.inspect h path = Origin.seen h (trimEnd long)
        (decide (Marked "/" raw ∨ Marked "/." raw)) (decide (Marked "/." raw)) ∧
      (¬Marked "/" raw → ¬Marked "/." raw → ∃ slashed dotted,
        Source.resolve h (raw ++ "/") = .ok (.path slashed) ∧
        Source.resolve h (raw ++ "/.") = .ok (.path dotted) ∧
        Origin.inspect h slashed =
          (Origin.inspect h path).map (fun o => { o with assertsDir := true }) ∧
        Origin.inspect h dotted =
          (Origin.inspect h path).map fun o =>
            { o with assertsDir := true, contentsOnly := true }) := by
  obtain ⟨hn, hg, ht⟩ := settled_goal hl ha hr.1 hr.2
  refine ⟨_, resolve_goal hg hn hd, resolve_settled hg _, ?_, fun hs hc => ?_⟩
  · rw [inspect_marked hg, ht, Mark.assertsDir_of, Mark.contentsOnly_of]
  · have hm : Mark.of raw = .plain := Mark.of_plain.mpr ⟨hs, hc⟩
    refine ⟨_, _, resolve_append hg hn hd hm .slash, resolve_append hg hn hd hm .contents, ?_, ?_⟩
    all_goals
      rw [inspect_marked hg, inspect_marked hg, hm]
      unfold Origin.seen
      cases h.stat (goal h.cwdPath raw) <;> rfl

def markedHost : Host where
  root := .dir 0o755 [("work", .dir 0o755 [("a.", .dir 0o755 [])])]
  cwd := ["work"]
  home := none
  userProfile := none

theorem dotted_resolved : markedHost.Located ∧ "..//work/./a." ≠ "-" ∧
    markedHost.absolute "..//work/./a." = .ok "/work/../work/a." ∧
    ∃ path slashed dotted, Source.resolve markedHost "..//work/./a." = .ok (.path path) ∧
      Source.resolve markedHost path = .ok (.path path) ∧
      Source.resolve markedHost "..//work/./a./" = .ok (.path slashed) ∧
      Source.resolve markedHost "..//work/./a./." = .ok (.path dotted) ∧
      Origin.inspect markedHost path = .ok ⟨"/work/../work/a.", true, false, false⟩ ∧
      Origin.inspect markedHost slashed = .ok ⟨"/work/../work/a.", true, true, false⟩ ∧
      Origin.inspect markedHost dotted = .ok ⟨"/work/../work/a.", true, true, true⟩ := by
  have hl : markedHost.Located := by
    intro n hn
    obtain rfl := List.mem_singleton.mp hn
    exact ⟨by decide, by decide, by decide⟩
  have hd : "..//work/./a." ≠ "-" := by decide
  have ha : markedHost.absolute "..//work/./a." = .ok "/work/../work/a." := by decide +kernel
  obtain ⟨path, hs, hs', hi, hm⟩ := resolved_as_marked hl hd ha (by decide)
  have hi : Origin.inspect markedHost path = .ok ⟨"/work/../work/a.", true, false, false⟩ :=
    hi.trans (by decide +kernel)
  obtain ⟨slashed, dotted, hr, hc, hir, hic⟩ := hm (by decide) (by decide)
  rw [hi] at hir hic
  exact ⟨hl, hd, ha, path, slashed, dotted, hs, hs', hr, hc, hi, hir, hic⟩

/-- A path is resolved whether or not there is anything to look at. And in a directory without a text
for its path there is nothing to look at even for a file that is there. -/
theorem misnamed_unresolved :
    (Source.resolve markedHost "b" = .ok (.path "/work/b") ∧
      Origin.inspect markedHost "/work/b" = .error (.archive "/work/b" .notFound)) ∧
    (Host.misnamed.statAbsolute "key").map Files.Node.isDir = .ok false ∧
      Source.resolve .misnamed "key" = .ok (.path "/\uFFFD/key") ∧
      Origin.inspect .misnamed "/\uFFFD/key" = .error (.archive "/\uFFFD/key" .notFound) := by
  refine ⟨⟨?_, ?_⟩, ?_, ?_, ?_⟩ <;> decide +kernel

end Copy

end Provisioner
