import Mathlib.Data.List.Forall2
import Provisioner.Proofs.Collection

namespace Provisioner

namespace Text

theorem lines_append_ended (xs ys : List Char) :
    lines (xs ++ '\n' :: ys) = (fields '\n' xs).map dropReturn ++ lines ys := by
  unfold lines
  simp only [fields_append, List.dropLast_append_of_ne_nil (fields_ne_nil '\n' ys), List.map_append,
    List.getLast?_append]
  -- Only the last of the pieces may be a line that is not ended, and it is one of those of `ys`.
  obtain ⟨fs, f, hf⟩ := (List.eq_nil_or_concat (fields '\n' ys)).resolve_left (fields_ne_nil _ _)
  rw [List.concat_eq_append] at hf
  rw [hf, List.getLast?_concat, Option.some_or]
  cases f with
  | nil => rfl
  | cons c cs => exact List.append_assoc _ _ _

/-- Lines end where a text ends that is empty or ends a line. -/
theorem lines_append {xs : List Char} (h : xs = [] ∨ ∃ zs, xs = zs ++ ['\n']) (ys : List Char) :
    lines (xs ++ ys) = lines xs ++ lines ys := by
  obtain rfl | ⟨zs, rfl⟩ := h
  · rfl
  · have hl : lines [] = [] := rfl
    rw [List.append_assoc, List.singleton_append, lines_append_ended, lines_append_ended, hl,
      List.append_nil]

end Text

theorem Property.ofName?_none {name : String} (h : ∀ p : Property, p.name ≠ name) :
    ofName? name = none :=
  List.find?_eq_none.mpr fun p _ => by simpa using h p

theorem Property.check_known (p : Property) (h : Host) (value name : String) :
    p.check h value ≠ .error (.unknownProperty name) := by
  have file (n : String) : h.validateFile n value ≠ .error (.unknownProperty name) := by
    unfold Host.validateFile Host.resolvePath
    simp only [bind, Except.bind, throw, throwThe, MonadExceptOf.throw, pure, Except.pure]
    cases h.absolute (h.expand value) with
    | error e => simp
    | ok path =>
      dsimp only
      split
      · simp
      · split <;> simp
  cases p with
  | sshKey | inventory => exact file _
  | addressPrefix =>
    unfold check
    cases Net.AddressPrefix.ofString value <;> simp

namespace Properties

/-- A line gives a value to a name: it has a separator, and there is a name in front of that. -/
structure Enters (line : List Char) (name value : String) : Prop where
  cut : ∃ before after, cut? line = some (before, after) ∧
    String.ofList (Text.valueChars before) = name ∧ String.ofList (Text.valueChars after) = value
  named : name ≠ ""

theorem enters_iff {line : List Char} {name value : String} :
    Enters line name value ↔ pair? line = some (name, value) := by
  unfold pair?
  constructor
  · rintro ⟨⟨before, after, hc, rfl, rfl⟩, hn⟩
    have hn : (Text.valueChars before).isEmpty = false := by simpa using hn
    simp [hc, hn]
  · intro he
    split at he
    · cases he
    · dsimp only at he
      split at he
      · cases he
      · cases he
        rename_i hn
        exact ⟨⟨_, _, ‹_›, rfl, rfl⟩, by simpa using hn⟩

theorem Enters.unique {line : List Char} {name name' value value' : String}
    (hl : Enters line name value) (hl' : Enters line name' value') : name = name' ∧ value = value' :=
  Prod.mk.inj (Option.some.inj ((enters_iff.mp hl).symm.trans (enters_iff.mp hl')))

def Named (line : List Char) : Prop := ∃ name value, Enters line name value

theorem named_iff {line : List Char} : Named line ↔ (pair? line).isSome = true := by
  simp only [Named, enters_iff, Option.isSome_iff_exists, Prod.exists]

instance : DecidablePred Named := fun _ => decidable_of_iff _ named_iff.symm

inductive Finding where
  | stored (property : Property) (value : String)
  | rejected (cause : ConfigError)
  | unknown (name : String)

namespace Finding

def stored? (p : Property) : Finding → Option String
  | .stored q v => if p = q then some v else none
  | .rejected _ | .unknown _ => none

def rejected? : Finding → Option ConfigError
  | .rejected e => some e
  | .stored .. | .unknown _ => none

def unknown? : Finding → Option String
  | .unknown name => some name
  | .stored .. | .rejected _ => none

end Finding

/-- A value goes with its name if that is a property and the value passes its check. -/
inductive Finds (h : Host) (line : List Char) : Finding → Prop
  | stored {p : Property} {value v : String} (hl : Enters line p.name value)
    (hc : p.check h value = .ok v) : Finds h line (.stored p v)
  | rejected {p : Property} {value : String} {e : ConfigError} (hl : Enters line p.name value)
    (hc : p.check h value = .error e) : Finds h line (.rejected e)
  | unknown {name value : String} (hl : Enters line name value)
    (hn : ∀ p : Property, p.name ≠ name) : Finds h line (.unknown name)

variable {h : Host} {line : List Char} {f : Finding} {fs : List Finding} {a b : String}

theorem exists_finds (h : Host) (hl : Named line) : ∃ f, Finds h line f := by
  obtain ⟨name, value, hl⟩ := hl
  by_cases hn : ∃ p : Property, p.name = name
  · obtain ⟨p, rfl⟩ := hn
    cases hc : p.check h value with
    | ok v => exact ⟨_, .stored hl hc⟩
    | error e => exact ⟨_, .rejected hl hc⟩
  · exact ⟨_, .unknown hl (not_exists.mp hn)⟩

theorem Finds.unknown_iff (hf : Finds h line f) {name : String} : f.unknown? = some name ↔
    (∃ value, Enters line name value) ∧ ∀ p : Property, p.name ≠ name := by
  cases hf with
  | stored hl | rejected hl =>
    refine iff_of_false nofun ?_
    rintro ⟨⟨_, hl'⟩, hn⟩
    exact hn _ (hl.unique hl').1
  | unknown hl hn =>
    constructor
    · rintro ⟨⟩
      exact ⟨⟨_, hl⟩, hn⟩
    · rintro ⟨⟨_, hl'⟩, -⟩
      exact congrArg some (hl.unique hl').1

def tell (parsed : ParsedProperties) : Finding → ParsedProperties
  | .stored p v => { parsed with properties := parsed.properties.set p v }
  | .rejected e => { parsed with rejected := parsed.rejected ++ [e] }
  | .unknown name => { parsed with unknown := parsed.unknown ++ [name] }

theorem accept_tell {name value : String} (hl : Enters line name value) (hf : Finds h line f)
    (parsed : ParsedProperties) : accept h parsed (name, value) = tell parsed f := by
  unfold accept
  cases hf with
  | stored hl' hc =>
    obtain ⟨rfl, rfl⟩ := hl.unique hl'
    rw [insert_named, hc]
    rfl
  | @rejected p value e hl' hc =>
    obtain ⟨rfl, rfl⟩ := hl.unique hl'
    rw [insert_named, hc]
    cases e with
    | unknownProperty name => exact absurd hc (p.check_known h _ name)
    | io | flawedSettings | unreadableSettings | missingProperty | invalidProperty => rfl
  | unknown hl' hn =>
    obtain ⟨rfl, rfl⟩ := hl.unique hl'
    unfold insert
    rw [Property.ofName?_none hn]
    rfl

theorem foldl_accept_tell {lines : List (List Char)}
    (hf : List.Forall₂ (Finds h) (lines.filter Named) fs) (parsed : ParsedProperties) :
    (lines.filterMap pair?).foldl (accept h) parsed = fs.foldl tell parsed := by
  -- By induction on the lines: one that enters nothing has no finding, and it is skipped.
  induction lines generalizing fs parsed with
  | nil =>
    cases hf
    rfl
  | cons line lines ih =>
    by_cases hl : Named line
    · rw [List.filter_cons_of_pos (by simpa using hl)] at hf
      cases hf with
      | cons hf hfs =>
        obtain ⟨name, value, hl⟩ := hl
        rw [List.filterMap_cons_some (enters_iff.mp hl), List.foldl_cons, accept_tell hl hf,
          ih hfs, List.foldl_cons]
    · rw [List.filter_cons_of_neg (by simpa using hl)] at hf
      have he : pair? line = none := by
        rwa [named_iff, Bool.not_eq_true, Option.isSome_eq_false_iff,
          Option.isNone_iff_eq_none] at hl
      rw [List.filterMap_cons_none he]
      exact ih hf parsed

/-- What was read tells of the findings, in their order. The last value that was stored counts. -/
structure Told (fs : List Finding) (parsed : ParsedProperties) : Prop where
  get : ∀ p, parsed.properties.get p = (fs.filterMap (Finding.stored? p)).getLast?
  rejected : parsed.rejected = fs.filterMap Finding.rejected?
  unknown : parsed.unknown = fs.filterMap Finding.unknown?

theorem Told.tell {parsed : ParsedProperties} (ht : Told fs parsed) (f : Finding) :
    Told (fs ++ [f]) (tell parsed f) := by
  refine ⟨fun p => ?_, ?_, ?_⟩
  · rw [List.filterMap_append, List.getLast?_append, ← ht.get]
    cases f with
    | stored q v =>
      simp only [Properties.tell, get_set, List.filterMap_cons, Finding.stored?]
      split <;> rfl
    | rejected | unknown => rfl
  · rw [List.filterMap_append, ← ht.rejected]
    cases f with
    | rejected => rfl
    | stored | unknown => exact (List.append_nil _).symm
  · rw [List.filterMap_append, ← ht.unknown]
    cases f with
    | unknown => rfl
    | stored | rejected => exact (List.append_nil _).symm

theorem told (fs : List Finding) : Told fs (fs.foldl tell {}) := by
  induction fs using List.reverseRecOn with
  | nil => exact ⟨fun p => by cases p <;> rfl, rfl, rfl⟩
  | append_singleton fs f ih =>
    rw [List.foldl_append]
    exact ih.tell f

/-- Each of the lines that enter something comes to one finding. -/
def Reads (h : Host) (content : String) (fs : List Finding) : Prop :=
  List.Forall₂ (Finds h) ((Text.lines content.toList).filter Named) fs

theorem Reads.told (hf : Reads h a fs) : Told fs (parse h a) := by
  unfold parse
  rw [foldl_accept_tell hf]
  exact Properties.told fs

theorem exists_reads (h : Host) (content : String) : ∃ fs, Reads h content fs := by
  unfold Reads
  have hl : ∀ line ∈ (Text.lines content.toList).filter Named, Named line := fun line hm =>
    of_decide_eq_true (List.mem_filter.mp hm).2
  generalize (Text.lines content.toList).filter Named = lines at hl
  induction lines with
  | nil => exact ⟨[], .nil⟩
  | cons line lines ih =>
    rw [List.forall_mem_cons] at hl
    obtain ⟨f, hf⟩ := exists_finds h hl.1
    obtain ⟨fs, hfs⟩ := ih hl.2
    exact ⟨f :: fs, .cons hf hfs⟩

/-- What is read where texts follow each other, with what is read from each of them. -/
structure Merges (first second both : ParsedProperties) : Prop where
  get : ∀ p, both.properties.get p = (second.properties.get p).or (first.properties.get p)
  rejected : both.rejected = first.rejected ++ second.rejected
  unknown : both.unknown = first.unknown ++ second.unknown

theorem Reads.append {gs : List Finding} (ha : a = "" ∨ ∃ c, a = c ++ "\n") (hf : Reads h a fs)
    (hg : Reads h b gs) : Reads h (a ++ b) (fs ++ gs) := by
  have hl : a.toList = [] ∨ ∃ zs, a.toList = zs ++ ['\n'] := by
    obtain rfl | ⟨c, rfl⟩ := ha
    · exact .inl rfl
    · exact .inr ⟨c.toList, String.toList_append⟩
  unfold Reads
  rw [String.toList_append, Text.lines_append hl, List.filter_append]
  exact List.rel_append hf hg

theorem Told.append {gs : List Finding} {first second both : ParsedProperties}
    (hf : Told fs first) (hg : Told gs second) (hb : Told (fs ++ gs) both) :
    Merges first second both := by
  refine ⟨fun p => ?_, ?_, ?_⟩
  · rw [hb.get, hf.get, hg.get, List.filterMap_append, List.getLast?_append]
  · rw [hb.rejected, hf.rejected, hg.rejected, List.filterMap_append]
  · rw [hb.unknown, hf.unknown, hg.unknown, List.filterMap_append]

/-- A name is told to be unknown just if a line enters something for it and it is no property. -/
theorem Reads.mem_unknown (hf : Reads h a fs) (name : String) : name ∈ (parse h a).unknown ↔
    (∃ line ∈ Text.lines a.toList, ∃ value, Enters line name value) ∧
      ∀ p : Property, p.name ≠ name := by
  have hm {lines : List (List Char)} {fs : List Finding} (hfs : List.Forall₂ (Finds h) lines fs) :
      (∃ f ∈ fs, f.unknown? = some name) ↔ ∃ line ∈ lines,
        (∃ value, Enters line name value) ∧ ∀ p : Property, p.name ≠ name := by
    induction hfs with
    | nil => simp
    | cons hf _ ih => rw [List.exists_mem_cons_iff, List.exists_mem_cons_iff, hf.unknown_iff, ih]
  rw [hf.told.unknown, List.mem_filterMap, hm hf]
  constructor
  · rintro ⟨line, hl, he, hn⟩
    exact ⟨⟨line, (List.mem_filter.mp hl).1, he⟩, hn⟩
  · rintro ⟨⟨line, hl, value, he⟩, hn⟩
    exact ⟨line, List.mem_filter.mpr ⟨hl, decide_eq_true ⟨name, value, he⟩⟩, ⟨value, he⟩, hn⟩

/-- Texts of whole lines are read together as they are read one by one: the lists follow each other
and later values win. For any text, each line that enters something comes to one finding. -/
theorem parse_merges (h : Host) (ha : a = "" ∨ ∃ c, a = c ++ "\n") (b : String) :
    Merges (parse h a) (parse h b) (parse h (a ++ b)) ∧
      ∀ content, (∃ fs, Reads h content fs ∧ Told fs (parse h content)) ∧
        ∀ name, name ∈ (parse h content).unknown ↔
          (∃ line ∈ Text.lines content.toList, ∃ value, Enters line name value) ∧
            ∀ p : Property, p.name ≠ name := by
  obtain ⟨fs, hf⟩ := exists_reads h a
  obtain ⟨gs, hg⟩ := exists_reads h b
  refine ⟨hf.told.append hg.told (hf.append ha hg).told, fun content => ?_⟩
  obtain ⟨fs, hf⟩ := exists_reads h content
  exact ⟨⟨fs, hf, hf.told⟩, hf.mem_unknown⟩

def earlierLines : String := "colour: blue\nproxy_ip_address_prefix: 10.*\r\n"

/-- The last of the lines has a value that is not valid. -/
def laterLines : String :=
  "=x\nproxy_ip_address_prefix = \"172.18.*\"\nproxy_ip_address_prefix=10.0.0.1"

def emptyHost : Host where
  root := .dir 0o755 []
  cwd := []
  home := none
  userProfile := none

theorem later_lines_merge : (earlierLines = "" ∨ ∃ c, earlierLines = c ++ "\n") ∧
    Merges (parse emptyHost earlierLines) (parse emptyHost laterLines)
      (parse emptyHost (earlierLines ++ laterLines)) ∧
    (parse emptyHost (earlierLines ++ laterLines)).properties.get .addressPrefix =
      some "172.18.*" ∧
    (parse emptyHost (earlierLines ++ laterLines)).rejected.length = 1 ∧
    (parse emptyHost (earlierLines ++ laterLines)).unknown = ["colour"] := by
  have ha : earlierLines = "" ∨ ∃ c, earlierLines = c ++ "\n" :=
    .inr ⟨"colour: blue\nproxy_ip_address_prefix: 10.*\r", by decide +kernel⟩
  have hm := (parse_merges emptyHost ha laterLines).1
  have hl : (parse emptyHost laterLines).properties.get .addressPrefix = some "172.18.*" := by
    decide +kernel
  refine ⟨ha, hm, ?_, ?_, ?_⟩
  · rw [hm.get, hl, Option.some_or]
  · rw [hm.rejected]
    decide +kernel
  · rw [hm.unknown]
    decide +kernel

end Properties

end Provisioner
