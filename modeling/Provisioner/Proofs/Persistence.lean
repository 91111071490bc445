import Provisioner.Proofs.Collection

namespace Provisioner

namespace Text

theorem fields_ended {α : Type} [BEq α] [LawfulBEq α] {sep : α} {ls : List (List α)}
    (h : ∀ l ∈ ls, sep ∉ l) : fields sep (ls.flatMap fun l => l ++ [sep]) = ls ++ [[]] := by
  induction ls with
  | nil => rfl
  | cons l ls ih =>
    rw [List.forall_mem_cons] at h
    rw [List.flatMap_cons, List.append_assoc, List.singleton_append, fields_append,
      fields_single h.1, ih h.2]
    rfl

theorem dropReturn_eq {l : List Char} (h : l.getLast? ≠ some '\r') : dropReturn l = l := by
  unfold dropReturn
  split
  · rename_i rest hr
    refine absurd ?_ h
    rw [← List.head?_reverse, hr]
    rfl
  · rfl

theorem lines_ended {ls : List (List Char)} (h : ∀ l ∈ ls, '\n' ∉ l ∧ l.getLast? ≠ some '\r') :
    lines (ls.flatMap fun l => l ++ ['\n']) = ls := by
  have hd : ls.map dropReturn = ls :=
    (List.map_congr_left fun l hl => dropReturn_eq (h l hl).2).trans (List.map_id _)
  unfold lines
  simp only [fields_ended fun l hl => (h l hl).1, List.getLast?_concat, List.dropLast_concat, hd]

/-- A text on one line that ends neither in a blank nor in a quote. -/
structure Lasting (s : String) : Prop where
  oneLine : '\n' ∉ s.toList
  ending : ∀ c ∈ s.toList.getLast?, isBlank c = false ∧ c ≠ '"'

theorem lasting_of_last {s : String} {c : Char} (hl : '\n' ∉ s.toList)
    (hc : s.toList.getLast? = some c) (hb : isBlank c = false ∧ c ≠ '"') : Lasting s := by
  refine ⟨hl, fun d hd => ?_⟩
  cases hc.symm.trans hd
  exact hb

structure Legible (s : String) : Prop where
  oneLine : '\n' ∉ s.toList
  bare : Bare s.toList

end Text

theorem Property.name_legible (p : Property) :
    p.name ≠ "" ∧ ':' ∉ p.name.toList ∧ Text.Legible p.name := by
  have h : ∀ p : Property, p.name ≠ "" ∧ ':' ∉ p.name.toList ∧ '\n' ∉ p.name.toList ∧
      p.name.toList.all (fun c => !Text.isBlank c && c != '"') = true := by
    rintro (_ | _ | _) <;> decide +kernel
  obtain ⟨hn, hc, hl, hb⟩ := h p
  refine ⟨hn, hc, hl, Text.bare_of_forall fun c hm => ?_⟩
  simpa using List.all_eq_true.mp hb c hm

namespace Properties

open Text

theorem cutAt?_append {sep : Char} {before : List Char} (h : sep ∉ before) (after : List Char) :
    cutAt? sep (before ++ sep :: after) = some (before, after) := by
  have hp := bne_of_notMem h
  unfold cutAt?
  rw [List.dropWhile_append_of_pos hp, List.takeWhile_append_of_pos hp]
  simp

def line (name value : String) : List Char := name.toList ++ ':' :: ' ' :: value.toList

theorem pair?_line {name value : String} (hn : name ≠ "") (hc : ':' ∉ name.toList)
    (hb : Bare name.toList) (hv : Bare value.toList) :
    pair? (line name value) = some (name, value) := by
  have hcut : cut? (line name value) = some (name.toList, ' ' :: value.toList) := by
    unfold cut? line
    rw [cutAt?_append hc]
    cases h : name.toList with
    | nil => exact absurd (String.toList_inj.mp h) hn
    | cons => rfl
  have hs : valueChars (' ' :: value.toList) = value.toList := by
    refine @valueChars_behind [' '] _ (fun c hc => ?_) hv
    obtain rfl := List.mem_singleton.mp hc
    decide
  have he : name.toList.isEmpty = false := by
    rw [List.isEmpty_eq_false_iff]
    exact fun h => hn (String.toList_inj.mp h)
  unfold pair?
  simp only [hcut, valueChars_bare hb, hs, he, String.ofList_toList]
  rfl

theorem text_toList (ps : Properties) :
    ps.text.toList = (ps.toList.map fun e => line e.1 e.2).flatMap fun l => l ++ ['\n'] := by
  unfold text line
  rw [String.toList_join, List.flatMap_map, List.flatMap_map]
  exact congrArg ps.toList.flatMap (funext fun e => by simp [toString])

theorem mem_toList {ps : Properties} {e : String × String} (he : e ∈ ps.toList) :
    ∃ p : Property, e.1 = p.name ∧ ps.get p = some e.2 := by
  obtain ⟨p, -, hp⟩ := List.mem_filterMap.mp he
  obtain ⟨v, hv, rfl⟩ := Option.map_eq_some_iff.mp hp
  exact ⟨p, rfl, hv⟩

theorem line_ended {name value : String} (hn : Legible name) (hv : Legible value) :
    '\n' ∉ line name value ∧ (line name value).getLast? ≠ some '\r' := by
  constructor
  · simp [line, hn.oneLine, hv.oneLine]
  · have hl : (line name value).getLast? = value.toList.getLast?.or (some ' ') := by
      change (name.toList ++ ([':', ' '] ++ value.toList)).getLast? = _
      rw [List.getLast?_append, List.getLast?_append]
      cases value.toList.getLast? <;> rfl
    rw [hl]
    cases hg : value.toList.getLast? with
    | none => decide
    | some c =>
      intro hc
      obtain rfl : c = '\r' := Option.some.inj hc
      exact absurd (hv.bare.last _ hg).1 (by decide)

theorem filterMap_pair? {es : List (String × String)}
    (h : ∀ e ∈ es, pair? (line e.1 e.2) = some e) :
    (es.map fun e => line e.1 e.2).filterMap pair? = es := by
  induction es with
  | nil => rfl
  | cons e es ih =>
    rw [List.forall_mem_cons] at h
    rw [List.map_cons, List.filterMap_cons_some h.1, ih h.2]

theorem entries_text {ps : Properties} (h : ∀ p v, ps.get p = some v → Legible v) :
    (lines ps.text.toList).filterMap pair? = ps.toList := by
  have hline : ∀ e ∈ ps.toList, ('\n' ∉ line e.1 e.2 ∧ (line e.1 e.2).getLast? ≠ some '\r') ∧
      pair? (line e.1 e.2) = some e := by
    intro e he
    obtain ⟨p, hp, hv⟩ := mem_toList he
    obtain ⟨hn, hc, hl⟩ := p.name_legible
    rw [← hp] at hn hc hl
    exact ⟨line_ended hl (h p _ hv), pair?_line hn hc hl.bare (h p _ hv).bare⟩
  rw [text_toList, lines_ended]
  · exact filterMap_pair? fun e he => (hline e he).2
  · intro l hl
    obtain ⟨e, he, rfl⟩ := List.mem_map.mp hl
    exact (hline e he).1

theorem accept_ok {h : Host} {parsed : ParsedProperties} {p : Property} {v : String}
    (hc : p.check h v = .ok v) :
    accept h parsed (p.name, v) = { parsed with properties := parsed.properties.set p v } := by
  unfold accept
  rw [insert_named, hc]
  rfl

def adopt (ps acc : Properties) (p : Property) : Properties :=
  match ps.get p with
  | some v => acc.set p v
  | none => acc

theorem foldl_accept {h : Host} {ps : Properties}
    (hc : ∀ p v, ps.get p = some v → p.check h v = .ok v) (props : List Property)
    (acc : Properties) :
    (props.filterMap fun p => (ps.get p).map fun v => (p.name, v)).foldl (accept h)
      { properties := acc } = { properties := props.foldl (adopt ps) acc } := by
  induction props generalizing acc with
  | nil => rfl
  | cons p props ih =>
    rw [List.foldl_cons, adopt]
    cases hv : ps.get p with
    | none =>
      rw [List.filterMap_cons_none (by rw [hv]; rfl)]
      exact ih acc
    | some v =>
      rw [List.filterMap_cons_some (by rw [hv]; rfl), List.foldl_cons, accept_ok (hc p v hv)]
      exact ih _

theorem foldl_adopt (ps : Properties) : Property.byName.foldl (adopt ps) {} = ps := by
  obtain ⟨_ | key, _ | subnet, _ | inventory⟩ := ps <;> rfl

/-- Legible properties that are accepted as they are come back from their text. -/
theorem parse_text {h : Host} {ps : Properties} (hl : ∀ p v, ps.get p = some v → Legible v)
    (hc : ∀ p v, ps.get p = some v → p.check h v = .ok v) :
    parse h ps.text = { properties := ps } := by
  unfold parse
  rw [entries_text hl]
  exact (foldl_accept hc Property.byName {}).trans (by rw [foldl_adopt])

/-- What was saved to a file is what is read from there. -/
theorem load_persisted {h h' : Host} {ps : Properties} {path : String}
    (hw : ps.persist h path = .ok h') (hf : h'.isFile path = true) :
    load h' path = .ok (parse h' ps.text) := by
  have hr : h'.read path = .ok (bytes ps.text) := by
    unfold persist at hw
    split at hw
    · rename_i hw'
      rw [Except.ok.inj hw] at hw'
      exact Host.read_written hw' hf
    · exact absurd hw nofun
  have ht : h'.readText path = .ok ps.text := by
    unfold Host.readText
    rw [hr]
    simp only [bind, Except.bind, decode?_bytes]
    rfl
  unfold load
  rw [ht]

/-- How properties come to be at a machine: from a text, or from a setup that leaves the machine
as it is now. -/
inductive Entered (h : Host) : Properties → Prop
  | parsed (content : String) : Entered h (parse h content).properties
  | collected (i : Interview) (named : Option String) {d d' : Desk} {ps : Properties}
    (hc : (i.collect named).apply d = (.ok ps, d')) (hd : d'.host = h) : Entered h ps

theorem Entered.standing {h : Host} {ps : Properties} (he : Entered h ps) : ps.Standing h := by
  cases he with
  | parsed content => exact parse_standing h content
  | collected i named hc hd => exact hd ▸ i.collect_standing hc

/-- No path goes over the end of a line, or ends in what is taken away there. -/
def Lasting (ps : Properties) : Prop :=
  ∀ p path, p ≠ .addressPrefix → ps.get p = some path → Text.Lasting path

theorem legible_of_check {h : Host} {p : Property} {value v : String}
    (hc : p.check h value = .ok v) (hl : p ≠ .addressPrefix → Text.Lasting v) : Legible v := by
  have path {name : String} (hv : h.validateFile name value = .ok v) (hl : Text.Lasting v) :
      Legible v := by
    obtain ⟨xs, hx⟩ := Files.Path.isAbsolute_iff.mp (FilePath.shape ⟨h, name, value, hv⟩).1
    refine ⟨hl.oneLine, ⟨?_, hl.ending⟩⟩
    rintro c hc
    rw [hx] at hc
    cases hc
    decide
  cases p with
  | sshKey | inventory => exact path hc (hl nofun)
  | addressPrefix =>
    obtain ⟨net, hn, rfl⟩ := Property.check_addressPrefix_ok hc
    have hi := Net.inPrefix_of_faultless (Net.AddressPrefix.ofString_ok hn)
    refine ⟨fun hm => (hi _ hm).clean.2.2 rfl, bare_of_forall fun c hc => ?_⟩
    exact ⟨(hi c hc).clean.1, (hi c hc).clean.2.1⟩

/-- What was entered and saved comes back, with nothing rejected and nothing unknown, unless a path
goes over the end of a line or ends in a blank or a quote. It makes no difference which file it is
saved to, not even if that is one of those that it names. -/
theorem persisted_loads {h h' : Host} {ps : Properties} {path : String} (hp : h.Placed)
    (he : Entered h ps) (hl : ps.Lasting) (hw : ps.persist h path = .ok h')
    (hf : h'.isFile path = true) : load h' path = .ok { properties := ps } := by
  have hs := he.standing
  have hlater := later_of_persist hw
  rw [load_persisted hw hf, parse_text]
  · intro p v hv
    obtain ⟨h₀, value, -, hc⟩ := hs p v hv
    exact legible_of_check hc fun hne => hl p v hne hv
  · intro p v hv
    obtain ⟨h₀, value, hl₀, hc⟩ := hs p v hv
    refine Property.check_later (hl₀.trans hlater) ?_ hc
    exact fun n hn => hp n (hl₀.cwd ▸ hn)

/-- A machine with a key and an inventory whose names hold what lines and values are cut at. -/
def scribe : Host where
  root := .dir 0o755 [("home", .dir 0o755 [("k\"e y:=", .file 0o600 [])]),
    ("work", .dir 0o755 [("in\"v", .file 0o644 [])])]
  cwd := ["work"]
  home := some "/home"
  userProfile := none

def scribed : Properties := ⟨some "/home/k\"e y:=", some "10.*", some "/work/in\"v"⟩

theorem scribed_lasting : scribed.Lasting := by
  rintro (_ | _ | _) path hp hv
  · cases hv
    exact Text.lasting_of_last (c := '=') (by decide) (by decide) (by decide)
  · exact absurd rfl hp
  · cases hv
    exact Text.lasting_of_last (c := 'v') (by decide) (by decide) (by decide)

theorem scribed_entered : Entered scribe scribed := by
  have h : (parse scribe ("proxy_ip_address_prefix=10.*\n" ++
      "ssh_key_path_on_host: \"~/k\"e y:=\" \r\n" ++
      "ansible_inventory_path_on_host = .//in\"v")).properties = scribed := by decide +kernel
  exact h ▸ .parsed _

theorem exists_persisted {h : Host} {ps : Properties} {path : String}
    (hm : (ps.persist h path).toOption.map (Host.isFile · path) = some true) :
    ∃ h', ps.persist h path = .ok h' ∧ h'.isFile path = true := by
  cases hw : ps.persist h path with
  | error e =>
    rw [hw] at hm
    exact absurd hm nofun
  | ok h' =>
    rw [hw] at hm
    exact ⟨h', rfl, Option.some.inj hm⟩

theorem scribed_loads : ∃ h', scribe.Placed ∧ Entered scribe scribed ∧ scribed.Lasting ∧
    scribed.persist scribe "//work/./saved" = .ok h' ∧ h'.isFile "//work/./saved" = true ∧
    load h' "//work/./saved" = .ok { properties := scribed } := by
  have hp : scribe.Placed := by
    intro n hn
    obtain rfl := List.mem_singleton.mp hn
    exact ⟨by decide, by decide, by decide⟩
  obtain ⟨h', hw, hf⟩ : ∃ h', scribed.persist scribe "//work/./saved" = .ok h' ∧ _ :=
    exists_persisted (by decide +kernel)
  exact ⟨h', hp, scribed_entered, scribed_lasting, hw, hf,
    persisted_loads hp scribed_entered scribed_lasting hw hf⟩

/-- A machine with a key that has a quote at the end of its name. -/
def quoting : Host where
  root := .dir 0o755 [("key\"", .file 0o600 [])]
  cwd := []
  home := none
  userProfile := none

def quoted : Properties := { sshKey := some "/key\"" }

/-- The path is entered, and the key is there. What is saved loses the quote when it is read, and
then it names nothing. -/
theorem quoted_is_rejected : quoting.Placed ∧ Entered quoting quoted ∧
    ∃ h' parsed, quoted.persist quoting "/saved" = .ok h' ∧ h'.isFile "/saved" = true ∧
      h'.isFile "/key\"" = true ∧ load h' "/saved" = .ok parsed ∧ parsed.properties = {} ∧
      parsed.rejected = [.invalidProperty "ssh_key_path_on_host" "/key"
        "file is invalid: No such file or directory (os error 2)"] := by
  have he : (parse quoting "ssh_key_path_on_host: /key\"\"").properties = quoted := by
    decide +kernel
  have hm : (quoted.persist quoting "/saved").toOption.map (fun h' => (h'.isFile "/saved",
      h'.isFile "/key\"", (parse h' quoted.text).properties, (parse h' quoted.text).rejected)) =
      some (true, true, {}, [.invalidProperty "ssh_key_path_on_host" "/key"
        "file is invalid: No such file or directory (os error 2)"]) := by
    decide +kernel
  refine ⟨nofun, he ▸ .parsed _, ?_⟩
  cases hw : quoted.persist quoting "/saved" with
  | error e =>
    rw [hw] at hm
    exact absurd hm nofun
  | ok h' =>
    rw [hw] at hm
    simp only [Except.toOption, Option.map_some, Option.some.injEq, Prod.mk.injEq] at hm
    obtain ⟨hf, hk, hp, hr⟩ := hm
    exact ⟨h', _, rfl, hf, hk, load_persisted hw hf, hp, hr⟩

end Properties

end Provisioner
