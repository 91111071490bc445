import Provisioner.Proofs.Octets
import Provisioner.Proofs.Overwriting
import Provisioner.Proofs.Texts

namespace Provisioner

namespace Files.Path

theorem join_name (b : String) {n : String} (h : IsName n) :
    join b n = if b == "" || endsWithSlash b then b ++ n else b ++ "/" ++ n := by
  rw [join, isAbsolute_slashless h.slashless, if_neg Bool.false_ne_true]

def trail (ns : List String) : List Char := ns.flatMap fun n => '/' :: n.toList

theorem toList_foldl_join {b : String} (hb : b ≠ "") (hs : endsWithSlash b = false)
    {ns : List String} (h : ∀ n ∈ ns, IsName n) :
    (ns.foldl join b).toList = b.toList ++ trail ns := by
  induction ns generalizing b with
  | nil => exact (List.append_nil _).symm
  | cons n ns ih =>
    rw [List.forall_mem_cons] at h
    have hj : join b n = b ++ "/" ++ n := by
      rw [join_name b h.1, hs, if_neg (by simpa using hb)]
    have hn : join b n ≠ "" := by
      rw [hj]
      intro he
      simpa using congrArg String.toList he
    rw [List.foldl_cons, ih hn ((join_endsIn b h.1).endsWithSlash h.1.ne_empty) h.2, hj]
    simp [trail]

inductive Strung : String → Prop
  | strung (p : String) (ns : List String) (h : ∀ n ∈ ns, IsName n) :
    Strung (ns.foldl join (root p))

theorem join_root (p : String) {n : String} (h : IsName n) : join (root p) n = root p ++ n := by
  have hr : endsWithSlash (root p) = true := by
    rcases root_cases p with h | h <;> rw [h] <;> rfl
  rw [join_name _ h, hr, Bool.or_true, if_pos rfl]

theorem toList_foldl_join_root (p : String) {n : String} {ns : List String}
    (h : ∀ m ∈ n :: ns, IsName m) :
    ((n :: ns).foldl join (root p)).toList = (root p).toList ++ (n.toList ++ trail ns) := by
  rw [List.forall_mem_cons] at h
  have hn : root p ++ n ≠ "" := by
    intro he
    rcases root_cases p with h | h <;> rw [h] at he <;> simpa using congrArg String.toList he
  have hs : endsWithSlash (root p ++ n) = false := by
    rw [← join_root p h.1]
    exact (join_endsIn _ h.1).endsWithSlash h.1.ne_empty
  rw [List.foldl_cons, join_root p h.1, toList_foldl_join hn hs h.2, String.toList_append,
    List.append_assoc]

theorem root_single {p : String} {c : Char} {cs : List Char} (hp : p.toList = '/' :: c :: cs)
    (hc : c ≠ '/') : root p = "/" := by
  unfold root
  rw [hp]
  split
  · rename_i h
    exact absurd (List.cons.inj (List.cons.inj h).2).1 hc
  · rename_i h
    exact absurd (List.cons.inj (List.cons.inj h).2).1 hc
  · rfl

theorem root_double {p : String} {c : Char} {cs : List Char} (hp : p.toList = '/' :: '/' :: c :: cs)
    (hc : c ≠ '/') : root p = "//" := by
  unfold root
  rw [hp]
  exact if_neg (by simpa using hc)

/-- The names do not change the root that they are strung to. -/
theorem root_foldl_join (p : String) {ns : List String} (h : ∀ n ∈ ns, IsName n) :
    root (ns.foldl join (root p)) = root p := by
  cases ns with
  | nil => rcases root_cases p with h | h <;> rw [List.foldl_nil, h] <;> rfl
  | cons n ns =>
    have hn := h n List.mem_cons_self
    have hl := toList_foldl_join_root p h
    cases hc : n.toList with
    | nil => exact absurd (String.toList_inj.mp hc) hn.ne_empty
    | cons c cs =>
      have hs : c ≠ '/' := fun hs => hn.slashless (by rw [hc, hs]; exact List.mem_cons_self)
      rw [hc] at hl
      rcases root_cases p with hr | hr <;> rw [hr] at hl ⊢
      · exact root_single hl hs
      · exact root_double hl hs

theorem Strung.isAbsolute {q : String} (hq : Strung q) : isAbsolute q = true := by
  obtain ⟨p, ns, h⟩ := hq
  exact foldl_join_isAbsolute (root_isAbsolute p) _

/-- What is strung together from the root is seen from there as it is. -/
theorem Strung.absolute? {q : String} (hq : Strung q) (hs : endsWithSlash q = false)
    (cwd : String) : absolute? cwd q = some q := by
  have ha := hq.isAbsolute
  obtain ⟨p, ns, h⟩ := hq
  have he : (ns.foldl join (root p) == "") = false := by
    rw [beq_eq_false_iff_ne]
    intro he
    rw [he] at ha
    cases ha
  unfold Path.absolute?
  rw [he, ha, hs, root_foldl_join p h, names_foldl_join _ h, names_root]
  rfl

theorem strung_names {cwd : String} (hc : Strung cwd) (p : String) :
    Strung ((names p).foldl join (if isAbsolute p then root p else cwd)) := by
  have hn : ∀ n ∈ names p, IsName n := fun n => isName_of_mem_names
  split
  · exact .strung p _ hn
  · obtain ⟨r, ns, hns⟩ := hc
    rw [← List.foldl_append]
    exact .strung r _ fun n hm => (List.mem_append.mp hm).elim (hns n) (hn n)

theorem absolute?_strung {cwd p q : String} (hc : Strung cwd) (h : absolute? cwd p = some q)
    (hs : endsWithSlash q = false) : Strung q := by
  have hl := strung_names hc p
  unfold absolute? at h
  split at h
  · cases h
  · obtain rfl := Option.some.inj h
    split at hs
    · refine absurd (endsWithSlash_join_empty fun he => ?_) (Bool.eq_false_iff.mp hs)
      have ha := hl.isAbsolute
      rw [he] at ha
      cases ha
    · rename_i hp
      rwa [if_neg hp]

theorem intercalate_slash (n : String) (ns : List String) :
    ['/'].intercalate ((n :: ns).map String.toList) = n.toList ++ trail ns := by
  induction ns generalizing n with
  | nil => rw [List.map_singleton, List.intercalate_singleton]; exact (List.append_nil _).symm
  | cons m ns ih =>
    rw [List.map_cons, List.map_cons, List.intercalate_cons_cons, ← List.map_cons, ih,
      List.append_assoc]
    rfl

theorem strung_location {l : Location} (h : ∀ n ∈ l, IsName n) :
    Strung ("/" ++ "/".intercalate l) := by
  have hl : "/" ++ "/".intercalate l = l.foldl join (root "/") := by
    cases l with
    | nil => rfl
    | cons n ns =>
      rw [← String.toList_inj, String.toList_append, String.toList_intercalate,
        toList_foldl_join_root "/" h]
      exact congrArg _ (intercalate_slash n ns)
  exact hl ▸ .strung "/" l h

end Files.Path

namespace Text

theorem mem_of_fields {α : Type} [BEq α] [LawfulBEq α] {sep a : α} {as : List α} (ha : a ∈ as) :
    a = sep ∨ ∃ f ∈ fields sep as, a ∈ f := by
  induction as with
  | nil => cases ha
  | cons b as ih =>
    by_cases hb : b = sep
    · rcases List.mem_cons.mp ha with rfl | ha
      · exact .inl hb
      · rw [hb, fields_cons_sep]
        exact (ih ha).imp_right fun ⟨f, hf, ha⟩ => ⟨f, List.mem_cons_of_mem _ hf, ha⟩
    · obtain ⟨f, fs, hf, hc⟩ := fields_cons hb as
      rw [hc]
      rcases List.mem_cons.mp ha with rfl | ha
      · exact .inr ⟨_, List.mem_cons_self, List.mem_cons_self⟩
      · refine (ih ha).imp_right ?_
        rintro ⟨g, hg, ha⟩
        rw [hf] at hg
        rcases List.mem_cons.mp hg with rfl | hg
        · exact ⟨_, List.mem_cons_self, List.mem_cons_of_mem _ ha⟩
        · exact ⟨g, List.mem_cons_of_mem _ hg, ha⟩

end Text

namespace Net

def InPrefix (c : Char) : Prop := isDigit 10 c = true ∨ c = '.' ∨ c = '*'

/-- Nothing in an address prefix is trimmed away or ends a line. -/
theorem InPrefix.clean {c : Char} (h : InPrefix c) :
    Text.isBlank c = false ∧ c ≠ '"' ∧ c ≠ '\n' := by
  rcases h with h | rfl | rfl
  · obtain ⟨h₁, h₂⟩ := toNat_of_isDigit h
    refine ⟨?_, ?_, ?_⟩
    · simp [Text.isBlank]
      omega
    · rintro rfl
      exact absurd h₁ (by decide)
    · rintro rfl
      exact absurd h₁ (by decide)
  · decide
  · decide

theorem isDigit_of_mem_toDigits {n : Nat} {c : Char} (h : c ∈ Nat.toDigits 10 n) :
    isDigit 10 c = true := by
  have hc : c.isDigit = true := Nat.isDigit_of_mem_toDigits (by decide) (by decide) h
  rw [Char.isDigit, Bool.and_eq_true, decide_eq_true_eq, decide_eq_true_eq] at hc
  obtain ⟨h₀, h₉⟩ : '0' ≤ c ∧ c ≤ '9' := hc
  have hn : c.toNat ≤ 57 := UInt32.le_iff_toNat_le.mp h₉
  simp [isDigit, digit?, h₀, h₉]
  omega

theorem inPrefix_of_faultless {cs : List Char} (h : prefixFault? cs = none) :
    ∀ c ∈ cs, InPrefix c := by
  obtain ⟨octets, -, -, -, hf⟩ := fields_of_faultless h
  intro c hc
  obtain rfl | ⟨f, hm, hc⟩ : c = '.' ∨ ∃ f ∈ Text.fields '.' cs, c ∈ f := Text.mem_of_fields hc
  · exact .inr (.inl rfl)
  · rw [hf, List.mem_append, List.mem_singleton] at hm
    rcases hm with hm | rfl
    · obtain ⟨n, -, rfl⟩ := List.mem_map.mp hm
      exact .inl (isDigit_of_mem_toDigits hc)
    · exact .inr (.inr (List.mem_singleton.mp hc))

theorem AddressPrefix.ofString_ok {raw : String} {net : AddressPrefix}
    (h : AddressPrefix.ofString raw = .ok net) : prefixFault? net.text.toList = none := by
  unfold AddressPrefix.ofString at h
  dsimp only at h
  split at h
  · exact absurd h nofun
  · rename_i hf
    rw [← Except.ok.inj h]
    exact hf

theorem AddressPrefix.ofString_text {raw : String} {net : AddressPrefix}
    (h : AddressPrefix.ofString raw = .ok net) : AddressPrefix.ofString net.text = .ok net := by
  have hf := AddressPrefix.ofString_ok h
  have hb : Text.Bare net.text.toList := Text.bare_of_forall fun c hc =>
    ⟨(inPrefix_of_faultless hf c hc).clean.1, (inPrefix_of_faultless hf c hc).clean.2.1⟩
  have hv : Text.value net.text = net.text := by
    unfold Text.value
    rw [Text.valueChars_bare hb, String.ofList_toList]
  unfold AddressPrefix.ofString
  simp only [hv, hf]

end Net

/-- The working directory is a location. Its path need not be a text. -/
def Host.Located (h : Host) : Prop := ∀ n ∈ h.cwd, Files.Path.IsName (Files.nameText n)

theorem Host.Located.cwdPath_strung {h : Host} (hl : h.Located) : Files.Path.Strung h.cwdPath :=
  Files.Path.strung_location (List.forall_mem_map.mpr hl)

/-- The working directory is a location, and its path is a text. -/
def Host.Placed (h : Host) : Prop := ∀ n ∈ h.cwd, Files.Path.IsName n

/-- A machine with a file in the working directory, whose name is the byte 0xFF. -/
def Host.misnamed : Host where
  root := .dir 0o755 [("/\xff", .dir 0o755 [("key", .file 0o600 [])])]
  cwd := ["/\xff"]
  home := none
  userProfile := none

theorem Files.Path.IsName.isText {n : String} (h : IsName n) : isText n = true := by
  unfold Files.isText
  rw [bne_iff_ne]
  exact fun hs => h.slashless (List.mem_of_mem_head? hs)

theorem Host.Placed.cwd_isText {h : Host} (hp : h.Placed) : ∀ n ∈ h.cwd, Files.isText n = true :=
  fun n hn => (hp n hn).isText

theorem Host.Placed.located {h : Host} (hp : h.Placed) : h.Located := by
  intro n hn
  rw [Files.nameText, if_pos (hp.cwd_isText n hn)]
  exact hp n hn

theorem Host.Placed.stat_validated {h : Host} (hp : h.Placed) {name raw p : String}
    (hv : h.validateFile name raw = .ok p) : ∃ node, h.stat p = .ok node ∧ node.isDir = false := by
  obtain ⟨hr, node, hs, hn⟩ := validateFile_ok hv
  have ha : h.absolute (h.expand raw) = .ok p := by rw [absolute, resolvePath_ok hr]
  rw [statAbsolute, List.all_eq_true.mpr hp.cwd_isText, Bool.or_true, if_pos rfl, ha] at hs
  exact ⟨node, hs, hn⟩

theorem Host.expand_absolute (h : Host) {p : String} (hp : Files.Path.isAbsolute p = true) :
    h.expand p = p := by
  have hs : Files.Path.stripStart? "~/" p = none := by
    obtain ⟨xs, hx⟩ := Files.Path.isAbsolute_iff.mp hp
    unfold Files.Path.stripStart?
    rw [hx]
    rfl
  unfold Host.expand
  rw [hs]

variable {h h' : Host} {value v : String}

/-- The path of a file is seen from the root as it is, wherever one is and wherever home is. -/
theorem Host.resolvePath_validated (hl : h.Located) {name : String}
    (hc : h.validateFile name value = .ok v) (h' : Host) : h'.resolvePath v = .ok v := by
  obtain ⟨hr, -⟩ := validateFile_ok hc
  obtain ⟨ha, l, he, hi, -⟩ := FilePath.shape ⟨h, name, value, hc⟩
  have hs : Files.Path.endsWithSlash v = false := he.endsWithSlash hi.ne_empty
  have hq : Files.Path.Strung v :=
    Files.Path.absolute?_strung hl.cwdPath_strung (resolvePath_ok hr) hs
  have ha' : h'.absolute v = .ok v := by
    unfold Host.absolute
    rw [hq.absolute? hs]
  unfold Host.resolvePath
  simp only [h'.expand_absolute ha, ha']

theorem Host.validateFile_later (hl : h.Later h') (hp : h.Placed) {name : String}
    (hc : h.validateFile name value = .ok v) : h'.validateFile name v = .ok v := by
  obtain ⟨node, hs, hn⟩ := hp.stat_validated hc
  obtain ⟨node', hs', hn'⟩ := hl.stat hs hn
  have ha : Files.Path.isAbsolute v = true := (FilePath.shape ⟨h, name, value, hc⟩).1
  have hr := resolvePath_validated hp.located hc h'
  have hv : h'.absolute v = .ok v := by
    have hr' := resolvePath_ok hr
    rw [h'.expand_absolute ha] at hr'
    rw [absolute, hr']
  have hq : h'.statAbsolute (h'.expand v) = .ok node' := by
    rw [h'.expand_absolute ha, statAbsolute, ha, Bool.true_or, if_pos rfl, hv]
    exact hs'
  unfold Host.validateFile
  rw [hr]
  simp only [bind, Except.bind, hq, hn']
  rfl

theorem Property.check_addressPrefix_ok (hc : Property.addressPrefix.check h value = .ok v) :
    ∃ net, Net.AddressPrefix.ofString value = .ok net ∧ net.text = v := by
  unfold check at hc
  dsimp only at hc
  split at hc
  · rename_i hn
    exact ⟨_, hn, Except.ok.inj hc⟩
  · exact absurd hc nofun

theorem Property.check_later (hl : h.Later h') (hp : h.Placed) {p : Property}
    (hc : p.check h value = .ok v) : p.check h' v = .ok v := by
  cases p with
  | sshKey | inventory => exact Host.validateFile_later hl hp hc
  | addressPrefix =>
    obtain ⟨net, hn, rfl⟩ := check_addressPrefix_ok hc
    unfold check
    rw [Net.AddressPrefix.ofString_text hn]

end Provisioner
