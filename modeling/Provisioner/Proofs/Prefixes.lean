import Provisioner.Proofs.Checking

namespace Provisioner.Net

theorem digit?_digitChar {d : Nat} (h : d < 10) : digit? 10 (Nat.digitChar d) = some d := by
  have hd : ∀ d < 10, digit? 10 (Nat.digitChar d) = some d := by decide
  exact hd d h

theorem numeral_toDigits (n : Nat) : numeral 10 (Nat.toDigits 10 n) = n := by
  induction n using Nat.strongRecOn with
  | _ n ih =>
    by_cases hn : n < 10
    · rw [Nat.toDigits_of_lt_base hn, numeral, List.foldl_cons, digit?_digitChar hn]
      exact Nat.zero_add n
    · have hm : n % 10 < 10 := Nat.mod_lt n (by decide)
      rw [Nat.toDigits_of_base_le (by decide) (by omega), numeral_concat, ih (n / 10) (by omega),
        digit?_digitChar hm, Option.getD_some]
      omega

theorem head?_toDigits {n : Nat} (hn : 0 < n) : (Nat.toDigits 10 n).head? ≠ some '0' := by
  induction n using Nat.strongRecOn with
  | _ n ih =>
    by_cases hl : n < 10
    · have hd : ∀ d < 10, 0 < d → [Nat.digitChar d].head? ≠ some '0' := by decide
      rw [Nat.toDigits_of_lt_base hl]
      exact hd n hl hn
    · rw [Nat.toDigits_of_base_le (by decide) (by omega),
        List.head?_append, Option.or_of_isSome (by simp [Nat.toDigits_ne_nil])]
      exact ih (n / 10) (by omega) (by omega)

theorem digits?_toDigits {n : Nat} (hn : n ≤ 255) {rest : List Char}
    (hr : ∀ c ∈ rest.head?, isDigit 10 c = false) :
    digits? 10 3 (Nat.toDigits 10 n ++ rest) = some (Nat.toDigits 10 n, rest) := by
  have hd : ∀ c ∈ Nat.toDigits 10 n, isDigit 10 c = true := fun c hc => isDigit_of_mem_toDigits hc
  have ht : rest.takeWhile (isDigit 10) = [] ∧ rest.dropWhile (isDigit 10) = rest := by
    cases rest with
    | nil => exact ⟨rfl, rfl⟩
    | cons c cs => simp [hr c rfl]
  have hl : (Nat.toDigits 10 n).length ≤ 3 :=
    (Nat.length_toDigits_le_iff (by decide) (by decide)).mpr (by omega)
  unfold digits?
  rw [List.takeWhile_append_of_pos hd, List.dropWhile_append_of_pos hd, ht.1, ht.2, List.append_nil]
  exact if_neg (by simp [Nat.toDigits_ne_nil, hl])

theorem octet?_toDigits {n : Nat} (hn : n ≤ 255) {rest : List Char}
    (hr : ∀ c ∈ rest.head?, isDigit 10 c = false) :
    octet? (Nat.toDigits 10 n ++ rest) = some (n, rest) := by
  -- A number with more than one digit is not zero, so it starts with another digit.
  have hz : 1 < (Nat.toDigits 10 n).length → (Nat.toDigits 10 n).head? ≠ some '0' := by
    intro hl
    refine head?_toDigits (Nat.pos_of_ne_zero ?_)
    rintro rfl
    exact absurd hl (by decide)
  unfold octet?
  rw [digits?_toDigits hn hr]
  simp only [Option.bind_eq_bind, Option.bind_some, numeral_toDigits]
  rw [if_neg (by simpa using hz), if_neg (by omega)]

theorem expect?_cons (c : Char) (cs : List Char) : expect? c (c :: cs) = some cs := by
  simp [expect?]

theorem dotted?_toDigits {octets : List Nat} (hl : octets.length = 4) (hr : ∀ n ∈ octets, n ≤ 255) :
    dotted? (['.'].intercalate (octets.map (Nat.toDigits 10))) = some (octets, []) := by
  obtain ⟨a, b, c, d, rfl⟩ : ∃ a b c d, octets = [a, b, c, d] := by
    match octets, hl with
    | [a, b, c, d], _ => exact ⟨a, b, c, d, rfl⟩
  simp only [List.forall_mem_cons] at hr
  obtain ⟨ha, hb, hc, hd, -⟩ := hr
  have dot (cs : List Char) : ∀ c ∈ ('.' :: cs).head?, isDigit 10 c = false := by
    rintro c ⟨⟩
    decide
  have hd := @octet?_toDigits d hd [] nofun
  rw [List.append_nil] at hd
  unfold dotted?
  simp only [List.map_cons, List.map_nil, List.intercalate_cons_cons, List.intercalate_singleton,
    List.append_assoc, List.singleton_append, octet?_toDigits ha (dot _), octet?_toDigits hb (dot _),
    octet?_toDigits hc (dot _), hd, expect?_cons, Option.bind_eq_bind, Option.bind_some]

theorem octetsInRange_toDigits {octets : List Nat} (hl : octets.length ≤ 3)
    (hr : ∀ n ∈ octets, n ≤ 255) : octetsInRange (octets.map (Nat.toDigits 10)) = true := by
  have hp : octets.map (Nat.toDigits 10) ++ List.replicate (4 - octets.length) ['0'] =
      (octets ++ List.replicate (4 - octets.length) 0).map (Nat.toDigits 10) := by
    rw [List.map_append, List.map_replicate]
    rfl
  have hd := @dotted?_toDigits (octets ++ List.replicate (4 - octets.length) 0)
    (by simp; omega) fun n hn => (List.mem_append.mp hn).elim (hr n) fun hn => by
      rw [List.eq_of_mem_replicate hn]
      decide
  unfold octetsInRange
  dsimp only
  rw [List.length_map, hp, whole?, hd]
  rfl

structure Components (text : String) (parts : List String) : Prop where
  joined : ".".intercalate parts = text
  dotless : ∀ part ∈ parts, '.' ∉ part.toList
  nonempty : parts ≠ []

theorem exists_components (text : String) : ∃ parts, Components text parts := by
  refine ⟨(Text.fields '.' text.toList).map String.ofList, ?_, ?_, ?_⟩
  · rw [← String.toList_inj, String.toList_intercalate, List.map_map]
    have hm : (Text.fields '.' text.toList).map (String.toList ∘ String.ofList) =
        Text.fields '.' text.toList := by simp [Function.comp_def]
    rw [hm]
    exact Text.intercalate_fields '.' text.toList
  · intro part hp
    obtain ⟨f, hf, rfl⟩ := List.mem_map.mp hp
    rw [String.toList_ofList]
    exact Text.notMem_of_mem_fields hf
  · simpa using Text.fields_ne_nil '.' text.toList

variable {text : String} {parts : List String}

theorem Components.fields (hp : Components text parts) :
    Text.fields '.' text.toList = parts.map String.toList := by
  rw [← hp.joined, String.toList_intercalate]
  refine Text.fields_intercalate (by simpa using hp.nonempty) fun f hf => ?_
  obtain ⟨part, hm, rfl⟩ := List.mem_map.mp hf
  exact hp.dotless part hm

theorem Components.unique {parts' : List String} (hp : Components text parts)
    (hp' : Components text parts') : parts = parts' :=
  (List.map_inj_right fun _ _ => String.toList_inj.mp).mp (hp.fields.symm.trans hp'.fields)

/-- A number from 0 to 255 as it is written: in digits, without a needless zero. -/
def IsOctet (part : String) : Prop := ∃ n ≤ 255, toString n = part

theorem exists_octets (h : ∀ part ∈ parts, IsOctet part) :
    ∃ octets : List Nat, (∀ n ∈ octets, n ≤ 255) ∧ octets.map toString = parts := by
  induction parts with
  | nil => exact ⟨[], List.forall_mem_nil _, rfl⟩
  | cons part parts ih =>
    rw [List.forall_mem_cons] at h
    obtain ⟨n, hn, rfl⟩ := h.1
    obtain ⟨octets, ho, rfl⟩ := ih h.2
    exact ⟨n :: octets, List.forall_mem_cons.mpr ⟨hn, ho⟩, rfl⟩

theorem octetsInRange_iff (hd : ∀ part ∈ parts, '.' ∉ part.toList) (hl : parts.length ≤ 3) :
    octetsInRange (parts.map String.toList) = true ↔ ∀ part ∈ parts, IsOctet part := by
  constructor
  · intro h part hp
    obtain ⟨octets, hr, ho⟩ := octetsInRange_eq_true (by simpa using hd) (by simpa using hl) h
    have hm : part.toList ∈ octets.map (Nat.toDigits 10) := ho ▸ List.mem_map_of_mem hp
    obtain ⟨n, hn, he⟩ := List.mem_map.mp hm
    exact ⟨n, hr n hn, String.toList_inj.mp (by simpa using he)⟩
  · intro h
    obtain ⟨octets, hr, rfl⟩ := exists_octets h
    have hm : (octets.map toString).map String.toList = octets.map (Nat.toDigits 10) := by simp
    rw [hm]
    exact octetsInRange_toDigits (by simpa using hl) hr

namespace PrefixFault

def Applies (text : String) (parts : List String) : PrefixFault → Prop
  | .noOctet => parts.length = 1
  | .tooManyOctets => 4 < parts.length
  | .lastNotAsterisk => parts.getLast? ≠ some "*"
  | .notOneAsterisk => text.toList.count '*' ≠ 1
  | .octetOutOfRange => ∃ part ∈ parts.dropLast, ¬ IsOctet part

def order : List PrefixFault :=
  [.noOctet, .tooManyOctets, .lastNotAsterisk, .notOneAsterisk, .octetOutOfRange]

structure Leads (text : String) (parts : List String) (f : PrefixFault) : Prop where
  applies : f.Applies text parts
  first : ∀ g ∈ order.takeWhile (· != f), ¬ g.Applies text parts

theorem Leads.unique {f g : PrefixFault} (hf : f.Leads text parts) (hg : g.Leads text parts) :
    f = g := by
  have ho : ∀ f g : PrefixFault,
      f = g ∨ f ∈ order.takeWhile (· != g) ∨ g ∈ order.takeWhile (· != f) := by
    intro f g
    cases f <;> cases g <;> decide
  obtain h | h | h := ho f g
  · exact h
  · exact absurd hf.applies (hg.first f h)
  · exact absurd hg.applies (hf.first g h)

end PrefixFault

theorem Components.getLast? (hp : Components text parts) :
    (Text.fields '.' text.toList).getLast? = some ['*'] ↔ parts.getLast? = some "*" := by
  have ha : ['*'] = "*".toList := rfl
  rw [hp.fields, List.getLast?_map, ha, Option.map_eq_some_iff]
  simp only [String.toList_inj, exists_eq_right]

theorem Components.exists_not_octet (hp : Components text parts) (hl : parts.length ≤ 4)
    (h : octetsInRange (Text.fields '.' text.toList).dropLast = false) :
    ∃ part ∈ parts.dropLast, ¬ IsOctet part := by
  have hd : ∀ part ∈ parts.dropLast, '.' ∉ part.toList := fun part hm =>
    hp.dotless part (List.dropLast_subset parts hm)
  by_contra hn
  simp only [not_exists, not_and, not_not] at hn
  rw [hp.fields, ← List.map_dropLast,
    (octetsInRange_iff hd (by rw [List.length_dropLast]; omega)).mpr hn] at h
  cases h

theorem prefixFault?_leads {f : PrefixFault} (hp : Components text parts)
    (hf : prefixFault? text.toList = some f) : f.Leads text parts := by
  have hl : (Text.fields '.' text.toList).length = parts.length := by
    rw [hp.fields, List.length_map]
  -- One case for each test. That those before it have failed is what makes its fault the first.
  unfold prefixFault? at hf
  simp only [hl, bne_iff_ne, ne_eq, hp.getLast?] at hf
  split at hf
  · rename_i h₁
    cases hf
    exact ⟨h₁, List.forall_mem_nil _⟩
  rename_i h₁
  split at hf
  · rename_i h₂
    cases hf
    exact ⟨h₂, List.forall_mem_cons.mpr ⟨h₁, List.forall_mem_nil _⟩⟩
  rename_i h₂
  split at hf
  · rename_i h₃
    cases hf
    exact ⟨h₃, by simpa [PrefixFault.order] using ⟨h₁, h₂⟩⟩
  rename_i h₃
  split at hf
  · rename_i h₄
    cases hf
    exact ⟨h₄, by simpa [PrefixFault.order] using ⟨h₁, h₂, h₃⟩⟩
  rename_i h₄
  split at hf
  · rename_i h₅
    cases hf
    exact ⟨hp.exists_not_octet (by omega) (by simpa using h₅),
      by simpa [PrefixFault.order] using ⟨h₁, h₂, h₃, h₄⟩⟩
  · cases hf

theorem count_intercalate {sep c : Char} (hc : c ≠ sep) (fs : List (List Char)) :
    ([sep].intercalate fs).count c = fs.flatten.count c := by
  have hs : [sep].count c = 0 := List.count_eq_zero.mpr (by simpa using hc)
  induction fs with
  | nil => rfl
  | cons f fs ih =>
    cases fs with
    | nil => rw [List.intercalate_singleton, List.flatten_singleton]
    | cons g gs =>
      rw [List.intercalate_cons_cons, List.flatten_cons, List.count_append, List.count_append,
        List.count_append, ih, hs, Nat.add_zero]

theorem IsPrefix.not_applies (ht : IsPrefix text) (hp : Components text parts) (f : PrefixFault) :
    ¬ f.Applies text parts := by
  obtain ⟨octets, h₁, h₃, hr, rfl⟩ := ht
  have hs : Components (".".intercalate (octets.map toString ++ ["*"]))
      (octets.map toString ++ ["*"]) := by
    refine ⟨rfl, ?_, by simp⟩
    simp only [List.forall_mem_append, List.forall_mem_map, List.forall_mem_singleton]
    exact ⟨fun n _ => by simpa using dot_notMem_toDigits n, by decide⟩
  obtain rfl := hp.unique hs
  cases f with
  | noOctet | tooManyOctets =>
    simp only [PrefixFault.Applies, List.length_append, List.length_map, List.length_singleton]
    omega
  | lastNotAsterisk => simp [PrefixFault.Applies]
  | notOneAsterisk =>
    have hz : (octets.map (Nat.toDigits 10)).flatten.count '*' = 0 := by
      rw [List.count_eq_zero, List.mem_flatten]
      rintro ⟨ds, hm, hc⟩
      obtain ⟨n, -, rfl⟩ := List.mem_map.mp hm
      exact absurd (isDigit_of_mem_toDigits hc) (by decide)
    have ht : (".".intercalate (octets.map toString ++ ["*"])).toList =
        ['.'].intercalate (octets.map (Nat.toDigits 10) ++ [['*']]) := by
      simp [Function.comp_def]
    rw [PrefixFault.Applies, ht, count_intercalate (by decide), List.flatten_append,
      List.count_append, hz]
    decide
  | octetOutOfRange =>
    simp only [PrefixFault.Applies, List.dropLast_concat, not_exists, not_and, not_not]
    exact List.forall_mem_map.mpr fun n hn => ⟨n, hr n hn, rfl⟩

namespace AddressPrefix

theorem ofString_cases {raw : String} (hp : Components (Text.value raw) parts) :
    (IsPrefix (Text.value raw) ∧ ofString raw = .ok ⟨Text.value raw⟩) ∨
      ∃ f : PrefixFault, f.Leads (Text.value raw) parts ∧
        ofString raw = .error ⟨Text.value raw, f⟩ := by
  unfold ofString
  cases hf : prefixFault? (Text.value raw).toList with
  | none => exact .inl ⟨isPrefix_of_faultless hf, by simp only [hf]⟩
  | some f => exact .inr ⟨f, prefixFault?_leads hp hf, by simp only [hf]⟩

/-- A text is taken if it is a prefix once it is trimmed and unquoted, and what is taken is taken
again. Any other text is refused for the first of its faults. -/
theorem ofString_judges (raw : String) :
    (∀ net, ofString raw = .ok net ↔ IsPrefix (Text.value raw) ∧ net.text = Text.value raw) ∧
    (∀ net, ofString raw = .ok net → ofString net.text = .ok net) ∧
    ∃ parts, Components (Text.value raw) parts ∧ ∀ e, ofString raw = .error e ↔
      e.text = Text.value raw ∧ e.fault.Leads (Text.value raw) parts := by
  obtain ⟨parts, hp⟩ := exists_components (Text.value raw)
  obtain ⟨ht, ho⟩ | ⟨f, hf, ho⟩ := ofString_cases hp
  · refine ⟨fun net => ?_, fun net => ofString_text, parts, hp, fun e => ?_⟩
    · rw [ho, Except.ok.injEq, eq_comm]
      exact ⟨fun hn => ⟨ht, congrArg text hn⟩, fun hn => congrArg mk hn.2⟩
    · rw [ho]
      exact iff_of_false nofun fun he => ht.not_applies hp e.fault he.2.applies
  · refine ⟨fun net => ?_, fun net => ofString_text, parts, hp, fun ⟨text, g⟩ => ?_⟩
    · rw [ho]
      exact iff_of_false nofun fun hn => hn.1.not_applies hp f hf.applies
    · rw [ho, Except.error.injEq, PrefixError.mk.injEq]
      constructor
      · rintro ⟨rfl, rfl⟩
        exact ⟨rfl, hf⟩
      · rintro ⟨rfl, hg⟩
        exact ⟨rfl, hf.unique hg⟩

theorem padded_judged : ofString " \" 172.18.*\t\" " = .ok ⟨"172.18.*"⟩ ∧
    ofString "172.18.*" = .ok ⟨"172.18.*"⟩ := by
  have hp : IsPrefix "172.18.*" := ⟨[172, 18], by decide, by decide, by decide, by decide⟩
  have hv : Text.value " \" 172.18.*\t\" " = "172.18.*" := by decide +kernel
  obtain ⟨ht, hl, -⟩ := ofString_judges " \" 172.18.*\t\" "
  have ho := (ht ⟨"172.18.*"⟩).mpr ⟨hv ▸ hp, hv.symm⟩
  exact ⟨ho, hl _ ho⟩

end AddressPrefix

end Provisioner.Net
