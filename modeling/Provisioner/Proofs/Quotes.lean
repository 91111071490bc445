import Provisioner.Proofs.Merging
import Provisioner.Proofs.Prompting

namespace Provisioner

namespace Text

variable {cs t : List Char}

theorem Trimmed.refl (h : Trimmed cs t) : Trimmed t t := .of_ends h.head h.last

/-- A text of at least two characters that has a quote at both ends. -/
def Paired (t : List Char) : Prop :=
  2 ≤ t.length ∧ t.head? = some '"' ∧ t.getLast? = some '"'

instance : DecidablePred Paired := fun _ => inferInstanceAs (Decidable (_ ∧ _ ∧ _))

theorem paired_iff : Paired t ↔ ∃ inner, t = '"' :: (inner ++ ['"']) := by
  constructor
  · rintro ⟨hl, hh, hg⟩
    obtain ⟨rest, rfl⟩ := List.head?_eq_some_iff.mp hh
    obtain ⟨inner, c, rfl⟩ := (List.eq_nil_or_concat' rest).resolve_left fun h => by simp [h] at hl
    rw [← List.cons_append, List.getLast?_concat] at hg
    exact ⟨inner, by rw [Option.some.inj hg]⟩
  · rintro ⟨inner, rfl⟩
    refine ⟨by simp, rfl, ?_⟩
    rw [← List.cons_append, List.getLast?_concat]

/-- What a text holds: the quotes around it are dropped if they are a pair, and nothing else is. -/
inductive Unquoted : List Char → List Char → Prop
  | pair {inner v : List Char} (hv : Trimmed inner v) : Unquoted ('"' :: (inner ++ ['"'])) v
  | plain {t : List Char} (ht : ¬ Paired t) : Unquoted t t

/-- The value that a text is meant to have: it is trimmed, and then unquoted. -/
def Means (cs v : List Char) : Prop := ∃ t, Trimmed cs t ∧ Unquoted t v

/-- There is a quote at one end of a text that has no partner at the other end. -/
def Lopsided (cs : List Char) : Prop :=
  ∃ t, Trimmed cs t ∧ (t.head? = some '"' ∨ t.getLast? = some '"') ∧ ¬ Paired t

theorem lopsided_iff : Lopsided cs ↔
    ((trimChars cs).head? = some '"' ∨ (trimChars cs).getLast? = some '"') ∧
      ¬ Paired (trimChars cs) := by
  constructor
  · rintro ⟨t, h, hl⟩
    rwa [h.eq]
  · exact fun hl => ⟨_, trimChars_trimmed cs, hl⟩

instance : DecidablePred Lopsided := fun _ => decidable_of_iff _ lopsided_iff.symm

theorem dropClosingQuote_concat (cs : List Char) : dropClosingQuote (cs ++ ['"']) = cs := by
  rw [dropClosingQuote, List.reverse_concat]
  exact List.reverse_reverse cs

theorem length_dropClosingQuote_le (cs : List Char) : (dropClosingQuote cs).length ≤ cs.length := by
  by_cases h : cs.getLast? = some '"'
  · obtain ⟨front, rfl⟩ := List.getLast?_eq_some_iff.mp h
    rw [dropClosingQuote_concat, List.length_append]
    omega
  · refine Nat.le_of_eq (congrArg List.length (dropClosingQuote_eq ?_))
    rintro c hc rfl
    exact h hc

theorem valueChars_pair {inner v : List Char} (h : Trimmed cs ('"' :: (inner ++ ['"'])))
    (hv : Trimmed inner v) : valueChars cs = v := by
  rw [valueChars, h.eq, dropOpeningQuote, dropClosingQuote_concat, hv.eq]

theorem valueChars_plain (h : Trimmed cs t) (hh : t.head? ≠ some '"')
    (hl : t.getLast? ≠ some '"') : valueChars cs = t := by
  have hb : Bare t := by
    refine ⟨fun c hc => ⟨h.head c hc, ?_⟩, fun c hc => ⟨h.last c hc, ?_⟩⟩
    · rintro rfl
      exact hh hc
    · rintro rfl
      exact hl hc
  have hv : valueChars cs = valueChars t := by rw [valueChars, valueChars, h.eq, h.refl.eq]
  rw [hv, valueChars_bare hb]

theorem length_valueChars_lt (h : Trimmed cs t)
    (hq : t.head? = some '"' ∨ t.getLast? = some '"') : (valueChars cs).length < t.length := by
  rw [valueChars, h.eq]
  refine Nat.lt_of_le_of_lt (trimChars_trimmed _).length_le ?_
  by_cases hh : t.head? = some '"'
  · obtain ⟨rest, rfl⟩ := List.head?_eq_some_iff.mp hh
    exact Nat.lt_succ_of_le (length_dropClosingQuote_le rest)
  · obtain ⟨front, rfl⟩ := List.getLast?_eq_some_iff.mp (hq.resolve_left hh)
    rw [dropOpeningQuote_eq, dropClosingQuote_concat, List.length_append]
    · exact Nat.lt_succ_self _
    · rintro c hc rfl
      exact hh hc

theorem means_valueChars (cs : List Char) : Means cs (valueChars cs) ↔ ¬ Lopsided cs := by
  have ht := trimChars_trimmed cs
  constructor
  · rintro ⟨t, h, hu⟩ ⟨t', h', hq, hp⟩
    obtain rfl := h.eq.symm.trans h'.eq
    -- The text itself is meant, but a quote has gone.
    generalize hv : valueChars cs = v at hu
    cases hu with
    | pair => exact hp (paired_iff.mpr ⟨_, rfl⟩)
    | plain => exact absurd (length_valueChars_lt h hq) (by rw [hv]; omega)
  · intro hl
    by_cases hp : Paired (trimChars cs)
    · obtain ⟨inner, hi⟩ := paired_iff.mp hp
      rw [hi] at ht
      have hv := trimChars_trimmed inner
      exact ⟨_, ht, valueChars_pair ht hv ▸ .pair hv⟩
    · have hn : ¬ (trimChars cs).head? = some '"' ∧ ¬ (trimChars cs).getLast? = some '"' :=
        not_or.mp fun hq => hl ⟨_, ht, hq, hp⟩
      exact ⟨_, ht, (valueChars_plain ht hn.1 hn.2).symm ▸ .plain hp⟩

theorem means_value (raw : String) :
    Means raw.toList (value raw).toList ↔ ¬ Lopsided raw.toList := by
  rw [value, String.toList_ofList]
  exact means_valueChars raw.toList

/-- Quotes are dropped as a pair or not at all, unless a quote at one end has no partner at the
other. So it is with any text, with the names and the values of property files and with what is
entered at a terminal. -/
theorem value_unquotes {ω : Type} [Writer ω] :
    (∀ raw, Means raw.toList (value raw).toList ↔ ¬ Lopsided raw.toList) ∧
    (∀ line before after name v, Properties.cut? line = some (before, after) →
      Properties.Enters line name v →
      (Means before name.toList ↔ ¬ Lopsided before) ∧ (Means after v.toList ↔ ¬ Lopsided after)) ∧
    ∀ text (t : TerminalOn ω) line rest entered v, t.lines = line :: rest →
      decode? line = some entered → ((Terminal.ask text).apply t).1 = .ok v →
      (Means entered.toList v.toList ↔ ¬ Lopsided entered.toList) := by
  refine ⟨means_value, ?_, ?_⟩
  · rintro line before after name v hc ⟨⟨before', after', hc', rfl, rfl⟩, -⟩
    cases hc.symm.trans hc'
    rw [String.toList_ofList, String.toList_ofList]
    exact ⟨means_valueChars before, means_valueChars after⟩
  · intro text t line rest entered v hl hd hr
    obtain ⟨e, he⟩ | ⟨hn, -⟩ | ⟨line', rest', hl', hv, -⟩ := Terminal.ask_lines text t
    · rw [he] at hr
      cases hr
    · rw [hl] at hn
      cases hn
    · rw [hl, List.cons.injEq] at hl'
      obtain ⟨rfl, rfl⟩ := hl'
      rw [hv, Terminal.valueOf, hd] at hr
      exact Except.ok.inj hr ▸ means_value entered

def quotedLine : List Char := "proxy_ip_address_prefix = \" 172.18.*\" ".toList

def quotedAnswer : Terminal := .ofInput (bytes "\t\" y \"\r\n")

theorem quoted_unquotes :
    (Means "proxy_ip_address_prefix ".toList "proxy_ip_address_prefix".toList ∧
      Means " \" 172.18.*\" ".toList "172.18.*".toList) ∧
    Properties.Enters quotedLine "proxy_ip_address_prefix" "172.18.*" ∧
    ((Terminal.ask "? ").apply quotedAnswer).1 = .ok "y" ∧ Means "\t\" y \"\r".toList "y".toList := by
  obtain ⟨-, hp, ha⟩ := @value_unquotes Sink _
  have hl : Properties.Enters quotedLine "proxy_ip_address_prefix" "172.18.*" :=
    Properties.enters_iff.mpr (by decide +kernel)
  have hv : ((Terminal.ask "? ").apply quotedAnswer).1 = .ok "y" := by decide +kernel
  obtain ⟨hb, hv'⟩ := hp quotedLine "proxy_ip_address_prefix ".toList " \" 172.18.*\" ".toList _ _
    (by decide +kernel) hl
  have ht := ha "? " quotedAnswer (bytes "\t\" y \"\r") [] "\t\" y \"\r" "y" (by decide +kernel)
    (decode?_bytes _) hv
  exact ⟨⟨hb.mpr (by decide +kernel), hv'.mpr (by decide +kernel)⟩, hl, hv,
    ht.mpr (by decide +kernel)⟩

/-- A closing quote that has no partner is meant to stay. It is dropped, from the value of a property
as from an answer. -/
theorem lone_quote_dropped : Means "key\"".toList "key\"".toList ∧
    value "key\"" = "key" ∧ ¬ Means "key\"".toList "key".toList ∧
    Properties.Enters "ssh_key_path_on_host: key\"".toList "ssh_key_path_on_host" "key" ∧
    ((Terminal.ask "? ").apply (.ofInput (bytes "key\"\n") : Terminal)).1 = .ok "key" := by
  have ht : Trimmed "key\"".toList "key\"".toList := by
    have he : trimChars "key\"".toList = "key\"".toList := by decide +kernel
    exact he ▸ trimChars_trimmed "key\"".toList
  have hv : value "key\"" = "key" := by decide +kernel
  refine ⟨⟨_, ht, .plain (by decide +kernel)⟩, hv, ?_,
    Properties.enters_iff.mpr (by decide +kernel), by decide +kernel⟩
  rw [← hv, means_value]
  exact not_not_intro (by decide +kernel)

end Text

end Provisioner
