import Mathlib.Data.List.DropRight
import Provisioner.Proofs.Grammar

namespace Provisioner.Json

open Text (Symbols)

variable {cs ds : List Char} {rest : Symbols} {d : Draft}

theorem skipSpace_blank (h : Blank cs) (rest : Symbols) :
    skipSpace (cs.map some ++ rest) = skipSpace rest := by
  refine List.dropWhile_append_of_pos fun x hx => ?_
  obtain ⟨c, hc, rfl⟩ := List.mem_map.mp hx
  exact h c hc

theorem skipSpace_cons {c : Char} (h : isSpace c = false) (rest : Symbols) :
    skipSpace (some c :: rest) = some c :: rest :=
  List.dropWhile_cons_of_neg (by simpa using h)

theorem skipSpace_skipSpace (cs : Symbols) : skipSpace (skipSpace cs) = skipSpace cs :=
  List.dropWhile_idempotent _ cs

def NoDigit (rest : Symbols) : Prop := ∀ c, rest.head? = some (some c) → isDecimal c = false

def Stops (rest : Symbols) : Prop :=
  ∀ c, rest.head? = some (some c) → isDecimal c = false ∧ c ≠ '.' ∧ c ≠ 'e' ∧ c ≠ 'E'

theorem Stops.noDigit (h : Stops rest) : NoDigit rest := fun c hc => (h c hc).1

theorem stops_nil : Stops [] := nofun

theorem stops_cons {c : Char} (h : isDecimal c = false ∧ c ≠ '.' ∧ c ≠ 'e' ∧ c ≠ 'E')
    (rest : Symbols) : Stops (some c :: rest) := by
  rintro _ ⟨⟩
  exact h

theorem stops_blank (hb : Blank cs) (h : Stops rest) : Stops (cs.map some ++ rest) := by
  cases cs with
  | nil => exact h
  | cons c cs =>
    refine stops_cons ?_ _
    have hc := hb c List.mem_cons_self
    simp only [isSpace, Bool.or_eq_true, beq_iff_eq] at hc
    obtain ((rfl | rfl) | rfl) | rfl := hc <;> decide

theorem Digits.read (h : Digits ds) (hr : NoDigit rest) :
    someDigits (ds.map some ++ rest) = .ok (ds, rest) := by
  have hd : ∀ x ∈ ds.map some, x.any isDecimal = true := by
    intro x hx
    obtain ⟨c, hc, rfl⟩ := List.mem_map.mp hx
    exact h.decimal c hc
  have hn : rest.takeWhile (·.any isDecimal) = [] ∧ rest.dropWhile (·.any isDecimal) = rest := by
    match rest with
    | [] | none :: _ => exact ⟨rfl, rfl⟩
    | some c :: _ =>
      have hc : isDecimal c = false := hr c rfl
      exact ⟨List.takeWhile_cons_of_neg (by simpa using hc),
        List.dropWhile_cons_of_neg (by simpa using hc)⟩
  unfold someDigits
  rw [List.takeWhile_append_of_pos hd, List.dropWhile_append_of_pos hd, hn.1, hn.2,
    List.append_nil, List.filterMap_map, Function.id_comp, List.filterMap_some]
  cases ds with
  | nil => exact absurd rfl h.ne_nil
  | cons => rfl

theorem Whole.read {w : List Char} (h : Whole w) (hr : NoDigit rest) :
    whole (w.map some ++ rest) = .ok (w, rest) := by
  have hw : (w.head? == some '0' && decide (1 < w.length)) = false := by
    by_cases hz : w.head? = some '0'
    · rw [h.leading hz]
      rfl
    · simp [hz]
  unfold whole
  rw [h.toDigits.read hr]
  change (if (w.head? == some '0' && decide (1 < w.length)) = true then _ else _) = _
  rw [hw]
  rfl

theorem Part.read {p ps : List Char} (h : Part p ps) (hr : NoDigit rest)
    (hp : rest.head? ≠ some (some '.')) : part (ps.map some ++ rest) = .ok (p, rest) := by
  cases h with
  | none =>
    change part rest = _
    unfold part
    split
    · exact absurd rfl hp
    · rfl
  | digits h => exact h.read hr

theorem signedPower_digits (h : Digits ds) (hr : NoDigit rest) (sign : Int) :
    signedPower sign (ds.map some ++ rest) = .ok (some (sign * decimal ds), rest) := by
  unfold signedPower
  rw [h.read hr]
  rfl

theorem power_digits {e : Char} (he : e = 'e' ∨ e = 'E') (h : Digits ds) (rest : Symbols) :
    power (some e :: (ds.map some ++ rest)) = signedPower 1 (ds.map some ++ rest) := by
  obtain ⟨d, ds, rfl⟩ := List.exists_cons_of_ne_nil h.ne_nil
  have hd : isDecimal d = true := h.decimal d List.mem_cons_self
  have he : (e == 'e' || e == 'E') = true := by simpa using he
  unfold power
  simp only [he, if_true, List.map_cons, List.cons_append]
  split
  · rename_i hs
    cases hs
    exact absurd hd (by decide)
  · rename_i hs
    cases hs
    exact absurd hd (by decide)
  · rfl

theorem Power.read {q : Option Int} {qs : List Char} (h : Power q qs) (hr : Stops rest) :
    power (qs.map some ++ rest) = .ok (q, rest) := by
  cases h with
  | none =>
    change power rest = _
    unfold power
    split
    · rename_i c cs
      obtain ⟨-, -, he, hE⟩ := hr c rfl
      simp [he, hE]
    · rfl
  | plain he h =>
    refine (power_digits he h rest).trans ((signedPower_digits h hr.noDigit 1).trans ?_)
    rw [Int.one_mul]
  | plus he h =>
    refine Eq.trans ?_ ((signedPower_digits h hr.noDigit 1).trans ?_)
    · obtain rfl | rfl := he <;> rfl
    · rw [Int.one_mul]
  | minus he h =>
    refine Eq.trans ?_ ((signedPower_digits h hr.noDigit (-1)).trans ?_)
    · obtain rfl | rfl := he <;> rfl
    · rw [Int.neg_one_mul]

theorem Power.head {q : Option Int} {qs : List Char} (h : Power q qs) (hr : Stops rest) :
    NoDigit (qs.map some ++ rest) ∧ (qs.map some ++ rest).head? ≠ some (some '.') := by
  have begun {e : Char} (he : e = 'e' ∨ e = 'E') (more : Symbols) :
      NoDigit (some e :: more) ∧ (some e :: more).head? ≠ some (some '.') := by
    obtain rfl | rfl := he
    · exact ⟨fun c hc => by cases hc; decide, nofun⟩
    · exact ⟨fun c hc => by cases hc; decide, nofun⟩
  cases h with
  | none => exact ⟨hr.noDigit, fun h => (hr '.' h).2.1 rfl⟩
  | plain he | plus he | minus he => exact begun he _

theorem Part.head {p ps : List Char} (h : Part p ps) (hr : NoDigit rest) :
    NoDigit (ps.map some ++ rest) := by
  cases h with
  | none => exact hr
  | digits h =>
    rintro _ ⟨⟩
    decide

theorem Unsigned.read {negative : Bool} {n : Numeral} (h : Unsigned negative n cs) (hr : Stops rest) :
    unsigned negative (cs.map some ++ rest) = .ok (n, rest) := by
  obtain ⟨hw, hp, hq⟩ := h
  obtain ⟨hqd, hqp⟩ := hq.head hr
  unfold unsigned
  simp only [List.map_append, List.append_assoc]
  rw [hw.read (hp.head hqd)]
  simp only [bind, Except.bind]
  rw [hp.read hqd hqp]
  simp only
  rw [hq.read hr]
  rfl

theorem Unsigned.head {negative : Bool} {n : Numeral} (h : Unsigned negative n cs) :
    ∃ c tail, cs = c :: tail ∧ isDecimal c = true := by
  obtain ⟨hw, -, -⟩ := h
  obtain ⟨c, w, rfl⟩ := List.exists_cons_of_ne_nil hw.ne_nil
  exact ⟨c, _, rfl, hw.decimal c List.mem_cons_self⟩

theorem Number.read {n : Numeral} (h : Number n cs) (hr : Stops rest) :
    numeral (cs.map some ++ rest) = .ok (n, rest) := by
  cases h with
  | plain h =>
    obtain ⟨c, tail, rfl, hc⟩ := h.head
    refine Eq.trans ?_ (h.read hr)
    unfold numeral
    split
    · rename_i hs
      cases hs
      exact absurd hc (by decide)
    · rfl
  | minus h => exact h.read hr

theorem Pieces.read {ps : List Piece} (h : Pieces ps cs) (rest : Symbols) :
    pieces (cs.map some ++ some '"' :: rest) = (ps, .ok rest) := by
  induction h with
  | nil => rfl
  | char hc hq he _ ih => simp [pieces, he, ih, Nat.not_lt.mpr hc]
  | @escape e _ _ _ he _ ih =>
    have hu : e ≠ 'u' := by
      rintro rfl
      cases he
    simp [pieces, hu, he, ih]
  | unit ha hb hc hd _ ih => simp [pieces, hexNumber?, ha, hb, hc, hd, ih]

theorem Makes.spell {ps : List Piece} {text : List Char} (h : Makes ps text) :
    spell? ps = some text := by
  induction h with
  | nil => rfl
  | char _ ih => simp [spell?, ih]
  | unit hn _ ih =>
    unfold spell?
    simp [hn, ih]
  | pair hn hl hm _ ih => simp [spell?, hn, hl, hm, ih]

theorem makes_of_spell {ps : List Piece} {text : List Char} (h : spell? ps = some text) :
    Makes ps text := by
  fun_induction spell? ps generalizing text with
  | case1 =>
    cases h
    exact .nil
  | case2 c ps ih =>
    obtain ⟨text, ht, rfl⟩ := Option.map_eq_some_iff.mp h
    exact .char (ih ht)
  | case3 => cases h
  | case4 n ps hn ih =>
    obtain ⟨text, ht, rfl⟩ := Option.map_eq_some_iff.mp h
    exact .unit (by simpa using hn) (ih ht)
  | case5 n hn m ps hm ih =>
    obtain ⟨text, ht, rfl⟩ := Option.map_eq_some_iff.mp h
    obtain ⟨hl, hm⟩ := Bool.and_eq_true_iff.mp hm
    exact .pair (by simpa using hn) (by simpa using hl) hm (ih ht)
  | case6 => cases h
  | case7 => cases h

theorem Quoted.read (h : Quoted d cs) (rest : Symbols) :
    ∃ tail, cs = '"' :: tail ∧ string (tail.map some ++ rest) = (d, .ok rest) := by
  have hs {ps : List Piece} {cs : List Char} (hp : Pieces ps cs) :
      pieces ((cs ++ ['"']).map some ++ rest) = (ps, .ok rest) := by
    rw [List.map_append, List.append_assoc]
    exact hp.read rest
  cases h with
  | text hp h =>
    refine ⟨_, rfl, ?_⟩
    simp only [string, hs hp, h.spell]
  | garbled hp h =>
    refine ⟨_, rfl, ?_⟩
    have hn := Option.eq_none_iff_forall_ne_some.mpr fun text ht => h text (makes_of_spell ht)
    simp only [string, hs hp, hn]

structure Begins (c : Char) : Prop where
  proper : isSpace c = false
  unclosed : c ≠ ']'
  unopened : c ≠ '[' ∧ c ≠ '{'

theorem Number.begin {n : Numeral} (h : Number n cs) :
    ∃ c tail, cs = c :: tail ∧ (isDecimal c = true ∨ c = '-') := by
  cases h with
  | plain h =>
    obtain ⟨c, tail, rfl, hc⟩ := h.head
    exact ⟨c, tail, rfl, .inl hc⟩
  | minus => exact ⟨'-', _, rfl, .inr rfl⟩

theorem begins_number {c : Char} (h : isDecimal c = true ∨ c = '-') : Begins c where
  proper := by
    refine Bool.eq_false_iff.mpr fun hs => ?_
    simp only [isSpace, Bool.or_eq_true, beq_iff_eq] at hs
    obtain ((rfl | rfl) | rfl) | rfl := hs <;> exact absurd h (by decide)
  unclosed := by
    rintro rfl
    exact absurd h (by decide)
  unopened := by constructor <;> rintro rfl <;> exact absurd h (by decide)

theorem readScalar_number {c : Char} (h : isDecimal c = true ∨ c = '-') (cs : Symbols) :
    readScalar (some c :: cs) = number (some c :: cs) := by
  unfold readScalar
  split
  case h_6 => rfl
  all_goals
    rename_i hs
    cases hs <;> exact absurd h (by decide)

theorem literal_read (d : Draft) (w : List Char) (rest : Symbols) :
    literal d w (w.map some ++ rest) = (d, .ok rest) := by
  induction w with
  | nil => cases rest <;> rfl
  | cons c w ih =>
    simp only [List.map_cons, List.cons_append]
    unfold literal
    simp [ih]

theorem Scalar.read (h : Scalar d cs) (hr : Stops rest) :
    readScalar (cs.map some ++ rest) = (d, .ok rest) := by
  cases h with
  | null => exact literal_read .null _ rest
  | yes => exact literal_read (.bool true) _ rest
  | no => exact literal_read (.bool false) _ rest
  | @number n _ h =>
    have hn : Json.number (cs.map some ++ rest) = (.number n, .ok rest) := by
      unfold Json.number
      rw [h.read hr]
    obtain ⟨c, tail, rfl, hc⟩ := h.begin
    exact (readScalar_number hc _).trans hn
  | quoted h =>
    obtain ⟨tail, rfl, hs⟩ := h.read rest
    exact hs

theorem Scalar.begin (h : Scalar d cs) : ∃ c tail, cs = c :: tail ∧ Begins c := by
  cases h with
  | null => exact ⟨'n', _, rfl, by decide, by decide, by decide⟩
  | yes => exact ⟨'t', _, rfl, by decide, by decide, by decide⟩
  | no => exact ⟨'f', _, rfl, by decide, by decide, by decide⟩
  | number h =>
    obtain ⟨c, tail, rfl, hc⟩ := h.begin
    exact ⟨c, tail, rfl, begins_number hc⟩
  | quoted h =>
    obtain ⟨tail, rfl, -⟩ := h.read []
    exact ⟨'"', tail, rfl, by decide, by decide, by decide⟩

theorem readValue_skipSpace (fuel : Nat) (cs : Symbols) :
    readValue fuel (skipSpace cs) = readValue fuel cs := by
  cases fuel with
  | zero => rfl
  | succ fuel => unfold readValue; rw [skipSpace_skipSpace]

theorem readElements_skipSpace (fuel : Nat) (cs : Symbols) :
    readElements fuel (skipSpace cs) = readElements fuel cs := by
  cases fuel with
  | zero => rfl
  | succ fuel => unfold readElements; rw [readValue_skipSpace]

theorem readPairs_skipSpace (fuel : Nat) (cs : Symbols) :
    readPairs fuel (skipSpace cs) = readPairs fuel cs := by
  cases fuel with
  | zero => rfl
  | succ fuel => unfold readPairs; rw [skipSpace_skipSpace]

theorem readValue_array {fuel : Nat} {cs rest : Symbols} {ds : List Draft}
    (h : (skipSpace cs).head? ≠ some (some ']')) (hr : readElements fuel cs = (ds, .ok rest)) :
    readValue (fuel + 1) (some '[' :: cs) = (.array ds none, .ok rest) := by
  rw [← readElements_skipSpace] at hr
  unfold readValue
  rw [skipSpace_cons (by decide)]
  simp only
  split
  · rename_i hs
    rw [hs] at h
    exact absurd rfl h
  · rw [hr]
    rfl

theorem readValue_noItems {fuel : Nat} {cs rest : Symbols} (h : skipSpace cs = some ']' :: rest) :
    readValue (fuel + 1) (some '[' :: cs) = (.array [] none, .ok rest) := by
  unfold readValue
  rw [skipSpace_cons (by decide)]
  simp only [h]

theorem readValue_noMembers {fuel : Nat} {cs rest : Symbols} (h : skipSpace cs = some '}' :: rest) :
    readValue (fuel + 1) (some '{' :: cs) = (.object [] none, .ok rest) := by
  unfold readValue
  rw [skipSpace_cons (by decide)]
  simp only [h]

theorem readValue_object {fuel : Nat} {cs rest : Symbols} {ms : List (Draft × Draft)}
    (h : (skipSpace cs).head? ≠ some (some '}')) (hr : readPairs fuel cs = (ms, .ok rest)) :
    readValue (fuel + 1) (some '{' :: cs) = (.object ms none, .ok rest) := by
  rw [← readPairs_skipSpace] at hr
  unfold readValue
  rw [skipSpace_cons (by decide)]
  simp only
  split
  · rename_i hs
    rw [hs] at h
    exact absurd rfl h
  · rw [hr]
    rfl

theorem readValue_scalar {fuel : Nat} {c : Char} (hc : Begins c) (cs : Symbols) :
    readValue (fuel + 1) (some c :: cs) = readScalar (some c :: cs) := by
  obtain ⟨hs, -, ha, ho⟩ := hc
  unfold readValue
  rw [skipSpace_cons hs]
  split
  · rename_i h
    cases h
    exact absurd rfl ha
  · rename_i h
    cases h
    exact absurd rfl ho
  · rfl

theorem readElements_last {fuel : Nat} {cs rest more : Symbols} (h : readValue fuel cs = (d, .ok rest))
    (hr : skipSpace rest = some ']' :: more) :
    readElements (fuel + 1) cs = ([d], .ok more) := by
  unfold readElements
  rw [h]
  simp only [hr]

theorem readElements_cons {fuel : Nat} {cs rest more : Symbols} (h : readValue fuel cs = (d, .ok rest))
    (hr : skipSpace rest = some ',' :: more) (hm : (skipSpace more).head? ≠ some (some ']')) :
    readElements (fuel + 1) cs =
      (d :: (readElements fuel more).1, (readElements fuel more).2) := by
  conv_lhs => unfold readElements
  rw [h]
  simp only [hr]
  rw [if_neg (by simpa using hm)]

section

variable {fuel : Nat} {name : Draft} {cs q r vs rest more : Symbols}
  (hq : skipSpace cs = some '"' :: q) (hn : string q = (name, .ok r))
  (hc : skipSpace r = some ':' :: vs) (h : readValue fuel vs = (d, .ok rest))

include hq hn hc h

theorem readPairs_last (hr : skipSpace rest = some '}' :: more) :
    readPairs (fuel + 1) cs = ([(name, d)], .ok more) := by
  unfold readPairs
  simp only [hq, hn, hc, h, hr]

theorem readPairs_cons (hr : skipSpace rest = some ',' :: more) :
    readPairs (fuel + 1) cs = ((name, d) :: (readPairs fuel more).1, (readPairs fuel more).2) := by
  conv_lhs => unfold readPairs
  simp only [hq, hn, hc, h, hr]

end

theorem map_some_append (xs ys : List Char) (rest : Symbols) :
    (xs ++ ys).map some ++ rest = xs.map some ++ (ys.map some ++ rest) := by
  rw [List.map_append, List.append_assoc]

theorem map_some_closed (xs : List Char) (c : Char) (rest : Symbols) :
    (xs ++ [c]).map some ++ rest = xs.map some ++ some c :: rest := map_some_append xs [c] rest

theorem Quoted.named {name : Draft} {before ns mid : List Char} (hn : Quoted name ns)
    (hb : Blank before) (hm : Blank mid) (vs : Symbols) :
    ∃ q r, skipSpace (before.map some ++ (ns.map some ++ (mid.map some ++ some ':' :: vs))) =
        some '"' :: q ∧ string q = (name, .ok r) ∧ skipSpace r = some ':' :: vs := by
  obtain ⟨tail, rfl, hs⟩ := hn.read (mid.map some ++ some ':' :: vs)
  refine ⟨_, _, ?_, hs, ?_⟩
  · rw [skipSpace_blank hb]
    exact skipSpace_cons (by decide) _
  · rw [skipSpace_blank hm]
    exact skipSpace_cons (by decide) _

theorem Members.begin {ms : List (Draft × Draft)} (h : Members ms cs) (rest : Symbols) :
    (skipSpace (cs.map some ++ rest)).head? = some (some '"') := by
  have first {m : Draft × Draft} {cs : List Char} (h : Member m cs) (rest : Symbols) :
      (skipSpace (cs.map some ++ rest)).head? = some (some '"') := by
    obtain @⟨_, _, before, ns, mid, cs, hb, hn, hm, h⟩ := h
    rw [map_some_append, map_some_append, map_some_append]
    obtain ⟨q, r, hq, -⟩ := hn.named hb hm (cs.map some ++ rest)
    exact congrArg List.head? hq
  cases h with
  | last h => exact first h rest
  | cons h _ =>
    rw [map_some_append]
    exact first h _

theorem Spells.begin (h : Spells d cs) : ∃ c tail, cs = c :: tail ∧ isSpace c = false ∧ c ≠ ']' := by
  cases h with
  | scalar h =>
    obtain ⟨c, tail, rfl, hc⟩ := h.begin
    exact ⟨c, tail, rfl, hc.proper, hc.unclosed⟩
  | noItems | array => exact ⟨'[', _, rfl, by decide, by decide⟩
  | noMembers | object => exact ⟨'{', _, rfl, by decide, by decide⟩

theorem Items.begin {ds : List Draft} (h : Items ds cs) (rest : Symbols) :
    (skipSpace (cs.map some ++ rest)).head? ≠ some (some ']') := by
  have first {d : Draft} {cs : List Char} (h : Padded d cs) (rest : Symbols) :
      (skipSpace (cs.map some ++ rest)).head? ≠ some (some ']') := by
    obtain ⟨hb, h, ha⟩ := h
    obtain ⟨c, tail, rfl, hs, hc⟩ := h.begin
    rw [map_some_append, skipSpace_blank hb]
    simp only [List.cons_append, List.map_cons]
    rw [skipSpace_cons hs]
    simpa using hc
  cases h with
  | last h => exact first h rest
  | cons h _ =>
    rw [map_some_append]
    exact first h _

theorem stops_mark {c : Char} (h : c = ',' ∨ c = ']' ∨ c = '}') (rest : Symbols) :
    Stops (some c :: rest) := by
  obtain rfl | rfl | rfl := h <;> exact stops_cons (by decide) rest

theorem skipSpace_mark {c : Char} (h : c = ',' ∨ c = ']' ∨ c = '}') (rest : Symbols) :
    skipSpace (some c :: rest) = some c :: rest := by
  obtain rfl | rfl | rfl := h <;> exact skipSpace_cons (by decide) rest

mutual

theorem Spells.read {d : Draft} {cs : List Char} (h : Spells d cs) {fuel : Nat}
    (hf : cs.length ≤ fuel) {rest : Symbols} (hr : Stops rest) :
    readValue fuel (cs.map some ++ rest) = (d, .ok rest) := by
  -- There is fuel for each character, and a bracket uses up one for what is inside.
  obtain _ | fuel := fuel
  · obtain ⟨c, tail, rfl, -⟩ := h.begin
    cases hf
  cases h with
  | scalar h =>
    obtain ⟨c, tail, rfl, hc⟩ := h.begin
    exact (readValue_scalar hc _).trans (h.read hr)
  | @noItems ws hw =>
    have hs := (skipSpace_blank hw _).trans (skipSpace_mark (.inr (.inl rfl)) rest)
    rw [← map_some_closed] at hs
    exact readValue_noItems hs
  | @noMembers ws hw =>
    have hs := (skipSpace_blank hw _).trans (skipSpace_mark (.inr (.inr rfl)) rest)
    rw [← map_some_closed] at hs
    exact readValue_noMembers hs
  | @array ds cs h =>
    simp only [List.length_cons, List.length_append, List.length_nil] at hf
    have hlen : cs.length < fuel := by omega
    have hb := h.begin (some ']' :: rest)
    have hi := h.read hlen rest
    rw [← map_some_closed] at hb hi
    exact readValue_array hb hi
  | @object ms cs h =>
    simp only [List.length_cons, List.length_append, List.length_nil] at hf
    have hlen : cs.length < fuel := by omega
    have hb := h.begin (some '}' :: rest)
    have hi := h.read hlen rest
    rw [← map_some_closed] at hb hi
    exact readValue_object (fun he => by cases hb.symm.trans he) hi

theorem Padded.read {d : Draft} {cs : List Char} (h : Padded d cs) {fuel : Nat}
    (hf : cs.length ≤ fuel) {rest : Symbols} (hr : Stops rest) :
    ∃ rest', readValue fuel (cs.map some ++ rest) = (d, .ok rest') ∧
      skipSpace rest' = skipSpace rest := by
  cases h with
  | mk hb h ha =>
    refine ⟨_, ?_, skipSpace_blank ha rest⟩
    rw [map_some_append, map_some_append, ← readValue_skipSpace, skipSpace_blank hb,
      readValue_skipSpace]
    refine h.read ?_ (stops_blank ha hr)
    simp only [List.length_append] at hf
    omega

theorem Items.read {ds : List Draft} {cs : List Char} (h : Items ds cs) {fuel : Nat}
    (hf : cs.length < fuel) (rest : Symbols) :
    readElements fuel (cs.map some ++ some ']' :: rest) = (ds, .ok rest) := by
  obtain _ | fuel := fuel
  · cases hf
  cases h with
  | last h =>
    obtain ⟨rest', hv, hs⟩ := h.read (Nat.le_of_lt_succ hf) (stops_mark (.inr (.inl rfl)) rest)
    exact readElements_last hv (hs.trans (skipSpace_mark (.inr (.inl rfl)) rest))
  | @cons _ _ cs more h hi =>
    simp only [List.length_append, List.length_cons] at hf
    have hcs : cs.length ≤ fuel := by omega
    have hmore : more.length < fuel := by omega
    rw [map_some_append]
    obtain ⟨rest', hv, hs⟩ := h.read hcs (stops_mark (.inl rfl) (more.map some ++ some ']' :: rest))
    have hm := hi.read hmore rest
    refine (readElements_cons hv (hs.trans (skipSpace_mark (.inl rfl) _)) (hi.begin _)).trans ?_
    rw [hm]

theorem Members.read {ms : List (Draft × Draft)} {cs : List Char} (h : Members ms cs) {fuel : Nat}
    (hf : cs.length < fuel) (rest : Symbols) :
    readPairs fuel (cs.map some ++ some '}' :: rest) = (ms, .ok rest) := by
  obtain _ | fuel := fuel
  · cases hf
  cases h with
  | last h =>
    obtain @⟨_, _, before, ns, mid, cs, hb, hn, hm, h⟩ := h
    simp only [List.length_append, List.length_cons] at hf
    have hcs : cs.length ≤ fuel := by omega
    obtain ⟨rest', hv, hs⟩ := h.read hcs (stops_mark (.inr (.inr rfl)) rest)
    rw [map_some_append, map_some_append, map_some_append]
    obtain ⟨q, r, hq, hn, hc⟩ := hn.named hb hm (cs.map some ++ some '}' :: rest)
    exact readPairs_last hq hn hc hv (hs.trans (skipSpace_mark (.inr (.inr rfl)) rest))
  | @cons _ _ _ more h hi =>
    obtain @⟨_, _, before, ns, mid, cs, hb, hn, hm, h⟩ := h
    simp only [List.length_append, List.length_cons] at hf
    have hcs : cs.length ≤ fuel := by omega
    have hmore : more.length < fuel := by omega
    rw [map_some_append, map_some_append, map_some_append, map_some_append]
    obtain ⟨rest', hv, hs⟩ := h.read hcs (stops_mark (.inl rfl) (more.map some ++ some '}' :: rest))
    obtain ⟨q, r, hq, hn, hc⟩ := hn.named hb hm
      (cs.map some ++ some ',' :: (more.map some ++ some '}' :: rest))
    refine (readPairs_cons hq hn hc hv (hs.trans (skipSpace_mark (.inl rfl) _))).trans ?_
    rw [hi.read hmore rest]

end

theorem Padded.decode {α : Type} {d : Draft} {text : String} (h : Padded d text.toList)
    (read : Draft → Except Fault α) : decode read text = read d := by
  have hr : ∃ rest, readText (text.toList.map some) = (d, .ok rest) ∧ skipSpace rest = [] := by
    have hlen : text.toList.length ≤ 2 * (text.toList.map some).length + 2 := by
      rw [List.length_map]
      omega
    obtain ⟨rest, hv, hs⟩ := h.read hlen stops_nil
    rw [List.append_nil] at hv
    exact ⟨rest, hv, hs⟩
  obtain ⟨rest, hv, hs⟩ := hr
  unfold Json.decode decodeSymbols
  rw [hv]
  change (read d >>= fun a => if (skipSpace rest).isEmpty then pure a else throw .malformed) = read d
  rw [hs]
  cases read d with
  | error f | ok a => rfl

end Provisioner.Json
