import Provisioner.Json.Reader

namespace Provisioner.Json

def Blank (cs : List Char) : Prop := ∀ c ∈ cs, isSpace c = true

instance (cs : List Char) : Decidable (Blank cs) :=
  List.decidableBAll (fun c => isSpace c = true) cs

structure Digits (ds : List Char) : Prop where
  ne_nil : ds ≠ []
  decimal : ∀ d ∈ ds, isDecimal d = true

structure Whole (ds : List Char) : Prop extends Digits ds where
  leading : ds.head? = some '0' → ds = ['0']

inductive Part : List Char → List Char → Prop
  | none : Part [] []
  | digits {ds : List Char} (h : Digits ds) : Part ds ('.' :: ds)

inductive Power : Option Int → List Char → Prop
  | none : Power none []
  | plain {e : Char} {ds : List Char} (he : e = 'e' ∨ e = 'E') (h : Digits ds) :
    Power (some (decimal ds)) (e :: ds)
  | plus {e : Char} {ds : List Char} (he : e = 'e' ∨ e = 'E') (h : Digits ds) :
    Power (some (decimal ds)) (e :: '+' :: ds)
  | minus {e : Char} {ds : List Char} (he : e = 'e' ∨ e = 'E') (h : Digits ds) :
    Power (some (-decimal ds)) (e :: '-' :: ds)

inductive Unsigned (negative : Bool) : Numeral → List Char → Prop
  | mk {w p ps qs : List Char} {q : Option Int} (hw : Whole w) (hp : Part p ps) (hq : Power q qs) :
    Unsigned negative ⟨negative, w, p, q⟩ (w ++ (ps ++ qs))

inductive Number : Numeral → List Char → Prop
  | plain {n : Numeral} {cs : List Char} (h : Unsigned false n cs) : Number n cs
  | minus {n : Numeral} {cs : List Char} (h : Unsigned true n cs) : Number n ('-' :: cs)

inductive Pieces : List Piece → List Char → Prop
  | nil : Pieces [] []
  | char {c : Char} {ps : List Piece} {cs : List Char} (hc : 0x20 ≤ c.toNat) (hq : c ≠ '"')
    (he : c ≠ '\\') (h : Pieces ps cs) : Pieces (.char c :: ps) (c :: cs)
  | escape {e c : Char} {ps : List Piece} {cs : List Char} (he : escaped? e = some c)
    (h : Pieces ps cs) : Pieces (.char c :: ps) ('\\' :: e :: cs)
  | unit {a b c d : Char} {i j k l : Nat} {ps : List Piece} {cs : List Char}
    (ha : Text.hexValue? a = some i) (hb : Text.hexValue? b = some j)
    (hc : Text.hexValue? c = some k) (hd : Text.hexValue? d = some l) (h : Pieces ps cs) :
    Pieces (.unit (((i * 16 + j) * 16 + k) * 16 + l) :: ps) ('\\' :: 'u' :: a :: b :: c :: d :: cs)

inductive Makes : List Piece → List Char → Prop
  | nil : Makes [] []
  | char {c : Char} {ps : List Piece} {text : List Char} (h : Makes ps text) :
    Makes (.char c :: ps) (c :: text)
  | unit {n : Nat} {ps : List Piece} {text : List Char} (hn : isSurrogate n = false)
    (h : Makes ps text) : Makes (.unit n :: ps) (Char.ofNat n :: text)
  | pair {n m : Nat} {ps : List Piece} {text : List Char} (hn : isSurrogate n = true)
    (hl : isTrailing n = false) (hm : isTrailing m = true) (h : Makes ps text) :
    Makes (.unit n :: .unit m :: ps)
      (Char.ofNat (0x10000 + (n - 0xD800) * 1024 + (m - 0xDC00)) :: text)

inductive Quoted : Draft → List Char → Prop
  | text {ps : List Piece} {cs text : List Char} (hp : Pieces ps cs) (h : Makes ps text) :
    Quoted (.string (String.ofList text)) ('"' :: (cs ++ ['"']))
  | garbled {ps : List Piece} {cs : List Char} (hp : Pieces ps cs) (h : ∀ text, ¬Makes ps text) :
    Quoted (.flawed .malformed none) ('"' :: (cs ++ ['"']))

inductive Scalar : Draft → List Char → Prop
  | null : Scalar .null "null".toList
  | yes : Scalar (.bool true) "true".toList
  | no : Scalar (.bool false) "false".toList
  | number {n : Numeral} {cs : List Char} (h : Number n cs) : Scalar (.number n) cs
  | quoted {d : Draft} {cs : List Char} (h : Quoted d cs) : Scalar d cs

mutual

inductive Spells : Draft → List Char → Prop
  | scalar {d : Draft} {cs : List Char} (h : Scalar d cs) : Spells d cs
  | noItems {ws : List Char} (hw : Blank ws) : Spells (.array [] none) ('[' :: (ws ++ [']']))
  | array {ds : List Draft} {cs : List Char} (h : Items ds cs) :
    Spells (.array ds none) ('[' :: (cs ++ [']']))
  | noMembers {ws : List Char} (hw : Blank ws) : Spells (.object [] none) ('{' :: (ws ++ ['}']))
  | object {ms : List (Draft × Draft)} {cs : List Char} (h : Members ms cs) :
    Spells (.object ms none) ('{' :: (cs ++ ['}']))

inductive Padded : Draft → List Char → Prop
  | mk {d : Draft} {before cs after : List Char} (hb : Blank before) (h : Spells d cs)
    (ha : Blank after) : Padded d (before ++ (cs ++ after))

inductive Items : List Draft → List Char → Prop
  | last {d : Draft} {cs : List Char} (h : Padded d cs) : Items [d] cs
  | cons {d : Draft} {ds : List Draft} {cs more : List Char} (h : Padded d cs)
    (hs : Items ds more) : Items (d :: ds) (cs ++ ',' :: more)

inductive Member : Draft × Draft → List Char → Prop
  | mk {name d : Draft} {before ns mid cs : List Char} (hb : Blank before) (hn : Quoted name ns)
    (hm : Blank mid) (h : Padded d cs) : Member (name, d) (before ++ (ns ++ (mid ++ ':' :: cs)))

inductive Members : List (Draft × Draft) → List Char → Prop
  | last {m : Draft × Draft} {cs : List Char} (h : Member m cs) : Members [m] cs
  | cons {m : Draft × Draft} {ms : List (Draft × Draft)} {cs more : List Char} (h : Member m cs)
    (hs : Members ms more) : Members (m :: ms) (cs ++ ',' :: more)

end

def isPlain (c : Char) : Bool := 0x20 ≤ c.toNat && c != '"' && c != '\\'

theorem quoted_plain (text : String) (h : text.toList.all isPlain = true) :
    Quoted (.string text) ('"' :: (text.toList ++ ['"'])) := by
  have plain (cs : List Char) (h : ∀ c ∈ cs, isPlain c = true) :
      Pieces (cs.map .char) cs ∧ Makes (cs.map .char) cs := by
    induction cs with
    | nil => exact ⟨.nil, .nil⟩
    | cons c cs ih =>
      obtain ⟨hc, h⟩ := List.forall_mem_cons.mp h
      simp only [isPlain, Bool.and_eq_true, decide_eq_true_eq, bne_iff_ne] at hc
      obtain ⟨⟨hc, hq⟩, he⟩ := hc
      exact ⟨.char hc hq he (ih h).1, .char (ih h).2⟩
  obtain ⟨hp, hm⟩ := plain text.toList (List.all_eq_true.mp h)
  have hq := Quoted.text hp hm
  rwa [String.ofList_toList] at hq

theorem Quoted.skip {d : Draft} {cs : List Char} (h : Quoted d cs) : d.skip = .ok () := by
  cases h with
  | text => rfl
  | garbled => rfl

theorem Scalar.skip {d : Draft} {cs : List Char} (h : Scalar d cs) : d.skip = .ok () := by
  cases h with
  | null | yes | no | number => rfl
  | quoted h => exact h.skip

mutual

theorem Spells.skip {d : Draft} {cs : List Char} : Spells d cs → d.skip = .ok ()
  | .scalar h => h.skip
  | .noItems _ | .noMembers _ => rfl
  | .array h => by rw [Draft.skip, h.skip]; rfl
  | .object h => by rw [Draft.skip, h.skip]; rfl

theorem Padded.skip {d : Draft} {cs : List Char} : Padded d cs → d.skip = .ok ()
  | .mk _ h _ => h.skip

theorem Items.skip {ds : List Draft} {cs : List Char} : Items ds cs → skipAll ds = .ok ()
  | .last h => by rw [skipAll, h.skip]; rfl
  | .cons h hs => by rw [skipAll, h.skip]; exact hs.skip

theorem Member.skip {m : Draft × Draft} {cs : List Char} :
    Member m cs → m.1.skip = .ok () ∧ m.2.skip = .ok ()
  | .mk _ hn _ h => ⟨hn.skip, h.skip⟩

theorem Members.skip {ms : List (Draft × Draft)} {cs : List Char} :
    Members ms cs → skipMembers ms = .ok ()
  | .last h => by rw [skipMembers, h.skip.1, h.skip.2]; rfl
  | .cons h hs => by rw [skipMembers, h.skip.1, h.skip.2]; exact hs.skip

end

end Provisioner.Json
