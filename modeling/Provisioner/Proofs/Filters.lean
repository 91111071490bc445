import Provisioner.Engine.Request

namespace Provisioner.Engine

namespace Pattern

inductive Atom where
  | char (c : Char)
  | first
  | last
  deriving DecidableEq, Repr

def operators : List Char := "\\.+*?()|[]{}^$".toList

def isPunctuation (c : Char) : Bool := '!' ≤ c && c ≤ '~' && !c.isAlphanum

def atom? (c : Char) : Option Atom :=
  if c == '^' then some .first
  else if c == '$' then some .last
  else if operators.contains c then none
  else some (.char c)

/-- The atoms of a pattern in which nothing is repeated, grouped or left open. Behind a backslash
punctuation stands for itself. -/
def atoms? : List Char → Option (List Atom)
  | [] => some []
  | '\\' :: c :: cs => if isPunctuation c then (atoms? cs).map (.char c :: ·) else none
  | c :: cs => (atom? c).bind fun a => (atoms? cs).map (a :: ·)

/-- Whether atoms fit a text from its beginning on. The flag says that this is the beginning of
the whole text. -/
def fits : Bool → List Atom → List Char → Bool
  | _, [], _ => true
  | atStart, .first :: as, cs => atStart && fits atStart as cs
  | atStart, .last :: as, cs => cs.isEmpty && fits atStart as cs
  | _, .char _ :: _, [] => false
  | _, .char c :: as, d :: cs => c == d && fits false as cs

def occurs (as : List Atom) : Bool → List Char → Bool
  | atStart, [] => fits atStart as []
  | atStart, c :: cs => fits atStart as (c :: cs) || occurs as false cs

def admits (pattern text : String) : Bool :=
  match atoms? pattern.toList with
  | some as => occurs as true text.toList
  | none => false

theorem fits_chars (atStart : Bool) (cs text : List Char) :
    fits atStart (cs.map .char ++ [.last]) text = true ↔ text = cs := by
  induction cs generalizing atStart text with
  | nil => cases text <;> simp [fits]
  | cons c cs ih =>
    cases text with
    | nil => simp [fits]
    | cons d text =>
      rw [List.map_cons, List.cons_append, fits, Bool.and_eq_true, beq_iff_eq, ih,
        List.cons.injEq]
      exact and_congr_left fun _ => eq_comm

theorem occurs_first (as : List Atom) (text : List Char) :
    occurs (.first :: as) false text = false := by
  induction text with
  | nil => simp [occurs, fits]
  | cons c text ih => simp [occurs, fits, ih]

/-- What has to begin where the text begins fits from there or nowhere. -/
theorem occurs_first_true (as : List Atom) (text : List Char) :
    occurs (.first :: as) true text = fits true as text := by
  cases text with
  | nil => simp [occurs, fits]
  | cons c text => simp [occurs, fits, occurs_first]

theorem atoms?_cons {c : Char} (h : c ≠ '\\') (cs : List Char) :
    atoms? (c :: cs) = (atom? c).bind fun a => (atoms? cs).map (a :: ·) := by
  rw [atoms?]
  exact fun _ _ hc _ => h hc

theorem atoms?_escapeChar (c : Char) (cs : List Char) :
    atoms? (escapeChar c ++ cs) = (atoms? cs).map (.char c :: ·) := by
  by_cases h : c ∈ special
  · have hp : ∀ c ∈ special, isPunctuation c = true := List.all_eq_true.mp (by decide)
    have he : escapeChar c = ['\\', c] := if_pos (by simpa using h)
    simp [he, atoms?, hp c h]
  · have ho : c ∉ operators := h
    have hn : ∀ d ∈ operators, c ≠ d := fun d hd hc => ho (hc ▸ hd)
    have ha : atom? c = some (.char c) := by
      simp [atom?, hn '^' (by decide), hn '$' (by decide), ho]
    have he : escapeChar c = [c] := if_neg (by simpa using h)
    rw [he, List.singleton_append, atoms?_cons (hn '\\' (by decide)), ha, Option.bind_some]

theorem atoms?_flatMap (name cs : List Char) :
    atoms? (name.flatMap escapeChar ++ cs) = (atoms? cs).map (name.map .char ++ ·) := by
  induction name with
  | nil => simp
  | cons c name ih =>
    rw [List.flatMap_cons, List.append_assoc, atoms?_escapeChar, ih, Option.map_map]
    rfl

theorem atoms?_exactNameChars (name : List Char) :
    atoms? (exactNameChars name) =
      some (.first :: (('/' :: name).map .char ++ [.last])) := by
  have h : atoms? (name.flatMap escapeChar ++ ['$']) = some (name.map .char ++ [.last]) := by
    rw [atoms?_flatMap]
    rfl
  have hs : exactNameChars name = '^' :: '/' :: (name.flatMap escapeChar ++ ['$']) := by
    simp [exactNameChars]
  rw [hs, atoms?_cons (by decide), atoms?_cons (by decide), h]
  rfl

theorem admits_exactNameFilter (name text : String) :
    admits (exactNameFilter name) text = true ↔ text = "/" ++ name := by
  unfold admits exactNameFilter
  rw [String.toList_ofList, atoms?_exactNameChars]
  simp only [occurs_first_true, fits_chars]
  rw [← String.toList_inj, String.toList_append]
  rfl

end Pattern

theorem exactNameFilter_injective {name other : String}
    (h : exactNameFilter other = exactNameFilter name) : other = name := by
  have ho : Pattern.admits (exactNameFilter other) ("/" ++ other) = true :=
    (Pattern.admits_exactNameFilter other _).mpr rfl
  rw [h, Pattern.admits_exactNameFilter] at ho
  exact String.append_right_inj "/" |>.mp ho

structure Container where
  name : String
  id : String
  state : String
  deriving DecidableEq, Repr

namespace Request

def wanted (q : Request) (property : String) : List (List String) :=
  q.query.filterMap fun
    | ("filters", .filters ws) => ws.lookup property
    | _ => none

def wantsAll (q : Request) : Bool := q.query.contains ("all", .flag true)

end Request

/-- Containers that do not run are listed only where all are asked for. Patterns are looked for in
the name with a slash in front of it. -/
def Container.isListed (q : Request) (c : Container) : Bool :=
  (q.wantsAll || c.state == "running") &&
    (q.wanted "name").all fun patterns => patterns.any (Pattern.admits · ("/" ++ c.name))

def listing (q : Request) (table : List Container) : List Container := table.filter (·.isListed q)

theorem isListed_listContainers (name : String) (c : Container) :
    c.isListed (request (.listContainers name)) = (c.name == name) := by
  have ha : (request (.listContainers name)).wantsAll = true := by
    simp [request, Request.wantsAll]
  have hw : (request (.listContainers name)).wanted "name" = [[exactNameFilter name]] := by
    simp [request, Request.wanted]
  have hn : Pattern.admits (exactNameFilter name) ("/" ++ c.name) = (c.name == name) := by
    rw [Bool.eq_iff_iff, Pattern.admits_exactNameFilter, String.append_right_inj, beq_iff_eq]
  simp [Container.isListed, ha, hw, hn]

/-- The pattern for a name is found in that name alone. So the containers that are listed by it are
those that have the name, whether they run or not, and no two names have the same pattern. -/
theorem exactNameFilter_selects (name : String) :
    (∀ text, Pattern.admits (exactNameFilter name) text = true ↔ text = "/" ++ name) ∧
      (∀ table, listing (request (.listContainers name)) table =
        table.filter (·.name == name)) ∧
      ∀ other, exactNameFilter other = exactNameFilter name → other = name :=
  ⟨Pattern.admits_exactNameFilter name,
    fun _ => congrArg (List.filter · _) (funext (isListed_listContainers name)),
    fun _ => exactNameFilter_injective⟩

/-- A bare name is found in longer ones as well. -/
example : Pattern.admits "web" "/my-web-2" = true := by decide +kernel

end Provisioner.Engine
