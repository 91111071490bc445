namespace Provisioner.Text

/-- The pieces between the elements equal to `sep`: one more than there are separators. -/
def fields {α : Type} [BEq α] (sep : α) : List α → List (List α)
  | [] => [[]]
  | a :: as =>
    if a == sep then [] :: fields sep as
    else
      match fields sep as with
      | [] => [[a]]
      | f :: fs => (a :: f) :: fs

/-- The pieces that a terminator ends, and a last one that is not ended if it holds anything. -/
def segments {α : Type} [BEq α] (terminator : α) (as : List α) : List (List α) :=
  let fs := fields terminator as
  if fs.getLast?.any List.isEmpty then fs.dropLast else fs

def dropReturn (cs : List Char) : List Char :=
  match cs.reverse with
  | '\r' :: rest => rest.reverse
  | _ => cs

/-- The lines of a text. A line feed ends a line, together with a carriage return before it; the
last line needs no end, and then a carriage return belongs to it. -/
def lines (cs : List Char) : List (List Char) :=
  let fs := fields '\n' cs
  let ended := fs.dropLast.map dropReturn
  match fs.getLast? with
  | none | some [] => ended
  | some rest => ended ++ [rest]

def splitAtLast? {α : Type} [BEq α] (sep : α) (as : List α) : Option (List α × List α) :=
  let back := as.reverse
  match back.dropWhile (· != sep) with
  | [] => none
  | _ :: front => some (front.reverse, (back.takeWhile (· != sep)).reverse)

end Provisioner.Text
