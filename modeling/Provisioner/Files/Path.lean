import Provisioner.Text.Blank
import Provisioner.Text.Lines

namespace Provisioner.Files.Path

def isAbsolute (p : String) : Bool := p.toList.head? == some '/'

def endsWithSlash (p : String) : Bool := p.toList.getLast? == some '/'

def names (p : String) : List String :=
  ((Text.fields '/' p.toList).map String.ofList).filter fun n => n != "" && n != "."

def join (base rel : String) : String :=
  if isAbsolute rel then rel
  else if base == "" || endsWithSlash base then base ++ rel
  else base ++ "/" ++ rel

def startsHere (p : String) : Bool := (Text.fields '/' p.toList).head? == some ['.']

/-- The path with single slashes and without a `.` that says nothing. A slash at the end stays, and
so the root has two. -/
def plain (p : String) : String :=
  let front := if isAbsolute p then "/" else ""
  let names := if startsHere p then "." :: names p else names p
  front ++ "/".intercalate names ++ (if endsWithSlash p then "/" else "")

def fileName? (p : String) : Option String :=
  match (names p).getLast? with
  | some ".." => none
  | last => last

/-- Exactly two slashes in front are kept as they are; any other number counts as one. -/
def root (p : String) : String :=
  match p.toList with
  | ['/', '/'] => "//"
  | '/' :: '/' :: c :: _ => if c == '/' then "/" else "//"
  | _ => "/"

/-- The path seen from the root, given the working directory: names are strung together, and a
slash at the end stays. The empty path has no such form. -/
def absolute? (cwd p : String) : Option String :=
  if p == "" then none
  else
    let start := if isAbsolute p then root p else cwd
    let long := (names p).foldl join start
    some (if endsWithSlash p then join long "" else long)

def trimEnd (p : String) : String := String.ofList (Text.dropEndWhile (· == '/') p.toList)

def stripChars? : List Char → List Char → Option (List Char)
  | [], cs => some cs
  | _ :: _, [] => none
  | d :: ds, c :: cs => if d == c then stripChars? ds cs else none

def stripStart? (start p : String) : Option String :=
  (stripChars? start.toList p.toList).map String.ofList

def stripEnd? (ending p : String) : Option String :=
  (stripChars? ending.toList.reverse p.toList.reverse).map fun cs => String.ofList cs.reverse

end Provisioner.Files.Path
