import Provisioner.Files.Walk

namespace Provisioner

open Files

structure Host where
  root : Node
  cwd : Location
  home : Option String
  userProfile : Option String
  /-- What keeps the file or the directory at a location from being opened to be packed. -/
  shut : Location → Option IoError := fun _ => none

namespace Host

def cwdPath (h : Host) : String := "/" ++ "/".intercalate (h.cwd.map nameText)

def absolute (h : Host) (p : String) : Except IoError String :=
  match Path.absolute? h.cwdPath p with
  | some q => .ok q
  | none => .error .emptyPath

def expand (h : Host) (p : String) : String :=
  match Path.stripStart? "~/" p, h.home <|> h.userProfile with
  | some rest, some home => Path.join home rest
  | _, _ => p

def stat (h : Host) (p : String) : Except IoError Node :=
  (find h.root h.cwd p).map (·.2)

def cwdSize (h : Host) : Nat := (h.cwd.flatMap fun n => 0x2F :: nameBytes n).length

/-- What a path names once it is seen from the root. If the way to the working directory is no text,
the path is followed from there. -/
def statAbsolute (h : Host) (p : String) : Except IoError Node :=
  if Path.isAbsolute p || h.cwd.all isText then (h.absolute p).bind h.stat
  else
    match Path.absolute? "." p with
    | none => .error .emptyPath
    | some q =>
      if pathLimit < h.cwdSize + q.utf8ByteSize && !q.toList.contains '\x00' then .error .nameTooLong
      else h.stat q

def isFile (h : Host) (p : String) : Bool :=
  match h.stat p with
  | .ok (.file ..) => true
  | _ => false

def read (h : Host) (p : String) : Except IoError Bytes := do
  match ← h.stat p with
  | .file _ content => return content
  | .dir .. => throw .isADirectory
  | .link _ | .device => return []

def readText (h : Host) (p : String) : Except IoError String := do
  match Text.decode? (← h.read p) with
  | some text => return text
  | none => throw .notText

def newFileMode : Nat := 0o644

/-- Writes a whole file. It is made if its directory is there; a link is followed to where it
points, and a file that was there keeps its mode. -/
def write (h : Host) (p : String) (content : Bytes) : Except IoError Host := do
  match (← arrive h.root h.cwd .write p).place with
  | .vacant dir name =>
    return { h with root := h.root.put (dir ++ [name]) (.file newFileMode content) }
  | .node here (.file mode _) => return { h with root := h.root.put here (.file mode content) }
  | .node _ (.dir ..) => throw .isADirectory
  | .node _ _ => return h

end Host

end Provisioner
