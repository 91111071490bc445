import Provisioner.Tar.Entry

namespace Provisioner.Tar

def textField (start length : Nat) (block : Bytes) : String :=
  Text.decodeLossy (untilZero (slice start length block))

def headerPath (block : Bytes) : String :=
  let front := if slice 257 8 block == Text.bytes "ustar\x0000" then textField 345 155 block else ""
  let back := textField 0 100 block
  if front.isEmpty then back else front ++ "/" ++ back

/-- The records of extended attributes: a length, a blank, a name, an equals sign, a value and a
line feed. -/
def attributes (fuel : Nat) (bs : Bytes) : List (String × String) :=
  match fuel with
  | 0 => []
  | fuel + 1 =>
    let digits := bs.takeWhile (· != 32)
    match (String.toNat? (Text.decodeLossy digits)) with
    | none => []
    | some n =>
      let record := (bs.take n).drop (digits.length + 1)
      let name := record.takeWhile (· != 61)
      let value := (record.drop (name.length + 1)).dropLast
      if n = 0 then []
      else (Text.decodeLossy name, Text.decodeLossy value) :: attributes fuel (bs.drop n)

structure Pending where
  path : Option String := none
  target : Option String := none

/-- The names in a path, as they stand between its slashes; slashes at the end say nothing. -/
def names (path : String) : List String :=
  (Text.fields '/' (Files.Path.trimEnd path).toList).map String.ofList

def entry (pending : Pending) (block content : Bytes) : Entry :=
  let name := names (pending.path.getD (headerPath block))
  let kind := match entryType block with
    | .directory => .dir
    | .symbolicLink => .link (pending.target.getD (textField 157 100 block))
    | .regular | .contiguous | .sparse => .file content
    | _ => .special
  ⟨name, mode block % 0o10000, kind⟩

def Pending.add (p : Pending) (block content : Bytes) : Pending :=
  match entryType block with
  | .longName => { p with path := some (Text.decodeLossy (untilZero content)) }
  | .longLink => { p with target := some (Text.decodeLossy (untilZero content)) }
  | .localAttributes =>
    let attrs := attributes content.length content
    { path := attrs.lookup "path" <|> p.path, target := attrs.lookup "linkpath" <|> p.target }
  | _ => p

def read (pending : Pending) (bytes : Bytes) : Archive :=
  if bytes.length < blockSize then []
  else
    let block := bytes.take blockSize
    if isEmptyBlock block then []
    else
      let size := (size? block).getD 0
      let rest := bytes.drop blockSize
      let content := rest.take size
      let next := bytes.drop (blockSize + paddedSize size)
      if (entryType block).isExtension then read (pending.add block content) next
      else entry pending block content :: read {} next
termination_by bytes.length
decreasing_by all_goals simp [blockSize] at *; omega

end Provisioner.Tar
