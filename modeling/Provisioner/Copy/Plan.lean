import Provisioner.Copy.Source

namespace Provisioner.Copy

structure Destination where
  path : String
  stat : Option PathStat
  deriving DecidableEq, Repr

inductive Root where
  | named (name : String)
  | contents
  deriving DecidableEq, Repr

structure Plan where
  extractDir : String
  root : Root
  deriving DecidableEq, Repr

def Plan.renaming (path : String) : Plan :=
  let trimmed := Files.Path.trimEnd path
  match Text.splitAtLast? '/' trimmed.toList with
  | none => ⟨".", .named trimmed⟩
  | some ([], base) => ⟨"/", .named (String.ofList base)⟩
  | some (parent, base) => ⟨String.ofList parent, .named (String.ofList base)⟩

def Plan.inside (o : Origin) (dir : String) : Plan :=
  ⟨dir, if o.contentsOnly then .contents else .named o.baseName⟩

def Plan.make (o : Origin) (d : Destination) : Except CopyError Plan :=
  if o.assertsDir && !o.isDir then .error (.sourceNotDirectory o.path)
  else
    match d.stat.map PathStat.kind with
    | some .device => .error (.invalidDestination d.path .device)
    | some .irregular => .error (.invalidDestination d.path .irregular)
    | some .directory => .ok (.inside o d.path)
    | some .file | some .symlink =>
      if o.isDir then .error (.directoryOverFile o.path d.path) else .ok (.renaming d.path)
    | none =>
      if Files.Path.endsWithSlash d.path && !o.isDir then .error (.destinationDirMissing d.path)
      else .ok (.renaming d.path)

end Provisioner.Copy
