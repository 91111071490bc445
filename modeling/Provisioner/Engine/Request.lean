import Provisioner.Engine.Exchange
import Provisioner.Engine.NameFilter
import Provisioner.Engine.Target

namespace Provisioner.Engine

open Json

def flags (bs : List (String × Bool)) : List (String × Value) := bs.map fun b => (b.1, .bool b.2)

def creationBody (s : ContainerSpec) : Value :=
  let policy := Value.object [("Name", .string "unless-stopped")]
  .object [("Image", .string s.image.text), ("Tty", .bool s.tty),
    ("HostConfig", .object [("RestartPolicy", policy)])]

def execBody (s : ExecSpec) : Value :=
  .object (flags [("AttachStdout", true), ("AttachStderr", true), ("Tty", s.tty)] ++
    [("Cmd", .array (s.command.map .string)), ("User", .string s.user),
     ("WorkingDir", .string s.workingDir)])

/-- The parameters of a pull. With no tag the source alone says which image is meant. -/
def pullQuery (r : Image.Reference) : List (String × Parameter) :=
  ("fromImage", .text r.split.1) :: (r.split.2.map fun tag => ("tag", Parameter.text tag)).toList

/-- A request about what a text names. Parameters of its own take the place of those that the text
has. -/
def about (method : Method) (text : String) (query : List (String × Parameter)) (body : Body) :
    Request :=
  let target := Target.ofText text
  let written := target.query.map fun p => (p.1, Parameter.text p.2)
  ⟨method, target.path, if query.isEmpty then written else query, body⟩

def container (id rest : String) : String := "/containers/" ++ id ++ rest

def request : Call → Request
  | .ping => ⟨.get, "/_ping", [], .empty⟩
  | .listImages r =>
    ⟨.get, "/images/json", [("filters", .filters [("reference", [r.text])])], .empty⟩
  | .pullImage r => ⟨.post, "/images/create", pullQuery r, .empty⟩
  | .listContainers name =>
    ⟨.get, "/containers/json",
      [("all", .flag true), ("filters", .filters [("name", [exactNameFilter name])])], .empty⟩
  | .createContainer s =>
    ⟨.post, "/containers/create", [("name", .text s.name)], .json (creationBody s)⟩
  | .startContainer id => about .post (container id "/start") [] .empty
  | .removeContainer id => about .delete (container id "") [("force", .flag true)] .empty
  | .statPath id path => about .get (container id "/archive") [("path", .text path)] .empty
  | .uploadArchive id dir content =>
    about .put (container id "/archive")
      [("path", .text dir), ("noOverwriteDirNonDir", .flag true)] (.upload content)
  | .inspectContainer id => about .get (container id "/json") [] .empty
  | .createExec id s => about .post (container id "/exec") [] (.json (execBody s))
  | .startExec session tty =>
    about .post ("/exec/" ++ session ++ "/start") [] (.json (.object (flags [("Tty", tty)])))

end Provisioner.Engine
