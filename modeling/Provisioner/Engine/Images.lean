import Provisioner.Daemon.Call
import Provisioner.Engine.Shape

namespace Provisioner.Engine

namespace Shape

def platform : Shape :=
  record (each ["architecture", "os", "os.version"] text ++ [maybe "os.features" texts,
    maybe "variant" text])

def descriptor : Shape :=
  record
    [maybe "mediaType" text, maybe "digest" text, maybe "size" integer, maybe "urls" texts,
     maybe "annotations" labels, maybe "data" text, maybe "platform" platform,
     maybe "artifactType" text]

def imageData : Shape :=
  object
    [given "Platform" platform, given "Containers" texts,
     given "Size" (object [given "Unpacked" integer] ["Unpacked"] ())]
    ["Platform", "Containers", "Size"] ()

def manifest : Shape :=
  object
    [given "ID" text, given "Descriptor" descriptor, given "Available" flag,
     given "Size" (object [given "Total" integer, given "Content" integer] ["Total", "Content"] ()),
     maybe "Kind" (choice ["image", "attestation", "unknown"]), maybe "ImageData" imageData,
     maybe "AttestationData" (object [given "For" text] ["For"] ())]
    ["ID", "Descriptor", "Available", "Size"] ()

end Shape

open Shape Json

def image : Draft → Except Fault ImageListing :=
  object
    [taken "Id" Draft.asString fun id i => { i with id },
     given "ParentId" text,
     taken "RepoTags" (optional (list Draft.asString)) fun tags i =>
       { i with tags := tags.getD [] },
     maybe "RepoDigests" texts, given "Created" integer, given "Size" integer,
     given "SharedSize" integer, maybe "VirtualSize" integer, maybe "Labels" labels,
     given "Containers" integer, maybe "Manifests" (listOf manifest),
     maybe "Descriptor" descriptor]
    ["Id", "ParentId", "RepoTags", "RepoDigests", "Created", "Size", "SharedSize", "Labels",
     "Containers"]
    ⟨"", []⟩

/-- A line of progress: a message, or an error that ends the stream. -/
def progress : Draft → Except Fault (Except String Progress) :=
  let onMessage (f : Option String → Progress → Progress) (s : Option String)
      (r : Option String × Progress) := (r.1, f s r.2)
  let string := optional Draft.asString
  let read := object
    [taken "id" string (onMessage fun id p => { p with id }),
     taken "error" string fun e r => (e, r.2),
     maybe "errorDetail" (record [maybe "code" integer, maybe "message" text]),
     taken "status" string (onMessage fun status p => { p with status }),
     taken "progress" string (onMessage fun progress p => { p with progress }),
     maybe "progressDetail" (record [maybe "current" integer, maybe "total" integer])]
    [] (none, {})
  fun d => do
    match ← read d with
    | (some e, _) => return .error e
    | (none, p) => return .ok p

end Provisioner.Engine
