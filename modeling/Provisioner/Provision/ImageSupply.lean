import Provisioner.Provision.Session

namespace Provisioner

inductive ImageStatus where
  | present (matching : Nat)
  | pulled
  deriving DecidableEq, Repr

def Progress.line (p : Progress) : String :=
  " ".intercalate (([p.id, p.status, p.progress].filterMap fun part => part).filter (· != ""))

def ImageListing.line (i : ImageListing) : String :=
  "Found image with name " ++ ", ".intercalate i.tags ++ " and id " ++ i.id

namespace Site

variable {δ κ : Type} (site : Site δ κ)

def sayAll : List String → Run δ κ ProvisionError Unit
  | [] => return
  | line :: lines => do
    site.say line
    sayAll lines

def reportImages (images : List ImageListing) : Run δ κ ProvisionError ImageStatus := do
  site.say s!"Found {images.length} images"
  site.sayAll (images.map ImageListing.line)
  site.say "Docker image is already present and ready to use, so it will not be pulled"
  return .present images.length

def pullImage (r : Image.Reference) : Run δ κ ProvisionError ImageStatus := do
  site.say s!"Pulling image {r.text}"
  let feed : Feed Progress ← site.call (.pullImage r)
  site.sayAll ((feed.items.map Progress.line).filter (· != ""))
  match feed.failure with
  | some e => throw (.imagePull r.text e)
  | none =>
    site.flush.orFail .output
    return .pulled

def ensureImage (r : Image.Reference) : Run δ κ ProvisionError ImageStatus := do
  let reply : Reply (List ImageListing) ← site.call (.listImages r)
  let images ← Site.demand reply (.imagePull r.text)
  if images.isEmpty then site.pullImage r else site.reportImages images

end Site

end Provisioner
