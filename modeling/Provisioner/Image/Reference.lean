import Provisioner.Text.Lines

namespace Provisioner.Image

structure Reference where
  text : String
  deriving DecidableEq, Repr

def latest : String := "latest"

/-- The text before the tag, and the tag. A colon with a slash after it belongs to the address of
a registry. A digest stands in place of a tag, and such a reference is not taken apart. -/
def Reference.split (r : Reference) : String × Option String :=
  let cs := r.text.toList
  if cs.contains '@' then (r.text, none)
  else
    match Text.splitAtLast? ':' cs with
    | some (repository, tag) =>
      if tag.contains '/' then (r.text, some latest)
      else (String.ofList repository, some (String.ofList tag))
    | none => (r.text, some latest)

end Provisioner.Image
