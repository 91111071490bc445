import Provisioner.Provision.Session

namespace Provisioner.Rehearsal

structure Answers where
  answers : List (Except PromptError Bool) := []
  output : Sink := {}

namespace Answers

def ask (_ : Question) (a : Answers) : Except PromptError Bool × Answers :=
  match a.answers with
  | [] => (.error (.noValidAnswer 0), a)
  | r :: rest => (r, { a with answers := rest })

def console : Console Answers where
  ask
  write bs a := let (r, output) := a.output.write bs; (r, { a with output })
  flush a := let (r, output) := a.output.flush; (r, { a with output })

end Answers

end Provisioner.Rehearsal
