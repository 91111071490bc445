namespace Provisioner.CommandLine

inductive Task where
  /-- Sets the container up, starting from a property file if one is named. -/
  | init (configFile : Option String)
  | check
  | status (json : Bool)
  deriving DecidableEq, Repr

structure Invocation where
  task : Task
  settings : Option String
  deriving DecidableEq, Repr

inductive Refusal where
  | help
  | version
  | nothingAsked
  | taskMissing
  | taskUnknown
  | argumentUnknown
  | valueMissing
  | repeated
  | surplusValue
  deriving DecidableEq, Repr

def Refusal.exitStatus : Refusal → Nat
  | .help | .version => 0
  | _ => 2

end Provisioner.CommandLine
