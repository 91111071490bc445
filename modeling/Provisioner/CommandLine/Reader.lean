import Provisioner.CommandLine.Level

namespace Provisioner.CommandLine

structure Given where
  settings : Option String := none
  configFile : Option String := none
  json : Bool := false
  deriving DecidableEq, Repr

/-- An option that waits for its value, or that has got it and is yet to be looked at. -/
inductive Pending where
  | nothing
  | awaiting (o : Opt)
  | holding (o : Opt) (value : String)
  deriving DecidableEq, Repr

namespace Given

def fill (old : Option String) (value : String) : Except Refusal (Option String) :=
  if old.isSome then .error .repeated
  else if value == "" then .error .valueMissing
  else .ok (some value)

def set (g : Given) (o : Opt) (value : String) : Except Refusal Given :=
  match o with
  | .settings => do return { g with settings := ← fill g.settings value }
  | .configFile => do return { g with configFile := ← fill g.configFile value }
  | _ => .error .surplusValue

def flag (g : Given) : Opt → Except Refusal Given
  | .help => .error .help
  | .version => .error .version
  | .json => if g.json then .error .repeated else .ok { g with json := true }
  | _ => .error .valueMissing

def settle (g : Given) : Pending → Except Refusal Given
  | .nothing => .ok g
  | .awaiting _ => .error .valueMissing
  | .holding o value => g.set o value

def orFrom (g : Given) (env : Option String) : Except Refusal Given :=
  if g.settings.isSome then .ok g
  else match env with
    | none => .ok g
    | some value => g.set .settings value

end Given

/-- What one level comes to: what was given, what is pending, and the heading that ends it with
the arguments after it. -/
structure Scanned where
  given : Given
  pending : Pending
  heading : Option (Heading × List String)

def misplaced (l : Level) (closed : Bool) (arg : String) : Refusal :=
  match l with
  | .task _ => .argumentUnknown
  | .program => if closed && (l.heading? arg).isSome then .argumentUnknown else .taskUnknown

def take (l : Level) (g : Given) (p : Pending) (name : String) (value : Option String) :
    Except Refusal (Given × Pending) :=
  match l.ofLong? name with
  | none => .error .argumentUnknown
  | some o =>
    match o.takesValue, value with
    | true, some v => do return (← (← g.settle p).set o v, .nothing)
    | true, none => do return (← g.settle p, .awaiting o)
    | false, some _ => .error .surplusValue
    | false, none => do return (← (← g.settle p).flag o, .nothing)

/-- Takes a cluster of short options. Each of them ends the reading, so the first one decides. -/
def takeShort (l : Level) (g : Given) (p : Pending) (c : Char) : Except Refusal Given :=
  match l.ofShort? c with
  | none => .error .argumentUnknown
  | some o => do (← g.settle p).flag o

def headingHere? (l : Level) (p : Pending) (arg : String) : Option Heading :=
  match p with
  | .awaiting _ => none
  | _ => l.heading? arg

def scan (l : Level) (g : Given) (p : Pending) (closed : Bool) :
    List String → Except Refusal Scanned
  | [] => .ok ⟨g, p, none⟩
  | arg :: rest =>
    if closed then .error (misplaced l closed arg)
    else
      match headingHere? l p arg with
      | some h => .ok ⟨g, p, some (h, rest)⟩
      | none =>
        match Word.ofText arg with
        | .dashes => scan l g p true rest
        | .long name value => do
          let (g, p) ← take l g p name value
          scan l g p closed rest
        | .short c => do
          let g ← takeShort l g p c
          scan l g .nothing closed rest
        | .plain =>
          match p with
          | .awaiting o => scan l g (.holding o arg) closed rest
          | _ => .error (misplaced l closed arg)

def scanAll (name : TaskName) (args : List String) : Except Refusal Given := do
  let s ← scan (.task name) {} .nothing false args
  s.given.settle s.pending

/-- What a request for help comes to: at most one heading may follow it. -/
def readHelp : List String → Refusal
  | [] => .help
  | [name] => if (Heading.ofText? name).isSome then .help else .taskUnknown
  | _ => .taskUnknown

def Given.task (g : Given) : TaskName → Task
  | .init => .init g.configFile
  | .check => .check
  | .status => .status g.json

/-- Reads a command line. `env` is the settings file that the environment names; one on the
command line comes before it, and one among the arguments of the task before all. -/
def read (env : Option String) (args : List String) : Except Refusal Invocation := do
  let s ← scan .program {} .nothing false args
  match s.heading with
  | none =>
    let g ← (← s.given.settle s.pending).orFrom env
    throw (if g.settings.isSome then .taskMissing else .nothingAsked)
  | some (.help, rest) => throw (readHelp rest)
  | some (.task name, rest) =>
    let inner ← scanAll name rest
    let _ ← inner.orFrom env
    let outer ← (← s.given.settle s.pending).orFrom env
    return ⟨inner.task name, inner.settings <|> outer.settings⟩

end Provisioner.CommandLine
