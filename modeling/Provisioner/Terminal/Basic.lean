import Provisioner.Action
import Provisioner.Terminal.Sink
import Provisioner.Text.Lines
import Provisioner.Text.Value

namespace Provisioner

structure TerminalOn (ω : Type) where
  /-- The lines not read yet, as bytes without their line feeds. -/
  lines : List Bytes
  screen : ω
  deriving DecidableEq, Repr

abbrev Terminal := TerminalOn Sink

structure Question where
  message : String
  /-- The answer that an empty line gives. -/
  preset : Option Bool
  attempts : Nat
  deriving DecidableEq, Repr

inductive PromptError where
  | noValidAnswer (attempts : Nat)
  | io (cause : IoError)
  deriving DecidableEq, Repr

def PromptError.message : PromptError → String
  | .noValidAnswer n => s!"no valid y/n input was provided after {n} attempt(s)"
  | .io cause => s!"terminal I/O failed: {cause.message}"

def PromptError.chain : PromptError → List String
  | .noValidAnswer n => [(PromptError.noValidAnswer n).message]
  | .io cause => [(PromptError.io cause).message, cause.message]

/-- A check of a value: nothing if it is accepted, else the reason why not. -/
abbrev Validator := String → Option String

namespace Terminal

def ofInput (input : Bytes) : Terminal := { lines := Text.segments 10 input, screen := {} }

end Terminal

abbrev TerminalOn.ofInput : Bytes → Terminal := Terminal.ofInput

namespace Terminal

variable {ω : Type} [Writer ω]

def write (s : String) : Action (TerminalOn ω) IoError Unit :=
  .ofFun fun t => let (r, screen) := Writer.write (Text.bytes s) t.screen; (r, { t with screen })

def writeLine (s : String) : Action (TerminalOn ω) IoError Unit := write (s ++ "\n")

def flush : Action (TerminalOn ω) IoError Unit :=
  .ofFun fun t => let (r, screen) := Writer.flush t.screen; (r, { t with screen })

def valueOf (line : Bytes) : Except IoError String :=
  match Text.decode? line with
  | some s => .ok (Text.value s)
  | none => .error .notText

def readLine : Action (TerminalOn ω) IoError String :=
  .ofFun fun t =>
    match t.lines with
    | [] => (.ok "", t)
    | line :: rest => (valueOf line, { t with lines := rest })

def ask (text : String) : Action (TerminalOn ω) IoError String := do
  write text
  flush
  readLine

end Terminal

namespace Question

def choices (q : Question) : String :=
  match q.preset with
  | none => "y/n"
  | some true => "Y/n"
  | some false => "y/N"

def text (q : Question) : String := s!"{q.message} ({q.choices}) "

/-- Small letters for the capitals of ASCII. No other letter has a small form that is one of the
letters of an answer. -/
def small (s : String) : String := String.ofList (s.toList.map Char.toLower)

def reading? (q : Question) (value : String) : Option Bool :=
  match small value with
  | "" => q.preset
  | "y" | "yes" => some true
  | "n" | "no" => some false
  | _ => none

end Question

namespace Terminal

variable {ω : Type} [Writer ω]

def askUpTo (q : Question) : Nat → Action (TerminalOn ω) PromptError Bool
  | 0 => do
    (writeLine "").orFail .io
    throw (.noValidAnswer q.attempts)
  | n + 1 => do
    let value ← (ask q.text).orFail .io
    match q.reading? value with
    | some b => return b
    | none => askUpTo q n

def askYesNo (q : Question) : Action (TerminalOn ω) PromptError Bool := askUpTo q q.attempts

structure Request where
  message : String
  hint : String := ""
  allowEmpty : Bool := false
  attempts : Nat

inductive Verdict where
  | taken
  | refused (reason : Option String)

def Request.judge (r : Request) (check : Validator) (value : String) : Verdict :=
  if value.isEmpty then if r.allowEmpty then .taken else .refused none
  else
    match check value with
    | none => .taken
    | some reason => .refused (some reason)

/-- What is shown after a refused value: the reason, and the hint if `left` is not zero. -/
def Request.response (r : Request) (reason : Option String) (left : Nat) : List String :=
  reason.toList ++ (if r.hint.isEmpty || left = 0 then [] else [r.hint])

def writeLines : List String → Action (TerminalOn ω) IoError Unit
  | [] => return
  | s :: ss => do
    writeLine s
    writeLines ss

def askValueUpTo (r : Request) (check : Validator) :
    Nat → Action (TerminalOn ω) IoError (Option String)
  | 0 => do
    writeLine "<value not provided>"
    return none
  | n + 1 => do
    let value ← ask s!"{r.message}: "
    match r.judge check value with
    | .taken => return some value
    | .refused reason =>
      writeLines (r.response reason n)
      askValueUpTo r check n

def askValue (r : Request) (check : Validator) :
    Action (TerminalOn ω) PromptError (Option String) :=
  (askValueUpTo r check r.attempts).orFail .io

def collect (message : String) (check : Validator) (kept : List String) :
    List Bytes → Action (TerminalOn ω) IoError (List String)
  | [] => do
    let _ ← ask s!"{message}: "
    return kept
  | _ :: rest => do
    let value ← ask s!"{message}: "
    if value.isEmpty then return kept
    else
      match check value with
      | none => collect message check (kept ++ [value]) rest
      | some reason =>
        writeLine reason
        collect message check kept rest

def askUntilEmpty (message : String) (check : Validator) :
    Action (TerminalOn ω) PromptError (List String) :=
  .ofFun fun t => ((collect message check [] t.lines).orFail .io).apply t

end Terminal

end Provisioner
