import Provisioner.Files.Host
import Provisioner.Property.File
import Provisioner.Terminal.Basic

namespace Provisioner

structure Desk (ω : Type := Sink) where
  terminal : TerminalOn ω
  host : Host

inductive Matter where
  | useFile
  | hasInventory
  | proceed
  deriving DecidableEq, Repr

def configFileName : String := "ansible_container_init_config"

namespace Matter

def question : Matter → String
  | .useFile => s!"Found existing configuration file {configFileName}. " ++
    "Do you wish to use this file?"
  | .hasInventory => "Do you have an existing Ansible inventory file?"
  | .proceed => "Do you wish to proceed?"

def preset : Matter → Option Bool
  | .useFile | .proceed => some true
  | .hasInventory => none

def context : Matter → String
  | .useFile =>
    "no clear indication was given about whether to use the existing configuration file"
  | .hasInventory => "no indication was given about whether an Ansible inventory file exists or " ++
    "should be created interactively"
  | .proceed => "confirmation could not be obtained"

end Matter

inductive SetupError where
  | output (cause : IoError)
  | prompt (cause : PromptError)
  | unsettled (matter : Matter) (cause : PromptError)
  | config (cause : ConfigError)
  | missing
  deriving DecidableEq, Repr

def SetupError.chain : SetupError → List String
  | .output cause => [cause.message]
  | .prompt cause => cause.chain
  | .unsettled matter cause => matter.context :: cause.chain
  | .config cause => cause.chain
  | .missing => ["missing required configuration"]

abbrev SetupOn (ω α : Type) := Action (Desk ω) SetupError α

abbrev Setup (α : Type) := SetupOn Sink α

namespace Setup

variable {ω ε α : Type}

def onTerminal (a : Action (TerminalOn ω) ε α) : Action (Desk ω) ε α :=
  a.on Desk.terminal fun terminal d => { d with terminal }

def host : Action (Desk ω) ε Host := .ofFun fun d => (.ok d.host, d)

def insert (ps : Properties) (p : Property) (value : String) : SetupOn ω Properties := do
  match ps.insert (← host) p.name value with
  | .ok ps => return ps
  | .error e => throw (.config e)

variable [Writer ω]

def display (text : String) : SetupOn ω Unit := onTerminal ((Terminal.write text).orFail .output)

def say (text : String) : SetupOn ω Unit := onTerminal ((Terminal.writeLine text).orFail .output)

def sayAll : List String → SetupOn ω Unit
  | [] => return
  | line :: lines => do
    say line
    sayAll lines

def askYesNo (q : Question) : Action (Desk ω) PromptError Bool := onTerminal (Terminal.askYesNo q)

def settle (m : Matter) (attempts : Nat) : SetupOn ω Bool :=
  (askYesNo ⟨m.question, m.preset, attempts⟩).orFail (.unsettled m)

def askValue (r : Terminal.Request) (check : Validator) : SetupOn ω (Option String) :=
  onTerminal ((Terminal.askValue r check).orFail .prompt)

end Setup

end Provisioner
