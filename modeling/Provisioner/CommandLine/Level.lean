import Provisioner.CommandLine.Invocation
import Provisioner.Files.Path
import Provisioner.Text.Lines

namespace Provisioner.CommandLine

inductive Opt where
  | settings
  | configFile
  | json
  | help
  | version
  deriving DecidableEq, Repr

namespace Opt

def long : Opt → String
  | .settings => "settings"
  | .configFile => "util-config-file"
  | .json => "json"
  | .help => "help"
  | .version => "version"

def short? : Opt → Option Char
  | .help => some 'h'
  | .version => some 'V'
  | _ => none

def takesValue : Opt → Bool
  | .settings | .configFile => true
  | _ => false

end Opt

inductive TaskName where
  | init
  | check
  | status
  deriving DecidableEq, Repr

inductive Heading where
  | task (name : TaskName)
  | help
  deriving DecidableEq, Repr

def Heading.text : Heading → String
  | .task .init => "init"
  | .task .check => "check"
  | .task .status => "status"
  | .help => "help"

def Heading.ofText? (s : String) : Option Heading :=
  [Heading.task .init, .task .check, .task .status, .help].find? (·.text == s)

inductive Level where
  | program
  | task (name : TaskName)
  deriving DecidableEq, Repr

namespace Level

def opts : Level → List Opt
  | .program => [.settings, .help, .version]
  | .task .init => [.configFile, .settings, .help]
  | .task .status => [.json, .settings, .help]
  | .task .check => [.settings, .help]

def heading? : Level → String → Option Heading
  | .program, s => Heading.ofText? s
  | .task _, _ => none

def ofLong? (l : Level) (name : String) : Option Opt := l.opts.find? (·.long == name)

def ofShort? (l : Level) (c : Char) : Option Opt := l.opts.find? (·.short? == some c)

end Level

inductive Word where
  /-- After two dashes alone nothing is an option. -/
  | dashes
  | long (name : String) (value : Option String)
  /-- A cluster of short options, of which the first is given. -/
  | short (first : Char)
  | plain
  deriving DecidableEq, Repr

def Word.ofText (s : String) : Word :=
  match s.toList with
  | ['-', '-'] => .dashes
  | '-' :: '-' :: cs =>
    let name := String.ofList (cs.takeWhile (· != '='))
    match cs.dropWhile (· != '=') with
    | [] => .long name none
    | _ :: value => .long name (some (String.ofList value))
  | '-' :: c :: _ => .short c
  | _ => .plain

end Provisioner.CommandLine
