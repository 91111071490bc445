import Provisioner.Property.Basic
import Provisioner.Settings.File

namespace Provisioner

structure ParsedProperties where
  properties : Properties := {}
  rejected : List ConfigError := []
  unknown : List String := []

namespace Properties

def cutAt? (sep : Char) (cs : List Char) : Option (List Char × List Char) :=
  match cs.dropWhile (· != sep) with
  | [] => none
  | _ :: after => some (cs.takeWhile (· != sep), after)

/-- A line is cut at its first colon; at its first equals sign if it has no colon or the colon
comes first of all. -/
def cut? (line : List Char) : Option (List Char × List Char) :=
  match cutAt? ':' line with
  | some (c :: cs, after) => some (c :: cs, after)
  | _ => cutAt? '=' line

def pair? (line : List Char) : Option (String × String) :=
  match cut? line with
  | none => none
  | some (before, after) =>
    let name := Text.valueChars before
    if name.isEmpty then none
    else some (String.ofList name, String.ofList (Text.valueChars after))

def accept (h : Host) (parsed : ParsedProperties) (entry : String × String) : ParsedProperties :=
  match parsed.properties.insert h entry.1 entry.2 with
  | .ok ps => { parsed with properties := ps }
  | .error (.unknownProperty name) => { parsed with unknown := parsed.unknown ++ [name] }
  | .error e => { parsed with rejected := parsed.rejected ++ [e] }

def parse (h : Host) (content : String) : ParsedProperties :=
  ((Text.lines content.toList).filterMap pair?).foldl (accept h) {}

def load (h : Host) (path : String) : Except ConfigError ParsedProperties :=
  match h.readText path with
  | .ok content => .ok (parse h content)
  | .error e => .error (.io path e)

def text (ps : Properties) : String :=
  String.join (ps.toList.map fun e => s!"{e.1}: {e.2}\n")

def persist (ps : Properties) (h : Host) (path : String) : Except ConfigError Host :=
  match h.write path (Text.bytes ps.text) with
  | .ok h => .ok h
  | .error e => .error (.io path e)

end Properties

def Settings.load (h : Host) (path : String) : Except ConfigError Settings :=
  match h.readText path with
  | .error e => .error (.io path e)
  | .ok content =>
    match Settings.ofText content with
    | .error fault => .error (.unreadableSettings fault)
    | .ok s =>
      match s.flaw? with
      | some flaw => .error (.flawedSettings flaw)
      | none => .ok s

end Provisioner
