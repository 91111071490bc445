namespace Provisioner.Json

inductive Value where
  | null
  | bool (b : Bool)
  | string (s : String)
  | array (items : List Value)
  | object (members : List (String × Value))
  deriving Inhabited

def hexPair (n : Nat) : List Char := [Nat.digitChar (n / 16), Nat.digitChar (n % 16)]

def escapeChar (c : Char) : List Char :=
  match c with
  | '"' => ['\\', '"']
  | '\\' => ['\\', '\\']
  | '\x08' => ['\\', 'b']
  | '\x0c' => ['\\', 'f']
  | '\n' => ['\\', 'n']
  | '\r' => ['\\', 'r']
  | '\t' => ['\\', 't']
  | c => if c.toNat < 0x20 then ['\\', 'u', '0', '0'] ++ hexPair c.toNat else [c]

def quote (s : String) : String := String.ofList ('"' :: s.toList.flatMap escapeChar ++ ['"'])

mutual

def Value.compact : Value → String
  | .null => "null"
  | .bool b => if b then "true" else "false"
  | .string s => quote s
  | .array items => "[" ++ compactItems items ++ "]"
  | .object members => "\x7b" ++ compactMembers members ++ "\x7d"

def compactItems : List Value → String
  | [] => ""
  | [v] => v.compact
  | v :: vs => v.compact ++ "," ++ compactItems vs

def compactMembers : List (String × Value) → String
  | [] => ""
  | [m] => quote m.1 ++ ":" ++ m.2.compact
  | m :: ms => quote m.1 ++ ":" ++ m.2.compact ++ "," ++ compactMembers ms

end

def newline (depth : Nat) : String := "\n" ++ String.ofList (List.replicate (2 * depth) ' ')

mutual

/-- The text of a value with one item or member to a line, two blanks further in for each depth. -/
def Value.pretty (depth : Nat) : Value → String
  | .null => "null"
  | .bool b => if b then "true" else "false"
  | .string s => quote s
  | .array [] => "[]"
  | .array items => "[" ++ prettyItems (depth + 1) items ++ newline depth ++ "]"
  | .object [] => "\x7b\x7d"
  | .object members => "\x7b" ++ prettyMembers (depth + 1) members ++ newline depth ++ "\x7d"

def prettyItems (depth : Nat) : List Value → String
  | [] => ""
  | [v] => newline depth ++ v.pretty depth
  | v :: vs => newline depth ++ v.pretty depth ++ "," ++ prettyItems depth vs

def prettyMembers (depth : Nat) : List (String × Value) → String
  | [] => ""
  | [m] => newline depth ++ quote m.1 ++ ": " ++ m.2.pretty depth
  | m :: ms =>
    newline depth ++ quote m.1 ++ ": " ++ m.2.pretty depth ++ "," ++ prettyMembers depth ms

end

end Provisioner.Json
