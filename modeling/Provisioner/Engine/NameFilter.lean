namespace Provisioner.Engine

def special : List Char :=
  ['\\', '.', '+', '*', '?', '(', ')', '|', '[', ']', '{', '}', '^', '$']

def escapeChar (c : Char) : List Char := if special.contains c then ['\\', c] else [c]

def exactNameChars (name : List Char) : List Char :=
  ['^', '/'] ++ name.flatMap escapeChar ++ ['$']

def exactNameFilter (name : String) : String := String.ofList (exactNameChars name.toList)

end Provisioner.Engine
