import Provisioner.Text.Blank

namespace Provisioner.Text

def dropOpeningQuote : List Char → List Char
  | '"' :: cs => cs
  | cs => cs

def dropClosingQuote (cs : List Char) : List Char :=
  (dropOpeningQuote cs.reverse).reverse

/-- The ends are trimmed, a quote is dropped from each end that has one, and what shows up below
the quotes is trimmed again. The two quotes are looked at one after the other, so a lone quote
goes too. -/
def valueChars (cs : List Char) : List Char :=
  trimChars (dropClosingQuote (dropOpeningQuote (trimChars cs)))

def value (raw : String) : String := String.ofList (valueChars raw.toList)

end Provisioner.Text
