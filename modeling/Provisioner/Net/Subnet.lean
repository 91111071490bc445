import Provisioner.Net.Address
import Provisioner.Text.Lines
import Provisioner.Text.Value

namespace Provisioner.Net

/-- Why a text is no prefix, in the order in which the reasons are looked for. -/
inductive PrefixFault where
  | noOctet
  | tooManyOctets
  | lastNotAsterisk
  | notOneAsterisk
  | octetOutOfRange
  deriving DecidableEq, Repr

def PrefixFault.reason : PrefixFault → String
  | .noOctet => "at least one octet must be specified"
  | .tooManyOctets => "too many octets were specified"
  | .lastNotAsterisk => "the least significant component must be an asterisk"
  | .notOneAsterisk => "exactly one asterisk must be present"
  | .octetOutOfRange => "one or more octets may be out of range"

structure PrefixError where
  text : String
  fault : PrefixFault
  deriving DecidableEq, Repr

def PrefixError.message (e : PrefixError) : String :=
  s!"malformed prefix {e.text}: {e.fault.reason}. Example: 172.* or 172.18.* or 172.18.10.*"

structure AddressPrefix where
  text : String
  deriving DecidableEq, Repr

def octetsInRange (octets : List (List Char)) : Bool :=
  let padded := octets ++ List.replicate (4 - octets.length) ['0']
  (whole? dotted? (['.'].intercalate padded)).isSome

def prefixFault? (cs : List Char) : Option PrefixFault :=
  let parts := Text.fields '.' cs
  if parts.length = 1 then some .noOctet
  else if 4 < parts.length then some .tooManyOctets
  else if parts.getLast? != some ['*'] then some .lastNotAsterisk
  else if cs.count '*' != 1 then some .notOneAsterisk
  else if !octetsInRange parts.dropLast then some .octetOutOfRange
  else none

def AddressPrefix.ofString (raw : String) : Except PrefixError AddressPrefix :=
  let text := Text.value raw
  match prefixFault? text.toList with
  | some fault => .error ⟨text, fault⟩
  | none => .ok ⟨text⟩

end Provisioner.Net
