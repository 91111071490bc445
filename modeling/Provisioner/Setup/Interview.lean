import Provisioner.Setup.Generation
import Provisioner.Setup.Listing

namespace Provisioner

structure Interview where
  attempts : Nat
  workdir : String
  /-- The inventory that an empty answer stands for. -/
  defaultInventory : String := "/home/ubuntu/" ++ Setup.inventoryName

namespace Interview

open Setup

variable (i : Interview) {ω : Type} [Writer ω]

def configPath : String := Files.Path.join i.workdir configFileName

/-- The file to start from: the one that was named, or the one of the last time on request. -/
def startingFile (named : Option String) : SetupOn ω (Option String) := do
  match named with
  | some path => return some path
  | none =>
    if (← host).isFile i.configPath then
      return if ← settle .useFile i.attempts then some i.configPath else none
    else return none

def remarks (parsed : ParsedProperties) : List String :=
  parsed.rejected.map (fun e => s!"Ignoring invalid property: {e.message}") ++
    ["Configuration file parsed."] ++
    (if parsed.properties.isEmpty then ["No configuration properties were specified."]
    else if parsed.properties.isComplete then []
    else ["The configuration file was incomplete or not fully valid."])

def loadFile (path : String) : SetupOn ω Properties := do
  match Properties.load (← host) path with
  | .ok parsed =>
    sayAll (remarks parsed)
    return parsed.properties
  | .error e =>
    say (s!"There was an error with the provided configuration file: {e.message}. " ++
      "This utility will now switch to using interactive input instead.")
    return {}

def loadExisting (named : Option String) : SetupOn ω Properties := do
  match ← i.startingFile named with
  | none => return {}
  | some path => loadFile path

def required : String := "This is a required parameter and does not have a default value."

def askRequired (message what : String) (check : Validator) : SetupOn ω String := do
  let hint := s!"{required} Please provide a valid value."
  match ← askValue { message, hint, attempts := i.attempts } check with
  | some value => return value
  | none =>
    say ""
    say s!"{what} was not provided or was not valid. {required}"
    throw .missing

def fileCheck (h : Host) (p : Property) : Validator := fun value =>
  match h.validateFile p.name value with
  | .ok _ => none
  | .error e => some e.message

def prefixCheck : Validator := fun value =>
  match Net.AddressPrefix.ofString value with
  | .ok _ => none
  | .error e => some e.message

def sshKeyMessage : String :=
  "Please enter the path and name of the SSH private key to access the proxy hosts"

def askSshKey : SetupOn ω String := do
  i.askRequired sshKeyMessage "The SSH private key to access the proxy hosts"
    (fileCheck (← host) .sshKey)

def addressPrefixMessage : String :=
  "Please enter the common prefix of the private IP addresses of the proxy hosts " ++
    "(examples: 172.* or 172.18.* or 172.18.10.*)"

def askAddressPrefix : SetupOn ω String :=
  i.askRequired addressPrefixMessage
    "The common prefix of the private IP addresses of the proxy hosts" prefixCheck

def inventoryRequest : Terminal.Request where
  message := "Please enter the path and name of your Ansible inventory file. " ++
    s!"Simply press ENTER if your inventory is {i.defaultInventory}"
  allowEmpty := true
  attempts := i.attempts

/-- Asks for the path of an inventory that exists. The default takes the place of a value that
was not given or not accepted. -/
def askExistingInventory : SetupOn ω String := do
  let check := fileCheck (← host) .inventory
  let answer ← askValue i.inventoryRequest check
  match answer.filter (· != "") with
  | some path => return path
  | none =>
    if (check i.defaultInventory).isNone then return i.defaultInventory
    else
      say s!"The Ansible inventory file path {i.defaultInventory} is not valid."
      throw .missing

def askInventory : SetupOn ω String := do
  let hasOne ← settle .hasInventory i.attempts
  say ""
  if hasOne then i.askExistingInventory else generateInventory i.workdir i.attempts

def complete (ps : Properties) (p : Property) (answer : SetupOn ω String) :
    SetupOn ω Properties := do
  if ps.contains p then return ps else insert ps p (← answer)

def save (ps : Properties) : SetupOn ω Unit := do
  match ps.persist (← host) i.configPath with
  | .ok host =>
    modify fun d => { d with host }
    say s!"Configuration successfully written to file {configFileName}"
  | .error e =>
    say (s!"The configuration file {configFileName} could not be created due to {e.message}. " ++
      "This utility will continue without persisting its configuration.")

def askMissing (ps : Properties) : SetupOn ω Properties := do
  say "***** Running this utility in interactive mode. *****"
  say (s!"The results will be saved to a configuration file called {configFileName} " ++
    "and located in the current execution directory. This file can be passed to this " ++
    "utility if it needs to be run again.")
  let ps ← complete ps .sshKey i.askSshKey
  say ""
  let ps ← complete ps .addressPrefix i.askAddressPrefix
  say ""
  let ps ← complete ps .inventory i.askInventory
  say ""
  i.save ps
  return ps

def collect (named : Option String) : SetupOn ω Properties := do
  display Listing.banner
  let ps ← i.loadExisting named
  say ""
  if ps.isComplete then return ps else i.askMissing ps

def confirm (ps : Properties) : SetupOn ω (Option InitConfig) := do
  display (Listing.properties ps.toList)
  say ""
  if ← settle .proceed i.attempts then
    match InitConfig.ofProperties ps with
    | .ok config => return some config
    | .error e => throw (.config e)
  else return none

end Interview

end Provisioner
