import Provisioner.Net.Address
import Provisioner.Setup.Desk
import Provisioner.Setup.Inventory

namespace Provisioner.Setup

def inventoryName : String := "cloudgate_inventory"

def addressCheck : Validator := fun value =>
  if Net.isAddress value then none else some s!"{value} is not a valid IP address"

inductive Deployment where
  | localTesting
  | production
  deriving DecidableEq, Repr

namespace Deployment

def ofBool (b : Bool) : Deployment := if b then .localTesting else .production

def minProxies : Deployment → Nat
  | .localTesting => 1
  | .production => 3

def notice : Deployment → String
  | .localTesting =>
    "At least one proxy instance is required for local testing and evaluation purposes."
  | .production => "At least three proxy instances are required for general testing and " ++
    "production deployments."

def question (attempts : Nat) : Question :=
  ⟨"Is this proxy deployment for local testing and evaluation?", some false, attempts⟩

end Deployment

def proxyMessage : String := "Proxy private IP address"

variable {ω : Type} [Writer ω]

def askDeployment (attempts : Nat) : SetupOn ω Deployment := do
  match ← (askYesNo (Deployment.question attempts)).outcome with
  | .ok b => return .ofBool b
  | .error _ =>
    say "\nNo valid answer was given, considering this a production deployment."
    return .production

def askProxies (d : Deployment) : SetupOn ω (List String) := do
  say "\nYou will now be prompted for the private IP addresses of all your proxy instances."
  say d.notice
  say ""
  say ("Please enter one address at a time and press ENTER. When you have finished, " ++
    "simply press ENTER.")
  let proxies ← onTerminal
    ((Terminal.askUntilEmpty proxyMessage addressCheck).orFail .prompt)
  if proxies.length < d.minProxies then
    say s!"A minimum of {d.minProxies} private IP addresses must be specified"
    throw .missing
  else return proxies

def monitoringRequest (attempts : Nat) : Terminal.Request where
  message := "Please enter the private IP address of your monitoring instance. " ++
    "Simply press ENTER to leave it empty"
  allowEmpty := true
  attempts

def askMonitoring (attempts : Nat) : SetupOn ω (Option String) := do
  let answer ← askValue (monitoringRequest attempts) addressCheck
  return answer.filter (· != "")

def saveInventory (path : String) (inv : Inventory) : SetupOn ω Unit := do
  match (← host).write path (Text.bytes inv.text) with
  | .ok host =>
    modify fun d => { d with host }
    say s!"Ansible Inventory successfully written to file {path}"
  | .error e =>
    say (s!"The creation of a new Ansible inventory file with name {inventoryName} " ++
      s!"in the current directory failed, due to {e.message}")
    throw .missing

def generateInventory (workdir : String) (attempts : Nat) : SetupOn ω String := do
  say "This utility will create a new inventory file and populate it interactively."
  say (s!"The file will be called {inventoryName} and will be located in the current " ++
    "directory")
  let proxies ← askProxies (← askDeployment attempts)
  say ""
  let monitoring ← askMonitoring attempts
  say ""
  let path := Files.Path.join workdir inventoryName
  saveInventory path ⟨proxies, monitoring⟩
  return path

end Provisioner.Setup
