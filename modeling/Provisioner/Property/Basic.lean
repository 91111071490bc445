import Provisioner.Files.Host
import Provisioner.Json.Draft
import Provisioner.Net.Subnet
import Provisioner.Settings.Basic
import Provisioner.Text.Quoted

namespace Provisioner

inductive Property where
  /-- Path of the private key that reaches the proxy hosts. -/
  | sshKey
  /-- Common prefix of the private addresses of the proxy hosts. -/
  | addressPrefix
  /-- Path of the Ansible inventory. -/
  | inventory
  deriving DecidableEq, Repr

namespace Property

def name : Property → String
  | .sshKey => "ssh_key_path_on_host"
  | .addressPrefix => "proxy_ip_address_prefix"
  | .inventory => "ansible_inventory_path_on_host"

def all : List Property := [.sshKey, .addressPrefix, .inventory]

def byName : List Property := [.inventory, .addressPrefix, .sshKey]

def ofName? (name : String) : Option Property := all.find? (·.name == name)

end Property

inductive ConfigError where
  | io (path : String) (cause : IoError)
  | flawedSettings (flaw : Settings.Flaw)
  | unreadableSettings (fault : Json.Fault)
  | unknownProperty (name : String)
  | missingProperty (property : Property)
  | invalidProperty (name value reason : String)
  deriving DecidableEq, Repr

namespace ConfigError

def message : ConfigError → String
  | .io path cause => s!"I/O error at {path}: {cause.message}"
  | .flawedSettings flaw => s!"invalid configuration: {flaw.message}"
  | .unreadableSettings fault => s!"serialization error: {fault.message}"
  | .unknownProperty name => s!"invalid configuration: unknown property {name}"
  | .missingProperty p => s!"missing required configuration property {p.name}"
  | .invalidProperty name value reason =>
    s!"invalid value {Text.quoted value} for property {name}: {reason}"

def chain (e : ConfigError) : List String :=
  match e with
  | .io _ cause => [e.message, cause.message]
  | .unreadableSettings fault => [e.message, fault.message]
  | _ => [e.message]

end ConfigError

/-- The path as entered, with the home directory in place of a leading `~/`, seen from the root. -/
def Host.resolvePath (h : Host) (raw : String) : Except ConfigError String :=
  let path := h.expand raw
  match h.absolute path with
  | .ok p => .ok p
  | .error e => .error (.io path e)

def Host.validateFile (h : Host) (name raw : String) : Except ConfigError String := do
  let path ← h.resolvePath raw
  match h.statAbsolute (h.expand raw) with
  | .error e => throw (.invalidProperty name raw s!"file is invalid: {e.message}")
  | .ok node =>
    if node.isDir then throw (.invalidProperty name raw "path is a directory, not a file")
    else return path

def Property.check (p : Property) (h : Host) (value : String) : Except ConfigError String :=
  match p with
  | .addressPrefix =>
    match Net.AddressPrefix.ofString value with
    | .ok net => .ok net.text
    | .error e => .error (.invalidProperty p.name value e.message)
  | .sshKey | .inventory => h.validateFile p.name value

structure Properties where
  sshKey : Option String := none
  addressPrefix : Option String := none
  inventory : Option String := none
  deriving DecidableEq, Repr

namespace Properties

def get (ps : Properties) : Property → Option String
  | .sshKey => ps.sshKey
  | .addressPrefix => ps.addressPrefix
  | .inventory => ps.inventory

def set (ps : Properties) (p : Property) (value : String) : Properties :=
  match p with
  | .sshKey => { ps with sshKey := some value }
  | .addressPrefix => { ps with addressPrefix := some value }
  | .inventory => { ps with inventory := some value }

def contains (ps : Properties) (p : Property) : Bool := (ps.get p).isSome

def isEmpty (ps : Properties) : Bool := Property.all.all fun p => !ps.contains p

def isComplete (ps : Properties) : Bool := Property.all.all ps.contains

def toList (ps : Properties) : List (String × String) :=
  Property.byName.filterMap fun p => (ps.get p).map fun v => (p.name, v)

def insert (ps : Properties) (h : Host) (name value : String) : Except ConfigError Properties :=
  match Property.ofName? name with
  | none => .error (.unknownProperty name)
  | some p => do return ps.set p (← p.check h value)

end Properties

structure InitConfig where
  sshKey : String
  addressPrefix : String
  inventory : String
  deriving DecidableEq, Repr

def Properties.required (ps : Properties) (p : Property) : Except ConfigError String :=
  match ps.get p with
  | some v => .ok v
  | none => .error (.missingProperty p)

namespace InitConfig

def ofProperties (ps : Properties) : Except ConfigError InitConfig := do
  let sshKey ← ps.required .sshKey
  let addressPrefix ← ps.required .addressPrefix
  let inventory ← ps.required .inventory
  return ⟨sshKey, addressPrefix, inventory⟩

def inventoryFileName (c : InitConfig) : String := (Files.Path.fileName? c.inventory).getD ""

end InitConfig

end Provisioner
