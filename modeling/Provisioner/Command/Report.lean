import Provisioner.Json.Printer
import Provisioner.Provision.Lookup

namespace Provisioner

structure Report where
  containerName : String
  image : String
  container : Option ContainerRecord
  deriving DecidableEq, Repr

namespace Report

open Json

def line (r : Report) : String :=
  match r.container with
  | none => s!"Container {r.containerName} does not exist."
  | some c =>
    let state := if c.isRunning then "running" else "not running"
    s!"Container {r.containerName} exists with ID {c.id} and is {state}."

def recordValue (c : ContainerRecord) : Value :=
  .object [("id", .string c.id), ("name", .string c.name), ("is_running", .bool c.isRunning)]

def value (r : Report) : Value :=
  .object [("container_name", .string r.containerName), ("image", .string r.image),
    ("container", (r.container.map recordValue).getD .null)]

def text (r : Report) (json : Bool) : String := if json then r.value.pretty 0 else r.line

end Report

end Provisioner
