import Provisioner.Daemon.Call
import Provisioner.Json.Printer
import Provisioner.Json.Reader

namespace Provisioner.Engine

inductive Method where
  | get
  | post
  | put
  | delete
  deriving DecidableEq, Repr

def Method.name : Method → String
  | .get => "GET"
  | .post => "POST"
  | .put => "PUT"
  | .delete => "DELETE"

inductive Parameter where
  | text (s : String)
  | flag (b : Bool)
  /-- Names of properties, each with the values that are wanted. -/
  | filters (wanted : List (String × List String))
  deriving DecidableEq, Repr

inductive Body where
  | empty
  | json (value : Json.Value)
  | upload (content : Upload)

structure Request where
  method : Method
  path : String
  query : List (String × Parameter) := []
  body : Body := .empty

structure Response where
  status : Nat
  body : Bytes
  deriving DecidableEq, Repr

def leftover : ClientError := .io (.other "bytes remaining on stream")

structure Transport (τ : Type) where
  exchange : Request → τ → Response × τ

namespace Response

def upgraded : Nat := 101

def succeeded (r : Response) : Bool :=
  (200 ≤ r.status && r.status < 300) || r.status == 304 || r.status == upgraded

def bodiless : List Nat := [upgraded, 204, 304]

def content (r : Response) : Bytes := if bodiless.contains r.status then [] else r.body

def message : Json.Draft → Except Json.Fault String :=
  Json.readRecordWith [⟨"message", fun d _ => d.asString⟩] ["message"] ["message"] ""

/-- What an error response says: its message, or all of its text if that is no record with one.
A text that could be the beginning of one says nothing. -/
def complaint (r : Response) : Except ClientError String :=
  let text := Text.decodeLossy r.content
  match Json.decode message text with
  | .ok said => .ok said
  | .error .cut => if text.isEmpty then .ok "" else .error (.unreadable .cut)
  | .error _ => .ok text

def accept (r : Response) : Except ClientError Bytes :=
  if r.succeeded then .ok r.content else r.complaint >>= fun said => .error (.status r.status said)

end Response

end Provisioner.Engine
