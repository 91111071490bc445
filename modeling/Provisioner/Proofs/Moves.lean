import Provisioner.Provision.Session

namespace Provisioner

inductive Move where
  | call (call : Call) (answer : call.Answer)
  | question (question : Question) (answer : Except PromptError Bool)
  | write (bytes : Bytes) (result : Except IoError Unit)
  | flush (result : Except IoError Unit)
  | takeStdin (bytes : Bytes)
  | setClock (clock : Clock)

inductive Incident where
  | call (call : Call) (answer : call.Answer)
  | question (question : Question) (answer : Except PromptError Bool)
  | outputFailed (cause : IoError)

def Move.incident? : Move → Option Incident
  | .call c a => some (.call c a)
  | .question q a => some (.question q a)
  | .write _ (.error e) | .flush (.error e) => some (.outputFailed e)
  | .write _ (.ok _) | .flush (.ok _) | .takeStdin _ | .setClock _ => none

def Incident.event? : Incident → Option Event
  | .call c a => some (.call c a)
  | .question q a => some (.question q a)
  | .outputFailed _ => none

def incidents (ms : List Move) : List Incident := ms.filterMap Move.incident?

def recorded (is : List Incident) : List Event := is.filterMap Incident.event?

@[simp] theorem incidents_append (ms ns : List Move) :
    incidents (ms ++ ns) = incidents ms ++ incidents ns := List.filterMap_append

@[simp] theorem recorded_append (is js : List Incident) :
    recorded (is ++ js) = recorded is ++ recorded js := List.filterMap_append

theorem recorded_write (bs : Bytes) (r : Except IoError Unit) (ms : List Move) :
    recorded (incidents (.write bs r :: ms)) = recorded (incidents ms) := by
  cases r with
  | error e | ok => rfl

theorem recorded_flush (r : Except IoError Unit) (ms : List Move) :
    recorded (incidents (.flush r :: ms)) = recorded (incidents ms) := by
  cases r with
  | error e | ok => rfl

namespace Site

variable {δ κ : Type}

/-- A move made at a site, as the daemon and the console answer it. -/
inductive Step (site : Site δ κ) : Session δ κ → Move → Session δ κ → Prop
  | call (c : Call) (s : Session δ κ) :
    Step site s (.call c (site.daemon.answer c s.daemon).1)
      { s with
        daemon := (site.daemon.answer c s.daemon).2
        events := s.events ++ [.call c (site.daemon.answer c s.daemon).1] }
  | question (q : Question) (s : Session δ κ) :
    Step site s (.question q (site.console.ask q s.console).1)
      { s with
        console := (site.console.ask q s.console).2
        events := s.events ++ [.question q (site.console.ask q s.console).1] }
  | write (bs : Bytes) (s : Session δ κ) :
    Step site s (.write bs (site.console.write bs s.console).1)
      { s with console := (site.console.write bs s.console).2 }
  | flush (s : Session δ κ) :
    Step site s (.flush (site.console.flush s.console).1)
      { s with console := (site.console.flush s.console).2 }
  | takeStdin (s : Session δ κ) : Step site s (.takeStdin s.stdin) { s with stdin := [] }
  | setClock (c : Clock) (s : Session δ κ) : Step site s (.setClock c) { s with clock := c }

inductive Path (site : Site δ κ) : Session δ κ → List Move → Session δ κ → Prop
  | nil (s : Session δ κ) : Path site s [] s
  | cons {s t u : Session δ κ} {m : Move} {ms : List Move} (h : site.Step s m t)
    (h' : Path site t ms u) : Path site s (m :: ms) u

variable {site : Site δ κ} {s t u : Session δ κ} {m : Move} {ms ns : List Move}

theorem Step.path (h : site.Step s m t) : site.Path s [m] t := .cons h (.nil t)

theorem Path.append (h : site.Path s ms t) (h' : site.Path t ns u) :
    site.Path s (ms ++ ns) u := by
  induction h with
  | nil s => exact h'
  | cons hm _ ih => exact .cons hm (ih h')

theorem Step.events (h : site.Step s m t) :
    t.events = s.events ++ recorded (incidents [m]) := by
  cases h with
  | call c s => rfl
  | question q s => rfl
  | write bs s =>
    rw [recorded_write]
    exact (List.append_nil _).symm
  | flush s =>
    rw [recorded_flush]
    exact (List.append_nil _).symm
  | takeStdin s | setClock c s => exact (List.append_nil _).symm

/-- The record of a session grows by what the incidents on the path leave. -/
theorem Path.events (h : site.Path s ms t) :
    t.events = s.events ++ recorded (incidents ms) := by
  induction h with
  | nil s => exact (List.append_nil _).symm
  | cons hm _ ih =>
    rw [ih, hm.events, List.append_assoc, ← recorded_append, ← incidents_append]
    rfl

end Site

end Provisioner
