import Provisioner.Daemon.Call

namespace Provisioner.Rehearsal

inductive Mishap where
  | said (text : String)
  | broke (text : String)
  deriving DecidableEq, Repr

def Mishap.during (m : Mishap) (op : Operation) : DaemonError :=
  match m with
  | .said text => .daemon op text
  | .broke text => .io op (.other text)

structure Script where
  mishaps : List (Operation × Mishap) := []
  /-- How many more calls to see whether there is an answer fail. -/
  failedPings : Nat := 0
  /-- With which of these calls an interrupt comes; zero once it has come. -/
  interruptOnPing : Option Nat := none
  interrupted : Bool := false
  images : List ImageListing := []
  pull : List (Except Mishap Progress) := []
  containers : List ContainerListing := []
  createdIds : List String := []
  stats : List (String × Except Mishap PathKind) := []
  session : String := "exec-1"
  output : List (Except Mishap Bytes) := []

namespace Script

variable {α : Type}

def feed (op : Operation) : List (Except Mishap α) → Feed α
  | [] => {}
  | .error m :: _ => { failure := some (m.during op) }
  | .ok a :: rest => let f := feed op rest; { f with items := a :: f.items }

def orMishap (s : Script) (op : Operation) (good : Reply α × Script) : Reply α × Script :=
  match s.mishaps.lookup op with
  | some m => (.error (m.during op), s)
  | none => good

def countPing (s : Script) : Script :=
  match s.interruptOnPing with
  | none => s
  | some n => { s with interruptOnPing := some (n - 1), interrupted := s.interrupted || n == 1 }

def ping (s : Script) : Reply Unit × Script :=
  let s := s.countPing
  match s.failedPings with
  | 0 => (.ok (), s)
  | n + 1 => (.error (.daemon .ping s!"ping failure, {n} left"), { s with failedPings := n })

def create (s : Script) : String × Script :=
  let id := s.createdIds.headD "new-container"
  (id, { s with createdIds := s.createdIds.tail, containers := s.containers ++ [⟨id, "created"⟩] })

def started (id : String) (c : ContainerListing) : ContainerListing :=
  if c.id == id then { c with state := "running" } else c

def start (s : Script) (id : String) : Script :=
  { s with containers := s.containers.map (started id) }

def remove (s : Script) (id : String) : Script :=
  { s with containers := s.containers.filter (·.id != id) }

def stat (s : Script) (path : String) : Reply (Option PathStat) :=
  match s.stats.lookup path with
  | none => .ok none
  | some (.ok kind) => .ok (some { kind })
  | some (.error m) => .error (m.during .statPath)

def answer : (c : Call) → Script → c.Answer × Script
  | .ping, s => s.ping
  | .listImages _, s => s.orMishap .listImages (.ok s.images, s)
  | .pullImage _, s => (feed .pullImage s.pull, s)
  | .listContainers _, s => s.orMishap .listContainers (.ok s.containers, s)
  | .createContainer _, s => s.orMishap .createContainer (.ok s.create.1, s.create.2)
  | .startContainer id, s => s.orMishap .startContainer (.ok (), s.start id)
  | .removeContainer id, s => s.orMishap .removeContainer (.ok (), s.remove id)
  | .statPath _ path, s => s.orMishap .statPath (s.stat path, s)
  | .uploadArchive .., s => s.orMishap .uploadArchive (.ok (), s)
  | .inspectContainer _, s => s.orMishap .inspectContainer (.ok (), s)
  | .createExec .., s => s.orMishap .createExec (.ok s.session, s)
  | .startExec .., s => s.orMishap .startExec (.ok (feed .execOutput s.output), s)

def daemon : Daemon Script := ⟨answer, interrupted⟩

end Script

end Provisioner.Rehearsal
