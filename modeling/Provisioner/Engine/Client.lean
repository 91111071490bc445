import Provisioner.Engine.Containers
import Provisioner.Engine.Frames
import Provisioner.Engine.Lines
import Provisioner.Engine.PathStat
import Provisioner.Engine.Request

namespace Provisioner.Engine

open Json

def result {α : Type} (op : Operation) (read : Draft → Except Fault α) (r : Response) : Reply α :=
  (r.accept >>= fun content => (decodeBytes read content).mapError .unreadable).mapError (.api op)

def done (op : Operation) (r : Response) : Reply Unit :=
  (r.accept.map fun _ => ()).mapError (.api op)

def pullFeed (r : Response) : Feed Progress :=
  match r.accept with
  | .error e => pullFailure e
  | .ok content => progressFeed false content

def stat (path : String) (r : Response) : Reply (Option PathStat) :=
  match r.accept with
  | .ok content => statChunks path [] [content] .finished
  | .error e => statChunks path [] [] (.failed e)

def sessionOutput (r : Response) : Reply (Feed Bytes) :=
  match r.accept with
  | .error e => .error (.api .startExec e)
  | .ok _ =>
    if r.status == Response.upgraded then .ok (frames r.body)
    else .error (.api .startExec (.unreadable .mismatch))

def read : (c : Call) → Response → c.Answer
  | .ping, r => done .ping r
  | .listImages _, r => result .listImages (list image) r
  | .pullImage _, r => pullFeed r
  | .listContainers _, r => result .listContainers (list containerListing) r
  | .createContainer _, r => result .createContainer created r
  | .startContainer _, r => done .startContainer r
  | .removeContainer _, r => done .removeContainer r
  | .statPath _ path, r => stat path r
  | .uploadArchive .., r => done .uploadArchive r
  | .inspectContainer _, r => result .inspectContainer Shape.inspection r
  | .createExec .., r => result .createExec session r
  | .startExec .., r => sessionOutput r

def daemon {τ : Type} (t : Transport τ) : Daemon τ where
  answer c s := let (r, s) := t.exchange (request c) s; (read c r, s)

end Provisioner.Engine
