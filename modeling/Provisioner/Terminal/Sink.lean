import Provisioner.Files.Fault
import Provisioner.Text.Utf8

namespace Provisioner

class Writer (ω : Type) where
  write : Bytes → ω → Except IoError Unit × ω
  flush : ω → Except IoError Unit × ω

structure Sink where
  limit : Option Nat := none
  flushFails : Bool := false
  written : Bytes := []
  deriving DecidableEq, Repr

namespace Sink

def room (s : Sink) : Option Nat := s.limit.map (· - s.written.length)

def write (bs : Bytes) (s : Sink) : Except IoError Unit × Sink :=
  match s.room with
  | none => (.ok (), { s with written := s.written ++ bs })
  | some room =>
    (if room < bs.length then .error (.other "output full") else .ok (),
      { s with written := s.written ++ bs.take room })

def flush (s : Sink) : Except IoError Unit × Sink :=
  (if s.flushFails then .error (.other "flush failed") else .ok (), s)

instance : Writer Sink := ⟨write, flush⟩

end Sink

end Provisioner
