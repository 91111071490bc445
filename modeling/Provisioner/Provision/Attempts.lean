namespace Provisioner

structure Clock where
  now : Nat := 0
  interruptAt : Option Nat := none
  deriving DecidableEq, Repr

namespace Clock

def interrupt (c : Clock) : Clock :=
  { c with interruptAt := some (min c.now (c.interruptAt.getD c.now)) }

/-- Waits, and tells whether an interrupt ended the wait. One that came before the wait ends it at
once. -/
def wait (c : Clock) (ms : Nat) : Bool × Clock :=
  match c.interruptAt with
  | none => (false, { c with now := c.now + ms })
  | some t =>
    if t ≤ c.now then (true, c)
    else if t < c.now + ms then (true, { c with now := t })
    else (false, { c with now := c.now + ms })

end Clock

inductive StopReason where
  | exhausted
  | cancelled
  /-- The count of attempts does not fit into 32 bits. A program whose sums are checked stops there
  with no result, and that is what this stands for; one whose sums are not goes on from zero. -/
  | countOverflow
  deriving DecidableEq, Repr

structure AttemptsError (ε : Type) where
  reason : StopReason
  attempts : UInt32
  last : ε
  deriving DecidableEq, Repr

def AttemptsError.message {ε : Type} (e : AttemptsError ε) (words : ε → String) : String :=
  match e.reason with
  | .exhausted => s!"gave up after {e.attempts.toNat} attempt(s): {words e.last}"
  | .cancelled => s!"cancelled after {e.attempts.toNat} attempt(s): {words e.last}"
  | .countOverflow => "attempt to add with overflow"

structure Attempt (ε α : Type) where
  outcome : Except ε α
  interrupted : Bool := false

structure AttemptPolicy where
  maxRetries : UInt32
  delayMs : Nat
  deriving DecidableEq, Repr

namespace AttemptPolicy

variable {σ ε α : Type}

def longestWait : Nat := 30 * 365 * 24 * 60 * 60 * 1000

def delay (p : AttemptPolicy) : Nat := min p.delayMs longestWait

def lastCount : UInt32 := 0xFFFFFFFF

/-- Makes attempts after `made` of them. Each is counted when it starts, and after it has failed
its count decides whether there is another one. -/
def runFrom (p : AttemptPolicy) (attempt : σ → Attempt ε α × σ) (made : UInt32) (clock : Clock)
    (s : σ) : Except (AttemptsError ε) α × Clock × σ :=
  let (a, s) := attempt s
  let clock := if a.interrupted then clock.interrupt else clock
  let count := made + 1
  match a.outcome with
  | .ok v => (.ok v, clock, s)
  | .error e =>
    if p.maxRetries < count then (.error ⟨.exhausted, count, e⟩, clock, s)
    else
      match clock.wait p.delay with
      | (true, clock) => (.error ⟨.cancelled, count, e⟩, clock, s)
      | (false, clock) =>
        if made < lastCount - 1 then runFrom p attempt count clock s
        else (.error ⟨.countOverflow, count, e⟩, clock, s)
termination_by lastCount.toNat - made.toNat
decreasing_by
  rename_i h
  have h : made.toNat < 0xFFFFFFFE := by simpa [lastCount, UInt32.lt_iff_toNat_lt] using h
  have : (made + 1).toNat = made.toNat + 1 := by
    simp [UInt32.toNat_add]; omega
  simp [lastCount] at *
  omega

def run (p : AttemptPolicy) (attempt : σ → Attempt ε α × σ) (clock : Clock) (s : σ) :
    Except (AttemptsError ε) α × Clock × σ :=
  p.runFrom attempt 0 clock s

end AttemptPolicy

end Provisioner
