import Mathlib.Data.ENat.Lattice
import Provisioner.Proofs.Preparation

namespace Provisioner

noncomputable def earliest (P : Nat → Prop) : ℕ∞ := ⨅ n, ⨅ (_ : 1 ≤ n ∧ P n), (n : ℕ∞)

variable {P : Nat → Prop} {k : Nat}

theorem one_le_earliest : ((0 + 1 : Nat) : ℕ∞) ≤ earliest P :=
  le_iInf₂ fun _ h => Nat.cast_le.mpr h.1

theorem earliest_le {n : Nat} (hn : 1 ≤ n) (h : P n) : earliest P ≤ n :=
  iInf₂_le n ⟨hn, h⟩

theorem earliest_eq (hk : ((k + 1 : Nat) : ℕ∞) ≤ earliest P) (h : P (k + 1)) :
    earliest P = (k + 1 : Nat) :=
  le_antisymm (earliest_le (Nat.succ_pos k) h) hk

theorem not_before_earliest (hk : ((k + 1 : Nat) : ℕ∞) ≤ earliest P) (h : 1 ≤ k) : ¬ P k :=
  fun hp => Nat.not_succ_le_self k (Nat.cast_le.mp (hk.trans (earliest_le h hp)))

theorem succ_le_earliest (hk : ((k + 1 : Nat) : ℕ∞) ≤ earliest P) (h : ¬ P (k + 1)) :
    ((k + 1 + 1 : Nat) : ℕ∞) ≤ earliest P := by
  refine le_iInf₂ fun n hn => ?_
  have hle : k + 1 ≤ n := Nat.cast_le.mp (hk.trans (earliest_le hn.1 hn.2))
  have hne : n ≠ k + 1 := fun he => h (he ▸ hn.2)
  exact Nat.cast_le.mpr (by omega)

inductive Interruption where
  | never
  | outside (instant : Nat)
  /-- In the middle of the attempt that comes after so many others. -/
  | inside (others : Nat)
  deriving DecidableEq, Repr

namespace Interruption

/-- What the clock knows of it before it comes, after so many waits. -/
def clock (i : Interruption) (d waits : Nat) : Clock where
  now := waits * d
  interruptAt := match i with
    | .outside instant => some instant
    | .never | .inside _ => none

def instant? (i : Interruption) (d : Nat) : Option Nat :=
  match i with
  | .never => none
  | .outside instant => some instant
  | .inside others => some (others * d)

def isBefore (i : Interruption) (d time : Nat) : Prop := ∃ c, i.instant? d = some c ∧ c < time

def clockAfter (i : Interruption) (d waits : Nat) : Clock :=
  if i = .inside waits then (i.clock d waits).interrupt else i.clock d waits

theorem clockAfter_now (i : Interruption) (d waits : Nat) :
    (i.clockAfter d waits).now = waits * d := by
  unfold clockAfter
  split <;> rfl

/-- An interrupt that has not been seen yet ends the next wait, or comes after it. -/
theorem wait_clockAfter {i : Interruption} {d : Nat} (hd : 0 < d)
    (h : ¬ i.isBefore d (k * d)) :
    (∃ c clock, i.instant? d = some c ∧ c < (k + 1) * d ∧ clock.now = c ∧
      (i.clockAfter d k).wait d = (true, clock)) ∨
    ¬ i.isBefore d ((k + 1) * d) ∧ (i.clockAfter d k).wait d = (false, i.clock d (k + 1)) := by
  have hs : (k + 1) * d = k * d + d := Nat.succ_mul k d
  cases i with
  | never => exact .inr ⟨by simp [isBefore, instant?], by simp [clockAfter, clock, Clock.wait, hs]⟩
  | outside c =>
    have hc : k * d ≤ c := Nat.not_lt.mp fun hc => h ⟨c, rfl, hc⟩
    by_cases hw : c < (k + 1) * d
    · by_cases he : c ≤ k * d
      · refine .inl ⟨c, ⟨k * d, some c⟩, rfl, hw, Nat.le_antisymm hc he, ?_⟩
        simp [clockAfter, clock, Clock.wait, he]
      · refine .inl ⟨c, ⟨c, some c⟩, rfl, hw, rfl, ?_⟩
        simp [clockAfter, clock, Clock.wait, he, ← hs, hw]
    · refine .inr ⟨fun ⟨_, rfl, hc⟩ => hw hc, ?_⟩
      have he : ¬ c ≤ k * d := by omega
      simp [clockAfter, clock, Clock.wait, he, ← hs, hw]
  | inside others =>
    have hle : k ≤ others :=
      Nat.le_of_mul_le_mul_right (Nat.not_lt.mp fun hc => h ⟨_, rfl, hc⟩) hd
    obtain rfl | hlt := Nat.eq_or_lt_of_le hle
    · refine .inl ⟨k * d, ⟨k * d, some (k * d)⟩, rfl, by omega, rfl, ?_⟩
      simp [clockAfter, clock, Clock.interrupt, Clock.wait]
    · have hne : others ≠ k := Nat.ne_of_gt hlt
      refine .inr ⟨fun ⟨_, rfl, hc⟩ => ?_, ?_⟩
      · exact Nat.not_lt.mpr (Nat.mul_le_mul_right d hlt) hc
      · simp [clockAfter, clock, Clock.wait, hne, hs]

end Interruption

/-- What decides a run of attempts: what each of them comes to, numbered from one on, and when an
interrupt comes. An attempt takes no time. -/
structure Trial (ε α : Type) where
  policy : AttemptPolicy
  outcome : Nat → Except ε α
  interruption : Interruption

namespace Trial

variable {ε α : Type}

def attempt (t : Trial ε α) (made : Nat) : Attempt ε α × Nat :=
  (⟨t.outcome (made + 1), t.interruption = .inside made⟩, made + 1)

def run (t : Trial ε α) : Except (AttemptsError ε) α × Clock × Nat :=
  t.policy.run t.attempt (t.interruption.clock t.policy.delay 0) 0

noncomputable def success (t : Trial ε α) : ℕ∞ := earliest fun n => ∃ v, t.outcome n = .ok v

def limit (t : Trial ε α) : Nat := t.policy.maxRetries.toNat + 1

/-- The attempt whose wait sees the interrupt where each wait takes the time `d`. -/
noncomputable def patience (t : Trial ε α) (d : Nat) : ℕ∞ :=
  earliest fun n => t.interruption.isBefore d (n * d)

/-- How the attempts end: with which of them, with what result and when. -/
inductive Ends (t : Trial ε α) (d : Nat) : Nat → Except (AttemptsError ε) α → Nat → Prop
  | cancelled {count : UInt32} {e : ε} {c : Nat}
    (h : t.patience d < min t.success t.limit) (he : t.outcome count.toNat = .error e)
    (hc : t.interruption.instant? d = some c) :
    Ends t d count.toNat (.error ⟨.cancelled, count, e⟩) (max c ((count.toNat - 1) * d))
  | succeeded {n : Nat} {v : α}
    (hw : min t.success t.limit ≤ t.patience d) (h : t.success ≤ t.limit)
    (hv : t.outcome n = .ok v) :
    Ends t d n (.ok v) ((n - 1) * d)
  | exhausted {count : UInt32} {e : ε}
    (hw : min t.success t.limit ≤ t.patience d) (h : t.limit < t.success)
    (he : t.outcome count.toNat = .error e) :
    Ends t d count.toNat (.error ⟨.exhausted, count, e⟩) ((count.toNat - 1) * d)

/-- The attempts that are made are as many as the first reason to end them says, and the result
is that of the last one. -/
def Concludes (t : Trial ε α) (d : Nat) (r : Except (AttemptsError ε) α × Clock × Nat) : Prop :=
  (r.2.2 : ℕ∞) = min t.success (min t.limit (t.patience d)) ∧ t.Ends d r.2.2 r.1 r.2.1.now

variable {t : Trial ε α} {d : Nat} {clock : Clock}

theorem concludes_succeeded {v : α} (hs : ((k + 1 : Nat) : ℕ∞) ≤ t.success)
    (hw : ((k + 1 : Nat) : ℕ∞) ≤ t.patience d) (hk : k + 1 ≤ t.limit)
    (hv : t.outcome (k + 1) = .ok v) (hn : clock.now = k * d) :
    t.Concludes d (.ok v, clock, k + 1) := by
  have hs : t.success = (k + 1 : Nat) := earliest_eq hs ⟨v, hv⟩
  have hl : t.success ≤ t.limit := hs ▸ Nat.cast_le.mpr hk
  refine ⟨?_, hn ▸ .succeeded ?_ hl hv⟩
  · rw [← hs, min_eq_left (le_min hl (hs ▸ hw))]
  · exact (min_le_left _ _).trans (hs ▸ hw)

theorem concludes_exhausted {count : UInt32} {e : ε} (hc : count.toNat = k + 1)
    (hs : ((k + 1 + 1 : Nat) : ℕ∞) ≤ t.success) (hw : ((k + 1 : Nat) : ℕ∞) ≤ t.patience d)
    (hk : t.limit = k + 1) (he : t.outcome (k + 1) = .error e) (hn : clock.now = k * d) :
    t.Concludes d (.error ⟨.exhausted, count, e⟩, clock, k + 1) := by
  have hl : (t.limit : ℕ∞) < t.success :=
    lt_of_lt_of_le (Nat.cast_lt.mpr (hk ▸ Nat.lt_succ_self t.limit)) hs
  have hw : (t.limit : ℕ∞) ≤ t.patience d := hk ▸ hw
  refine ⟨?_, ?_⟩
  · rw [min_eq_left hw, min_eq_right hl.le, hk]
  · have h := Ends.exhausted (d := d) ((min_le_right _ _).trans hw) hl (hc ▸ he)
    rw [hc] at h
    exact hn ▸ h

theorem concludes_cancelled {count : UInt32} {e : ε} {c : Nat} (hc : count.toNat = k + 1)
    (hs : ((k + 1 + 1 : Nat) : ℕ∞) ≤ t.success) (hk : k + 1 + 1 ≤ t.limit)
    (hw : t.patience d = (k + 1 : Nat)) (he : t.outcome (k + 1) = .error e)
    (hi : t.interruption.instant? d = some c) (hle : k * d ≤ c) (hn : clock.now = c) :
    t.Concludes d (.error ⟨.cancelled, count, e⟩, clock, k + 1) := by
  have hlt : t.patience d < min t.success t.limit := by
    rw [hw]
    exact lt_of_lt_of_le (Nat.cast_lt.mpr (Nat.lt_succ_self _)) (le_min hs (Nat.cast_le.mpr hk))
  refine ⟨?_, ?_⟩
  · rw [← min_assoc, min_eq_right hlt.le, hw]
  · have h := Ends.cancelled hlt (hc ▸ he) hi
    rw [hc, Nat.add_sub_cancel, max_eq_left hle] at h
    exact hn ▸ h

theorem not_isBefore_of_le_patience (hw : ((k + 1 : Nat) : ℕ∞) ≤ t.patience d) :
    ¬ t.interruption.isBefore d (k * d) := by
  cases k with
  | zero => exact fun ⟨c, _, hc⟩ => Nat.not_lt_zero c (Nat.zero_mul d ▸ hc)
  | succ k =>
    exact not_before_earliest (P := fun n => t.interruption.isBefore d (n * d)) hw (Nat.succ_pos k)

/-- The run from the attempt on that comes after so many others, if no wait has seen the
interrupt. -/
def runFrom (t : Trial ε α) (made : UInt32) : Except (AttemptsError ε) α × Clock × Nat :=
  t.policy.runFrom t.attempt made (t.interruption.clock t.policy.delay made.toNat) made.toNat

theorem attempt_clockAfter (t : Trial ε α) (made d : Nat) :
    (t.attempt made).1.clockAfter (t.interruption.clock d made) =
      t.interruption.clockAfter d made := by
  simp only [attempt, Attempt.clockAfter, Interruption.clockAfter, decide_eq_true_eq]

theorem runFrom_ok {made : UInt32} {v : α} (h : t.outcome (made.toNat + 1) = .ok v) :
    t.runFrom made =
      (.ok v, t.interruption.clockAfter t.policy.delay made.toNat, made.toNat + 1) := by
  rw [← t.attempt_clockAfter]
  exact (AttemptPolicy.Stops.succeeded h).runFrom

theorem runFrom_last {made : UInt32} {e : ε} (h : t.outcome (made.toNat + 1) = .error e)
    (hm : t.policy.maxRetries < made + 1) :
    t.runFrom made = (.error ⟨.exhausted, made + 1, e⟩,
      t.interruption.clockAfter t.policy.delay made.toNat, made.toNat + 1) := by
  rw [← t.attempt_clockAfter]
  exact (AttemptPolicy.Stops.exhausted h hm).runFrom

theorem runFrom_interrupted {made : UInt32} {e : ε} (h : t.outcome (made.toNat + 1) = .error e)
    (hm : ¬ t.policy.maxRetries < made + 1)
    (hc : (t.interruption.clockAfter t.policy.delay made.toNat).wait t.policy.delay =
      (true, clock)) :
    t.runFrom made = (.error ⟨.cancelled, made + 1, e⟩, clock, made.toNat + 1) := by
  rw [← t.attempt_clockAfter] at hc
  exact (AttemptPolicy.Stops.cancelled h hm hc).runFrom

theorem runFrom_again {made : UInt32} {e : ε} (h : t.outcome (made.toNat + 1) = .error e)
    (hm : ¬ t.policy.maxRetries < made + 1) (hl : made < AttemptPolicy.lastCount - 1)
    (hc : (t.interruption.clockAfter t.policy.delay made.toNat).wait t.policy.delay =
      (false, t.interruption.clock t.policy.delay (made.toNat + 1))) :
    t.runFrom made = t.runFrom (made + 1) := by
  rw [← t.attempt_clockAfter] at hc
  have hr := (AttemptPolicy.Round.again h hm hc).runFrom hl
  unfold runFrom
  rw [hr, AttemptPolicy.toNat_succ hl]
  rfl

/-- The invariant is that neither a success nor the interrupt has ended the run so far. The
induction is on the attempts that are left. -/
theorem runFrom_concludes (hm : t.policy.maxRetries < AttemptPolicy.lastCount)
    (hd : 0 < t.policy.delay) (made : UInt32) (hl : made ≤ t.policy.maxRetries)
    (hs : ((made.toNat + 1 : Nat) : ℕ∞) ≤ t.success)
    (hw : ((made.toNat + 1 : Nat) : ℕ∞) ≤ t.patience t.policy.delay) :
    t.Concludes t.policy.delay (t.runFrom made) := by
  induction hn : t.policy.maxRetries.toNat - made.toNat using Nat.strongRecOn
    generalizing made with
  | ind n ih =>
  -- By induction on the attempts that are left. None has succeeded so far, and no wait was ended.
  have hc : (made + 1).toNat = made.toNat + 1 :=
    AttemptPolicy.toNat_succ (UInt32.lt_of_le_of_lt hl hm)
  have hl' : made.toNat ≤ t.policy.maxRetries.toNat := UInt32.le_iff_toNat_le.mp hl
  have hnow := t.interruption.clockAfter_now t.policy.delay made.toNat
  cases ho : t.outcome (made.toNat + 1) with
  | ok v =>
    rw [runFrom_ok ho]
    exact concludes_succeeded hs hw (Nat.succ_le_succ hl') ho hnow
  | error e =>
    have hs' : ((made.toNat + 1 + 1 : Nat) : ℕ∞) ≤ t.success :=
      succ_le_earliest hs fun ⟨v, hv⟩ => by cases ho.symm.trans hv
    by_cases hle : t.policy.maxRetries < made + 1
    · have hk : t.limit = made.toNat + 1 := by
        have hlt : t.policy.maxRetries.toNat < (made + 1).toNat := UInt32.lt_iff_toNat_lt.mp hle
        unfold limit
        omega
      rw [runFrom_last ho hle]
      exact concludes_exhausted hc hs' hw hk ho hnow
    have hmore : made + 1 ≤ t.policy.maxRetries := UInt32.not_lt.mp hle
    have hmore' : made.toNat + 1 ≤ t.policy.maxRetries.toNat :=
      hc ▸ UInt32.le_iff_toNat_le.mp hmore
    have hbefore := not_isBefore_of_le_patience hw
    obtain ⟨c, clock, hi, hlt, hnow, hwait⟩ | ⟨hi, hwait⟩ :=
      Interruption.wait_clockAfter hd hbefore
    · rw [runFrom_interrupted ho hle hwait]
      have hp : t.patience t.policy.delay = (made.toNat + 1 : Nat) := earliest_eq hw ⟨c, hi, hlt⟩
      have hge : made.toNat * t.policy.delay ≤ c := Nat.not_lt.mp fun h => hbefore ⟨c, hi, h⟩
      exact concludes_cancelled hc hs' (Nat.succ_le_succ hmore') hp ho hi hge hnow
    · have hlast : made < AttemptPolicy.lastCount - 1 := by
        have hm' : t.policy.maxRetries.toNat < 0xFFFFFFFF := UInt32.lt_iff_toNat_lt.mp hm
        exact UInt32.lt_iff_toNat_lt.mpr (show made.toNat < 0xFFFFFFFE by omega)
      rw [runFrom_again ho hle hlast hwait]
      refine ih _ ?_ (made + 1) hmore (hc ▸ hs') (hc ▸ succ_le_earliest hw hi) rfl
      omega

/-- Whatever the attempts come to and whenever an interrupt comes, the run ends with the first of
its three reasons. The waits are those that the timer makes. -/
theorem run_concludes (t : Trial ε α) (hm : t.policy.maxRetries < AttemptPolicy.lastCount)
    (hd : 0 < t.policy.delayMs) : t.Concludes t.policy.delay t.run :=
  runFrom_concludes hm (Nat.lt_min.mpr ⟨hd, by decide⟩) 0 UInt32.zero_le one_le_earliest
    one_le_earliest

/-- The third attempt would succeed, and an interrupt comes in the wait before it. -/
def hurried : Trial String Nat :=
  ⟨⟨3, 10⟩, fun n => if n = 3 then .ok n else .error "down", .outside 15⟩

theorem hurried_concludes :
    hurried.policy.maxRetries < AttemptPolicy.lastCount ∧ 0 < hurried.policy.delayMs ∧
      hurried.run = (.error ⟨.cancelled, 2, "down"⟩, ⟨15, some 15⟩, 2) ∧
      hurried.Concludes 10 hurried.run :=
  ⟨by decide, by decide, by decide +kernel, hurried.run_concludes (by decide) (by decide)⟩

/-- No attempt succeeds, and each wait is to take longer than the timer makes it. -/
def drowsy : Trial String Nat := ⟨⟨2, 1000000000000⟩, fun _ => .error "x", .never⟩

theorem Ends.exhausted_time {n time : Nat} {count : UInt32} {e : ε}
    (h : t.Ends d n (.error ⟨.exhausted, count, e⟩) time) : time = (n - 1) * d := by
  cases h
  rfl

theorem drowsy_ends_early :
    drowsy.policy.maxRetries < AttemptPolicy.lastCount ∧ 0 < drowsy.policy.delayMs ∧
      ¬ drowsy.Concludes drowsy.policy.delayMs drowsy.run := by
  have h : drowsy.run = (.error ⟨.exhausted, 3, "x"⟩, ⟨1892160000000, none⟩, 3) := by
    decide +kernel
  refine ⟨by decide, by decide, fun hc => ?_⟩
  rw [h] at hc
  exact absurd hc.2.exhausted_time (by decide)

end Trial

end Provisioner
