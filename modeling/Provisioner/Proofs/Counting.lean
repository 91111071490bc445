import Mathlib.Logic.Function.Iterate
import Provisioner.Proofs.Trails
import Provisioner.Provision.Attempts

namespace Provisioner

variable {σ ε α : Type}

def Attempt.clockAfter (a : Attempt ε α) (clock : Clock) : Clock :=
  if a.interrupted then clock.interrupt else clock

namespace AttemptPolicy

/-- The number of attempts made so far, and what the next one starts with. -/
structure Moment (σ : Type) where
  made : UInt32
  clock : Clock
  state : σ

/-- A round that is followed by another one, marked with the count that it raises. -/
inductive Round (p : AttemptPolicy) (attempt : σ → Attempt ε α × σ) :
    Moment σ → UInt32 → Moment σ → Prop
  | again {made : UInt32} {clock clock' : Clock} {s : σ} {e : ε}
    (he : (attempt s).1.outcome = .error e) (hm : ¬ p.maxRetries < made + 1)
    (hw : ((attempt s).1.clockAfter clock).wait p.delay = (false, clock')) :
    Round p attempt ⟨made, clock, s⟩ made ⟨made + 1, clock', (attempt s).2⟩

/-- The last round, and what it makes of the run. -/
inductive Stops (p : AttemptPolicy) (attempt : σ → Attempt ε α × σ) :
    Moment σ → Except (AttemptsError ε) α × Clock × σ → Prop
  | succeeded {made : UInt32} {clock : Clock} {s : σ} {v : α}
    (hv : (attempt s).1.outcome = .ok v) :
    Stops p attempt ⟨made, clock, s⟩ (.ok v, (attempt s).1.clockAfter clock, (attempt s).2)
  | exhausted {made : UInt32} {clock : Clock} {s : σ} {e : ε}
    (he : (attempt s).1.outcome = .error e) (hm : p.maxRetries < made + 1) :
    Stops p attempt ⟨made, clock, s⟩
      (.error ⟨.exhausted, made + 1, e⟩, (attempt s).1.clockAfter clock, (attempt s).2)
  | cancelled {made : UInt32} {clock clock' : Clock} {s : σ} {e : ε}
    (he : (attempt s).1.outcome = .error e) (hm : ¬ p.maxRetries < made + 1)
    (hw : ((attempt s).1.clockAfter clock).wait p.delay = (true, clock')) :
    Stops p attempt ⟨made, clock, s⟩ (.error ⟨.cancelled, made + 1, e⟩, clock', (attempt s).2)

variable {p : AttemptPolicy} {attempt : σ → Attempt ε α × σ} {m m' : Moment σ} {c : UInt32}
  {cs : List UInt32} {r : Except (AttemptsError ε) α × Clock × σ}

theorem toNat_succ {made bound : UInt32} (h : made < bound) :
    (made + 1).toNat = made.toNat + 1 := by
  have hb : bound.toNat < 2 ^ 32 := bound.toNat_lt
  have h : made.toNat < bound.toNat := UInt32.lt_iff_toNat_lt.mp h
  rw [UInt32.toNat_add, UInt32.toNat_one]
  omega

theorem left_lt {made : UInt32} (hl : made < lastCount) :
    lastCount.toNat - (made + 1).toNat < lastCount.toNat - made.toNat := by
  have h : made.toNat < lastCount.toNat := UInt32.lt_iff_toNat_lt.mp hl
  rw [toNat_succ hl]
  omega

/-- Only the attempt before the last count is not followed by another one. -/
theorem succ_below_or_last {made : UInt32} (hl : made < lastCount) :
    made < lastCount - 1 ∧ made + 1 < lastCount ∨
      ¬ made < lastCount - 1 ∧ made + 1 = lastCount := by
  rw [UInt32.lt_iff_toNat_lt, UInt32.lt_iff_toNat_lt, ← UInt32.toNat_inj, toNat_succ hl]
  have h : made.toNat < 0xFFFFFFFF := UInt32.lt_iff_toNat_lt.mp hl
  change made.toNat < 0xFFFFFFFE ∧ made.toNat + 1 < 0xFFFFFFFF ∨
    ¬ made.toNat < 0xFFFFFFFE ∧ made.toNat + 1 = 0xFFFFFFFF
  omega

theorem Round.made_succ (h : p.Round attempt m c m') : m'.made = m.made + 1 := by
  cases h with
  | again => rfl

theorem stops_or_round (p : AttemptPolicy) (attempt : σ → Attempt ε α × σ) (m : Moment σ) :
    (∃ r, p.Stops attempt m r) ∨ ∃ m', p.Round attempt m m.made m' := by
  obtain ⟨made, clock, s⟩ := m
  cases h : (attempt s).1.outcome with
  | ok v => exact .inl ⟨_, .succeeded h⟩
  | error e =>
    by_cases hm : p.maxRetries < made + 1
    · exact .inl ⟨_, .exhausted h hm⟩
    rcases hw : ((attempt s).1.clockAfter clock).wait p.delay with ⟨_ | _, clock'⟩
    · exact .inr ⟨_, .again h hm hw⟩
    · exact .inl ⟨_, .cancelled h hm hw⟩

theorem Stops.runFrom (h : p.Stops attempt m r) :
    p.runFrom attempt m.made m.clock m.state = r := by
  rw [AttemptPolicy.runFrom]
  cases h with
  | succeeded hv => simp only [hv, Attempt.clockAfter]
  | exhausted he hm => simp only [he, if_pos hm, Attempt.clockAfter]
  | cancelled he hm hw =>
    unfold Attempt.clockAfter at hw
    simp only [he, if_neg hm, hw]

theorem Round.runFrom (h : p.Round attempt m c m') (hl : m.made < lastCount - 1) :
    p.runFrom attempt m.made m.clock m.state = p.runFrom attempt m'.made m'.clock m'.state := by
  cases h with
  | again he hm hw =>
    rw [AttemptPolicy.runFrom]
    unfold Attempt.clockAfter at hw
    simp only [he, if_neg hm, hw, if_pos hl]

/-- A round that raises the count to the last one is not followed by another one. -/
theorem Round.runFrom_overflow (h : p.Round attempt m c m') (hl : ¬ m.made < lastCount - 1) :
    ∃ e, (attempt m.state).1.outcome = .error e ∧ p.runFrom attempt m.made m.clock m.state =
      (.error ⟨.countOverflow, m'.made, e⟩, m'.clock, m'.state) := by
  rw [AttemptPolicy.runFrom]
  cases h with
  | again he hm hw =>
    unfold Attempt.clockAfter at hw
    simp only [he, if_neg hm, hw, if_neg hl]
    exact ⟨_, rfl, rfl⟩

/-- A run is made of rounds and of one that stops it, unless the count gets to the last one. -/
theorem runFrom_stops_or_overflows (p : AttemptPolicy) (attempt : σ → Attempt ε α × σ)
    (m : Moment σ) (hl : m.made < lastCount) :
    ∃ cs m', Trail (p.Round attempt) m cs m' ∧
      (p.Stops attempt m' (p.runFrom attempt m.made m.clock m.state) ∨ m'.made = lastCount ∧
        ∃ e, p.runFrom attempt m.made m.clock m.state =
          (.error ⟨.countOverflow, lastCount, e⟩, m'.clock, m'.state)) := by
  induction hn : lastCount.toNat - m.made.toNat using Nat.strongRecOn generalizing m with
  | ind n ih =>
  obtain ⟨r, h⟩ | ⟨m', h⟩ := p.stops_or_round attempt m
  · exact ⟨[], m, .nil m, .inl (h.runFrom ▸ h)⟩
  have hs : m'.made = m.made + 1 := h.made_succ
  obtain ⟨hm, hlt⟩ | ⟨hm, heq⟩ := succ_below_or_last hl
  · obtain ⟨cs, m'', ht, hr⟩ := ih _ (hn ▸ hs ▸ left_lt hl) m' (hs ▸ hlt) rfl
    rw [h.runFrom hm]
    exact ⟨_, m'', .cons h ht, hr⟩
  · obtain ⟨e, -, he⟩ := h.runFrom_overflow hm
    have hl' : m'.made = lastCount := hs.trans heq
    rw [he, hl']
    exact ⟨_, m', .single h, .inr ⟨hl', e, rfl⟩⟩

/-- Wherever a run gets to, the count is the number of attempts made by then, the next one is still
allowed, and no count that was raised, nor the one that is raised next, is the last. -/
def KeepsCount (p : AttemptPolicy) (attempt : σ → Attempt ε α × σ) (clock : Clock) (s : σ) : Prop :=
  ∀ cs m, Trail (p.Round attempt) ⟨0, clock, s⟩ cs m →
    m.made.toNat = cs.length ∧ cs.length + 1 ≤ p.maxRetries.toNat + 1 ∧
      ∀ c ∈ cs ++ [m.made], c < lastCount

/-- A round is followed by another one only where the count that it leads to is within the limit. -/
theorem Round.count (hm : p.maxRetries < lastCount) (h : p.Round attempt m c m')
    (hl : m.made ≤ p.maxRetries) :
    c = m.made ∧ m'.made.toNat = m.made.toNat + 1 ∧ m'.made ≤ p.maxRetries := by
  cases h with
  | again _ hle =>
    exact ⟨rfl, toNat_succ (UInt32.lt_of_le_of_lt hl hm), UInt32.not_lt.mp hle⟩

theorem rounds_count (hm : p.maxRetries < lastCount) (h : Trail (p.Round attempt) m cs m')
    (hl : m.made ≤ p.maxRetries) :
    m'.made.toNat = m.made.toNat + cs.length ∧ m'.made ≤ p.maxRetries ∧
      ∀ c ∈ cs, c ≤ p.maxRetries := by
  induction h with
  | nil => exact ⟨rfl, hl, nofun⟩
  | cons hr _ ih =>
    obtain ⟨rfl, hc, hle⟩ := hr.count hm hl
    obtain ⟨hn, hl', hcs⟩ := ih hle
    refine ⟨?_, hl', List.forall_mem_cons.mpr ⟨hl, hcs⟩⟩
    rw [hn, hc, List.length_cons]
    omega

theorem keepsCount (p : AttemptPolicy) (hm : p.maxRetries < lastCount)
    (attempt : σ → Attempt ε α × σ) (clock : Clock) (s : σ) :
    p.KeepsCount attempt clock s := by
  intro cs m h
  obtain ⟨hn, hl, hcs⟩ := rounds_count hm h UInt32.zero_le
  have hn : m.made.toNat = cs.length := hn.trans (Nat.zero_add _)
  refine ⟨hn, Nat.succ_le_succ (hn ▸ UInt32.le_iff_toNat_le.mp hl), fun c hc => ?_⟩
  rcases List.mem_append.mp hc with hc | hc
  · exact UInt32.lt_of_le_of_lt (hcs c hc) hm
  · exact List.mem_singleton.mp hc ▸ UInt32.lt_of_le_of_lt hl hm

/-- With a limit below the last count, the run never loses count: it goes from round to round until
one of its three reasons stops it. -/
theorem run_keeps_count (p : AttemptPolicy) (hm : p.maxRetries < lastCount)
    (attempt : σ → Attempt ε α × σ) (clock : Clock) (s : σ) :
    p.KeepsCount attempt clock s ∧ ∃ cs m, Trail (p.Round attempt) ⟨0, clock, s⟩ cs m ∧
      p.Stops attempt m (p.run attempt clock s) := by
  have hk := p.keepsCount hm attempt clock s
  refine ⟨hk, ?_⟩
  obtain ⟨cs, m, h, hr | ⟨hl, -⟩⟩ :=
    p.runFrom_stops_or_overflows attempt ⟨0, clock, s⟩ (show (0 : UInt32) < lastCount by decide)
  · exact ⟨cs, m, h, hr⟩
  · have hlt : m.made < lastCount := (hk cs m h).2.2 m.made (by simp)
    exact absurd hl (UInt32.ne_of_lt hlt)

def patient : AttemptPolicy := ⟨lastCount - 1, 10⟩

def thirdTime (n : Nat) : Attempt String Nat × Nat :=
  (⟨if n = 2 then .ok n else .error "down", false⟩, n + 1)

theorem patient_keeps_count :
    patient.maxRetries < lastCount ∧
      Trail (patient.Round thirdTime) ⟨0, {}, 0⟩ [0, 1] ⟨2, ⟨20, none⟩, 2⟩ ∧
      patient.KeepsCount thirdTime {} 0 ∧
      ∃ cs m, Trail (patient.Round thirdTime) ⟨0, {}, 0⟩ cs m ∧
        patient.Stops thirdTime m (patient.run thirdTime {} 0) :=
  ⟨by decide, .cons (.again rfl (by decide) rfl) (.single (.again rfl (by decide) rfl)),
    patient.run_keeps_count (by decide) thirdTime {} 0⟩

def tireless : AttemptPolicy := ⟨lastCount, 0⟩

def Fails (attempt : σ → Attempt ε α × σ) : Prop := ∀ s, ∃ e, (attempt s).1 = ⟨.error e, false⟩

theorem tireless_round (h : Fails attempt) (made : UInt32) (s : σ) :
    tireless.Round attempt ⟨made, {}, s⟩ made ⟨made + 1, {}, (attempt s).2⟩ := by
  obtain ⟨e, he⟩ := h s
  have hm : ¬ lastCount < made + 1 :=
    UInt32.not_lt.mpr (UInt32.le_iff_toNat_le.mpr (Nat.le_of_lt_succ (made + 1).toNat_lt))
  exact .again (congrArg Attempt.outcome he) hm (by rw [he]; rfl)

/-- There is always another round. After the last count the count starts over. -/
theorem tireless_rounds (h : Fails attempt) (n : Nat) (made : UInt32) (s : σ) :
    ∃ cs, Trail (tireless.Round attempt) ⟨made, {}, s⟩ cs
      ⟨made + UInt32.ofNat n, {}, (fun s => (attempt s).2)^[n] s⟩ ∧ cs.length = n := by
  induction n generalizing made s with
  | zero => exact ⟨[], by simpa using Trail.nil _, rfl⟩
  | succ n ih =>
    obtain ⟨cs, ht, hn⟩ := ih (made + 1) (attempt s).2
    have hm : made + UInt32.ofNat (n + 1) = made + 1 + UInt32.ofNat n := by
      rw [UInt32.ofNat_add, UInt32.add_comm (UInt32.ofNat n), ← UInt32.add_assoc]
      rfl
    exact ⟨made :: cs, hm ▸ .cons (tireless_round h made s) ht, congrArg Nat.succ hn⟩

def refused (_ : Unit) : Attempt String Unit × Unit := (⟨.error "down", false⟩, ())

theorem fails_refused : Fails refused := fun _ => ⟨"down", rfl⟩

theorem refused_rounds (n : Nat) :
    ∃ cs, Trail (tireless.Round refused) ⟨0, {}, ()⟩ cs ⟨0 + UInt32.ofNat n, {}, ()⟩ ∧
      cs.length = n :=
  tireless_rounds fails_refused n 0 ()

theorem tireless_runFrom (made : UInt32) (hl : made < lastCount) :
    tireless.runFrom refused made {} () = (.error ⟨.countOverflow, lastCount, "down"⟩, {}, ()) := by
  induction hn : lastCount.toNat - made.toNat using Nat.strongRecOn generalizing made with
  | ind n ih =>
  have h := tireless_round fails_refused made ()
  obtain ⟨hm, hlt⟩ | ⟨hm, heq⟩ := succ_below_or_last hl
  · rw [h.runFrom hm]
    exact ih _ (hn ▸ left_lt hl) (made + 1) hlt rfl
  · obtain ⟨e, he, hr⟩ := h.runFrom_overflow hm
    cases he
    rw [hr, heq]

/-- Where the limit is the last count, the count gets there and starts over, and the attempts go on
without end. -/
theorem tireless_loses_count :
    ¬ tireless.KeepsCount refused {} () ∧
      (∃ cs, Trail (tireless.Round refused) ⟨0, {}, ()⟩ cs ⟨0, {}, ()⟩ ∧
        tireless.maxRetries.toNat + 1 ≤ cs.length) ∧
      tireless.run refused {} () = (.error ⟨.countOverflow, lastCount, "down"⟩, {}, ()) := by
  refine ⟨fun hk => ?_, ?_, tireless_runFrom 0 (by decide)⟩
  · obtain ⟨cs, h, -⟩ := refused_rounds 0xFFFFFFFF
    exact absurd ((hk cs _ h).2.2 lastCount (by simp [lastCount])) (by decide)
  · obtain ⟨cs, h, hn⟩ := refused_rounds 0x100000000
    exact ⟨cs, h, Nat.le_of_eq hn.symm⟩

end AttemptPolicy

end Provisioner
