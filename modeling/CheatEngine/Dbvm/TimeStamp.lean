/-
  CheatEngine.Dbvm.TimeStamp

  The time-stamp counter that a guest of DBVM reads (vmeventhandler.c).
  `handle_rdtsc` returns real time, the scaled time of the speedhack, or, shortly
  after another exit, the last value of the CPU and a small step.  The floor that
  it computes, `lTSC`, is lowered to the time instead of the time being raised to
  it, and is not used.
-/
import CheatEngine.Lib.Run
import Mathlib.Data.NNRat.Floor
import Mathlib.Algebra.Order.Ring.Rat

namespace CheatEngine.Dbvm

open CheatEngine.Lib

/-- The globals of the time-stamp counter, those of one CPU, the counter of the
    hardware, and the values returned to the guest, the last one first. -/
structure TimeStamp where
  now : Nat
  tscHooked : Bool
  adjustTimestampCounters : Bool
  adjustTimestampCounterTimeout : Int32
  useSpeedhack : Bool
  speedhackSpeed : ℚ≥0
  speedhackInitialOffset : Nat
  speedhackInitialTime : Nat
  lowestTSC : Nat
  cpuLowestTSC : Nat
  lastTSCTouch : Nat
  returned : List Nat

/-- What happens, with the ticks until each reading of the counter: RDTSC and
    RDTSCP exits, CPUID exits, and `speedhack_setspeed`. -/
inductive TimeStampInput
  | rdtsc (ticks after : Nat)
  | cpuid (ticks : Nat)
  | setspeed (speed : ℚ≥0) (ticks : Nat)

namespace TimeStamp

/-- Before the first exit. -/
def initial (now : Nat) (tscHooked adjust : Bool) (timeout : Int32) : TimeStamp :=
  { now
    tscHooked
    adjustTimestampCounters := adjust
    adjustTimestampCounterTimeout := timeout
    useSpeedhack := false
    speedhackSpeed := 1
    speedhackInitialOffset := 0
    speedhackInitialTime := 0
    lowestTSC := 0
    cpuLowestTSC := 0
    lastTSCTouch := 0
    returned := [] }

def wait (s : TimeStamp) (ticks : Nat) : TimeStamp := { s with now := s.now + ticks }

def qwordSub (a b : Nat) : Nat := (a + 2 ^ 64 - b) % 2 ^ 64

section

variable (s : TimeStamp)

/-- The scaled time, before it is cut to a `QWORD`. -/
def scaled : Nat :=
  ⌊(qwordSub s.now s.speedhackInitialTime : ℚ≥0) * s.speedhackSpeed +
    (s.speedhackInitialOffset : ℚ≥0)⌋₊

/-- The time that `handle_rdtsc` starts from. -/
def time : Nat := if s.useSpeedhack then s.scaled else s.now

def setspeed (speed : ℚ≥0) : TimeStamp :=
  if s.tscHooked then
    let initialoffset := s.scaled % 2 ^ 64
    let initialoffset :=
      if initialoffset < s.lowestTSC then (s.lowestTSC + 1000) % 2 ^ 64 else initialoffset
    { s with
      speedhackInitialTime := s.now
      lowestTSC := initialoffset
      speedhackInitialOffset := initialoffset
      speedhackSpeed := speed
      useSpeedhack := true }
  else s

def timeout : Nat := (s.adjustTimestampCounterTimeout.toInt % 2 ^ 64).toNat

/-- An exit shortly before this one has touched the counter. -/
def recent : Bool := qwordSub s.now s.lastTSCTouch < s.timeout

/-- `currentcpuinfo->lowestTSC`, set to the real time when it is 0. -/
def cpuFloor : Nat := if s.cpuLowestTSC = 0 then s.now else s.cpuLowestTSC

/-- The last value and a small step. -/
def stepped : Nat := s.cpuFloor + (20 + s.now % 16)

def handleRdtsc : TimeStamp :=
  if s.adjustTimestampCounters then
    let t := if s.recent then s.stepped % 2 ^ 64 else s.time % 2 ^ 64
    { s with
      cpuLowestTSC := t
      lowestTSC := if s.lowestTSC < t then t else s.lowestTSC
      returned := t :: s.returned }
  else
    let t := s.time % 2 ^ 64
    { s with
      cpuLowestTSC := s.cpuFloor
      lowestTSC := if s.lowestTSC < t then t else s.lowestTSC
      returned := t :: s.returned }

def touch : TimeStamp := { s with lastTSCTouch := s.now }

/-- One exit or call. -/
def step : TimeStampInput → TimeStamp
  | .rdtsc ticks after => (((s.wait ticks).handleRdtsc).wait after).touch
  | .cpuid ticks => (s.wait ticks).touch
  | .setspeed speed ticks => (s.wait ticks).setspeed speed

/-- No counter leaves the range of a `QWORD`. -/
def InRange : TimeStampInput → Prop
  | .rdtsc ticks after =>
    s.now + ticks + after < 2 ^ 64 ∧ (s.wait ticks).time < 2 ^ 64 ∧
      (s.wait ticks).stepped < 2 ^ 64
  | .cpuid ticks => s.now + ticks < 2 ^ 64
  | .setspeed _ ticks =>
    s.now + ticks < 2 ^ 64 ∧ (s.wait ticks).scaled < 2 ^ 64 ∧ s.lowestTSC + 1000 < 2 ^ 64

/-- An exit that returns the time comes when the time has reached the last value of
    the CPU. -/
def CaughtUp : TimeStampInput → Prop
  | .rdtsc ticks _ => s.adjustTimestampCounters = true → (s.wait ticks).recent = false →
      s.cpuLowestTSC ≤ (s.wait ticks).time
  | _ => True

end

/-! ## Invariant -/

/-- What every call in range keeps. -/
structure Inv (s : TimeStamp) : Prop where
  time_le : s.speedhackInitialTime ≤ s.now
  lowest : ∀ v ∈ s.returned, v ≤ s.lowestTSC
  last : s.adjustTimestampCounters = true → s.cpuLowestTSC = s.returned.headD 0
  /-- Without, every value was a time. -/
  passed : s.adjustTimestampCounters = false → ∀ v ∈ s.returned, v ≤ s.time

variable {s : TimeStamp}

theorem qwordSub_of_le {a b : Nat} (hle : b ≤ a) (hlt : a < 2 ^ 64) : qwordSub a b = a - b := by
  unfold qwordSub
  omega

theorem time_le_wait (h : s.Inv) {ticks : Nat} (hrange : s.now + ticks < 2 ^ 64) :
    s.time ≤ (s.wait ticks).time := by
  have hle := h.time_le
  unfold time
  show (if s.useSpeedhack then s.scaled else s.now) ≤
    if s.useSpeedhack then (s.wait ticks).scaled else s.now + ticks
  split
  · have hbefore : qwordSub s.now s.speedhackInitialTime = s.now - s.speedhackInitialTime :=
      qwordSub_of_le hle (by omega)
    have hafter : qwordSub (s.now + ticks) s.speedhackInitialTime =
        s.now + ticks - s.speedhackInitialTime := qwordSub_of_le (by omega) hrange
    have hmono : qwordSub s.now s.speedhackInitialTime ≤
        qwordSub (s.now + ticks) s.speedhackInitialTime := by omega
    apply Nat.floor_mono
    show (qwordSub s.now s.speedhackInitialTime : ℚ≥0) * s.speedhackSpeed +
        s.speedhackInitialOffset ≤
      (qwordSub (s.now + ticks) s.speedhackInitialTime : ℚ≥0) * s.speedhackSpeed +
        s.speedhackInitialOffset
    gcongr
  · omega

theorem Inv.wait (h : s.Inv) {ticks : Nat} (hrange : s.now + ticks < 2 ^ 64) :
    (s.wait ticks).Inv where
  time_le := Nat.le_trans h.time_le (Nat.le_add_right ..)
  lowest := h.lowest
  last := h.last
  passed hadjust v hv := Nat.le_trans (h.passed hadjust v hv) (time_le_wait h hrange)

theorem Inv.touch (h : s.Inv) : s.touch.Inv := ⟨h.time_le, h.lowest, h.last, h.passed⟩

/-- A new speed starts from the time before it, or above every value that was
    returned. -/
theorem Inv.setspeed (h : s.Inv) (speed : ℚ≥0) (hnow : s.now < 2 ^ 64)
    (hscaled : s.scaled < 2 ^ 64) (hlowest : s.lowestTSC + 1000 < 2 ^ 64) :
    (s.setspeed speed).Inv := by
  unfold TimeStamp.setspeed
  rw [Nat.mod_eq_of_lt hscaled, Nat.mod_eq_of_lt hlowest]
  split
  · have hfloor : s.lowestTSC ≤ if s.scaled < s.lowestTSC then s.lowestTSC + 1000 else s.scaled := by
      split <;> omega
    refine ⟨Nat.le_refl _, ?_, h.last, ?_⟩
    · exact fun v hv => Nat.le_trans (h.lowest v hv) hfloor
    · intro _ v hv
      refine Nat.le_trans (Nat.le_trans (h.lowest v hv) hfloor) (Nat.le_of_eq ?_)
      -- no tick has passed since the speed was set
      simp only [time, scaled, if_true, qwordSub_of_le (Nat.le_refl _) hnow, Nat.sub_self,
        Nat.cast_zero, zero_mul, zero_add, Nat.floor_natCast]
  · exact h

def value (s : TimeStamp) : Nat :=
  if s.adjustTimestampCounters = true ∧ s.recent = true then s.stepped else s.time

theorem handleRdtsc_eq (htime : s.time < 2 ^ 64) (hstepped : s.stepped < 2 ^ 64) :
    s.handleRdtsc =
      { s with
        cpuLowestTSC := if s.adjustTimestampCounters then s.value else s.cpuFloor
        lowestTSC := if s.lowestTSC < s.value then s.value else s.lowestTSC
        returned := s.value :: s.returned } := by
  unfold handleRdtsc value
  rw [Nat.mod_eq_of_lt htime, Nat.mod_eq_of_lt hstepped]
  cases s.adjustTimestampCounters <;> cases s.recent <;> rfl

theorem Inv.handleRdtsc (h : s.Inv) (htime : s.time < 2 ^ 64) (hstepped : s.stepped < 2 ^ 64) :
    s.handleRdtsc.Inv := by
  rw [handleRdtsc_eq htime hstepped]
  refine ⟨h.time_le, ?_, ?_, ?_⟩
  · intro v hv
    show v ≤ if s.lowestTSC < s.value then s.value else s.lowestTSC
    rcases List.mem_cons.1 hv with rfl | hv
    · split <;> omega
    · have hle := h.lowest v hv
      split <;> omega
  · intro hadjust
    show (if s.adjustTimestampCounters then s.value else s.cpuFloor) = s.value
    rw [if_pos hadjust]
  · intro hadjust v hv
    show v ≤ s.time
    rcases List.mem_cons.1 hv with rfl | hv
    · have hvalue : s.value = s.time := by
        have hfalse : s.adjustTimestampCounters = false := hadjust
        rw [value, hfalse]
        rfl
      exact Nat.le_of_eq hvalue
    · exact h.passed hadjust v hv

theorem inv_step (input : TimeStampInput) (h : s.Inv) (hrange : s.InRange input) :
    (s.step input).Inv := by
  cases input with
  | rdtsc ticks after =>
    obtain ⟨hnow, htime, hstepped⟩ := hrange
    have hread := (h.wait (by omega)).handleRdtsc htime hstepped
    refine (hread.wait ?_).touch
    rw [handleRdtsc_eq htime hstepped]
    exact hnow
  | cpuid ticks => exact (h.wait hrange).touch
  | setspeed speed ticks =>
    obtain ⟨hnow, hscaled, hlowest⟩ := hrange
    exact (h.wait hnow).setspeed speed hnow hscaled hlowest

theorem inv_initial (now : Nat) (tscHooked adjust : Bool) (timeout : Int32) :
    (initial now tscHooked adjust timeout).Inv :=
  ⟨Nat.zero_le now, nofun, fun _ => rfl, fun _ => nofun⟩

/-! ## Order of the values -/

/-- The values do not decrease; the last one is first. -/
def Nondecreasing (s : TimeStamp) : Prop := s.returned.Pairwise (· ≥ ·)

theorem value_ge_iff (h : s.Inv) (hsorted : s.Nondecreasing) :
    (∀ v ∈ s.returned, s.value ≥ v) ↔
      (s.adjustTimestampCounters = true → s.recent = false → s.cpuLowestTSC ≤ s.time) := by
  have hlast := h.last
  have hpassed := h.passed
  unfold Nondecreasing at hsorted
  cases hadjust : s.adjustTimestampCounters with
  | false =>
    refine iff_of_true ?_ nofun
    intro v hv
    have hvalue : s.value = s.time := by
      rw [value, hadjust]
      rfl
    rw [hvalue]
    exact hpassed hadjust v hv
  | true =>
    have hcpu := hlast hadjust
    -- the last value is at least each of those before it
    have hhead : ∀ v ∈ s.returned, v ≤ s.cpuLowestTSC := by
      rw [hcpu]
      cases hreturned : s.returned with
      | nil => exact nofun
      | cons w rest =>
        intro v hv
        rw [hreturned] at hsorted
        rcases List.mem_cons.1 hv with rfl | hv
        · exact Nat.le_refl _
        · exact (List.pairwise_cons.1 hsorted).1 v hv
    cases hrecent : s.recent with
    | true =>
      refine iff_of_true ?_ (fun _ hno => absurd hno Bool.noConfusion)
      intro v hv
      have hle := hhead v hv
      have hvalue : s.value = s.stepped := by
        rw [value, hadjust, hrecent]
        rfl
      rw [hvalue, stepped, cpuFloor]
      split <;> omega
    | false =>
      have hvalue : s.value = s.time := by
        rw [value, hadjust, hrecent]
        rfl
      rw [hvalue]
      constructor
      · intro hall _ _
        rw [hcpu]
        cases hreturned : s.returned with
        | nil => exact Nat.zero_le _
        | cons w rest => exact hall w (hreturned ▸ List.mem_cons_self)
      · intro hle v hv
        exact Nat.le_trans (hhead v hv) (hle rfl rfl)

theorem nondecreasing_step (input : TimeStampInput) (h : s.Inv) (hrange : s.InRange input) :
    (s.step input).Nondecreasing ↔ s.Nondecreasing ∧ s.CaughtUp input := by
  cases input with
  | rdtsc ticks after =>
    obtain ⟨hnow, htime, hstepped⟩ := hrange
    have hwait : (s.wait ticks).Inv := h.wait (by omega)
    have hvalue := value_ge_iff hwait
    show ((s.wait ticks).handleRdtsc).returned.Pairwise (· ≥ ·) ↔ _
    rw [handleRdtsc_eq htime hstepped, List.pairwise_cons, and_comm]
    exact and_congr_right hvalue
  | cpuid ticks => exact (and_iff_left trivial).symm
  | setspeed speed ticks =>
    have hsame : ((s.wait ticks).setspeed speed).returned = s.returned := by
      unfold setspeed
      split <;> rfl
    show ((s.wait ticks).setspeed speed).returned.Pairwise (· ≥ ·) ↔ _
    rw [hsame]
    exact (and_iff_left trivial).symm

/-- The run lemma, from any state of the invariant. -/
theorem nondecreasing_exec (h : s.Inv) (inputs : List TimeStampInput)
    (hrange : Along step InRange s inputs) :
    (exec step s inputs).Nondecreasing ↔ s.Nondecreasing ∧ Along step CaughtUp s inputs := by
  induction inputs generalizing s with
  | nil => exact (and_iff_left trivial).symm
  | cons input inputs ih =>
    obtain ⟨hinput, hrest⟩ := hrange
    rw [exec_cons, ih (inv_step input h hinput) hrest, nondecreasing_step input h hinput,
      along_cons, and_assoc]

/-- In every run in which the counters stay in range, the values that the guest
    reads do not decrease if and only if no exit returns the time while the small
    steps are ahead of it. -/
theorem returned_nondecreasing_iff (now : Nat) (tscHooked adjust : Bool) (timeout : Int32)
    (inputs : List TimeStampInput)
    (hrange : Along step InRange (initial now tscHooked adjust timeout) inputs) :
    (exec step (initial now tscHooked adjust timeout) inputs).Nondecreasing ↔
      Along step CaughtUp (initial now tscHooked adjust timeout) inputs := by
  rw [nondecreasing_exec (inv_initial now tscHooked adjust timeout) inputs hrange]
  exact and_iff_right List.Pairwise.nil

instance (s : TimeStamp) : DecidablePred s.InRange
  | .rdtsc .. => inferInstanceAs (Decidable (_ ∧ _))
  | .cpuid _ => inferInstanceAs (Decidable (_ < _))
  | .setspeed .. => inferInstanceAs (Decidable (_ ∧ _))

instance (s : TimeStamp) : DecidablePred s.CaughtUp
  | .rdtsc .. => inferInstanceAs (Decidable (_ → _))
  | .cpuid _ => inferInstanceAs (Decidable True)
  | .setspeed .. => inferInstanceAs (Decidable True)

/-- A read, one shortly after it, and one at twice the speed. -/
def fastReads : List TimeStampInput :=
  [.rdtsc 10000 10, .rdtsc 90 10, .setspeed 2 10, .rdtsc 3000 10]

theorem fastReads_nondecreasing :
    (exec step (initial 0 true true 2000) fastReads).Nondecreasing ↔
      Along step CaughtUp (initial 0 true true 2000) fastReads :=
  returned_nondecreasing_iff 0 true true 2000 fastReads (by decide +kernel)

/-- At a hundredth of the speed, a small step is ahead of the time. -/
def slowReads : List TimeStampInput :=
  [.rdtsc 10000 0, .setspeed (1 / 100) 0, .rdtsc 100 0, .rdtsc 2000 0]

/-- The last value is 10021, after 10024. -/
theorem slowReads_decrease :
    ¬ (exec step (initial 0 true true 2000) slowReads).Nondecreasing := by
  have hvalues : (exec step (initial 0 true true 2000) slowReads).returned =
      [10021, 10024, 10000] := by decide +kernel
  rw [Nondecreasing, hvalues]
  decide

end TimeStamp

end CheatEngine.Dbvm
