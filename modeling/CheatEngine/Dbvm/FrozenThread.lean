/-
  CheatEngine.Dbvm.FrozenThread

  The registers of a thread that DBVM parks (epthandler.c): what is saved when it is parked
  by a watch or after a step, what a debugger writes over it, and what
  `ept_handleFrozenThread` gives back.  The list of the parked threads is the subject of
  Dbvm.BrokenThreads.
-/
import CheatEngine.Dbvm.BrokenThreads
import CheatEngine.Dbvm.PageEvent

namespace CheatEngine.Dbvm

/-- `BrokenThreadEntry` with all its registers. -/
structure FrozenThread where
  inuse : EntryUse
  continueMethod : Int32
  watchid : Int32
  userModeLoop : UInt64
  kernelModeLoop : UInt64
  state : PageEventExtended

/-- A watch that parks: its number and loops. -/
structure ParkingLoops where
  watchid : Int32
  loopUserMode : UInt64
  loopKernelMode : UInt64

namespace Cpu

def kernelmode (c : Cpu) : Bool :=
  match c.control with
  | .vmcs v => v.csDpl = 0
  | .vmcb v => v.csDpl = 0

def setRip (c : Cpu) (rip : UInt64) : Cpu :=
  match c.control with
  | .vmcs v => { c with control := .vmcs { v with rip } }
  | .vmcb v => { c with control := .vmcb { v with rip } }

/-- The interrupt state lets `ept_handleWatchEvent` break. -/
def canBreak (c : Cpu) : Bool :=
  match c.control with
  | .vmcs v => c.cr8 = 0 && v.rflags.IF && v.interruptabilityState &&& 1 = 0
  | .vmcb v => c.cr8 = 0 && v.rflags.IF && !v.rflags.RF

/-- `vmx_enableSingleStepMode`; what it intercepts is left out. -/
def enableSingleStepMode (c : Cpu) : Cpu :=
  match c.control with
  | .vmcb v =>
    { c with
      previousTFState := if c.reasons = [] then v.rflags.TF else c.previousTFState
      control := .vmcb { v with
        rflags := { v.rflags with TF := true, RF := true }
        interruptShadow := v.rflags.IF || v.interruptShadow } }
  | .vmcs v =>
    if v.monitorTrapFlag then c
    else if v.interruptWindow && !v.interruptPending then
      { c with control := .vmcs { v with interruptabilityState := 2 } }
    else c

def addSingleSteppingReason (c : Cpu) (reason : StepReason) (id : Int) : Cpu :=
  { c with reasons := c.reasons ++ [(reason, id)] }

end Cpu

/-- The part of `ept_handleWatchEvent` that parks a thread in entry `i`. -/
def parkAtWatch (c : Cpu) (watch : ParkingLoops) (i : Nat) : Cpu × FrozenThread :=
  let newRIP := if c.kernelmode then watch.loopKernelMode else watch.loopUserMode
  let e : FrozenThread :=
    ⟨.inUse, 0, watch.watchid, watch.loopUserMode, watch.loopKernelMode, capture c⟩
  let c := c.setRip newRIP
  match c.control with
  | .vmcb v => ({ c with control := .vmcb { v with rax := UInt64.ofNat i } }, e)
  | .vmcs _ => ({ c with registers := { c.registers with rax := UInt64.ofNat i } }, e)

/-- On AMD the trap flag of the step is taken away first. -/
def Cpu.resetTF (c : Cpu) : Cpu :=
  match c.control with
  | .vmcb v => { c with control := .vmcb { v with rflags := { v.rflags with TF := c.previousTFState } } }
  | .vmcs _ => c

/-- The loop that `ept_handleStepAndBreak` goes to, 0 if there is none. -/
def FrozenThread.newRIP (e : FrozenThread) (kernelmode : Bool) : UInt64 :=
  if e.continueMethod = 1 then if kernelmode then e.kernelModeLoop else e.userModeLoop else 0

def handleStepAndBreak (c : Cpu) (e : FrozenThread) (i : Nat) : Cpu × FrozenThread :=
  if c.cr8 = 0 ∧ c.rflags.IF = true then
    let newRIP := e.newRIP c.kernelmode
    let c := c.resetTF
    if newRIP ≠ 0 then
      let e := { e with state := capture c, continueMethod := 0 }
      let c := { c with registers := { c.registers with rax := UInt64.ofNat i } }
      match c.control with
      | .vmcb v => ({ c with control := .vmcb { v with rip := newRIP, rax := UInt64.ofNat i } }, e)
      | .vmcs v => ({ c with control := .vmcs { v with rip := newRIP } }, e)
    else (c, { e with inuse := .lost, continueMethod := 0 })
  else (c, { e with inuse := .lost, continueMethod := 0 })

/-! ## Going on -/

/-- The registers that `ept_handleFrozenThread` gives back. -/
def restore (c : Cpu) (e : PageEventExtended) : Cpu :=
  let basic := e.basic
  let registers : VMRegisters :=
    { c.registers with
      rbx := basic.rbx
      rcx := basic.rcx
      rdx := basic.rdx
      rsi := basic.rsi
      rdi := basic.rdi
      rbp := basic.rbp
      r8 := basic.r8
      r9 := basic.r9
      r10 := basic.r10
      r11 := basic.r11
      r12 := basic.r12
      r13 := basic.r13
      r14 := basic.r14
      r15 := basic.r15 }
  match c.control with
  | .vmcb v =>
    -- `RF` makes the watch handler skip the instruction this time
    { c with
      control := .vmcb { v with
        rip := basic.rip
        rax := basic.rax
        rsp := basic.rsp
        rflags := { basic.flags with RF := true } }
      registers
      fxsave := e.fpudata }
  | .vmcs v =>
    { c with
      control := .vmcs { v with rip := basic.rip, rsp := basic.rsp, interruptabilityState := 1 }
      registers := { registers with rax := basic.rax }
      fxsave := e.fpudata }

/-- One instruction at least, before the thread is interrupted. -/
def Cpu.blockInterrupts (c : Cpu) (flags : RFlags) : Cpu :=
  match c.control with
  | .vmcb v =>
    { c with control := .vmcb { v with interruptShadow := flags.IF || v.interruptShadow } }
  | .vmcs v => { c with control := .vmcs { v with interruptabilityState := 1 } }

/-- `ept_handleFrozenThread` for entry `id`: the thread stays parked, takes a step or goes
    on. -/
def handleFrozenThread (c : Cpu) (e : FrozenThread) (id : Nat) : Cpu × FrozenThread :=
  let flags := e.state.basic.flags
  let e := { e with state.basic.count := e.state.basic.count + 1 }
  if e.continueMethod ≠ 0 then
    let c := restore c e.state
    if e.continueMethod = 1 then
      (c.enableSingleStepMode.addSingleSteppingReason .stepAndBreak id, { e with watchid := -1 })
    else (c.blockInterrupts flags, { e with inuse := .free, continueMethod := 0 })
  else (c, e)

/-- `ept_resumeBrokenThread` of an entry. -/
def FrozenThread.resume (e : FrozenThread) (continueMethod : Int32) : FrozenThread :=
  match e.inuse with
  | .free => e
  | .lost => { e with inuse := .free }
  | .inUse => if e.continueMethod = 0 then { e with continueMethod, watchid := -1 } else e

/-- `ept_setBrokenThreadEntryFull` of an entry. -/
def FrozenThread.set (e : FrozenThread) (state : PageEventExtended) : FrozenThread :=
  if e.inuse ≠ .free then { e with state } else e

/-- The entry of a parked thread, and the registers that are stored for it: those it was
    parked with, or those that were written since. -/
inductive Stored : GuestRegisters → FrozenThread → Prop
  | watchHit (c : Cpu) (watch : ParkingLoops) (i : Nat) (hbreak : c.canBreak = true)
      (hloop : (if c.kernelmode then watch.loopKernelMode else watch.loopUserMode) ≠ 0) :
      Stored c.guest (parkAtWatch c watch i).2
  | stepAndBreak (c : Cpu) (e : FrozenThread) (i : Nat) (hbreak : c.cr8 = 0 ∧ c.rflags.IF = true)
      (hloop : e.newRIP c.kernelmode ≠ 0) :
      Stored c.resetTF.guest (handleStepAndBreak c e i).2
  /-- The thread goes around its loop. -/
  | keepAlive {g : GuestRegisters} {e : FrozenThread} (h : Stored g e) (c : Cpu) (id : Nat)
      (hmethod : e.continueMethod = 0) : Stored g (handleFrozenThread c e id).2
  | resume {g : GuestRegisters} {e : FrozenThread} (h : Stored g e) (continueMethod : Int32) :
      Stored g (e.resume continueMethod)
  | set {g : GuestRegisters} {e : FrozenThread} (h : Stored g e) (hinuse : e.inuse ≠ .free)
      (state : PageEventExtended) : Stored state.registers (e.set state)

theorem registers_handleStepAndBreak {c : Cpu} {e : FrozenThread} {i : Nat}
    (hbreak : c.cr8 = 0 ∧ c.rflags.IF = true) (hloop : e.newRIP c.kernelmode ≠ 0) :
    (handleStepAndBreak c e i).2.state = capture c.resetTF := by
  rw [handleStepAndBreak, if_pos hbreak]
  dsimp only
  rw [if_pos hloop]
  cases c.resetTF.control <;> rfl

theorem Stored.registers {g : GuestRegisters} {e : FrozenThread} (h : Stored g e) :
    e.state.registers = g := by
  induction h with
  | watchHit c watch i hbreak hloop =>
    rw [← registers_capture, parkAtWatch]
    dsimp only
    split <;> rfl
  | stepAndBreak c e i hbreak hloop =>
    rw [registers_handleStepAndBreak hbreak hloop, registers_capture]
  | @keepAlive g e h c id hmethod ih =>
    rw [handleFrozenThread]
    dsimp only
    rw [if_neg (not_not.2 hmethod)]
    exact ih
  | @resume g e h continueMethod ih =>
    rw [FrozenThread.resume]
    split
    · exact ih
    · exact ih
    · split
      · exact ih
      · exact ih
  | @set g e h hinuse state ih => rw [FrozenThread.set, if_pos hinuse]

/-! ## Going on with what is stored -/

/-- The same registers, `RF` aside. -/
structure SameRegisters (g s : GuestRegisters) : Prop where
  flags : g.rflags.withoutRF = s.rflags.withoutRF
  others : { g with rflags := s.rflags } = s

/-- On Intel the flags are those of the loop; on AMD a step sets `TF`. -/
def FlagsAgree (c : Cpu) (continueMethod : Int32) (s : GuestRegisters) : Prop :=
  match c.control with
  | .vmcs v => v.rflags.withoutRF = s.rflags.withoutRF
  | .vmcb _ => continueMethod = 1 → s.rflags.TF = true

def resumedFlags (c : Cpu) (continueMethod : Int32) (stored : RFlags) : RFlags :=
  match c.control with
  | .vmcs v => v.rflags
  | .vmcb _ => if continueMethod = 1 then { stored with TF := true, RF := true } else { stored with RF := true }

theorem guest_handleFrozenThread (c : Cpu) (e : FrozenThread) (id : Nat)
    (hmethod : e.continueMethod ≠ 0) :
    (handleFrozenThread c e id).1.guest =
      { e.state.registers with
        rflags := resumedFlags c e.continueMethod e.state.registers.rflags } := by
  obtain ⟨control, registers, fxsave, _, _, _, _, _, _, _, previousTFState, reasons⟩ := c
  rw [handleFrozenThread]
  dsimp only
  rw [if_pos hmethod]
  by_cases hone : e.continueMethod = 1
  · rw [if_pos hone, hone]
    cases control with
    | vmcs v =>
      -- the monitor trap flag and the interrupt window are no registers of the guest
      show Cpu.guest (Cpu.addSingleSteppingReason (Cpu.enableSingleStepMode _) _ _) = _
      simp only [restore, Cpu.enableSingleStepMode]
      split
      · rfl
      · split <;> rfl
    | vmcb v => rfl
  · rw [if_neg hone]
    cases control with
    | vmcs v => rfl
    | vmcb v =>
      rw [resumedFlags, if_neg hone]
      rfl

/-- Whatever registers are stored for a parked thread, when it runs or steps it goes on with
    them if and only if the flags agree. -/
theorem resumes_iff {s : GuestRegisters} {e : FrozenThread} (h : Stored s e)
    (hmethod : e.continueMethod ≠ 0) (c : Cpu) (id : Nat) :
    SameRegisters (handleFrozenThread c e id).1.guest s ↔ FlagsAgree c e.continueMethod s := by
  obtain rfl := h.registers
  rw [guest_handleFrozenThread c e id hmethod, FlagsAgree]
  constructor
  · intro hsame
    have hflags := hsame.flags
    dsimp only [resumedFlags] at hflags
    split
    next v hcontrol =>
      rw [hcontrol] at hflags
      exact hflags
    next v hcontrol =>
      rw [hcontrol] at hflags
      intro hone
      dsimp only at hflags
      rw [if_pos hone] at hflags
      exact (congrArg RFlags.TF hflags).symm
  · intro hagree
    refine ⟨?_, rfl⟩
    dsimp only [resumedFlags]
    split
    next v hcontrol =>
      rw [hcontrol] at hagree
      exact hagree
    next v hcontrol =>
      rw [hcontrol] at hagree
      split
      next hone => rw [RFlags.withoutRF, RFlags.withoutRF, ← hagree hone]
      next => rfl

/-- A CPU whose guest runs in user mode with interrupts enabled. -/
def userCpu : Cpu where
  control := .vmcs
    { linearAddress := 0x7FF600001000, physicalAddress := 0x1000, cr3 := 0x1AB000, fsBase := 0
      gsBase := 0x2FE000, rflags := ⟨false, true, false, 0x2⟩, rsp := 0x14F000, rip := 0x7FF600001000
      dr7 := 0x400, selectors := ⟨0x33, 0x2B, 0x2B, 0x2B, 0x53, 0x2B⟩, csDpl := 3
      interruptabilityState := 0, monitorTrapFlag := true, interruptWindow := true
      interruptPending := false }
  registers := ⟨0, 0, 0, 0, 0, 0, 0, 0, 0x14F100, 0, 0, 0, 0, 0, 7⟩
  fxsave := Vector.replicate 512 0
  dr0 := 0
  dr1 := 0
  dr2 := 0
  dr3 := 0
  dr6 := 0xFFFF0FF0
  gsBaseKernel := 0
  cr8 := 0
  previousTFState := false
  reasons := []

def userLoops : ParkingLoops := ⟨0, 0x7FF600002000, 0⟩

def withZeroFlag (e : PageEventExtended) : PageEventExtended :=
  { e with basic.flags.other := e.basic.flags.other ||| 0x40 }

/-- The thread was parked, its zero flag was set, and it is to run. -/
def zeroFlagThread : FrozenThread :=
  ((parkAtWatch userCpu userLoops 0).2.set (withZeroFlag (capture userCpu))).resume 2

theorem stored_zeroFlagThread :
    Stored (withZeroFlag (capture userCpu)).registers zeroFlagThread :=
  ((Stored.watchHit userCpu userLoops 0 rfl (by decide)).set (by decide) _).resume 2

theorem resumes_iff_zeroFlag :
    SameRegisters (handleFrozenThread (parkAtWatch userCpu userLoops 0).1 zeroFlagThread 0).1.guest
        (withZeroFlag (capture userCpu)).registers ↔
      FlagsAgree (parkAtWatch userCpu userLoops 0).1 zeroFlagThread.continueMethod
        (withZeroFlag (capture userCpu)).registers :=
  resumes_iff stored_zeroFlagThread (by decide) _ 0

/-- It runs without the zero flag. -/
theorem not_resumes : ¬ ∀ (s : GuestRegisters) (e : FrozenThread) (c : Cpu) (id : Nat), Stored s e →
    e.continueMethod ≠ 0 → SameRegisters (handleFrozenThread c e id).1.guest s := by
  intro hall
  have hsame := hall _ _ (parkAtWatch userCpu userLoops 0).1 0 stored_zeroFlagThread (by decide)
  exact absurd (congrArg RFlags.other hsame.flags) (by decide)

end CheatEngine.Dbvm
