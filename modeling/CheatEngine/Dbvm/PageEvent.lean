/-
  CheatEngine.Dbvm.PageEvent

  The state of a guest at an event (eptstructs.h), and `fillPageEventBasic`, which writes
  it down (epthandler.c).  Where a register of the guest is depends on the vendor: the
  VMCS of Intel, the VMCB of AMD, or the block of registers that every exit saves.
-/
import CheatEngine.Lib.Bytes

namespace CheatEngine.Dbvm

open CheatEngine.Lib

/-! ## Registers -/

/-- `RFLAGS`, as far as its bits are looked at one by one. -/
structure RFlags where
  TF : Bool
  IF : Bool
  RF : Bool
  /-- The other bits. -/
  other : UInt64

/-- The flags but for `RF`. -/
def RFlags.withoutRF (v : RFlags) : RFlags := { v with RF := false }

abbrev FXSAVE64 : Type := Vector UInt8 512

/-- `VMRegisters`; `rax` is not valid on AMD. -/
structure VMRegisters where
  r15 : UInt64
  r14 : UInt64
  r13 : UInt64
  r12 : UInt64
  r11 : UInt64
  r10 : UInt64
  r9 : UInt64
  r8 : UInt64
  rbp : UInt64
  rsi : UInt64
  rdi : UInt64
  rdx : UInt64
  rcx : UInt64
  rbx : UInt64
  rax : UInt64

/-- The selectors of the segments. -/
structure Selectors where
  cs : UInt16
  ds : UInt16
  es : UInt16
  ss : UInt16
  fs : UInt16
  gs : UInt16

/-- The fields of the guest in the VMCS. -/
structure Vmcs where
  linearAddress : UInt64
  physicalAddress : UInt64
  cr3 : UInt64
  fsBase : UInt64
  gsBase : UInt64
  rflags : RFlags
  rsp : UInt64
  rip : UInt64
  dr7 : UInt64
  selectors : Selectors
  /-- The `DPL` of `vm_guest_cs_access_rights`. -/
  csDpl : UInt8
  interruptabilityState : UInt64
  /-- `PBEF_MONITOR_TRAP_FLAG` can be set. -/
  monitorTrapFlag : Bool
  /-- `PBEF_INTERRUPT_WINDOW_EXITING` can be set. -/
  interruptWindow : Bool
  /-- Bit 31 of `vm_entry_interruptioninfo`. -/
  interruptPending : Bool

structure Vmcb where
  exitInfo2 : UInt64
  cr3 : UInt64
  fsBase : UInt64
  gsBase : UInt64
  rflags : RFlags
  rax : UInt64
  rsp : UInt64
  rip : UInt64
  dr6 : UInt64
  dr7 : UInt64
  selectors : Selectors
  /-- The `DPL` of `cs_attrib`. -/
  csDpl : UInt8
  interruptShadow : Bool

/-- The block that controls the guest; AMD has a VMCB. -/
inductive Control
  | vmcs (v : Vmcs)
  | vmcb (v : Vmcb)

/-- Why a CPU steps, with the number that belongs to it. -/
inductive StepReason
  | handleWatch
  | handleCloak
  | handleSoftwareBreakpoint
  | stepAndBreak

/-- A CPU after an exit of its guest. -/
structure Cpu where
  control : Control
  registers : VMRegisters
  fxsave : FXSAVE64
  dr0 : UInt64
  dr1 : UInt64
  dr2 : UInt64
  dr3 : UInt64
  dr6 : UInt64
  /-- `IA32_GS_BASE_KERNEL_MSR` -/
  gsBaseKernel : UInt64
  cr8 : UInt32
  /-- `singleStepping.PreviousTFState` -/
  previousTFState : Bool
  /-- `singleStepping.Reasons` -/
  reasons : List (StepReason × Int)

structure PageEventBasic where
  virtualAddress : UInt64
  physicalAddress : UInt64
  cr3 : UInt64
  fsBase : UInt64
  gsBase : UInt64
  gsBaseKernel : UInt64
  flags : RFlags
  rax : UInt64
  rbx : UInt64
  rcx : UInt64
  rdx : UInt64
  rsi : UInt64
  rdi : UInt64
  r8 : UInt64
  r9 : UInt64
  r10 : UInt64
  r11 : UInt64
  r12 : UInt64
  r13 : UInt64
  r14 : UInt64
  r15 : UInt64
  rbp : UInt64
  rsp : UInt64
  rip : UInt64
  dr0 : UInt64
  dr1 : UInt64
  dr2 : UInt64
  dr3 : UInt64
  dr6 : UInt64
  dr7 : UInt64
  selectors : Selectors
  /-- How often the block was seen, or the heartbeat of a parked thread. -/
  count : UInt32

structure PageEventExtended where
  basic : PageEventBasic
  fpudata : FXSAVE64

def fillPageEventBasic (c : Cpu) : PageEventBasic :=
  let registers := c.registers
  match c.control with
  | .vmcb v =>
    { gsBaseKernel := c.gsBaseKernel
      virtualAddress := 0
      physicalAddress := v.exitInfo2
      cr3 := v.cr3
      fsBase := v.fsBase
      gsBase := v.gsBase
      flags := v.rflags
      rax := v.rax
      rbx := registers.rbx
      rcx := registers.rcx
      rdx := registers.rdx
      rsi := registers.rsi
      rdi := registers.rdi
      r8 := registers.r8
      r9 := registers.r9
      r10 := registers.r10
      r11 := registers.r11
      r12 := registers.r12
      r13 := registers.r13
      r14 := registers.r14
      r15 := registers.r15
      rbp := registers.rbp
      rsp := v.rsp
      rip := v.rip
      dr0 := c.dr0
      dr1 := c.dr1
      dr2 := c.dr2
      dr3 := c.dr3
      dr6 := v.dr6
      dr7 := v.dr7
      selectors := v.selectors
      count := 0 }
  | .vmcs v =>
    { gsBaseKernel := c.gsBaseKernel
      virtualAddress := v.linearAddress
      physicalAddress := v.physicalAddress
      cr3 := v.cr3
      fsBase := v.fsBase
      gsBase := v.gsBase
      flags := v.rflags
      rax := registers.rax
      rbx := registers.rbx
      rcx := registers.rcx
      rdx := registers.rdx
      rsi := registers.rsi
      rdi := registers.rdi
      r8 := registers.r8
      r9 := registers.r9
      r10 := registers.r10
      r11 := registers.r11
      r12 := registers.r12
      r13 := registers.r13
      r14 := registers.r14
      r15 := registers.r15
      rbp := registers.rbp
      rsp := v.rsp
      rip := v.rip
      dr0 := c.dr0
      dr1 := c.dr1
      dr2 := c.dr2
      dr3 := c.dr3
      dr6 := c.dr6
      dr7 := v.dr7
      selectors := v.selectors
      count := 0 }

/-! ## What the guest goes on with -/

/-- The general registers, `RIP`, `RSP`, `RFLAGS`, and the FPU and SSE state. -/
structure GuestRegisters where
  rax : UInt64
  rbx : UInt64
  rcx : UInt64
  rdx : UInt64
  rsi : UInt64
  rdi : UInt64
  r8 : UInt64
  r9 : UInt64
  r10 : UInt64
  r11 : UInt64
  r12 : UInt64
  r13 : UInt64
  r14 : UInt64
  r15 : UInt64
  rbp : UInt64
  rsp : UInt64
  rip : UInt64
  rflags : RFlags
  fpu : FXSAVE64

namespace Cpu

/-- `RAX`, `RSP`, `RIP` and `RFLAGS` are in the VMCB of AMD; on Intel `RAX` is not in the
    VMCS. -/
def rax (c : Cpu) : UInt64 :=
  match c.control with
  | .vmcs _ => c.registers.rax
  | .vmcb v => v.rax

def rsp (c : Cpu) : UInt64 :=
  match c.control with
  | .vmcs v => v.rsp
  | .vmcb v => v.rsp

def rip (c : Cpu) : UInt64 :=
  match c.control with
  | .vmcs v => v.rip
  | .vmcb v => v.rip

def rflags (c : Cpu) : RFlags :=
  match c.control with
  | .vmcs v => v.rflags
  | .vmcb v => v.rflags

/-- The registers that the guest goes on with when it is entered. -/
def guest (c : Cpu) : GuestRegisters where
  rax := c.rax
  rbx := c.registers.rbx
  rcx := c.registers.rcx
  rdx := c.registers.rdx
  rsi := c.registers.rsi
  rdi := c.registers.rdi
  r8 := c.registers.r8
  r9 := c.registers.r9
  r10 := c.registers.r10
  r11 := c.registers.r11
  r12 := c.registers.r12
  r13 := c.registers.r13
  r14 := c.registers.r14
  r15 := c.registers.r15
  rbp := c.registers.rbp
  rsp := c.rsp
  rip := c.rip
  rflags := c.rflags
  fpu := c.fxsave

end Cpu

def PageEventExtended.registers (e : PageEventExtended) : GuestRegisters where
  rax := e.basic.rax
  rbx := e.basic.rbx
  rcx := e.basic.rcx
  rdx := e.basic.rdx
  rsi := e.basic.rsi
  rdi := e.basic.rdi
  r8 := e.basic.r8
  r9 := e.basic.r9
  r10 := e.basic.r10
  r11 := e.basic.r11
  r12 := e.basic.r12
  r13 := e.basic.r13
  r14 := e.basic.r14
  r15 := e.basic.r15
  rbp := e.basic.rbp
  rsp := e.basic.rsp
  rip := e.basic.rip
  rflags := e.basic.flags
  fpu := e.fpudata

/-- `fillPageEventBasic` and the FPU state beside it. -/
def capture (c : Cpu) : PageEventExtended := ⟨fillPageEventBasic c, c.fxsave⟩

theorem registers_capture (c : Cpu) : (capture c).registers = c.guest := by
  obtain ⟨control, _, _, _, _, _, _, _, _, _, _, _⟩ := c
  cases control <;> rfl

end CheatEngine.Dbvm
