/-
  CheatEngine.Dbvm.TraceLog

  The log of a trace on a breakpoint (epthandler.c): `ept_cloak_traceonbp` allocates it, the
  breakpoint and every step after it record a state, and the trace can be stopped.  The byte
  under the breakpoint is the subject of Dbvm.Cloak.
-/
import Mathlib.Data.Nat.Bitwise
import CheatEngine.Dbvm.ChangeRegisters
import CheatEngine.Dbvm.MemoryManager

namespace CheatEngine.Dbvm

open CheatEngine.Lib

def PE_BASIC : Nat := 0
def PE_EXTENDED : Nat := 1
def PE_BASICSTACK : Nat := 2
def PE_EXTENDEDSTACK : Nat := 3

/-- `sizeof` of the entries: 30 QWORDs, 6 WORDs and a DWORD, the FXSAVE area, and a page of
    the stack. -/
def sizeofPageEvent (datatype : Nat) : Nat :=
  if datatype = PE_BASIC then 256
  else if datatype = PE_EXTENDED then 256 + 512
  else if datatype = PE_BASICSTACK then 256 + 4096
  else 256 + 512 + 4096

/-- `sizeof(TraceOnBPEntry)`, which is where the entries begin. -/
def sizeofTraceOnBPEntry : Nat := 80

/-- A recorded state: where it is in the block, and what it holds. -/
structure LogRecord where
  offset : Nat
  basic : PageEventBasic
  fpudata : Option FXSAVE64
  stack : Option (Vector UInt8 4096)

/-- How many bytes are written for it. -/
def LogRecord.size (r : LogRecord) : Nat :=
  256 + (if r.fpudata.isSome then 512 else 0) + if r.stack.isSome then 4096 else 0

/-- `recordState`; `stack` is what `saveStack` copies. -/
def recordState (datatype currentEntryNr : Nat) (c : Cpu) (stack : Vector UInt8 4096) :
    List LogRecord :=
  let offset := sizeofTraceOnBPEntry + currentEntryNr * sizeofPageEvent datatype
  let basic := fillPageEventBasic c
  if datatype = PE_BASIC then [⟨offset, basic, none, none⟩]
  else if datatype = PE_EXTENDED then [⟨offset, basic, some c.fxsave, none⟩]
  else if datatype = PE_BASICSTACK then [⟨offset, basic, none, some stack⟩]
  else if datatype = PE_EXTENDEDSTACK then [⟨offset, basic, some c.fxsave, some stack⟩]
  else []

/-! ## The trace -/

/-- `TraceOnBPEntry`, with the size of its block and the states that are recorded. -/
structure TraceLog where
  triggered : Bool
  triggeredcr3 : UInt64
  triggeredfsbase : UInt64
  triggeredgsbase : UInt64
  /-- "number of steps left to log" -/
  count : Int
  shouldquit : Bool
  finished : Bool
  PhysicalAddress : Nat
  datatype : Nat
  numberOfEntries : Nat
  logsize : Nat
  records : List LogRecord

/-- The entry type that `ept_cloak_traceonbp` chooses. -/
def entryType (flags : Nat) : Nat :=
  let logfpu := flags &&& 1
  let logstack := flags &&& 2
  if logfpu = 0 ∧ logstack = 0 then PE_BASIC
  else if logfpu = 1 ∧ logstack = 0 then PE_EXTENDED
  else if logfpu = 0 ∧ logstack = 1 then PE_BASICSTACK
  else PE_EXTENDEDSTACK

/-- `ept_cloak_traceonbp_remove(0)`: its result and what is left. -/
def traceonbpRemove : Option TraceLog → Nat × Option TraceLog
  | none => (0, none)
  | some t =>
    if t.triggered && !t.finished then (2, some { t with shouldquit := true }) else (1, none)

/-- `ept_cloak_traceonbp`; `cloaked` is whether the page is found, and `allocated` whether
    `malloc` gives the block.  `malloc` takes the size as an `unsigned int` in the end. -/
def traceonbp (s : Option TraceLog) (physicalAddress flags tracecount : Nat)
    (cloaked allocated : Bool) : Nat × Option TraceLog :=
  match traceonbpRemove s with
  | (2, s) => (2, s)
  | (_, s) =>
    if cloaked then
      let datatype := entryType flags
      -- the product is an `unsigned int`
      let logsize := (sizeofTraceOnBPEntry * 2 +
        sizeofPageEvent datatype * tracecount % 2 ^ 32) % 2 ^ 32
      if allocated then
        (0, some
          { triggered := false
            triggeredcr3 := 0
            triggeredfsbase := 0
            triggeredgsbase := 0
            count := toInt32 tracecount
            shouldquit := false
            finished := false
            PhysicalAddress := physicalAddress
            datatype
            numberOfEntries := 0
            logsize
            records := [] })
      else (3, none)
    else (1, s)

namespace Cpu

def cr3 (c : Cpu) : UInt64 :=
  match c.control with
  | .vmcs v => v.cr3
  | .vmcb v => v.cr3

def fsbase (c : Cpu) : UInt64 :=
  match c.control with
  | .vmcs v => v.fsBase
  | .vmcb v => v.fsBase

def gsbase (c : Cpu) : UInt64 :=
  match c.control with
  | .vmcs v => v.gsBase
  | .vmcb v => v.gsBase

/-- Write the flags. -/
def setRflags (c : Cpu) (rflags : RFlags) : Cpu :=
  match c.control with
  | .vmcs v => { c with control := .vmcs { v with rflags } }
  | .vmcb v => { c with control := .vmcb { v with rflags } }

def clearBS (c : Cpu) : Cpu :=
  match c.control with
  | .vmcs _ => { c with dr6 := setBit c.dr6 14 false }
  | .vmcb v => { c with control := .vmcb { v with dr6 := setBit v.dr6 14 false } }

/-- `isDuetoSingleStep`; Intel has it in the exit qualification. -/
def isDuetoSingleStep (c : Cpu) (exitQualification : UInt64) : Bool :=
  match c.control with
  | .vmcs _ => bitOf exitQualification 14
  | .vmcb v => bitOf v.dr6 14

end Cpu

namespace TraceLog

section

variable (t : TraceLog)

/-- `recordState`, `numberOfEntries++` and `count--`. -/
def record (c : Cpu) (stack : Vector UInt8 4096) : TraceLog :=
  { t with
    records := t.records ++ recordState t.datatype t.numberOfEntries c stack
    numberOfEntries := t.numberOfEntries + 1
    count := t.count - 1 }

/-- The part of `ept_handleSoftwareBreakpoint` for a trace; `none` if the breakpoint is
    not the one of the trace. -/
def handleSoftwareBreakpoint (PA : Nat) (c : Cpu) (stack : Vector UInt8 4096) :
    Option (Cpu × TraceLog) :=
  if t.PhysicalAddress = PA then
    if t.triggered then some (c, t)    -- "try again"
    else
      let c := c.setRflags { c.rflags with TF := true }
      let t := t.record c stack
      some (c, { t with
        triggered := true
        triggeredcr3 := c.cr3
        triggeredgsbase := c.gsbase
        triggeredfsbase := c.fsbase })
  else none

/-- The event is a step of the thread that is traced. -/
def isStep (c : Cpu) (exitQualification : UInt64) : Bool :=
  t.triggered && c.isDuetoSingleStep exitQualification && t.triggeredcr3 == c.cr3 &&
    t.triggeredfsbase == c.fsbase && t.triggeredgsbase == c.gsbase

/-- `if (count<=0) shouldquit=1`, and a trace that should quit is finished. -/
def finishIfDone : TraceLog :=
  let shouldquit := t.shouldquit || t.count ≤ 0
  { t with shouldquit, finished := t.finished || shouldquit }

def handleHardwareBreakpoint (c : Cpu) (exitQualification : UInt64)
    (stack : Vector UInt8 4096) : Bool × Cpu × TraceLog :=
  if t.isStep c exitQualification then
    let t := (t.record c stack).finishIfDone
    let flags := { c.rflags with RF := true, TF := !t.shouldquit }
    (true, (c.setRflags flags).clearBS, t)
  else (false, c, t)

def stoptrace : TraceLog := { t with shouldquit := true }

end

/-- What can happen to a trace. -/
inductive Input
  | breakpoint (PA : Nat) (c : Cpu) (stack : Vector UInt8 4096)
  | debugException (c : Cpu) (exitQualification : UInt64) (stack : Vector UInt8 4096)
  | stop

def step (t : TraceLog) : Input → TraceLog
  | .breakpoint PA c stack =>
    match t.handleSoftwareBreakpoint PA c stack with
    | some (_, t) => t
    | none => t
  | .debugException c exitQualification stack =>
    (t.handleHardwareBreakpoint c exitQualification stack).2.2
  | .stop => t.stoptrace

/-- The event records a state. -/
def Records (t : TraceLog) : Input → Prop
  | .breakpoint PA _ _ => t.PhysicalAddress = PA ∧ t.triggered = false
  | .debugException c exitQualification _ => t.isStep c exitQualification = true
  | .stop => False

/-- A state is only recorded while steps are left. -/
def HasRoom (t : TraceLog) (input : Input) : Prop := t.Records input → 0 < t.count

instance (t : TraceLog) (input : Input) : Decidable (t.Records input) := by
  cases input <;> unfold Records <;> infer_instance

instance (t : TraceLog) (input : Input) : Decidable (t.HasRoom input) :=
  inferInstanceAs (Decidable (_ → _))

/-- Entries of the type have FPU data, or a copy of the stack. -/
def hasFPU (t : TraceLog) : Bool := t.datatype == PE_EXTENDED || t.datatype == PE_EXTENDEDSTACK
def hasStack (t : TraceLog) : Bool := t.datatype == PE_BASICSTACK || t.datatype == PE_EXTENDEDSTACK

/-- What the log keeps to. -/
structure Bounded (flags tracecount : Nat) (t : TraceLog) : Prop where
  entries_le : t.numberOfEntries ≤ tracecount
  all : t.records.length = t.numberOfEntries
  inside : ∀ r ∈ t.records, r.offset + r.size ≤ t.logsize
  left : t.finished = false → t.numberOfEntries + t.count = tracecount
  fpu : t.hasFPU = flags.testBit 0 ∧ ∀ r ∈ t.records, r.fpudata.isSome = flags.testBit 0
  stack : t.hasStack = flags.testBit 1 ∧ ∀ r ∈ t.records, r.stack.isSome = flags.testBit 1

/-- The flags do not ask for the stack without the FPU data, and the size of the log fits
    into 32 bits. -/
structure Fits (flags tracecount : Nat) : Prop where
  layout : ¬ (flags.testBit 0 = false ∧ flags.testBit 1 = true)
  size : sizeofTraceOnBPEntry * 2 + sizeofPageEvent (entryType flags) * tracecount < 2 ^ 32

/-! ## The invariant -/

/-- What every event keeps: the entries stand one behind another, and as many may follow as
    steps are left. -/
structure Inv (flags tracecount : Nat) (t : TraceLog) : Prop where
  datatype : t.datatype = entryType flags
  logsize : t.logsize = sizeofTraceOnBPEntry * 2 + sizeofPageEvent (entryType flags) * tracecount
  all : t.records.length = t.numberOfEntries
  count : t.numberOfEntries + t.count = tracecount
  nonneg : 0 ≤ t.count
  inside : ∀ r ∈ t.records,
    r.offset + r.size ≤ sizeofTraceOnBPEntry + t.numberOfEntries * sizeofPageEvent t.datatype
  fpu : ∀ r ∈ t.records, r.fpudata.isSome = t.hasFPU
  stack : ∀ r ∈ t.records, r.stack.isSome = t.hasStack

variable {flags tracecount : Nat} {t : TraceLog} {input : Input}

theorem entryType_cases (h : ¬ (flags.testBit 0 = false ∧ flags.testBit 1 = true)) :
    (entryType flags = PE_BASIC ∧ flags.testBit 0 = false ∧ flags.testBit 1 = false) ∨
      (entryType flags = PE_EXTENDED ∧ flags.testBit 0 = true ∧ flags.testBit 1 = false) ∨
      (entryType flags = PE_EXTENDEDSTACK ∧ flags.testBit 0 = true ∧ flags.testBit 1 = true) := by
  have hfpu : flags &&& 1 = (flags.testBit 0).toNat := by
    rw [show (1 : Nat) = 2 ^ 0 from rfl, Nat.and_two_pow, Nat.pow_zero, Nat.mul_one]
  have hstack : flags &&& 2 = (flags.testBit 1).toNat * 2 := by
    rw [show (2 : Nat) = 2 ^ 1 from rfl, Nat.and_two_pow]
  unfold entryType
  rw [hfpu, hstack]
  cases h0 : flags.testBit 0 with
  | false =>
    cases h1 : flags.testBit 1 with
    | false => exact .inl ⟨rfl, rfl, rfl⟩
    | true => exact absurd ⟨h0, h1⟩ h
  | true =>
    cases h1 : flags.testBit 1 with
    | false => exact .inr (.inl ⟨rfl, rfl, rfl⟩)
    | true => exact .inr (.inr ⟨rfl, rfl, rfl⟩)

theorem recordState_spec {datatype : Nat} (h : datatype ≤ PE_EXTENDEDSTACK)
    (currentEntryNr : Nat) (c : Cpu) (stack : Vector UInt8 4096) :
    ∃ r, recordState datatype currentEntryNr c stack = [r] ∧
      r.offset = sizeofTraceOnBPEntry + currentEntryNr * sizeofPageEvent datatype ∧
      r.size = sizeofPageEvent datatype ∧
      r.fpudata.isSome = (datatype == PE_EXTENDED || datatype == PE_EXTENDEDSTACK) ∧
      r.stack.isSome = (datatype == PE_BASICSTACK || datatype == PE_EXTENDEDSTACK) := by
  simp only [PE_EXTENDEDSTACK] at h
  obtain rfl | rfl | rfl | rfl : datatype = PE_BASIC ∨ datatype = PE_EXTENDED ∨
      datatype = PE_BASICSTACK ∨ datatype = PE_EXTENDEDSTACK := by
    simp only [PE_BASIC, PE_EXTENDED, PE_BASICSTACK, PE_EXTENDEDSTACK]
    omega
  · exact ⟨_, rfl, rfl, rfl, rfl, rfl⟩
  · exact ⟨_, rfl, rfl, rfl, rfl, rfl⟩
  · exact ⟨_, rfl, rfl, rfl, rfl, rfl⟩
  · exact ⟨_, rfl, rfl, rfl, rfl, rfl⟩

theorem entryType_le (flags : Nat) : entryType flags ≤ PE_EXTENDEDSTACK := by
  simp only [entryType, PE_BASIC, PE_EXTENDED, PE_BASICSTACK, PE_EXTENDEDSTACK]
  split_ifs <;> omega

/-- Recording keeps the invariant while steps are left. -/
theorem Inv.record (h : t.Inv flags tracecount) (hroom : 0 < t.count) (c : Cpu)
    (stack : Vector UInt8 4096) : (t.record c stack).Inv flags tracecount := by
  obtain ⟨r, hr, hoffset, hsize, hfpu, hstack⟩ :=
    recordState_spec (h.datatype ▸ entryType_le flags) t.numberOfEntries c stack
  have hrecords : (t.record c stack).records = t.records ++ [r] := by
    show t.records ++ recordState t.datatype t.numberOfEntries c stack = _
    rw [hr]
  have hnext : (t.numberOfEntries + 1) * sizeofPageEvent t.datatype =
      t.numberOfEntries * sizeofPageEvent t.datatype + sizeofPageEvent t.datatype :=
    Nat.succ_mul _ _
  have hcount := h.count
  refine ⟨h.datatype, h.logsize, ?_, ?_, ?_, ?_, ?_, ?_⟩
  · rw [hrecords, List.length_append, h.all]
    rfl
  · show ((t.numberOfEntries + 1 : Nat) : Int) + (t.count - 1) = tracecount
    omega
  · show 0 ≤ t.count - 1
    omega
  · intro x hx
    show x.offset + x.size ≤ sizeofTraceOnBPEntry +
      (t.numberOfEntries + 1) * sizeofPageEvent t.datatype
    rw [hrecords, List.mem_append, List.mem_singleton] at hx
    rcases hx with hx | rfl
    · have hbefore := h.inside x hx
      omega
    · omega
  · intro x hx
    rw [hrecords, List.mem_append, List.mem_singleton] at hx
    rcases hx with hx | rfl
    · exact h.fpu x hx
    · exact hfpu
  · intro x hx
    rw [hrecords, List.mem_append, List.mem_singleton] at hx
    rcases hx with hx | rfl
    · exact h.stack x hx
    · exact hstack

theorem step_cases (t : TraceLog) (input : Input) :
    (¬ t.Records input ∧ ∃ b, t.step input = { t with shouldquit := b }) ∨
      (t.Records input ∧ ∃ c stack b f triggered cr3 fsbase gsbase,
        t.step input = { t.record c stack with
          shouldquit := b, finished := f, triggered := triggered, triggeredcr3 := cr3,
          triggeredfsbase := fsbase, triggeredgsbase := gsbase }) := by
  cases input with
  | breakpoint PA c stack =>
    simp only [step, handleSoftwareBreakpoint]
    by_cases hPA : t.PhysicalAddress = PA
    · rw [if_pos hPA]
      by_cases htriggered : t.triggered = true
      · rw [if_pos htriggered]
        refine .inl ⟨fun h => ?_, t.shouldquit, rfl⟩
        exact Bool.false_ne_true (h.2.symm.trans htriggered)
      · rw [if_neg htriggered]
        exact .inr ⟨⟨hPA, Bool.eq_false_iff.2 htriggered⟩,
          c.setRflags { c.rflags with TF := true }, stack, t.shouldquit, t.finished, true,
          _, _, _, rfl⟩
    · rw [if_neg hPA]
      exact .inl ⟨fun h => hPA h.1, t.shouldquit, rfl⟩
  | debugException c exitQualification stack =>
    simp only [step, handleHardwareBreakpoint]
    by_cases hstep : t.isStep c exitQualification = true
    · rw [if_pos hstep]
      exact .inr ⟨hstep, c, stack, _, _, t.triggered, t.triggeredcr3, t.triggeredfsbase,
        t.triggeredgsbase, rfl⟩
    · rw [if_neg hstep]
      exact .inl ⟨hstep, t.shouldquit, rfl⟩
  | stop => exact .inl ⟨fun h => h, true, rfl⟩

theorem Inv.step (h : t.Inv flags tracecount) (hroom : t.HasRoom input) :
    (t.step input).Inv flags tracecount := by
  rcases step_cases t input with ⟨-, b, hstep⟩ | ⟨hrecords, c, stack, b, f, _, _, _, _, hstep⟩
  · rw [hstep]
    exact ⟨h.datatype, h.logsize, h.all, h.count, h.nonneg, h.inside, h.fpu, h.stack⟩
  · have hrecord := h.record (hroom hrecords) c stack
    rw [hstep]
    exact ⟨hrecord.datatype, hrecord.logsize, hrecord.all, hrecord.count, hrecord.nonneg,
      hrecord.inside, hrecord.fpu, hrecord.stack⟩

theorem Inv.bounded (h : t.Inv flags tracecount) (hfits : Fits flags tracecount) :
    t.Bounded flags tracecount := by
  have hcount := h.count
  have hnonneg := h.nonneg
  have hle : t.numberOfEntries ≤ tracecount := by omega
  have hlayout : t.hasFPU = flags.testBit 0 ∧ t.hasStack = flags.testBit 1 := by
    unfold hasFPU hasStack
    rw [h.datatype]
    rcases entryType_cases hfits.layout with ⟨ht, h0, h1⟩ | ⟨ht, h0, h1⟩ | ⟨ht, h0, h1⟩
    · rw [ht, h0, h1]
      exact ⟨rfl, rfl⟩
    · rw [ht, h0, h1]
      exact ⟨rfl, rfl⟩
    · rw [ht, h0, h1]
      exact ⟨rfl, rfl⟩
  refine ⟨hle, h.all, fun r hr => ?_, fun _ => hcount, ⟨hlayout.1, fun r hr => ?_⟩,
    ⟨hlayout.2, fun r hr => ?_⟩⟩
  · have hinside := h.inside r hr
    have hmul := Nat.mul_le_mul_right (sizeofPageEvent (entryType flags)) hle
    rw [h.datatype] at hinside
    rw [h.logsize, Nat.mul_comm (sizeofPageEvent _)]
    omega
  · rw [h.fpu r hr, hlayout.1]
  · rw [h.stack r hr, hlayout.2]

theorem inv_traceonbp {s : Option TraceLog} {physicalAddress : Nat} {cloaked allocated : Bool}
    (h : traceonbp s physicalAddress flags tracecount cloaked allocated = (0, some t))
    (hfits : Fits flags tracecount) : t.Inv flags tracecount := by
  have hsize := hfits.size
  have hpos : 256 ≤ sizeofPageEvent (entryType flags) := by
    unfold sizeofPageEvent
    split_ifs <;> omega
  have hmul := Nat.mul_le_mul_right tracecount hpos
  unfold traceonbp at h
  split at h
  · cases h
  · split at h
    · dsimp only at h
      split at h
      · obtain rfl := Option.some.inj (Prod.mk.inj h).2
        refine ⟨rfl, ?_, rfl, ?_, ?_, ?_, ?_, ?_⟩
        · dsimp only
          rw [Nat.mod_eq_of_lt (a := _ * tracecount) (by omega), Nat.mod_eq_of_lt hsize]
        · show ((0 : Nat) : Int) + toInt32 tracecount = tracecount
          unfold toInt32
          rw [Nat.mod_eq_of_lt (by omega), if_pos (by omega)]
          omega
        · show 0 ≤ toInt32 tracecount
          unfold toInt32
          rw [Nat.mod_eq_of_lt (by omega), if_pos (by omega)]
          omega
        · intro r hr
          cases hr
        · intro r hr
          cases hr
        · intro r hr
          cases hr
      · cases h
    · cases (Prod.mk.inj h).1

def configured (flags tracecount : Nat) : TraceLog where
  triggered := false
  triggeredcr3 := 0
  triggeredfsbase := 0
  triggeredgsbase := 0
  count := toInt32 tracecount
  shouldquit := false
  finished := false
  PhysicalAddress := 0x1000
  datatype := entryType flags
  numberOfEntries := 0
  logsize := (sizeofTraceOnBPEntry * 2 + sizeofPageEvent (entryType flags) * tracecount % 2 ^ 32) %
    2 ^ 32
  records := []

/-- The breakpoint is hit, and the thread steps once. -/
def hitAndStep : List Input :=
  [.breakpoint 0x1000 userCpu (Vector.replicate 4096 0),
    .debugException userCpu 0x4000 (Vector.replicate 4096 0)]

end TraceLog

end CheatEngine.Dbvm
