/-
  CheatEngine.Ceserver.MemoryAccess

  `ReadProcessMemory` and `WriteProcessMemory` of api.c, as programs over the system
  calls they make.  Which back end is used depends on MEMORY_SEARCH_OPTION and on the
  two ATTACH_ settings; a word of ptrace is its eight bytes, in the order of memory.

  What the debugger thread does before and after the words of a debugged process is left
  out here.
-/
import CheatEngine.Lib.Program

namespace CheatEngine.Ceserver

open CheatEngine.Lib

/-- A `long int`, as it lies in memory. -/
abbrev Word : Type := Vector UInt8 8

/-- The value -1, which ptrace returns on an error. -/
def errorWord : Word := Vector.replicate 8 0xFF

/-- The status that `waitpid` stores. -/
inductive WaitStatus
  | stopped (signal : Int)
  | continued
  | exited
  | signaled
  | other

/-- The system calls of the two functions. -/
inductive MemOp
  /-- `pthread_mutex_lock(&memorymutex)` and its unlock. -/
  | lock
  | unlock
  | attach (pid : Int)
  | cont (pid signal : Int)
  | detach (pid : Int)
  | waitpid
  | peek (pid : Int) (address : UInt64)
  | poke (pid : Int) (address : UInt64) (word : Word)
  | vmReadv (pid : Int) (address : UInt64) (size : Nat)
  | vmWritev (pid : Int) (address : UInt64) (bytes : List UInt8)
  | readMem (address : UInt64) (size : Nat)
  | writeMem (address : UInt64) (bytes : List UInt8)
  /-- The thread that is stopped when the debugger thread accesses the memory. -/
  | debuggedThread
  /-- `waitpid` is called once more than there are reports. -/
  | hang

/-- The signature of the system calls.  Where a call reports an error there is no value. -/
abbrev MemSig : Sig where
  Op := MemOp
  Res
    | .lock => Bool
    | .unlock => Unit
    | .attach _ => Bool
    | .cont _ _ => Unit
    | .detach _ => Unit
    | .waitpid => Int × WaitStatus
    | .peek _ _ => Option Word
    | .poke _ _ _ => Bool
    | .vmReadv _ _ _ => Option (List UInt8)
    | .vmWritev _ _ _ => Option Nat
    | .readMem _ _ => Option (List UInt8)
    | .writeMem _ _ => Option Nat
    | .debuggedThread => Int
    | .hang => Empty

abbrev call (o : MemOp) : Prog MemSig (MemSig.Res o) := Prog.perform (S := MemSig) o

/-- The settings that the two functions look at. -/
structure MemorySettings where
  searchOption : Int
  attachToAccess : Bool
  attachToWrite : Bool
  /-- `process_vm_readv` and `process_vm_writev` were found in libc. -/
  vmReadv : Bool
  vmWritev : Bool

/-- What the two functions look at in the process data. -/
structure MemoryTarget where
  pid : Int
  /-- `p->mem` is open; and it may be written. -/
  mem : Bool
  memrw : Bool
  isDebugged : Bool
  pid_pos : 0 < pid

/-- SIGSTOP, as a number of `waitpid`. -/
def stopSignal : Int := 19

/-- The loop of `ptrace_attach_andwait`, for at most that many reports. -/
def waitLoop : Nat → Prog MemSig Int
  | 0 => do
    let never ← call .hang
    never.elim
  | reports + 1 => do
    let (pid, status) ← call .waitpid
    match status with
    | .stopped signal =>
      if signal = stopSignal then return pid
      else do
        call (.cont pid signal)
        waitLoop reports
    | .continued => waitLoop reports
    | .exited => return -2
    | .signaled => return -3
    | .other => return -4

def ptraceAttachAndWait (reports : Nat) (pid : Int) : Prog MemSig Int := do
  if ← call (.attach pid) then waitLoop reports
  else return -1

/-- The attach before an access, when the setting asks for it. -/
def attachIf (reports : Nat) (attach : Bool) (pid otherwise : Int) : Prog MemSig Int :=
  if attach then ptraceAttachAndWait reports pid else pure otherwise

def detachIf (attached : Bool) (pid : Int) : Prog MemSig Unit :=
  if attached then call (.detach pid) else pure ()

/-- The bytes of the buffer from `offset` on, in a word; what is behind the buffer stays
    as it was. -/
def wordAt (buffer : List UInt8) (offset : Nat) (old : Word) : Word :=
  Vector.ofFn fun i => (buffer[offset + i.val]?).getD old[i]

/-- The word loop of `WriteProcessMemory`: the offset it ends at and the count. -/
def pokeLoop (pid : Int) (address : UInt64) (buffer : List UInt8) :
    Nat → Nat → Nat → Prog MemSig (Nat × Nat)
  | 0, offset, written => return (offset, written)
  | fuel + 1, offset, written =>
    if offset + 8 < buffer.length then do
      let _ ← call (.poke pid (address + UInt64.ofNat offset) (wordAt buffer offset errorWord))
      pokeLoop pid address buffer fuel (offset + 8) (written + 8)
    else return (offset, written)

/-- The ptrace path of `WriteProcessMemory`. -/
def pokeWords (pid : Int) (address : UInt64) (buffer : List UInt8) (written : Nat) :
    Prog MemSig Nat := do
  let (offset, written) ← pokeLoop pid address buffer buffer.length 0 written
  if offset < buffer.length then do
    -- the last one to eight bytes
    let old ← call (.peek pid (address + UInt64.ofNat offset))
    let done ← call (.poke pid (address + UInt64.ofNat offset)
      (wordAt buffer offset (old.getD errorWord)))
    return if done then written + (buffer.length - offset) else written
  else return written

/-- The word loop of `ReadProcessMemory`: the bytes that were read, and `is_readable`. -/
def peekLoop (pid : Int) (address : UInt64) (size : Nat) :
    Nat → List UInt8 → Prog MemSig (List UInt8 × Bool)
  | 0, data => return (data, true)
  | fuel + 1, data =>
    if data.length + 8 < size then do
      match ← call (.peek pid (address + UInt64.ofNat data.length)) with
      | some value => peekLoop pid address size fuel (data ++ value.toList)
      | none => return (data, false)
    else return (data, true)

/-- The ptrace path of `ReadProcessMemory`. -/
def peekWords (pid : Int) (address : UInt64) (size : Nat) : Prog MemSig (List UInt8) := do
  let (data, readable) ← peekLoop pid address size size []
  if data.length < size ∧ readable then do
    match ← call (.peek pid (address + UInt64.ofNat data.length)) with
    | some value => return data ++ value.toList.take (size - data.length)
    | none => return data
  else return data

/-- `ReadProcessMemoryDebug` in the debugger thread, without a read that a signal
    interrupts. -/
def readProcessMemoryDebug (s : MemorySettings) (p : MemoryTarget) (address : UInt64)
    (size : Nat) : Prog MemSig (List UInt8) := do
  if s.searchOption = 0 then
    return (← call (.readMem address size)).getD []
  else peekWords p.pid address size

/-- /proc/pid/mem, or the words of the thread `pid`. -/
def readBackEnd (s : MemorySettings) (p : MemoryTarget) (pid : Int) (address : UInt64)
    (size : Nat) : Prog MemSig (List UInt8) :=
  if s.searchOption = 0 then
    if p.mem then do
      let data ← call (.readMem address size)
      return data.getD []
    else return []
  else peekWords pid address size

/-- The part of `ReadProcessMemory` that holds the mutex. -/
def readLocked (reports : Nat) (s : MemorySettings) (p : MemoryTarget) (address : UInt64)
    (size : Nat) : Prog MemSig (List UInt8) := do
  let pid ← attachIf reports s.attachToAccess p.pid p.pid
  if ¬ s.attachToAccess ∨ 0 < pid then do
    let data ← readBackEnd s p pid address size
    detachIf s.attachToAccess pid
    return data
  else return []

/-- process_vm_readv after the attach, when it may read now. -/
def callVmReadv (canreadnow : Bool) (p : MemoryTarget) (address : UInt64) (size : Nat) :
    Prog MemSig (List UInt8) :=
  if canreadnow then do
    let data ← call (.vmReadv p.pid address size)
    return data.getD []
  else return []

/-- `process_vm_readv`, or the system call itself for the option 3.  It detaches whatever
    came of the attach. -/
def readVm (reports : Nat) (s : MemorySettings) (p : MemoryTarget) (address : UInt64)
    (size : Nat) : Prog MemSig (List UInt8) := do
  let pid ← attachIf reports s.attachToAccess p.pid 0
  let data ← callVmReadv (¬ s.attachToAccess ∨ 0 < pid) p address size
  detachIf s.attachToAccess pid
  return data

/-- The part of `ReadProcessMemory` behind process_vm_readv. -/
def readOther (reports : Nat) (s : MemorySettings) (p : MemoryTarget) (address : UInt64)
    (size : Nat) : Prog MemSig (List UInt8) := do
  if p.isDebugged then readProcessMemoryDebug s p address size
  else if ← call .lock then do
    let data ← readLocked reports s p address size
    call .unlock
    return data
  else return []

/-- Whether `ReadProcessMemory` takes process_vm_readv. -/
def MemorySettings.readsVm (s : MemorySettings) : Bool :=
  (s.searchOption = 2 ∧ s.vmReadv) ∨ s.searchOption = 3

/-- `ReadProcessMemory`: the bytes that were read, and the settings afterwards.  The
    process is missing when the handle is not one of a process. -/
def readProcessMemory (reports : Nat) (s : MemorySettings) (p : Option MemoryTarget)
    (address : UInt64) (size : Nat) : Prog MemSig (List UInt8 × MemorySettings) := do
  if address = 0 then return ([], s)
  else
    match p with
    | none => return ([], s)
    | some p =>
      if s.readsVm then do
        return (← readVm reports s p address size, s)
      else do
        let s := if s.searchOption = 2 then { s with searchOption := 0 } else s
        return (← readOther reports s p address size, s)

/-- `WriteProcessMemoryDebug` in the debugger thread. -/
def writeProcessMemoryDebug (address : UInt64) (buffer : List UInt8) : Prog MemSig Nat := do
  let tid ← call .debuggedThread
  pokeWords tid address buffer 0

/-- Whether `WriteProcessMemory` starts with process_vm_writev. -/
def MemorySettings.writesVm (s : MemorySettings) : Bool :=
  (s.searchOption = 2 ∧ s.vmWritev) ∨ s.searchOption = 3

def writeVm (reports : Nat) (s : MemorySettings) (p : MemoryTarget) (address : UInt64)
    (buffer : List UInt8) : Prog MemSig Nat := do
  let attachedpid ← attachIf reports s.attachToWrite p.pid (-1)
  let written ← call (.vmWritev p.pid address buffer)
  detachIf (0 ≤ attachedpid) attachedpid
  call .unlock
  return written.getD 0

/-- /proc/pid/mem, or the words of the thread `pid`. -/
def writeBackEnd (s : MemorySettings) (p : MemoryTarget) (pid : Int) (address : UInt64)
    (buffer : List UInt8) : Prog MemSig Nat :=
  if s.searchOption = 0 ∧ p.memrw then do
    let written ← call (.writeMem address buffer)
    return written.getD 0
  else pokeWords pid address buffer 0

/-- The part of `WriteProcessMemory` that holds the mutex, with ATTACH_TO_WRITE_MEMORY as
    it is then. -/
def writeLocked (reports : Nat) (s : MemorySettings) (p : MemoryTarget) (address : UInt64)
    (buffer : List UInt8) : Prog MemSig Nat := do
  let pid ← attachIf reports s.attachToWrite p.pid p.pid
  if ¬ s.attachToWrite ∨ 0 < pid then do
    let written ← writeBackEnd s p pid address buffer
    detachIf s.attachToWrite pid
    return written
  else return 0

/-- The part of `WriteProcessMemory` behind process_vm_writev. -/
def writeOther (reports : Nat) (s : MemorySettings) (p : MemoryTarget) (address : UInt64)
    (buffer : List UInt8) : Prog MemSig (Nat × MemorySettings) := do
  if ← call .lock then do
    -- without a writable file the thread has to be attached
    let s := if p.memrw then s else { s with attachToWrite := true }
    let written ← writeLocked reports s p address buffer
    call .unlock
    return (written, s)
  else return (0, s)

/-- `WriteProcessMemory`: the count, and the settings afterwards. -/
def writeProcessMemory (reports : Nat) (s : MemorySettings) (p : Option MemoryTarget)
    (address : UInt64) (buffer : List UInt8) : Prog MemSig (Nat × MemorySettings) := do
  match p with
  | none => return (0, s)
  | some p =>
    if p.isDebugged then
      return (← writeProcessMemoryDebug address buffer, s)
    else if s.writesVm then do
      let written ← writeVm reports s p address buffer
      if written ≠ 0 ∨ buffer.length = 0 then return (written, s)
      else writeOther reports s p address buffer
    else writeOther reports s p address buffer

end CheatEngine.Ceserver
