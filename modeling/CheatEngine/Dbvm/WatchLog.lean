/-
  CheatEngine.Dbvm.WatchLog

  The log of a watch (eptstructs.h, epthandler.c): a header and one entry for each place in
  the code that came to the watched bytes.  `ept_watch_activate` makes it,
  `ept_handleWatchEvent` adds to it, and `ept_watch_retrievelog` copies it to the guest,
  block by block, each time the guest executes its VMCALL.

  A call that writes outside the block of the log, or whose `copymem` does not end, has no
  result.
-/
import CheatEngine.Dbvm.GuestMemory
import CheatEngine.Dbvm.PageEvent
import CheatEngine.Dbvm.Watch

namespace CheatEngine.Dbvm

open CheatEngine.Lib

/-- `EPTO_MULTIPLERIP`, `EPTO_LOG_ALL` and `EPTO_GROW_WHENFULL`. -/
def eptoMultipleRip : UInt32 := 0x1
def eptoLogAll : UInt32 := 0x2
def eptoGrowWhenFull : UInt32 := 0x20

/-! ## Layout -/

def RFlags.value (v : RFlags) : UInt64 :=
  (v.other &&& ~~~0x10300) ||| (if v.TF then 0x100 else 0) ||| (if v.IF then 0x200 else 0) |||
    (if v.RF then 0x10000 else 0)

def Selectors.bytes (s : Selectors) : List UInt8 :=
  u16 s.cs ++ u16 s.ds ++ u16 s.es ++ u16 s.ss ++ u16 s.fs ++ u16 s.gs

/-- The registers of a page event, in the order of the structure. -/
def PageEventBasic.qwords (e : PageEventBasic) : List UInt64 :=
  [e.virtualAddress, e.physicalAddress, e.cr3, e.fsBase, e.gsBase, e.gsBaseKernel, e.flags.value,
    e.rax, e.rbx, e.rcx, e.rdx, e.rsi, e.rdi, e.r8, e.r9, e.r10, e.r11, e.r12, e.r13, e.r14,
    e.r15, e.rbp, e.rsp, e.rip, e.dr0, e.dr1, e.dr2, e.dr3, e.dr6, e.dr7]

def PageEventBasic.bytes (e : PageEventBasic) : List UInt8 :=
  e.qwords.flatMap u64 ++ e.selectors.bytes ++ u32 e.count

@[simp] theorem PageEventBasic.bytes_length (e : PageEventBasic) : e.bytes.length = 256 := by
  simp [PageEventBasic.bytes, PageEventBasic.qwords, Selectors.bytes]

/-- What the entries of a log hold beside the registers: `PE_BASIC`, `PE_EXTENDED`,
    `PE_BASICSTACK` and `PE_EXTENDEDSTACK`. -/
inductive EntryType
  | basic
  | extended
  | basicStack
  | extendedStack

namespace EntryType

def ofOptions (options : UInt32) : EntryType :=
  if options &&& 0x8 = 0 then if options &&& 0x4 = 0 then basic else extended
  else if options &&& 0x4 = 0 then basicStack else extendedStack

/-- The number in the header. -/
def code : EntryType → UInt32
  | basic => 0
  | extended => 1
  | basicStack => 2
  | extendedStack => 3

def fpuSize : EntryType → Nat
  | basic | basicStack => 0
  | extended | extendedStack => 512

def stackSize : EntryType → Nat
  | basic | extended => 0
  | basicStack | extendedStack => 4096

def entrySize (t : EntryType) : Nat := 256 + t.fpuSize + t.stackSize

theorem entrySize_pos (t : EntryType) : 0 < t.entrySize := by
  unfold entrySize
  omega

/-- The part of the FPU state that an entry keeps. -/
def keepFpu : (t : EntryType) → FXSAVE64 → Vector UInt8 t.fpuSize
  | basic, _ | basicStack, _ => #v[]
  | extended, f | extendedStack, f => f

def keepStack : (t : EntryType) → Vector UInt8 4096 → Vector UInt8 t.stackSize
  | basic, _ | extended, _ => #v[]
  | basicStack, v | extendedStack, v => v

end EntryType

/-- An entry: `PageEventBasic`, `PageEventExtended`, `PageEventBasicWithStack` or
    `PageEventExtendedWithStack`. -/
structure LogEntry (t : EntryType) where
  basic : PageEventBasic
  fpudata : Vector UInt8 t.fpuSize
  stack : Vector UInt8 t.stackSize

variable {t : EntryType}

def LogEntry.bytes (e : LogEntry t) : List UInt8 :=
  e.basic.bytes ++ e.fpudata.toList ++ e.stack.toList

@[simp] theorem LogEntry.bytes_length (e : LogEntry t) : e.bytes.length = t.entrySize := by
  simp [LogEntry.bytes, EntryType.entrySize, Nat.add_assoc]

/-- `peb->Count++` -/
def LogEntry.again (e : LogEntry t) : LogEntry t :=
  { e with basic := { e.basic with count := e.basic.count + 1 } }

/-- The `sizeof` of a `PageEventListDescriptor`; the entries start behind it. -/
def headerSize : Nat := 24

/-- `PageEventListDescriptor`, with the size of its block; `numberOfEntries` is the number of
    entries. -/
structure WatchLog (t : EntryType) where
  id : UInt32
  maxNumberOfEntries : UInt32
  missedEntries : UInt32
  pe : List (LogEntry t)
  block : Nat

namespace WatchLog

/-- The bytes of the header, with the padding in front of the entries. -/
def header (log : WatchLog t) : List UInt8 :=
  u32 log.id ++ u32 log.maxNumberOfEntries ++ u32 (UInt32.ofNat log.pe.length) ++
    u32 log.missedEntries ++ u32 t.code ++ List.replicate 4 0

@[simp] theorem header_length (log : WatchLog t) : log.header.length = headerSize := by
  simp [header, headerSize]

def bytes (log : WatchLog t) : List UInt8 := log.header ++ log.pe.flatMap LogEntry.bytes

theorem flatMap_bytes_length (l : List (LogEntry t)) :
    (l.flatMap LogEntry.bytes).length = l.length * t.entrySize := by
  induction l with
  | nil => exact (Nat.zero_mul _).symm
  | cons e l ih =>
    rw [List.flatMap_cons, List.length_append, ih, LogEntry.bytes_length, List.length_cons,
      Nat.succ_mul, Nat.add_comm]

theorem bytes_length (log : WatchLog t) :
    log.bytes.length = headerSize + log.pe.length * t.entrySize := by
  rw [bytes, List.length_append, header_length, flatMap_bytes_length]

def sizeneeded (log : WatchLog t) : Nat := (headerSize + log.pe.length * t.entrySize) % 2 ^ 32

theorem sizeneeded_le (log : WatchLog t) : log.sizeneeded ≤ log.bytes.length := by
  rw [bytes_length]
  exact Nat.mod_le _ _

def miss (log : WatchLog t) : WatchLog t := { log with missedEntries := log.missedEntries + 1 }

end WatchLog

/-- An entry of `eptWatchList`, with the log. -/
structure LoggedWatch (t : EntryType) where
  watch : WatchEntry
  copyInProgress : Bool
  log : WatchLog t

namespace LoggedWatch

/-- Count the event as missed. -/
def miss (w : LoggedWatch t) : LoggedWatch t := { w with log := w.log.miss }

/-- The log that `ept_watch_activate` makes for a watch.  It does not reset
    `CopyInProgress`. -/
def activate (t : EntryType) (ID : Nat) (watch : WatchEntry) (copyInProgress : Bool)
    (maxEntryCount : Nat) : LoggedWatch t where
  watch := watch
  copyInProgress := copyInProgress
  log :=
    { id := UInt32.ofNat ID
      maxNumberOfEntries := UInt32.ofNat maxEntryCount
      missedEntries := 0
      pe := []
      -- `sizeof(PageEventListDescriptor)*2+structsize*MaxEntryCount`, where the product is an int
      block := ((headerSize * 2 + toInt32 (t.entrySize * maxEntryCount)) % 2 ^ 64).toNat }

/-! ## Events -/

end LoggedWatch

/-- `saveStack`: the page faults of the guest are not raised. -/
def saveStack (g : GuestMemory) (used : Nat → Bool) (rsp : Nat) : Option (Vector UInt8 4096) :=
  let stack (size : Nat) : Vector UInt8 4096 :=
    Vector.ofFn fun i => if i.val < size then g.byte (addressAt rsp i) else 0
  match mapVMmemoryEx g used rsp 4096 with
  | .mapped => some (stack 4096)
  | .pageFault pagefaultaddress =>
    let size := addressDifference pagefaultaddress rsp
    -- `copymem` takes it as a `size_t`
    if size < 0 then none else some (stack size.toNat)
  | .noRoom | .badSize => some (stack 0)

/-- An event that is handled for a watch: the CPU, what the hardware says about the
    violation, the address, the memory of the guest, the entries of the CPU's map table in
    use, and, should the log grow, whether there is memory for it and what is in it. -/
structure LogEvent (t : EntryType) where
  cpu : Cpu
  violation : Violation
  physicalAddress : Nat
  guest : GuestMemory
  used : Nat → Bool
  hasMemory : Bool
  fresh : Nat → LogEntry t

/-- The registers of the entry and of the CPU are the same. -/
def PageEventBasic.sameRegisters (peb : PageEventBasic) (c : Cpu) : Bool :=
  peb.rsp = c.rsp && peb.rbp = c.registers.rbp && peb.rax = c.rax && peb.rbx = c.registers.rbx &&
    peb.rcx = c.registers.rcx && peb.rdx = c.registers.rdx && peb.rsi = c.registers.rsi &&
    peb.rdi = c.registers.rdi && peb.r8 = c.registers.r8 && peb.r9 = c.registers.r9 &&
    peb.r10 = c.registers.r10 && peb.r11 = c.registers.r11 && peb.r12 = c.registers.r12 &&
    peb.r13 = c.registers.r13 && peb.r14 = c.registers.r14 && peb.r15 = c.registers.r15

/-- The event is counted in this entry. -/
def PageEventBasic.isSame (peb : PageEventBasic) (options : UInt32) (c : Cpu) : Bool :=
  peb.rip = c.rip && (options &&& eptoMultipleRip = 0 || peb.sameRegisters c)

/-- An instruction fetch of a page that is closed only because the CPU has no execute-only
    pages; a watch for reads or writes does not look at it. -/
def WatchEntry.ignoresFetch (w : WatchEntry) : Violation → Bool
  | .ept R _ X _ _ _ => w.type ≠ .execute && !R && X
  | .np _ _ _ _ => false

def WatchEntry.passesFilter (w : WatchEntry) (address : Nat) : Bool :=
  w.options &&& eptoLogAll ≠ 0 || w.contains address

namespace LoggedWatch

def newEntry (e : LogEvent t) : Option (LogEntry t) :=
  let entry (stack : Vector UInt8 4096) : LogEntry t :=
    { basic := fillPageEventBasic e.cpu
      fpudata := t.keepFpu e.cpu.fxsave
      stack := t.keepStack stack }
  if t.stackSize = 0 then some (entry (Vector.replicate 4096 0))
  else (saveStack e.guest e.used e.cpu.rsp.toNat).map entry

def addEntry (w : LoggedWatch t) (e : LogEvent t) : Option (LoggedWatch t) :=
  if headerSize + (w.log.pe.length + 1) * t.entrySize ≤ w.log.block then
    (newEntry e).map fun entry => { w with log := { w.log with pe := w.log.pe ++ [entry] } }
  else none

/-- `realloc` of the log.  It is `numberOfEntries` that is set to the new maximum. -/
def grow (w : LoggedWatch t) (e : LogEvent t) : LoggedWatch t :=
  let newmax := w.log.pe.length * 2
  { w with
    log :=
      { w.log with
        block := ((headerSize + toInt32 (t.entrySize * newmax)) % 2 ^ 64).toNat
        pe := w.log.pe ++ (List.range' w.log.pe.length w.log.pe.length).map e.fresh } }

def isFull (w : LoggedWatch t) : Bool := w.log.maxNumberOfEntries.toNat ≤ w.log.pe.length

/-- `ept_handleWatchEvent`, from "save this state?" on. -/
def logEvent (w : LoggedWatch t) (e : LogEvent t) : Option (LoggedWatch t) :=
  if w.watch.ignoresFetch e.violation then some w
  else if w.copyInProgress then some w.miss
  else if !w.watch.passesFilter e.physicalAddress then some w
  else
    match w.log.pe.findIdx? (·.basic.isSame w.watch.options e.cpu) with
    | some i => some { w with log := { w.log with pe := w.log.pe.modify i LogEntry.again } }
    | none =>
      if w.isFull then
        if w.watch.options &&& eptoGrowWhenFull = 0 then some w.miss
        else if e.hasMemory then (w.grow e).addEntry e
        else
          -- stop trying
          some { w.miss with
            watch := { w.watch with options := w.watch.options &&& ~~~eptoGrowWhenFull } }
      else w.addEntry e

end LoggedWatch

/-- A watch whose log is retrieved, with the memory of the guest and the fields of its
    parameters that `ept_watch_retrievelog` writes. -/
structure Retrieval (t : EntryType) where
  logged : LoggedWatch t
  guest : GuestMemory
  resultSize : Nat
  offset : Nat

/-- What the guest goes on with. -/
inductive RetrieveReply
  /-- The next instruction, with this error code. -/
  | returned (errorcode : Nat)
  /-- A page fault; the VMCALL is executed again. -/
  | fault (address : Nat)
  /-- The VMCALL is executed again. -/
  | rerun

namespace Retrieval

/-- `copymem` of the next `blocksize` bytes of the log, where `blocksize` is an `int`. -/
def copyBlock (s : Retrieval t) (destinationaddress : Nat) (blocksize : Int) : Option (Retrieval t) :=
  if blocksize < 0 then none
  else
    some { s with
      guest := s.guest.write destinationaddress
        ((s.logged.log.bytes.drop s.offset).take blocksize.toNat)
      offset := (s.offset + blocksize.toNat) % 2 ^ 32 }

def finish (s : Retrieval t) : Retrieval t :=
  { s with
    logged := { s.logged with copyInProgress := false, log := { s.logged.log with pe := [] } }
    resultSize := s.offset }

/-- Copy up to 64 KB, or up to the first page that is not present. -/
def transfer (results : Nat) (used : Nat → Bool) (s : Retrieval t) :
    Option (RetrieveReply × Retrieval t) :=
  let sizeneeded := s.logged.log.sizeneeded
  let s := { s with logged := { s.logged with copyInProgress := true } }
  let sizeleft := toInt32 (sizeneeded - s.offset)
  let destinationaddress := addressAt results s.offset
  let blocksize := min sizeleft (16 * 4096)
  match mapVMmemoryEx s.guest used destinationaddress blocksize with
  | .noRoom => some (.returned 0x1001, s)
  | .badSize => some (.returned 0x1003, s)
  | .pageFault pagefaultaddress =>
    (s.copyBlock destinationaddress (addressDifference pagefaultaddress destinationaddress)).map
      fun s => (.fault pagefaultaddress, s)
  | .mapped =>
    (s.copyBlock destinationaddress blocksize).map fun s =>
      if sizeneeded ≤ s.offset then (.returned 0, s.finish) else (.rerun, s)

def retrievelog (eptWatchListPos ID results : Nat) (used : Nat → Bool) (s : Retrieval t) :
    Option (RetrieveReply × Retrieval t) :=
  if eptWatchListPos ≤ ID then some (.returned 1, s)
  else if !s.logged.watch.active then some (.returned 3, s)
  else if s.resultSize < s.logged.log.sizeneeded then
    some (.returned 2, { s with resultSize := s.logged.log.sizeneeded })
  else if results = 0 then some (.returned 4, s)
  else if s.offset ≠ 0 ∧ s.logged.copyInProgress = false then some (.returned 5, s)
  else if s.logged.log.sizeneeded < s.offset then some (.returned 6, s)
  else s.transfer results used

end Retrieval

end CheatEngine.Dbvm
