/-
  CheatEngine.Ceserver.Connections

  Several connections to one ceserver.  They share the handle list and the
  process data behind it (api.c), which is reference counted; a connection has
  a thread of its own that keeps the handle of the process it debugs
  (ceserver.c, `newconnection`).

  Commands of different connections follow one another in any order.  What the
  kernel decides (whether a process is there, its tasks, whether a thread
  stops or is gone, how a connection ends) is part of the input of a step.
-/
import Mathlib.Logic.Function.Basic
import CheatEngine.Ceserver.HandleTable
import CheatEngine.Ceserver.Debugger
import CheatEngine.Ceserver.Dispatch

namespace CheatEngine.Ceserver

open CheatEngine.Lib

/-- A `ProcessData` object with its reference count. -/
structure OpenedProcess where
  data : ProcessData
  referenceCount : Int
  deriving DecidableEq, Repr

/-- The process data that `OpenProcess` creates. -/
def OpenedProcess.new (pid : Int32) : OpenedProcess where
  data :=
    { pid
      isDebugged := false
      threadlist := []
      debuggedThreadEvent := ⟨0, 0, 0⟩
      debugEventQueue := [] }
  referenceCount := 1

/-- The thread-local variables of a connection's thread, less `debugfd`: it
    only says on which sockets the thread waits. -/
structure ConnectionThread where
  threadname : ThreadName
  /-- 0, or the handle of the debugged process. -/
  isDebuggerThread : Int32
  /-- The process data on which `StartDebug` succeeded.  No function reads
      it. -/
  debugged : List Pointer
  deriving DecidableEq, Repr

abbrev ConnectionId : Type := Nat

/-- The globals of the server and the threads of its connections. -/
structure ServerState where
  handles : HandleTable
  /-- The process data by pointer, `none` once it is freed; no pointer is
      used twice, and none of them is `NULL`. -/
  heap : List (Option OpenedProcess)
  /-- The traced threads: for which process data they were attached and by
      which connection's thread. -/
  tracing : Int32 → Option (Pointer × ConnectionId)
  threads : ConnectionId → Option ConnectionThread
  connections : Int

/-- What `/proc` answers while a process is opened or its modules are
    listed. -/
structure ProcAnswers where
  /-- `chdir` into the directory of the process. -/
  chdir : Bool
  /-- `fopen` of its maps for a list of all modules. -/
  maps : Bool
  /-- `fopen` of its maps for the first module. -/
  firstMaps : Bool

namespace ServerState

def initial : ServerState where
  handles := .initial
  heap := [none]
  tracing _ := none
  threads _ := none
  connections := 0

section

variable (s : ServerState)

def process (p : Pointer) : Option OpenedProcess := (s.heap[p]?).join

/-- `GetHandleType(h) == htProcesHandle`, then `GetPointerFromHandle(h)`. -/
def processOf (h : Int) : Option Pointer :=
  if s.handles.getHandleType h = .htProcesHandle then some (s.handles.getPointerFromHandle h)
  else none

def modify (p : Pointer) (f : OpenedProcess → OpenedProcess) : ServerState :=
  { s with heap := s.heap.modify p (Option.map f) }

/-- Write a thread-local variable of a connection. -/
def modifyThread (c : ConnectionId) (f : ConnectionThread → ConnectionThread) : ServerState :=
  { s with threads := Function.update s.threads c ((s.threads c).map f) }

def malloc (r : OpenedProcess) : Pointer × ServerState :=
  (s.heap.length, { s with heap := s.heap ++ [some r] })

def createHandle (p : Pointer) (type : HandleType) : Int × ServerState :=
  let (h, handles) := s.handles.createHandleFromPointer p type
  (h, { s with handles })

/-! ## Handles (api.c) -/

/-- `CloseHandle`.  Every object but process data has one reference. -/
def closeHandle (h : Int) : ServerState :=
  match s.processOf h with
  | none => { s with handles := s.handles.removeHandle h }
  | some p =>
    match s.process p with
    | none => s
    | some r =>
      if r.referenceCount - 1 ≤ 0 then
        { s with heap := s.heap.set p none, handles := s.handles.removeHandle h }
      else s.modify p fun r => { r with referenceCount := r.referenceCount - 1 }

/-- The handle that `SearchHandleList` finds for a pid, or 0. -/
def openedHandle (pid : Int32) : Int :=
  s.handles.searchHandleList .htProcesHandle fun p => (s.process p).any (·.data.pid = pid)

end

/-- `CreateToolhelp32Snapshot` for modules: it opens the process to read the
    start of each mapping and closes it again.  What a list of modules points
    to is not part of the state. -/
def moduleSnapshot (openProcess : ServerState → Int32 → Int × ServerState) (maps : Bool)
    (s : ServerState) (pid : Int32) : Int × ServerState :=
  if maps then
    let (phandle, s) := openProcess s pid
    (s.closeHandle phandle).createHandle 0 .htTHSModule
  else (0, s)

/-- `OpenProcess`, which lists the first module of a process it has not opened
    before.  The list opens the process again and then finds it, so a fuel of
    2 is enough (`openProcess_fuel`). -/
def openProcess (proc : ProcAnswers) : Nat → ServerState → Int32 → Int × ServerState
  | 0, s, _ => (0, s)
  | fuel + 1, s, pid =>
    let handle := s.openedHandle pid
    if handle ≠ 0 then
      (handle, s.modify (s.handles.getPointerFromHandle handle) fun r =>
        { r with referenceCount := r.referenceCount + 1 })
    else if proc.chdir then
      let (p, s) := s.malloc (.new pid)
      let (result, s) := s.createHandle p .htProcesHandle
      let (ths, s) := moduleSnapshot (openProcess proc fuel) proc.firstMaps s pid
      (result, if ths ≠ 0 then s.closeHandle ths else s)
    else (0, s)

/-- `openExtension`: the handle of the pipe is removed at once. -/
def openExtension (s : ServerState) : ServerState :=
  let o := s.createHandle 0 .htPipeHandle
  { o.2 with handles := o.2.handles.removeHandle o.1 }

/-- `CloseAllPipes`, with as many rounds as there are slots. -/
def closeAllPipes : Nat → ServerState → ServerState
  | 0, s => s
  | rounds + 1, s =>
    let h := s.handles.searchHandleList .htPipeHandle fun _ => true
    if h ≠ 0 then closeAllPipes rounds (s.closeHandle h) else s

/-! ## Debugging (api.c) -/

end ServerState

/-- `StartDebug` on one task: the thread is listed and its creation queued.
    `safe_ptrace` returns an unsigned value, so the test for a failed
    `PTRACE_ATTACH` never holds. -/
def ProcessData.attachTask (p : ProcessData) (tid : Int32) : ProcessData :=
  let td : ThreadData := ⟨tid, false, 0, ⟨0, 0, 0⟩⟩
  let p := { p with threadlist := p.threadlist ++ [td] }
  let p :=
    if p.isDebugged then p
    else
      -- the first event creates the process, with four shared breakpoints
      let p := { p.clearCurrent with isDebugged := true }
      p.addDebugEventToQueue ⟨-2, p.pid.toInt64, 0x40000⟩
  p.addDebugEventToQueue ⟨-1, tid.toInt64, 0⟩

/-- `StartDebug` on process data: the tasks by number, `none` when their
    directory could not be opened. -/
def ProcessData.startDebug (p : ProcessData) (tasks : Option (List Int32)) : ProcessData :=
  (tasks.getD []).foldl attachTask { p with threadlist := [] }

namespace ServerState

/-- The tasks in a listing; `.` and `..` have the number 0. -/
def taskNumbers (tasks : Option (List (Int32 × Bool))) : Option (List (Int32 × Bool)) :=
  tasks.map fun l => l.filter (·.1 ≠ 0)

/-- `PTRACE_ATTACH` of each task, with the answers of the kernel. -/
def attachAll (c : ConnectionId) (p : Pointer) (tracing : Int32 → Option (Pointer × ConnectionId))
    (tasks : List (Int32 × Bool)) : Int32 → Option (Pointer × ConnectionId) :=
  tasks.foldl (fun tracing task =>
    if task.2 then Function.update tracing task.1 (some (p, c)) else tracing) tracing

/-- `CMD_STARTDEBUG`: `StartDebug`, which names the thread when it is the first
    to debug the process, and what the dispatcher keeps of a success. -/
def startDebug (s : ServerState) (c : ConnectionId) (h : Int32)
    (tasks : Option (List (Int32 × Bool))) : ServerState :=
  match s.processOf h.toInt with
  | none => s
  | some p =>
    match s.process p with
    | none => s
    | some r =>
      let tasks := taskNumbers tasks
      let data := r.data.startDebug (tasks.map (List.map Prod.fst))
      let s := s.modify p fun r => { r with data }
      let s := { s with tracing := attachAll c p s.tracing (tasks.getD []) }
      if data.isDebugged then
        s.modifyThread c fun k =>
          { threadname := if r.data.isDebugged then k.threadname else .literal
            isDebuggerThread := h
            debugged := p :: k.debugged }
      else s

/-- `StopDebug` on one thread: it is stopped and detached, or gone.  Only the
    thread that attached can detach. -/
def detach (c : ConnectionId) (stops : Int32 → Bool)
    (tracing : Int32 → Option (Pointer × ConnectionId)) (tid : Int32) :
    Int32 → Option (Pointer × ConnectionId) :=
  if stops tid then
    if (tracing tid).any (·.2 = c) then Function.update tracing tid none else tracing
  else Function.update tracing tid none

section

variable (s : ServerState)

/-- `StopDebug`, run by the thread of connection `c`. -/
def stopDebug (c : ConnectionId) (stops : Int32 → Bool) (h : Int32) : ServerState :=
  match s.processOf h.toInt with
  | none => s
  | some p =>
    match s.process p with
    | none => s
    | some r =>
      { s.modify p fun r => { r with data := { r.data with isDebugged := false } } with
        tracing := (r.data.threadlist.map (·.tid)).foldl (detach c stops) s.tracing }

/-! ## Connections (ceserver.c) -/

/-- `newconnection` up to its loop. -/
def connect (c : ConnectionId) : ServerState :=
  { s with
    threads := Function.update s.threads c (some ⟨.null, 0, []⟩)
    connections := s.connections + 1 }

def threadClosedEvent : ServerState :=
  let s := { s with connections := s.connections - 1 }
  let s := if s.connections = 0 then s.closeAllPipes s.handles.max else s
  if s.connections < 0 then { s.closeAllPipes s.handles.max with connections := 0 } else s

/-- The thread of a connection returns: the kernel detaches what it still
    traces. -/
def threadReturns (c : ConnectionId) : ServerState :=
  { s with
    threads := Function.update s.threads c none
    tracing := fun tid => (s.tracing tid).filter (·.2 ≠ c) }

/-- What `newconnection` does first when `recv` returns 0. -/
def disconnectPath (c : ConnectionId) (stops : Int32 → Bool) : ServerState :=
  match s.threads c with
  | none => s
  | some k =>
    if k.threadname ≠ .null then
      if k.isDebuggerThread ≠ 0 then s.stopDebug c stops k.isDebuggerThread else s
    else s

end

end ServerState

/-- What the debug commands other than `StartDebug` and `StopDebug` do to
    process data: they neither list a thread nor change `isDebugged`. -/
structure DebugChange where
  change : ProcessData → ProcessData
  isDebugged : ∀ p, (change p).isDebugged = p.isDebugged
  listed : ∀ p tid, tid ∈ (change p).threadlist.map (·.tid) → tid ∈ p.threadlist.map (·.tid)

def DebugChange.continueFromDebugEvent (k : Kernel) (tid ignoresignal : Int32) : DebugChange where
  change p := (Ceserver.continueFromDebugEvent k p tid ignoresignal).2.1
  isDebugged p := by
    unfold Ceserver.continueFromDebugEvent
    repeat' split
    all_goals rfl
  listed p t := by
    have hpaused : ∀ i, (p.setPaused i false).threadlist.map (·.tid) =
        p.threadlist.map (·.tid) := by
      intro i
      apply List.ext_getElem?
      intro j
      simp only [ProcessData.setPaused, ProcessData.modifyThread, List.getElem?_map,
        List.getElem?_modify]
      cases p.threadlist[j]? with
      | none => rfl
      | some t => by_cases hij : i = j <;> simp [hij]
    unfold Ceserver.continueFromDebugEvent
    repeat' split
    all_goals
      simp only [ProcessData.clearCurrent, ProcessData.removeThread, hpaused, imp_self]
    -- a thread that cannot be continued is taken off the list
    intro ht
    rw [← hpaused]
    exact (List.eraseP_sublist.map _).subset ht

/-- A step of the server. -/
inductive ServerInput
  | connect (c : ConnectionId)
  | setConnectionName (c : ConnectionId) (name : List UInt8)
  | openProcess (c : ConnectionId) (pid : Int32) (proc : ProcAnswers)
  | closeHandle (c : ConnectionId) (h : Int32)
  | moduleSnapshot (c : ConnectionId) (pid : Int32) (proc : ProcAnswers)
  /-- Snapshots of processes and threads, pipes and remote threads. -/
  | createHandle (c : ConnectionId) (type : HandleType)
      (other : type ≠ .htEmpty ∧ type ≠ .htProcesHandle)
  | openExtension (c : ConnectionId)
  | startDebug (c : ConnectionId) (h : Int32) (tasks : Option (List (Int32 × Bool)))
  | debugCommand (c : ConnectionId) (h : Int32) (change : DebugChange)
  | closeConnection (c : ConnectionId) (stops : Int32 → Bool)
  | terminateServer (c : ConnectionId)
  /-- `recv` returns 0. -/
  | disconnect (c : ConnectionId) (stops : Int32 → Bool)
  /-- `recv` returns -1. -/
  | readError (c : ConnectionId)
  /-- A thread of the system exits. -/
  | threadExit (tid : Int32)

namespace ServerState

/-- A command of an open connection; a connection that is not open sends
    none. -/
def command (s : ServerState) (c : ConnectionId) (f : ConnectionThread → ServerState) : ServerState :=
  match s.threads c with
  | none => s
  | some k => f k

def step (s : ServerState) : ServerInput → ServerState
  | .connect c => if (s.threads c).isSome then s else s.connect c
  | .setConnectionName c name =>
    s.command c fun k =>
      -- `free` of the literal aborts the server; the next one starts afresh
      if k.threadname = .literal then initial
      else s.modifyThread c fun k => { k with threadname := .heap name }
  | .openProcess c pid proc => s.command c fun _ => (openProcess proc 2 s pid).2
  | .closeHandle c h => s.command c fun _ => s.closeHandle h.toInt
  | .moduleSnapshot c pid proc =>
    s.command c fun _ => (moduleSnapshot (openProcess proc 2) proc.maps s pid).2
  | .createHandle c type _ => s.command c fun _ => (s.createHandle 0 type).2
  | .openExtension c => s.command c fun _ => s.openExtension
  | .startDebug c h tasks => s.command c fun _ => s.startDebug c h tasks
  | .debugCommand c h change =>
    s.command c fun _ =>
      match s.processOf h.toInt with
      | none => s
      | some p => s.modify p fun r => { r with data := change.change r.data }
  | .closeConnection c stops =>
    s.command c fun k =>
      if k.isDebuggerThread ≠ 0 then
        (s.stopDebug c stops k.isDebuggerThread).modifyThread c fun k =>
          { k with isDebuggerThread := 0, debugged := [] }
      else s
  | .terminateServer c => s.command c fun _ => initial
  | .disconnect c stops =>
    s.command c fun _ => (s.disconnectPath c stops).threadClosedEvent.threadReturns c
  | .readError c => s.command c fun _ => s.threadClosedEvent.threadReturns c
  | .threadExit tid => { s with tracing := Function.update s.tracing tid none }

end ServerState

end CheatEngine.Ceserver
