/-
  CheatEngine.Ceserver.Debugger

  A debugged process: the thread list of threads.c, the queue of debug events
  and the functions of api.c that the debugger thread runs to the end without
  waiting.  What the kernel answers is a parameter.
-/
import CheatEngine.Ceserver.Api

namespace CheatEngine.Ceserver

open CheatEngine.Lib

/-! ## Process data (api.h) -/

/-- `ThreadData`.  A suspend count is raised by one per call and lowered only
    above 0. -/
structure ThreadData where
  tid : Int32
  isPaused : Bool
  suspendCount : Nat
  /-- The event to be injected when the thread is resumed. -/
  suspendedDevent : DebugEvent
  deriving DecidableEq, Repr

/-- `ProcessData`, the part that debugging uses. -/
structure ProcessData where
  pid : Int32
  isDebugged : Bool
  threadlist : List ThreadData
  debuggedThreadEvent : DebugEvent
  debugEventQueue : List DebugEvent
  deriving DecidableEq, Repr

/-- Signals by number. -/
def SIGTRAP : Int32 := 5
def SIGSTOP : Int32 := 19
def SIGTTIN : Int32 := 21

def DebugEvent.tid (e : DebugEvent) : Int32 := e.threadid.toUInt64.toUInt32.toInt32

/-! ## Threads (threads.c) -/

namespace ProcessData

section

variable (p : ProcessData)

/-- The place in the thread list that `GetThreadData` points to. -/
def slot (tid : Int32) : Option Nat := p.threadlist.findIdx? (·.tid = tid)

def thread (i : Nat) : Option ThreadData := p.threadlist[i]?

def modifyThread (i : Nat) (f : ThreadData → ThreadData) : ProcessData :=
  { p with threadlist := p.threadlist.modify i f }

def setPaused (i : Nat) (paused : Bool) : ProcessData :=
  p.modifyThread i fun t => { t with isPaused := paused }

/-- `RemoveThreadFromProcess`: the later threads move down. -/
def removeThread (tid : Int32) : ProcessData :=
  { p with threadlist := p.threadlist.eraseP (·.tid = tid) }

/-- `FindPausedThread`: the first paused thread, 0 if there is none. -/
def findPausedThread : Int32 :=
  match p.threadlist.find? (·.isPaused) with
  | some t => t.tid
  | none => 0

def addDebugEventToQueue (devent : DebugEvent) : ProcessData :=
  { p with debugEventQueue := p.debugEventQueue ++ [devent] }

/-- `FindThreadDebugEventInQueue`; every event matches -1. -/
def findThreadDebugEventInQueue (tid : Int32) : Option DebugEvent :=
  p.debugEventQueue.find? fun de => tid = -1 ∨ de.threadid = tid.toInt64

def removeThreadDebugEventFromQueue (tid : Int64) : ProcessData :=
  { p with debugEventQueue := p.debugEventQueue.eraseP (·.threadid = tid) }

def clearCurrent : ProcessData :=
  { p with debuggedThreadEvent := { p.debuggedThreadEvent with threadid := 0 } }

end

end ProcessData

/-- How the kernel answers `ptrace` during one command. -/
structure Kernel where
  /-- `PTRACE_GETSIGINFO`: the signal the thread stopped with. -/
  getSigInfo : Int32 → Option Int32
  /-- `PTRACE_SINGLESTEP`. -/
  singleStep : Int32 → Int32
  /-- `PTRACE_CONT` with a signal. -/
  cont : Int32 → Int32 → Int32

/-- A request that lets a thread run. -/
inductive Resume
  | cont (tid signal : Int32)
  | singleStep (tid : Int32)
  deriving DecidableEq, Repr

/-- The resuming requests of `ContinueFromDebugEvent` and the result of the
    last one. -/
def resumeThreadWith (k : Kernel) (tid ignoresignal signal : Int32) : List Resume × Int32 :=
  if ignoresignal = 2 then
    if k.singleStep tid ≠ 0 then ([.singleStep tid, .cont tid signal], k.cont tid signal)
    else ([.singleStep tid], k.singleStep tid)
  else ([.cont tid signal], k.cont tid signal)

/-- The signal that `ContinueFromDebugEvent` passes on to a thread that
    stopped with `si_signo`. -/
def passedSignal (ignoresignal si_signo : Int32) : Int32 :=
  let signal := if ignoresignal ≠ 0 then 0 else si_signo
  if signal = SIGSTOP ∨ signal = SIGTTIN then 0 else signal

/-- `ContinueFromDebugEvent` on the process behind its handle: the result, the
    process data and the resuming requests made. -/
def continueFromDebugEvent (k : Kernel) (p : ProcessData) (tid ignoresignal : Int32) :
    Int32 × ProcessData × List Resume :=
  -- a virtual event stopped nothing
  if p.debuggedThreadEvent.debugevent.toInt < 0 then
    (1, { p with debuggedThreadEvent :=
      { p.debuggedThreadEvent with threadid := 0, debugevent := 0 } }, [])
  else
    match p.slot tid with
    | none => (0, p.clearCurrent, [])
    | some i =>
      if ((p.thread i).elim 0 ThreadData.suspendCount) > 0 then (1, p, [])
      else
        match k.getSigInfo tid with
        | none => (0, p, [])
        | some si_signo =>
          let (requests, result) :=
            resumeThreadWith k tid ignoresignal (passedSignal ignoresignal si_signo)
          let p := p.setPaused i false
          if result.toInt < 0 then (0, (p.removeThread tid).clearCurrent, requests)
          else (1, p.clearCurrent, requests)

end CheatEngine.Ceserver
