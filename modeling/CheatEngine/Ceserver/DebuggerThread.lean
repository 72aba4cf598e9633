/-
  CheatEngine.Ceserver.DebuggerThread

  The debugger thread of one process as a transition system.  A command that
  has to wait for a thread waits inside `WaitForDebugEventNative`, which
  dispatches further commands while it waits; so the state has a stack of
  waiting commands, the innermost one first.  One input is what happens next:
  a command arrives, the kernel reports a stopped thread, the semaphore is
  posted, or the time of a wait is up.
-/
import CheatEngine.Ceserver.Debugger

namespace CheatEngine.Ceserver

open CheatEngine.Lib

/-- The commands that stop a running thread for as long as they work on it. -/
inductive PauseCommand
  | getThreadContext
  | setThreadContext
  | setBreakpoint
  | removeBreakpoint
  deriving DecidableEq, Repr

/-- A command on the debugged process. -/
inductive DebugCommand
  | suspendThread (tid : Int32)
  | resumeThread (tid : Int32)
  | waitForDebugEvent (timeout : Int32)
  | continueFromDebugEvent (tid ignoresignal : Int32)
  | pause (kind : PauseCommand) (tid : Int32)

/-- A command inside `WaitForDebugEventNative`.  Pointers into the thread list
    are places in it. -/
inductive Frame
  | suspend (tid : Int32) (i : Nat)
  | wait (timeout : Int32)
  /-- `tries` is `k`, `de` the event, unwritten at first; `next` is the place
      that the loop over all threads goes on with, if there is one. -/
  | pause (kind : PauseCommand) (tid : Int32) (i tries : Nat) (de : DebugEvent)
      (next : Option Nat)

namespace Frame

/-- The thread that is waited for, -1 for any. -/
def wanted : Frame → Int32
  | suspend tid _ => tid
  | wait _ => -1
  | pause _ tid _ _ _ _ => tid

/-- The wait has a time limit: only then are commands dispatched during it. -/
def timed : Frame → Bool
  | wait timeout => 0 < timeout.toInt
  | _ => true

end Frame

/-- What `SuspendThread` and `ResumeThread` returned. -/
inductive CountResult
  | suspended (tid : Int32) (result : Int)
  | resumed (tid : Int32) (result : Int)

/-- The debugger thread: the process, the waiting commands and what the
    suspend and resume calls returned so far. -/
structure DebugSession where
  process : ProcessData
  stack : List Frame
  results : List CountResult

namespace ProcessData

section

variable (p : ProcessData)

def paused (i : Nat) : Bool := (p.thread i).elim false ThreadData.isPaused

def suspendCount (i : Nat) : Nat := (p.thread i).elim 0 ThreadData.suspendCount

/-- `if (td) td->isPaused = 1` of the thread of an event. -/
def markPaused (tid : Int32) : ProcessData :=
  match p.slot tid with
  | some i => p.setPaused i true
  | none => p

def setSuspendedDevent (i : Nat) (de : DebugEvent) : ProcessData :=
  p.modifyThread i fun t => { t with suspendedDevent := de }

def raiseCount (i : Nat) : ProcessData :=
  p.modifyThread i fun t => { t with suspendCount := t.suspendCount + 1 }

def lowerCount (i : Nat) : ProcessData :=
  p.modifyThread i fun t => { t with suspendCount := t.suspendCount - 1 }

/-- The loop of `WaitForDebugEvent` over a thread list with a paused thread but
    no current event. -/
def unpauseAll : ProcessData :=
  { p with threadlist := p.threadlist.map fun t => { t with isPaused := false } }

end

end ProcessData

/-! ## Commands up to their wait -/

/-- How far a command got: the process, the frame it waits in, if it does, and
    the result if it was counted.  `none` is a `NULL` that was dereferenced. -/
abbrev Progress : Type := Option (ProcessData × Option Frame × List CountResult)

def suspended (p : ProcessData) (tid : Int32) (i : Nat) : Progress :=
  some (p.raiseCount i, none, [.suspended tid (p.suspendCount i + 1)])

def suspendThread (p : ProcessData) (tid : Int32) : Progress :=
  match p.slot tid with
  | none => some (p, none, [.suspended tid (-1)])
  | some i =>
    if p.paused i then
      if p.suspendCount i = 0 then
        if p.debuggedThreadEvent.threadid = tid.toInt64 then
          suspended (p.setSuspendedDevent i p.debuggedThreadEvent) tid i
        else
          match p.findThreadDebugEventInQueue tid with
          | none => none
          | some de =>
            suspended ((p.setSuspendedDevent i de).removeThreadDebugEventFromQueue
              tid.toInt64) tid i
      else suspended p tid i
    else some (p, some (.suspend tid i), [])

def resumeThread (p : ProcessData) (tid : Int32) : Progress :=
  match p.slot tid with
  | none => some (p, none, [.resumed tid (-1)])
  | some i =>
    if p.paused i ∧ 0 < p.suspendCount i then
      let result : CountResult := .resumed tid (p.suspendCount i - 1)
      let p := p.lowerCount i
      if p.suspendCount i = 0 then
        match p.thread i with
        | none => none
        | some t =>
          if t.suspendedDevent.debugevent = SIGSTOP then
            some (p.setPaused i false, none, [result])
          else
            some ((p.setPaused i true).addDebugEventToQueue t.suspendedDevent, none, [result])
      else some (p, none, [result])
    else some (p, none, [.resumed tid (-1)])

/-- `WaitForDebugEvent` in the debugger thread, up to its wait. -/
def waitForDebugEvent (p : ProcessData) (timeout : Int32) : Progress :=
  if p.debuggedThreadEvent.threadid = 0 then
    let p := if p.findPausedThread ≠ 0 then p.unpauseAll else p
    match p.debugEventQueue with
    | de :: queue => some ({ p with debugEventQueue := queue, debuggedThreadEvent := de }, none, [])
    | [] => some (p, some (.wait timeout), [])
  else some (p, none, [])

/-- The loop of `SetBreakpoint` and `RemoveBreakpoint` over all threads, from
    place `j` on: paused threads need no wait. -/
def pauseAll (kind : PauseCommand) (garbage : DebugEvent) (p : ProcessData) :
    Nat → Nat → Option Frame
  | 0, _ => none
  | fuel + 1, j =>
    match (p.thread j).bind fun t => (p.slot t.tid).map fun i => (t.tid, i) with
    | none => none
    | some (tid, i) =>
      if p.paused i then pauseAll kind garbage p fuel (j + 1)
      else some (.pause kind tid i 0 garbage (some (j + 1)))

/-- The pausing commands, up to their wait.  `RemoveBreakpoint` does not check
    that the thread exists. -/
def pauseThread (p : ProcessData) (kind : PauseCommand) (tid : Int32) (garbage : DebugEvent) :
    Progress :=
  if (kind = .getThreadContext ∨ kind = .setThreadContext) ∧ tid.toInt ≤ 0 then some (p, none, [])
  else if (kind = .setBreakpoint ∨ kind = .removeBreakpoint) ∧ tid = -1 then
    some (p, pauseAll kind garbage p p.threadlist.length 0, [])
  else
    match p.slot tid with
    | none => if kind = .removeBreakpoint then none else some (p, none, [])
    | some i =>
      if p.paused i then some (p, none, [])
      else some (p, some (.pause kind tid i 0 garbage none), [])

/-- A command of the debugger thread, up to its wait. -/
def beginCommand (k : Kernel) (garbage : DebugEvent) (p : ProcessData) : DebugCommand → Progress
  | .suspendThread tid => suspendThread p tid
  | .resumeThread tid => resumeThread p tid
  | .waitForDebugEvent timeout => waitForDebugEvent p timeout
  | .continueFromDebugEvent tid ignoresignal =>
    some ((continueFromDebugEvent k p tid ignoresignal).2.1, none, [])
  | .pause kind tid => pauseThread p kind tid garbage

/-- The end of a pausing command: a thread that its own `SIGSTOP` stopped runs
    again.  `SetBreakpoint` still uses the pointer from before the wait. -/
def release (kind : PauseCommand) (p : ProcessData) (tid : Int32) (i : Nat) (de : DebugEvent) :
    Option ProcessData :=
  (if kind = .setBreakpoint then some i else p.slot tid).map fun i =>
    if de.debugevent ≠ SIGSTOP then (p.setPaused i true).addDebugEventToQueue de
    else p.setPaused i false

/-- `WaitForDebugEventNative` returns to the frame that called it, with an
    event, or with none when its time is up. -/
def Frame.returned (garbage : DebugEvent) (p : ProcessData) (event : Option DebugEvent) :
    Frame → Progress
  | .suspend tid i =>
    match event with
    | some de => suspended (p.setSuspendedDevent i de) tid i
    | none => if p.paused i then suspended p tid i else some (p, some (.suspend tid i), [])
  | .wait _ =>
    match event with
    | some de => some ({ p with debuggedThreadEvent := de }, none, [])
    | none => some (p, none, [])
  | .pause kind tid i tries de next =>
    -- ten rounds without the thread: the command goes on regardless
    if event = none ∧ ¬ p.paused i ∧ tries + 1 < 10 then
      some (p, some (.pause kind tid i (tries + 1) de next), [])
    else
      (release kind p tid i (event.getD de)).map fun p =>
        (p, next.bind fun j => pauseAll kind garbage p p.threadlist.length j, [])

/-- An event of another thread than the one waited for: it is written where the
    frame wants its own event, and queued. -/
def Frame.unexpected (p : ProcessData) (de : DebugEvent) : Frame → ProcessData × Frame
  | .suspend tid i => ((p.setSuspendedDevent i de).addDebugEventToQueue de, .suspend tid i)
  | .wait timeout => (p.addDebugEventToQueue de, .wait timeout)
  | .pause kind tid i tries _ next =>
    (p.addDebugEventToQueue de, .pause kind tid i tries de next)

/-- After a command or a post of the semaphore, the frame that waits next looks
    for its event in the queue. -/
def checkQueue (k : Kernel) (garbage : DebugEvent) :
    ProcessData → List Frame → List CountResult → Option DebugSession
  | p, [], results => some ⟨p, [], results⟩
  | p, f :: rest, results =>
    match p.findThreadDebugEventInQueue f.wanted with
    | none => some ⟨p, f :: rest, results⟩
    | some e =>
      let p := p.removeThreadDebugEventFromQueue e.threadid
      if e.tid.toInt ≤ 0 then some ⟨p, f :: rest, results⟩
      else
        -- the signal is read again, the other fields are not
        let de : DebugEvent :=
          { garbage with debugevent := (k.getSigInfo e.tid).getD (-1), threadid := e.threadid }
        match f.returned garbage (p.markPaused e.tid) (some de) with
        | none => none
        | some (p, some f, counted) => some ⟨p, f :: rest, results ++ counted⟩
        | some (p, none, counted) => checkQueue k garbage p rest (results ++ counted)

/-- Go on after a command or frame made progress over the frames `rest`. -/
def proceed (k : Kernel) (garbage : DebugEvent) (rest : List Frame)
    (results : List CountResult) : Progress → Option DebugSession
  | none => none
  | some (p, some f, counted) => some ⟨p, f :: rest, results ++ counted⟩
  | some (p, none, counted) => checkQueue k garbage p rest (results ++ counted)

/-- What happens next.  Every input has the kernel's answers and the content of
    events that were never written. -/
inductive DebugInput
  /-- A command arrives: on a socket, or for `CheckForAndDispatchCommand`. -/
  | command (c : DebugCommand)
  /-- `waitpid` reports a thread that stopped with a signal. -/
  | stop (tid signal : Int32)
  /-- The semaphore is posted, but no command is there. -/
  | wake
  /-- The time of the innermost wait is up. -/
  | timeout

/-- One step of the debugger thread; `none` when it brings the server down. -/
def DebugSession.step (k : Kernel) (garbage : DebugEvent) (s : DebugSession) :
    DebugInput → Option DebugSession
  | .command c =>
    if s.stack.all Frame.timed then
      proceed k garbage s.stack s.results (beginCommand k garbage s.process c)
    else some s
  | .stop tid signal =>
    match s.stack with
    | [] => some s
    | f :: rest =>
      let p := s.process.markPaused tid
      let de : DebugEvent := { garbage with debugevent := signal, threadid := tid.toInt64 }
      if f.wanted = -1 ∨ tid = f.wanted then
        proceed k garbage rest s.results (f.returned garbage p (some de))
      else
        let (p, f) := f.unexpected p de
        some ⟨p, f :: rest, s.results⟩
  | .wake =>
    if s.stack.all Frame.timed then checkQueue k garbage s.process s.stack s.results
    else some s
  | .timeout =>
    match s.stack with
    | [] => some s
    | f :: rest => proceed k garbage rest s.results (f.returned garbage s.process none)

end CheatEngine.Ceserver
