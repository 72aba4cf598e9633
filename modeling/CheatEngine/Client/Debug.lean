/-
  CheatEngine.Client.Debug

  Debug sessions (internal/ceserver/debug.go): suspension, breakpoints, thread
  contexts and the event trace.
-/
import CheatEngine.Client.Process

namespace CheatEngine.Client

open CheatEngine.Lib

abbrev DebugContinueMode : Type := Int32

/-! The constant block starts with an explicit `-1`, so `iota` is already 1 at
the second line. -/

def debugContinueAuto : DebugContinueMode := -1
def debugContinueDeliverSignal : DebugContinueMode := 1
def debugContinueIgnoreSignal : DebugContinueMode := 2
def debugContinueSingleStep : DebugContinueMode := 3

def debugContinueModeString (mode : DebugContinueMode) : String :=
  if mode = debugContinueAuto then "auto"
  else if mode = debugContinueDeliverSignal then "deliver"
  else if mode = debugContinueIgnoreSignal then "ignore"
  else if mode = debugContinueSingleStep then "single-step"
  else "unknown"

structure BreakpointCapabilities where
  execute : UInt8
  watch : UInt8
  shared : UInt8
  deriving DecidableEq, Repr

def debugSignalName (signal : Int32) : Message × String :=
  if signal = -2 then (text "create-process", "create-process")
  else if signal = -1 then (text "create-thread", "create-thread")
  else if signal = 5 then (text "SIGTRAP", "trap")
  else if signal = 19 then (text "SIGSTOP", "stop")
  else (⟨"signal-%d", [.int signal.toInt]⟩, "signal")

structure DebugEvent where
  signal : Int32
  signalName : Message
  kind : String
  threadID : UInt64
  address : UInt64
  capabilities : Option BreakpointCapabilities
  deriving DecidableEq, Repr

structure DebugTrace where
  pid : Int32
  events : List DebugEvent
  maximumEvents : Int64
  eventTimeoutMilliseconds : Int32
  timedOut : Bool
  continueMode : DebugContinueMode

structure ThreadContext where
  structSize : UInt32
  typeCode : UInt32
  bytes : List UInt8

def changeThreadSuspension (pid tid : Int32) (command : UInt8) (operation : String) :
    ClientM Int32 := do
  let handle ← openProcess pid
  deferClose handle do
    writePacket (command :: (u32 handle ++ i32 tid))
    let result ← readI32 operation
    if result.toInt < 0 then
      throw (.protocol operation
        ⟨"server could not change TID %d; an active debug session is required", [.int tid.toInt]⟩)
    else return result

def suspendThread (pid tid : Int32) : ClientM Int32 :=
  changeThreadSuspension pid tid commandSuspendThread "suspend thread"

def resumeThread (pid tid : Int32) : ClientM Int32 :=
  changeThreadSuspension pid tid commandResumeThread "resume thread"

def setBreakpoint (pid tid debugRegister : Int32) (address : UInt64)
    (breakpointType size : Int32) : ClientM Bool := do
  let handle ← openProcess pid
  deferClose handle do
    writePacket (commandSetBreakpoint ::
      (u32 handle ++ i32 tid ++ i32 debugRegister ++ u64 address ++ i32 breakpointType ++
        i32 size))
    let result ← readI32 "set breakpoint"
    return result != 0

def removeBreakpoint (pid tid debugRegister : Int32) (wasWatchpoint : Bool) : ClientM Bool := do
  let handle ← openProcess pid
  deferClose handle do
    writePacket (commandRemoveBreakpoint ::
      (u32 handle ++ i32 tid ++ i32 debugRegister ++ u32 (if wasWatchpoint then 1 else 0)))
    let result ← readI32 "remove breakpoint"
    return result != 0

def getThreadContextWithHandle (handle : UInt32) (tid : Int32) : ClientM ThreadContext := do
  writePacket (commandGetThreadContext :: (u32 handle ++ u32 tid.toUInt32))
  let result ← readU32 "get thread context"
  if result = 0 then
    throw (.protocol "get thread context" ⟨"server could not read TID %d", [.int tid.toInt]⟩)
  else
    let size ← readU32 "get thread context size"
    if size.toNat < 8 ∨ maximumThreadContextSize < size.toNat then
      throw (.protocol "get thread context" ⟨"invalid context size %d", [.int size.toNat]⟩)
    else
      let data ← readFull "get thread context data" size.toNat
      if u32At data 0 ≠ size then
        throw (.protocol "get thread context"
          ⟨"context header declares %d bytes, response contains %d",
            [.int (u32At data 0).toNat, .int size.toNat]⟩)
      else return ⟨size, u32At data 4, data⟩

def getThreadContext (pid tid : Int32) : ClientM ThreadContext := do
  let handle ← openProcess pid
  deferClose handle (getThreadContextWithHandle handle tid)

def startDebug (handle : UInt32) : ClientM Unit := do
  if ← ask .debugActive then return ()
  else
    writePacket (commandStartDebug :: u32 handle)
    ask (.setDebugActive true)
    let result ← readI32 "start debug session"
    if result = 0 then
      ask (.setDebugActive false)
      throw (.protocol "start debug session" (text "server could not attach to the target process"))
    else return ()

def validateThreadContext (data : List UInt8) : Except ClientError Unit :=
  if data.length < 8 ∨ maximumThreadContextSize < data.length then
    .error (.plain ⟨"thread context must be between 8 and %d bytes",
      [.int maximumThreadContextSize]⟩)
  else if (u32At data 0).toNat ≠ data.length then
    .error (.plain ⟨"thread context header declares %d bytes, input contains %d",
      [.int (u32At data 0).toNat, .int data.length]⟩)
  else .ok ()

def setThreadContext (pid tid : Int32) (data : List UInt8) : ClientM Bool := do
  ExceptT.mk (return validateThreadContext data)
  let handle ← openProcess pid
  deferClose handle do
    startDebug handle
    writePacket (commandSetThreadContext ::
      (u32 handle ++ u32 tid.toUInt32 ++ u32 (UInt32.ofNat data.length) ++ data))
    let result ← readU32 "set thread context"
    return result != 0

def decodeDebugEvent (data : List UInt8) : DebugEvent where
  signal := i32At data 0
  signalName := (debugSignalName (i32At data 0)).1
  kind := (debugSignalName (i32At data 0)).2
  threadID := u64At data 4
  address := if i32At data 0 = 5 then u64At data 12 else 0
  capabilities :=
    if i32At data 0 = -2 then some ⟨u8At data 12, u8At data 13, u8At data 14⟩ else none

/-- `waitForDebugEvent`: `none` when no event came in time. -/
def waitForDebugEvent (handle : UInt32) (timeoutMilliseconds : Int32) :
    ClientM (Option DebugEvent) := do
  writePacket (commandWaitForDebugEvent :: (u32 handle ++ i32 timeoutMilliseconds))
  let result ← readI32 "wait for debug event"
  if result = 0 then return none
  else
    let data ← readFull "read debug event" 20
    return some (decodeDebugEvent data)

def continueModeForEvent (requested : DebugContinueMode) (event : DebugEvent) :
    DebugContinueMode :=
  if requested ≠ debugContinueAuto then requested
  else if event.signal = -2 ∨ event.signal = -1 ∨ event.signal = 5 ∨ event.signal = 19 then
    debugContinueIgnoreSignal
  else debugContinueDeliverSignal

def continueFromDebugEvent (handle : UInt32) (threadID : UInt64) (mode : DebugContinueMode) :
    ClientM Unit := do
  if 2 ^ 32 - 1 < threadID.toNat then
    throw (.protocol "continue debug event"
      ⟨"thread ID %d exceeds protocol width", [.int threadID.toNat]⟩)
  else
    writePacket (commandContinueFromDebugEvent ::
      (u32 handle ++ u32 threadID.toUInt32 ++ i32 mode))
    let result ← readI32 "continue debug event"
    if result = 0 then
      throw (.protocol "continue debug event"
        ⟨"server could not continue TID %d", [.int threadID.toNat]⟩)
    else return ()

/-- The loop of `TraceDebugEvents`, for at most `fuel` more events: the events
    and whether the wait timed out. -/
def traceLoop (handle : UInt32) (timeoutMilliseconds : Int32) (mode : DebugContinueMode) :
    Nat → List DebugEvent → ClientM (List DebugEvent × Bool)
  | 0, events => return (events, false)
  | fuel + 1, events => do
    checkContext
    match ← waitForDebugEvent handle timeoutMilliseconds with
    | none => return (events, true)
    | some event =>
      continueFromDebugEvent handle event.threadID (continueModeForEvent mode event)
      traceLoop handle timeoutMilliseconds mode fuel (events ++ [event])

def millisecond : Int := 1000000

/-- `TraceDebugEvents`; durations are nanoseconds, `timeout` is the client's
    network timeout. -/
def traceDebugEvents (timeout : Int64) (pid : Int32) (maximumEvents : Int64)
    (eventTimeout : Int64) (continueMode : DebugContinueMode) : ClientM DebugTrace := do
  if maximumEvents.toInt < 1 ∨ 10000 < maximumEvents.toInt then
    throw (.plain (text "maximum debug events must be between 1 and 10000"))
  else if eventTimeout.toInt < millisecond ∨ (2 ^ 31 - 1) * millisecond < eventTimeout.toInt then
    throw (.plain (text "debug event timeout must be between 1 millisecond and the signed 32-bit millisecond limit"))
  else if timeout ≤ eventTimeout then
    throw (.plain ⟨"debug event timeout %s must be shorter than network timeout %s",
      [.int eventTimeout.toInt, .int timeout.toInt]⟩)
  else if continueMode < debugContinueAuto ∨ debugContinueSingleStep < continueMode then
    throw (.plain ⟨"invalid debug continue mode %d", [.int continueMode.toInt]⟩)
  else
    let handle ← openProcess pid
    deferClose handle do
      startDebug handle
      let milliseconds := Int32.ofInt (eventTimeout.toInt.tdiv millisecond)
      let (events, timedOut) ←
        traceLoop handle milliseconds continueMode maximumEvents.toInt.toNat []
      return ⟨pid, events, maximumEvents, milliseconds, timedOut, continueMode⟩

end CheatEngine.Client
