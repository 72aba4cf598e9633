/-
  CheatEngine.Cli.DebugCommands

  The commands on debug sessions (internal/cli/debug.go).
-/
import CheatEngine.Cli.MemoryCommands

namespace CheatEngine.Cli

open CheatEngine.Lib CheatEngine.Lib.Go
open CheatEngine.Client (Message text DebugContinueMode)

def parseDebugContinueMode (value : List UInt8) : Except CommandError DebugContinueMode :=
  let normalized := toLower (trimSpace value)
  if normalized ∈ [ascii "auto", ascii "safe"] then .ok Client.debugContinueAuto
  else if normalized ∈ [ascii "deliver", ascii "signal", ascii "0"] then
    .ok Client.debugContinueDeliverSignal
  else if normalized ∈ [ascii "ignore", ascii "1"] then .ok Client.debugContinueIgnoreSignal
  else if normalized ∈ [ascii "single-step", ascii "single_step", ascii "step", ascii "2"] then
    .ok Client.debugContinueSingleStep
  else
    .error (usageError (text "invalid --continue mode") "Use auto, deliver, ignore, or single-step.")

def parseBreakpointType (value : List UInt8) : Except CommandError Int32 :=
  let normalized := toLower (trimSpace value)
  if normalized ∈ [ascii "execute", ascii "exec", ascii "0"] then .ok 0
  else if normalized ∈ [ascii "write", ascii "1"] then .ok 1
  else if normalized ∈ [ascii "read", ascii "2"] then .ok 2
  else if normalized ∈ [ascii "access", ascii "readwrite", ascii "read-write", ascii "3"] then .ok 3
  else .error (usageError (text "invalid --kind") "Use execute, write, read, or access.")

def parseDebugThreadID (value : Int) : Except CommandError Int32 :=
  if value = -1 then .ok (-1) else parsePositiveInt32 value "--tid"

def parseDebugRegister (value : Int) : Except CommandError Int32 :=
  if value < 0 ∨ 31 < value then
    .error (usageError (text "--register must be between 0 and 31")
      "Use a debug-register index supported by the target architecture.")
  else .ok (Int32.ofInt value)

/-- The value of a character of `base64.StdEncoding`. -/
def base64Value (c : UInt8) : Option Nat :=
  if 65 ≤ c ∧ c ≤ 90 then some (c.toNat - 65)
  else if 97 ≤ c ∧ c ≤ 122 then some (c.toNat - 71)
  else if 48 ≤ c ∧ c ≤ 57 then some (c.toNat + 4)
  else if c = 43 then some 62
  else if c = 47 then some 63
  else none

/-- `base64.StdEncoding.DecodeString` of a text without line ends. The last four characters
    may end with one or two `=`; the bits that these leave over are not looked at. -/
def base64Quads : List UInt8 → Option (List UInt8)
  | [] => some []
  | a :: b :: c :: d :: rest =>
    match base64Value a, base64Value b with
    | some w, some x =>
      if c = 61 then
        if d = 61 ∧ rest = [] then some [UInt8.ofNat (w * 4 + x / 16)] else none
      else
        match base64Value c with
        | none => none
        | some y =>
          if d = 61 then
            if rest = [] then
              some [UInt8.ofNat (w * 4 + x / 16), UInt8.ofNat (x % 16 * 16 + y / 4)]
            else none
          else
            match base64Value d, base64Quads rest with
            | some z, some bytes =>
              some (UInt8.ofNat (w * 4 + x / 16) :: UInt8.ofNat (x % 16 * 16 + y / 4) ::
                UInt8.ofNat (y % 4 * 64 + z) :: bytes)
            | _, _ => none
    | _, _ => none
  | _ => none

/-- `base64.StdEncoding.DecodeString`: line ends are skipped. -/
def base64Decode (s : List UInt8) : Option (List UInt8) :=
  base64Quads (s.filter fun c => c ≠ 10 ∧ c ≠ 13)

def contextSeparators : List UInt8 → List UInt8
  | [] => []
  | [c] => if c = 32 ∨ c = 10 ∨ c = 13 ∨ c = 9 then [] else [c]
  | c :: d :: s =>
    if c = 32 ∨ c = 10 ∨ c = 13 ∨ c = 9 then contextSeparators (d :: s)
    else if c = 48 ∧ (d = 120 ∨ d = 88) then contextSeparators s
    else c :: contextSeparators (d :: s)

def decodeContextBytes (base64 hex : List UInt8) : Except CommandError (List UInt8) :=
  if (trimSpace base64 = []) = (trimSpace hex = []) then
    .error (usageError (text "provide exactly one of --base64 or --hex")
      "Use the complete raw blob returned by 'cecli debug context get'.")
  else
    let data := if trimSpace base64 ≠ [] then base64Decode (trimSpace base64)
      else hexDecode (contextSeparators hex)
    match data with
    | none =>
      .error (usageError (text "invalid context encoding")
        "Pass valid standard base64 or an even-length hexadecimal byte string.")
    | some data =>
      if data.length < 8 ∨ 2 ^ 20 < data.length then
        .error (usageError (text "context blob must be between 8 and 1048576 bytes")
          "Use the complete blob returned by 'cecli debug context get'.")
      else if (u32At data 0).toNat ≠ data.length then
        .error (usageError ⟨"context header declares %d bytes, input contains %d",
            [.int (u32At data 0).toNat, .int data.length]⟩
          "Do not edit or truncate the raw context header unless you understand the target ABI.")
      else .ok data

def capabilitiesJson (c : Client.BreakpointCapabilities) : Json Number :=
  .object [(ascii "execute", jsonInt c.execute.toNat), (ascii "watch", jsonInt c.watch.toNat),
    (ascii "shared", jsonInt c.shared.toNat)]

def signalText (name : Message) : List UInt8 :=
  match name.args with
  | [.int signal] => ascii "signal-" ++ decimal signal
  | _ => ascii name.format

def eventJson (e : Client.DebugEvent) : Json Number :=
  .object ([(ascii "signal", jsonInt e.signal.toInt),
      (ascii "signal_name", jsonString (signalText e.signalName)),
      (ascii "kind", jsonString (ascii e.kind)), (ascii "thread_id", jsonInt e.threadID.toNat)] ++
    (if e.address = 0 then [] else [(ascii "address", jsonInt e.address.toNat)]) ++
    (e.capabilities.map fun c => (ascii "breakpoint_capabilities", capabilitiesJson c)).toList)

def traceJson (t : Client.DebugTrace) : Json Number :=
  .object [(ascii "pid", jsonInt t.pid.toInt), (ascii "events", jsonList (t.events.map eventJson)),
    (ascii "event_count", jsonInt t.events.length),
    (ascii "maximum_events", jsonInt t.maximumEvents.toInt),
    (ascii "event_timeout_ms", jsonInt t.eventTimeoutMilliseconds.toInt),
    (ascii "timed_out", jsonBool t.timedOut),
    (ascii "continue_mode_code", jsonInt t.continueMode.toInt),
    (ascii "continue_mode", jsonString (ascii (Client.debugContinueModeString t.continueMode)))]

def traceFlags : FlagSet :=
  [intFlag "pid" 0, intFlag "events" 10, stringFlag "event-timeout" "1s",
    stringFlag "continue" "auto", boolFlag "yes"]

def eventTimeoutOf (env : Environment) (options : GlobalOptions) (value : List UInt8) :
    Except CommandError Int :=
  let invalid := usageError (text "invalid --event-timeout")
    "Use a duration of at least 1ms that fits 32-bit milliseconds, such as 1s or 30s."
  match env.parseDuration value with
  | none => .error invalid
  | some d =>
    if d < Client.millisecond ∨ (2 ^ 31 - 1) * Client.millisecond < d then .error invalid
    else if options.timeout ≤ d then
      .error (usageError (text "--event-timeout must be shorter than --timeout")
        "Increase the global network timeout or reduce the per-event timeout.")
    else .ok d

def debugTrace (env : Environment) (options : GlobalOptions) (arguments : List (List UInt8)) :
    CliM CommandResult := do
  let flags ← check (parseFlags env traceFlags arguments)
  let pid ← check (pidOf flags)
  let maximumEvents := flags.int (ascii "events")
  if maximumEvents < 1 ∨ 10000 < maximumEvents then
    usage (text "--events must be between 1 and 10000")
      "Use a bounded event count such as --events 10."
  else
    let eventTimeout ← check (eventTimeoutOf env options (flags.string (ascii "event-timeout")))
    let continueMode ← check (parseDebugContinueMode (flags.string (ascii "continue")))
    let preview := [(ascii "pid", jsonInt pid.toInt), (ascii "maximum_events", jsonInt maximumEvents),
      (ascii "event_timeout_ms", jsonInt (eventTimeout.tdiv Client.millisecond)),
      (ascii "continue_mode", jsonString (ascii (Client.debugContinueModeString continueMode))),
      dryRunMember options]
    mutation options (flags.bool (ascii "yes")) "debug trace attachment" preview do
      session options do
        let trace ← call (Client.traceDebugEvents (Int64.ofInt options.timeout) pid
          (Int64.ofInt maximumEvents) (Int64.ofInt eventTimeout) continueMode)
        return { data := traceJson trace }

def setBreakpointFlags : FlagSet :=
  [intFlag "pid" 0, intFlag "tid" (-1), intFlag "register" 0, stringFlag "address" "",
    stringFlag "kind" "execute", intFlag "size" 1, boolFlag "yes"]

def setBreakpoint (env : Environment) (options : GlobalOptions) (arguments : List (List UInt8)) :
    CliM CommandResult := do
  let flags ← check (parseFlags env setBreakpointFlags arguments)
  let pid ← check (pidOf flags)
  let tid ← check (parseDebugThreadID (flags.int (ascii "tid")))
  let debugRegister ← check (parseDebugRegister (flags.int (ascii "register")))
  let addressValue := flags.string (ascii "address")
  if trimSpace addressValue = [] then
    throw (.command (missingRequired "--address"
      "Use the authorized target address for the hardware breakpoint."))
  else
    let address ← check (parseTarget addressValue "Use a decimal or 0x-prefixed target address.")
    let kind := flags.string (ascii "kind")
    let breakpointType ← check (parseBreakpointType kind)
    let size := flags.int (ascii "size")
    if size ≠ 1 ∧ size ≠ 2 ∧ size ≠ 4 ∧ size ≠ 8 then
      usage (text "--size must be 1, 2, 4, or 8")
        "Use a breakpoint size supported by the target architecture."
    else
      let preview := [(ascii "pid", jsonInt pid.toInt), (ascii "tid", jsonInt tid.toInt),
        (ascii "debug_register", jsonInt debugRegister.toInt),
        (ascii "address", jsonString (hexText address.toNat)),
        (ascii "kind", jsonString (toLower (trimSpace kind))), (ascii "size", jsonInt size),
        dryRunMember options]
      mutation options (flags.bool (ascii "yes")) "breakpoint set" preview do
        session options do
          let changed ← call (Client.setBreakpoint pid tid debugRegister address breakpointType
            (Int32.ofInt size))
          if changed then return finished [(ascii "changed", jsonBool true)] preview
          else
            throw (.command (operationRejected
              "breakpoint set; an active ceserver debug session is required" preview))

def removeBreakpointFlags : FlagSet :=
  [intFlag "pid" 0, intFlag "tid" (-1), intFlag "register" 0, boolFlag "watchpoint", boolFlag "yes"]

def removeBreakpoint (env : Environment) (options : GlobalOptions) (arguments : List (List UInt8)) :
    CliM CommandResult := do
  let flags ← check (parseFlags env removeBreakpointFlags arguments)
  let pid ← check (pidOf flags)
  let tid ← check (parseDebugThreadID (flags.int (ascii "tid")))
  let debugRegister ← check (parseDebugRegister (flags.int (ascii "register")))
  let watchpoint := flags.bool (ascii "watchpoint")
  let preview := [(ascii "pid", jsonInt pid.toInt), (ascii "tid", jsonInt tid.toInt),
    (ascii "debug_register", jsonInt debugRegister.toInt), (ascii "watchpoint", jsonBool watchpoint),
    dryRunMember options]
  mutation options (flags.bool (ascii "yes")) "breakpoint removal" preview do
    session options do
      let changed ← call (Client.removeBreakpoint pid tid debugRegister watchpoint)
      if changed then return finished [(ascii "changed", jsonBool true)] preview
      else
        throw (.command (operationRejected
          "breakpoint removal; an active ceserver debug session is required" preview))

def debugBreakpoint (env : Environment) (options : GlobalOptions) :
    List (List UInt8) → CliM CommandResult
  | [] => usage (text "debug breakpoint requires a subcommand") "Use set or remove."
  | action :: arguments =>
    if action = ascii "set" then setBreakpoint env options arguments
    else if action = ascii "remove" then removeBreakpoint env options arguments
    else usage ⟨"unknown debug breakpoint subcommand %q", [.str action]⟩ "Use set or remove."

def getContextFlags : FlagSet := [intFlag "pid" 0, intFlag "tid" 0]

/-- `hex.EncodeToString(digest[:])` of the digest of a context. -/
def digestText (env : Environment) (bytes : List UInt8) : List UInt8 :=
  toLower (hexEncode (env.sha256 bytes))

def getThreadContext (env : Environment) (options : GlobalOptions) (arguments : List (List UInt8)) :
    CliM CommandResult := do
  let flags ← check (parseFlags env getContextFlags arguments)
  let pid ← check (pidOf flags)
  let tid ← check (parsePositiveInt32 (flags.int (ascii "tid")) "--tid")
  session options do
    let context ← call (Client.getThreadContext pid tid)
    return { data := .object [(ascii "pid", jsonInt pid.toInt), (ascii "tid", jsonInt tid.toInt),
      (ascii "struct_size", jsonInt context.structSize.toNat),
      (ascii "type_code", jsonInt context.typeCode.toNat),
      (ascii "bytes_base64", jsonString (base64Encode context.bytes)),
      (ascii "sha256", jsonString (digestText env context.bytes))] }

def setContextFlags : FlagSet :=
  [intFlag "pid" 0, intFlag "tid" 0, stringFlag "base64" "", stringFlag "hex" "", boolFlag "verify",
    boolFlag "yes"]

def replaceContext (pid tid : Int32) (context : List UInt8) (verify : Bool)
    (preview : List (Name × Json Number)) : CliM CommandResult := do
  let changed ← call (Client.setThreadContext pid tid context)
  if !changed then throw (.command (operationRejected "thread context replacement" preview))
  else if !verify then return finished [(ascii "changed", jsonBool true)] preview
  else
    let readBack ← call (Client.getThreadContext pid tid)
    let added := [(ascii "verified", jsonBool (readBack.bytes = context)),
      (ascii "changed", jsonBool true)]
    if readBack.bytes = context then return finished added preview
    else
      throw (.command ⟨.contextVerificationFailed,
        text "thread context read-back does not match the requested blob",
        "Keep the thread suspended, fetch the current context, and review architecture-specific changes before retrying.",
        30, added ++ (ascii "dry_run", jsonBool false) :: preview⟩)

section

variable (env : Environment) (options : GlobalOptions)

def setThreadContext (arguments : List (List UInt8)) : CliM CommandResult := do
  let flags ← check (parseFlags env setContextFlags arguments)
  let pid ← check (pidOf flags)
  let tid ← check (parsePositiveInt32 (flags.int (ascii "tid")) "--tid")
  let context ← check (decodeContextBytes (flags.string (ascii "base64"))
    (flags.string (ascii "hex")))
  let verify := flags.bool (ascii "verify")
  let preview := [(ascii "pid", jsonInt pid.toInt), (ascii "tid", jsonInt tid.toInt),
    (ascii "struct_size", jsonInt context.length),
    (ascii "type_code", jsonInt (u32At context 4).toNat),
    (ascii "sha256", jsonString (digestText env context)), (ascii "verify", jsonBool verify),
    dryRunMember options]
  mutation options (flags.bool (ascii "yes")) "thread context replacement" preview
    (session options (replaceContext pid tid context verify preview))

def debugContext : List (List UInt8) → CliM CommandResult
  | [] => usage (text "debug context requires a subcommand") "Use get or set."
  | action :: arguments =>
    if action = ascii "get" then getThreadContext env options arguments
    else if action = ascii "set" then setThreadContext env options arguments
    else usage ⟨"unknown debug context subcommand %q", [.str action]⟩ "Use get or set."

def executeDebug : List (List UInt8) → CliM CommandResult
  | [] => usage (text "debug requires a subcommand") "Use trace, breakpoint, or context."
  | action :: arguments =>
    if action = ascii "trace" then debugTrace env options arguments
    else if action = ascii "breakpoint" then debugBreakpoint env options arguments
    else if action = ascii "context" then debugContext env options arguments
    else usage ⟨"unknown debug subcommand %q", [.str action]⟩ "Use trace, breakpoint, or context."

end

end CheatEngine.Cli
