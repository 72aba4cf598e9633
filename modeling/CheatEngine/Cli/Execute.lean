/-
  CheatEngine.Cli.Execute

  `execute` and `Run` (internal/cli/app.go): from the arguments of the process to its
  exit code and what it writes.
-/
import CheatEngine.Cli.RemoteCommands

namespace CheatEngine.Cli

open CheatEngine.Lib CheatEngine.Lib.Go
open CheatEngine.Client (Message text)

/-! ## `self-check` -/

def selfCheckFlags : FlagSet := [boolFlag "server"]

/-- The checks of `executeSelfCheck` that need no server. -/
def localChecks (env : Environment) (options : GlobalOptions) : List (Json Number) :=
  match env.offline options [ascii "self-check"] with
  | .ok { data := .leaf (.array checks), metadata := _ } => checks
  | _ => []

/-- `err.Error()`, without the arguments of its format. -/
def errorText : GoError → List UInt8
  | .command e => ascii e.message.format
  | .canceled => ascii canceledText.format
  | .deadlineExceeded => ascii deadlineExceededText.format
  | .network message | .other message | .client (.plain message) => ascii message.format
  | .client (.protocol operation message) =>
    ascii "ceserver " ++ ascii operation ++ ascii ": " ++ ascii message.format

def checkJson (name : String) (e : Option GoError) : Json Number :=
  .object [(ascii "name", jsonString (ascii name)), (ascii "ok", jsonBool e.isNone),
    (ascii "error", jsonString ((e.map errorText).getD []))]

/-- The check of the server: it is dialled, asked who it is and left. -/
def checkServer (options : GlobalOptions) : CliM (Json Number) :=
  let name := if options.native then "native_target" else "ceserver"
  ExceptT.mk do
    match ← (dial options).run with
    | .error e => return .ok (checkJson name (some e))
    | .ok () =>
      let info ← (call Client.serverInfo).run
      let _ ← (call Client.close).run
      match info with
      | .ok _ => return .ok (checkJson name none)
      | .error e => return .ok (checkJson name (some e))

def passed (result : Json Number) : Bool :=
  match result.get [ascii "ok"] with
  | some (.leaf (.bool b)) => b
  | _ => false

def executeSelfCheck (env : Environment) (options : GlobalOptions) (arguments : List (List UInt8)) :
    CliM CommandResult := do
  let flags ← check (parseFlags env selfCheckFlags arguments)
  let server ← if flags.bool (ascii "server") then (fun c => [c]) <$> checkServer options else pure []
  let checks := localChecks env options ++ server
  if checks.all passed then
    return { data := .object [(ascii "ok", jsonBool true), (ascii "checks", jsonList checks)] }
  else
    throw (.command ⟨.selfCheckFailed, text "one or more self-checks failed",
      "Inspect the check details, correct the environment, and run self-check again.", 1,
      [(ascii "checks", jsonList checks)]⟩)

def offlineCommands : List (List UInt8) :=
  ["help", "version", "brief", "skills", "issue", "completion"].map ascii

def executeOffline (env : Environment) (options : GlobalOptions) (arguments : List (List UInt8)) :
    CliM CommandResult :=
  ExceptT.mk (return env.offline options arguments)

def execute (env : Environment) (options : GlobalOptions) (arguments : List (List UInt8)) :
    CliM CommandResult :=
  if options.version || options.brief || options.help then executeOffline env options arguments
  else
    match arguments with
    | [] => executeOffline env options []
    | command :: rest =>
      if command ∈ offlineCommands then executeOffline env options arguments
      else if command = ascii "server" then executeServer env options rest
      else if command = ascii "process" then executeProcess env options rest
      else if command = ascii "module" then executeModule env options rest
      else if command = ascii "thread" then executeThread env options rest
      else if command = ascii "debug" then executeDebug env options rest
      else if command = ascii "memory" then executeMemory env options rest
      else if command = ascii "remote" then executeRemote env options rest
      else if command = ascii "pipe" then executePipe env options rest
      else if command = ascii "symbol" then executeSymbol env options rest
      else if command = ascii "self-check" then executeSelfCheck env options rest
      else
        usage ⟨"unknown command %q", [.str command]⟩
          "Run 'cecli help' to list supported commands."

/-- What a run leaves: its exit code, what it wrote to standard output, and the error that it
    wrote to standard error. -/
structure Outcome where
  code : Nat
  stdout : Output
  stderr : Option CommandError

def writeError (options : GlobalOptions) (e : GoError) : Outcome :=
  let normalized := normalizeError e
  ⟨normalized.exitCode, .nothing, if options.quiet then none else some normalized⟩

def report (env : Environment) (options : GlobalOptions) (command : List UInt8) :
    Except GoError CommandResult → Outcome
  | .error e => writeError options e
  | .ok result =>
    match writeSuccess env options command result with
    | .ok output => ⟨0, output, none⟩
    | .error message => writeError options (.other message)

def run (env : Environment) (arguments : List (List UInt8)) : Prog CliSig Outcome :=
  match parseGlobalOptions env arguments with
  | (options, .error e) => return writeError options (.command e)
  | (options, .ok remaining) => do
    let result ← (execute env options remaining).run
    return report env options (commandName remaining) result

section Runs

variable {σ : Type} {H : (o : CliOp) → σ → Option (CliSig.Res o × σ)} {env : Environment}
  {arguments remaining : List (List UInt8)} {options : GlobalOptions} {s s' : σ}

theorem interp_run_iff {outcome : Outcome}
    (hparse : parseGlobalOptions env arguments = (options, .ok remaining)) :
    Prog.interp H (run env arguments) s = some (outcome, s') ↔
      ∃ r, Gives H (execute env options remaining) s r s' ∧
        outcome = report env options (commandName remaining) r := by
  have hrun : run env arguments = (execute env options remaining).run >>= fun result =>
      pure (report env options (commandName remaining) result) := by
    rw [run, hparse]
  rw [hrun, Prog.interp_bind, Option.bind_eq_some_iff]
  constructor
  · rintro ⟨⟨r, s₁⟩, hexecute, hrest⟩
    obtain ⟨rfl, rfl⟩ := Prod.mk.inj (Option.some.inj hrest)
    exact ⟨r, hexecute, rfl⟩
  · rintro ⟨r, hexecute, rfl⟩
    exact ⟨(r, s'), hexecute, rfl⟩

theorem execute_memory {rest : List (List UInt8)} (hversion : options.version = false)
    (hbrief : options.brief = false) (hhelp : options.help = false) :
    execute env options (ascii "memory" :: rest) = executeMemory env options rest := by
  rw [execute, hversion, hbrief, hhelp]
  rfl

theorem exitCode_ne_zero {e : GoError} (h : ∀ e', e = .command e' → e'.exitCode ≠ 0) :
    (normalizeError e).exitCode ≠ 0 := by
  cases e with
  | command e' => exact h e' rfl
  | canceled => exact Nat.succ_ne_zero _
  | deadlineExceeded => exact Nat.succ_ne_zero _
  | network message => exact Nat.succ_ne_zero _
  | other message => exact Nat.succ_ne_zero _
  | client e' =>
    cases e' with
    | protocol operation message => exact Nat.succ_ne_zero _
    | plain message =>
      rw [normalizeError]
      split
      · exact Nat.succ_ne_zero _
      · split <;> exact Nat.succ_ne_zero _

theorem report_ok {command : List UInt8} {result : CommandResult} {output : Output}
    (h : writeSuccess env options command result = .ok output) :
    report env options command (.ok result) = ⟨0, output, none⟩ := by
  rw [report, h]

theorem report_error {command : List UInt8} {result : CommandResult} {message : Message}
    (h : writeSuccess env options command result = .error message) :
    report env options command (.ok result) = writeError options (.other message) := by
  rw [report, h]

end Runs

/-- What a server answers that knows one process: `bytes` to a read and `count` to a write. -/
def answerTo (bytes : List UInt8) (count : Int32) (packet : List UInt8) : List UInt8 :=
  if packet.head? = some Client.commandOpenProcess then u32 256
  else if packet.head? = some Client.commandCloseHandle then i32 1
  else if packet.head? = some Client.commandReadProcessMemory then
    i32 (Int32.ofNat bytes.length) ++ bytes
  else if packet.head? = some Client.commandWriteProcessMemory then i32 count
  else []

/-- An environment with this server and without files. The state is what is still to be
    read. -/
def servedBy (bytes : List UInt8) (count : Int32) :
    (o : CliOp) → List UInt8 → Option (CliSig.Res o × List UInt8)
  | .net (.write packet), unread => some (.ok (), unread ++ answerTo bytes count packet)
  | .net (.read n), unread =>
    if n ≤ unread.length then some (.ok (unread.take n), unread.drop n)
    else some (.error "unexpected EOF", [])
  | .net .connected, unread => some (true, unread)
  | .net .close, unread => some (.ok (), unread)
  | .net .debugActive, unread => some (false, unread)
  | .net (.setDebugActive _), unread => some ((), unread)
  | .net .ctxErr, unread => some (none, unread)
  | .contextErr, unread => some (none, unread)
  | .newSystemBackend, unread => some (.ok (), unread)
  | .dial _ _, unread => some (.ok (), unread)
  | .stat _, unread => some (.error .notExist, unread)
  | .readFile _, unread => some (.error (text "open %s: no such file or directory"), unread)
  | .writeFile _ _, unread => some (.ok (), unread)

end CheatEngine.Cli
