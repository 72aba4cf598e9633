/-
  CheatEngine.Cli.Options

  The global options of the command line (internal/cli/app.go) and its errors
  (internal/cli/errors.go).

  The global options are taken out of the arguments wherever they stand; what is left
  is the command with its own flags.  Options that were read before an error decide
  how the error is written.
-/
import CheatEngine.Client.Remote
import CheatEngine.Lib.GoFlag
import CheatEngine.Lib.Json
import CheatEngine.Cli.Numbers
import CheatEngine.Cli.Value

namespace CheatEngine.Cli

open CheatEngine.Lib CheatEngine.Lib.Go
open CheatEngine.Client (Message FmtArg ClientError Inflate text)

/-! ## Errors -/

inductive ErrorCode
  | invalidUsage
  | missingRequired
  | interrupted
  | timeout
  | serverUnreachable
  | ceserverProtocolError
  | operationFailed
  | confirmationRequired
  | operationRejected
  | writeVerificationFailed
  | contextVerificationFailed
  | optionVerificationFailed
  | localFileExists
  | notFound
  | selfCheckFailed

namespace ErrorCode

def name : ErrorCode → List UInt8
  | invalidUsage => ascii "INVALID_USAGE"
  | missingRequired => ascii "MISSING_REQUIRED"
  | interrupted => ascii "INTERRUPTED"
  | timeout => ascii "TIMEOUT"
  | serverUnreachable => ascii "SERVER_UNREACHABLE"
  | ceserverProtocolError => ascii "CESERVER_PROTOCOL_ERROR"
  | operationFailed => ascii "OPERATION_FAILED"
  | confirmationRequired => ascii "CONFIRMATION_REQUIRED"
  | operationRejected => ascii "OPERATION_REJECTED"
  | writeVerificationFailed => ascii "WRITE_VERIFICATION_FAILED"
  | contextVerificationFailed => ascii "CONTEXT_VERIFICATION_FAILED"
  | optionVerificationFailed => ascii "OPTION_VERIFICATION_FAILED"
  | localFileExists => ascii "LOCAL_FILE_EXISTS"
  | notFound => ascii "NOT_FOUND"
  | selfCheckFailed => ascii "SELF_CHECK_FAILED"

end ErrorCode

structure CommandError where
  code : ErrorCode
  message : Message
  suggestion : String
  exitCode : Nat
  details : List (Name × Json Number) := []

def usageError (message : Message) (suggestion : String) : CommandError :=
  ⟨.invalidUsage, message, suggestion, 2, []⟩

def missingRequired (name : String) (suggestion : String) : CommandError :=
  ⟨.missingRequired, ⟨"missing required %s", [.str (ascii name)]⟩, suggestion, 2, []⟩

/-- The errors that a command returns, as far as `normalizeError` tells them apart. -/
inductive GoError
  | command (e : CommandError)
  | canceled
  | deadlineExceeded
  /-- An error of a dialer (`*net.OpError`). -/
  | network (message : Message)
  | client (e : ClientError)
  | other (message : Message)

def canceledText : Message := text "context canceled"

def deadlineExceededText : Message := text "context deadline exceeded"

def normalizeError : GoError → CommandError
  | .command e => e
  | .canceled => ⟨.interrupted, text "operation cancelled", "Run the command again when ready.", 130, []⟩
  | .deadlineExceeded =>
    ⟨.timeout, text "operation timed out", "Increase --timeout or reduce the scan/read range.", 1, []⟩
  | .network message =>
    ⟨.serverUnreachable, message,
      "Start ceserver and verify --endpoint host:port and network access.", 10, []⟩
  | .client (.protocol operation message) =>
    ⟨.ceserverProtocolError,
      ⟨"ceserver %s: " ++ message.format, .str (ascii operation) :: message.args⟩,
      "Verify the ceserver version, target permissions, PID, and requested address range.", 1, []⟩
  | .client (.plain message) =>
    -- what a client method returns as it is may be the error of its context
    if message = canceledText then
      ⟨.interrupted, text "operation cancelled", "Run the command again when ready.", 130, []⟩
    else if message = deadlineExceededText then
      ⟨.timeout, text "operation timed out", "Increase --timeout or reduce the scan/read range.", 1, []⟩
    else
      ⟨.operationFailed, message,
        "Run with corrected inputs or record the failure with 'cecli issue create'.", 1, []⟩
  | .other message =>
    ⟨.operationFailed, message,
      "Run with corrected inputs or record the failure with 'cecli issue create'.", 1, []⟩

/-! ## Options -/

structure GlobalOptions where
  endpoint : List UInt8
  native : Bool := false
  endpointSet : Bool := false
  connectionName : List UInt8 := []
  /-- In nanoseconds. -/
  timeout : Int
  human : Bool := false
  pretty : Bool := false
  quiet : Bool := false
  fields : List (List UInt8) := []
  dryRun : Bool := false
  help : Bool := false
  version : Bool := false
  brief : Bool := false

/-- `Document` of the embedded texts. -/
structure Document where
  name : List UInt8
  description : List UInt8
  content : List UInt8
  command : List UInt8

/-- `commandResult`; the text for a human reader is left out. -/
structure CommandResult where
  data : Json Number
  metadata : List (Name × Json Number) := []

/-- What the command line has from its process and its build, and the parts of the standard
    library that it only calls. -/
structure Environment where
  /-- `os.Getenv` -/
  getenv : List UInt8 → List UInt8
  /-- `time.ParseDuration`, in nanoseconds. -/
  parseDuration : List UInt8 → Option Int
  floats : FloatParser
  toFloat32 : UInt64 → UInt32
  /-- `zlib.NewReader` with a limit. -/
  inflate : Inflate
  /-- `sha256.Sum256` -/
  sha256 : List UInt8 → List UInt8
  /-- `runtime.GOOS` -/
  goos : List UInt8
  version : List UInt8
  commit : List UInt8
  buildDate : List UInt8
  rules : List Document
  skills : List Document
  /-- `time.Since(startedAt).Milliseconds()` -/
  elapsed : Int64
  /-- The commands that need no server: help, version, brief, skills, issue and completion. -/
  offline : GlobalOptions → List (List UInt8) → Except GoError CommandResult

def defaultEndpoint : List UInt8 := ascii "127.0.0.1:52736"

def fieldCharacter (c : UInt8) : Bool :=
  (97 ≤ c && c ≤ 122) || (65 ≤ c && c ≤ 90) || (48 ≤ c && c ≤ 57) || c = 95 || c = 45

def checkField (field : List UInt8) : Except CommandError Unit :=
  if field = [] then
    .error (usageError (text "--fields contains an empty field")
      "Use comma-separated names such as --fields pid,name.")
  else
    match (splitByte 46 field).find? fun segment => segment = [] || !segment.all fieldCharacter with
    | none => .ok ()
    | some [] =>
      .error (usageError (text "--fields contains an invalid path")
        "Use dotted names such as --fields process.architecture.")
    | some _ =>
      .error (usageError ⟨"invalid --fields path %q", [.str field]⟩
        "Use letters, digits, underscores, hyphens, and dots only.")

def parseFieldSelection (value : List UInt8) : Except CommandError (List (List UInt8)) :=
  go ((splitByte 44 value).map trimSpace) []
where
  go : List (List UInt8) → List (List UInt8) → Except CommandError (List (List UInt8))
    | [], fields => .ok fields
    | field :: rest, fields =>
      match checkField field with
      | .error e => .error e
      | .ok () => go rest (if field ∈ fields then fields else fields ++ [field])

def switchOption (argument : List UInt8) (options : GlobalOptions) : Option GlobalOptions :=
  if argument = ascii "--human" then some { options with human := true }
  else if argument = ascii "--agent" then some { options with human := false }
  else if argument = ascii "--pretty" then some { options with pretty := true }
  else if argument = ascii "--quiet" ∨ argument = ascii "-q" then some { options with quiet := true }
  else if argument = ascii "--dry-run" then some { options with dryRun := true }
  else if argument = ascii "--native" then some { options with native := true }
  else if argument = ascii "--help" ∨ argument = ascii "-h" then some { options with help := true }
  else if argument = ascii "--version" ∨ argument = ascii "-v" then
    some { options with version := true }
  else if argument = ascii "--brief" then some { options with brief := true }
  else none

inductive ValueOption
  | fields | endpoint | connectionName | timeout

namespace ValueOption

def all : List ValueOption := [fields, endpoint, connectionName, timeout]

def name : ValueOption → List UInt8
  | fields => ascii "--fields"
  | endpoint => ascii "--endpoint"
  | connectionName => ascii "--connection-name"
  | timeout => ascii "--timeout"

def missing : ValueOption → CommandError
  | fields =>
    missingRequired "--fields value" "Use --fields pid,name or --fields process.architecture."
  | endpoint => missingRequired "--endpoint value" "Use --endpoint 127.0.0.1:52736."
  | connectionName =>
    missingRequired "--connection-name value"
      "Use a diagnostic name such as --connection-name ci-worker-1."
  | timeout => missingRequired "--timeout value" "Use --timeout 30s."

def set (env : Environment) (value : List UInt8) (options : GlobalOptions) :
    ValueOption → Except CommandError GlobalOptions
  | fields => do
    let selected ← parseFieldSelection value
    return { options with fields := options.fields ++ selected }
  | endpoint => .ok { options with endpoint := value, endpointSet := true }
  | connectionName => .ok { options with connectionName := value }
  | timeout =>
    match env.parseDuration value with
    | some d => .ok { options with timeout := d }
    | none =>
      .error (usageError (text "invalid --timeout value")
        "Use a duration such as --timeout 30s or --timeout 2m.")

def inline? (argument : List UInt8) : Option (ValueOption × List UInt8) :=
  (all.find? fun o => (o.name ++ [61]).isPrefixOf argument).map fun o =>
    (o, argument.drop (o.name.length + 1))

end ValueOption

/-- The loop over the arguments; what is no global option remains. -/
def parseArguments (env : Environment) : List (List UInt8) → GlobalOptions → List (List UInt8) →
    GlobalOptions × Except CommandError (List (List UInt8))
  | [], options, remaining => (options, .ok remaining)
  | argument :: rest, options, remaining =>
    match switchOption argument options with
    | some options' => parseArguments env rest options' remaining
    | none =>
      match ValueOption.inline? argument with
      | some (o, value) =>
        match o.set env value options with
        | .ok options' => parseArguments env rest options' remaining
        | .error e => (options, .error e)
      | none =>
        match ValueOption.all.find? fun o => o.name = argument with
        | none => parseArguments env rest options (remaining ++ [argument])
        | some o =>
          match rest with
          | [] => (options, .error o.missing)
          | value :: rest' =>
            match o.set env value options with
            | .ok options' => parseArguments env rest' options' remaining
            | .error e => (options, .error e)

def environmentOptions (env : Environment) : GlobalOptions × Except CommandError Unit :=
  let configured := env.getenv (ascii "CECLI_ENDPOINT")
  let options : GlobalOptions :=
    { endpoint := if configured = [] then defaultEndpoint else configured
      endpointSet := configured ≠ []
      connectionName := env.getenv (ascii "CECLI_CONNECTION_NAME")
      timeout := 30000000000 }
  let native := env.getenv (ascii "CECLI_NATIVE")
  let parsedNative := if native = [] then some false else parseBool native
  match parsedNative with
  | none => (options, .error (usageError (text "invalid CECLI_NATIVE") "Use true or false."))
  | some parsed =>
    let options := { options with
      native := parsed
      human := toLower (env.getenv (ascii "CECLI_OUTPUT")) = ascii "human" }
    let timeout := env.getenv (ascii "CECLI_TIMEOUT")
    let parsedTimeout := if timeout = [] then some options.timeout else env.parseDuration timeout
    match parsedTimeout with
    | none =>
      (options, .error (usageError (text "invalid CECLI_TIMEOUT")
        "Use a duration such as 30s or 2m."))
    | some d =>
      let options := { options with timeout := d }
      let configuredFields := env.getenv (ascii "CECLI_FIELDS")
      if configuredFields = [] then (options, .ok ())
      else
        match parseFieldSelection configuredFields with
        | .ok fields => ({ options with fields := fields }, .ok ())
        | .error e => (options, .error e)

def checkOptions (options : GlobalOptions) : Except CommandError Unit :=
  if trimSpace options.endpoint = [] then
    .error (usageError (text "endpoint cannot be empty") "Use --endpoint host:port.")
  else if options.native && options.endpointSet then
    .error (usageError (text "--native and --endpoint cannot be combined")
      "Use --native for processes on this computer or --endpoint host:port for a remote target.")
  else if (0 : UInt8) ∈ options.connectionName then
    .error (usageError (text "connection name contains a NUL byte") "Use a normal diagnostic name.")
  else if options.timeout ≤ 0 then
    .error (usageError (text "timeout must be positive") "Use --timeout 30s.")
  else if options.human && options.fields ≠ [] then
    .error (usageError (text "--fields is available only in agent JSON mode")
      "Remove --human or use --agent with --fields.")
  else if options.quiet && options.fields ≠ [] then
    .error (usageError (text "--quiet and --fields cannot be combined")
      "Choose silent output or a filtered JSON response.")
  else .ok ()

def parseGlobalOptions (env : Environment) (arguments : List (List UInt8)) :
    GlobalOptions × Except CommandError (List (List UInt8)) :=
  match environmentOptions env with
  | (options, .error e) => (options, .error e)
  | (options, .ok ()) =>
    match parseArguments env arguments options [] with
    | (options, .error e) => (options, .error e)
    | (options, .ok remaining) =>
      match checkOptions options with
      | .error e => (options, .error e)
      | .ok () => (options, .ok remaining)

def commandCatalog : List (List UInt8) :=
  ["server info", "server path", "server connection-name", "server terminate",
    "server options list", "server options get", "server options set", "process list",
    "process info", "process speed", "module list", "module load", "module load-ex",
    "module extension-load", "thread list", "thread suspend", "thread resume", "thread create",
    "thread close", "debug trace", "debug breakpoint set", "debug breakpoint remove",
    "debug context get", "debug context set", "memory regions", "memory region", "memory read",
    "memory scan", "memory aobscan", "memory write", "memory alloc", "memory free",
    "memory protect", "remote pwd", "remote cd", "remote ls", "remote stat", "remote get",
    "remote put", "remote mkdir", "remote rm", "remote chmod", "pipe open", "pipe read",
    "pipe write", "pipe close", "symbol list", "skills", "issue create", "issue list",
    "issue show", "issue transition", "completion", "self-check", "brief", "version",
    "help"].map ascii

/-- `commandName`: the longest name that the arguments start with. -/
def commandName (arguments : List (List UInt8)) : List UInt8 :=
  match arguments with
  | [] => ascii "help"
  | first :: _ =>
    commandCatalog.foldl (fun best name =>
      if (Go.fields name).isPrefixOf arguments && best.length < name.length then name else best)
      first

end CheatEngine.Cli
