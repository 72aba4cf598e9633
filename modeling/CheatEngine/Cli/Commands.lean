/-
  CheatEngine.Cli.Commands

  The commands on servers, processes, modules and threads (internal/cli/commands.go).

  Each command parses its own flags and checks them; one that changes the target then
  shows a preview or asks for `--yes`; only then it dials.
-/
import CheatEngine.Cli.App

namespace CheatEngine.Cli

open CheatEngine.Lib CheatEngine.Lib.Go
open CheatEngine.Client (Message text)

section Results

def serverInfoJson (env : Environment) (options : GlobalOptions) (info : Client.ServerInfo) :
    Json Number :=
  .object [(ascii "endpoint", jsonString (endpointLabel env options)),
    (ascii "protocol_version", jsonInt info.protocolVersion.toInt),
    (ascii "version_name", jsonString info.versionName), (ascii "abi", jsonString (ascii info.abi))]

def pathInfoJson (info : Client.ServerPathInfo) : Json Number :=
  .object [(ascii "executable_path", jsonString info.executablePath),
    (ascii "current_path", jsonString info.currentPath), (ascii "android", jsonBool info.android)]

def serverOptionJson (o : Client.ServerOption) : Json Number :=
  .object ((ascii "name", jsonString o.name) :: optional "parent" o.parent ++
    (ascii "description", jsonString o.description) ::
      optional "acceptable_values" o.acceptableValues ++
    [(ascii "current_value", jsonString o.currentValue), (ascii "type_code", jsonInt o.typeCode.toInt),
      (ascii "type", jsonString (ascii o.type))])

def processJson (p : Client.Process) : Json Number :=
  .object [(ascii "pid", jsonInt p.pid.toInt), (ascii "name", jsonString p.name)]

def processInfoJson (info : Client.ProcessInfo) : Json Number :=
  .object [(ascii "pid", jsonInt info.pid.toInt),
    (ascii "architecture", jsonString (ascii info.architecture)),
    (ascii "module_count", jsonInt info.moduleCount), (ascii "thread_count", jsonInt info.threadCount)]

def moduleJson (m : Client.Module) : Json Number :=
  .object [(ascii "base_address", jsonInt m.baseAddress.toNat), (ascii "size", jsonInt m.size.toNat),
    (ascii "file_offset", jsonInt m.fileOffset.toNat), (ascii "part", jsonInt m.part.toInt),
    (ascii "name", jsonString m.name)]

end Results

/-- `strings.Contains(strings.ToLower(name), strings.ToLower(filter))`, and everything with an
    empty filter. -/
def matchesFilter (filter name : List UInt8) : Bool :=
  filter = [] || (toLower name).tails.any fun s => (toLower filter).isPrefixOf s

/-! ## `server` -/

def plain (arguments : List (List UInt8)) (message suggestion : String)
    (body : CliM CommandResult) : CliM CommandResult :=
  if arguments ≠ [] then usage (text message) suggestion else body

def connectionNameFlags : FlagSet := [stringFlag "name" ""]

def terminateFlags : FlagSet := [boolFlag "yes"]

def serverTerminate (env : Environment) (options : GlobalOptions) (arguments : List (List UInt8)) :
    CliM CommandResult := do
  let flags ← check (parseFlags env terminateFlags arguments)
  let preview := [(ascii "endpoint", jsonString (endpointLabel env options)), dryRunMember options]
  mutation options (flags.bool (ascii "yes")) "ceserver termination" preview do
    session options do
      call Client.terminateServer
      return finished [] preview

def optionGetFlags : FlagSet := [stringFlag "name" ""]

def optionSetFlags : FlagSet := [stringFlag "name" "", stringFlag "value" "", boolFlag "yes"]

def optionNameMissing : CommandError :=
  missingRequired "--name" "Run 'cecli server options list' and pass an option name."

section

variable (env : Environment) (options : GlobalOptions)

def serverOptionsSet (arguments : List (List UInt8)) : CliM CommandResult := do
  let flags ← check (parseFlags env optionSetFlags arguments)
  let name := flags.string (ascii "name")
  let value := flags.string (ascii "value")
  if name = [] then throw (.command optionNameMissing)
  else if !flags.wasSet (ascii "value") then
    throw (.command (missingRequired "--value" "Use --value with the new option value."))
  else
    let preview :=
      [(ascii "name", jsonString name), (ascii "value", jsonString value), dryRunMember options]
    mutation options (flags.bool (ascii "yes")) "server option change" preview do
      session options do
        call (Client.setOption name value)
        let readBack ← call (Client.optionValue name)
        let added :=
          [(ascii "read_back", jsonString readBack), (ascii "verified", jsonBool (readBack = value))]
        if readBack ≠ value then
          throw (.command ⟨.optionVerificationFailed,
            text "server option read-back does not match the requested value",
            "Inspect acceptable values and the server option type, then retry with a valid value.", 30,
            added ++ (ascii "dry_run", jsonBool false) :: preview⟩)
        else return finished added preview

def serverOptions : List (List UInt8) → CliM CommandResult
  | [] => usage (text "server options requires a subcommand") "Use list, get, or set."
  | action :: arguments =>
    if action = ascii "list" then
      plain arguments "server options list accepts no arguments"
        "Use 'cecli server options list'." do
          session options do
            let listed ← call Client.options
            return { data := .object [(ascii "options", jsonList (listed.map serverOptionJson)),
              (ascii "count", jsonInt listed.length)] }
    else if action = ascii "get" then do
      let flags ← check (parseFlags env optionGetFlags arguments)
      let name := flags.string (ascii "name")
      if name = [] then throw (.command optionNameMissing)
      else
        session options do
          let value ← call (Client.optionValue name)
          return { data := .object [(ascii "name", jsonString name),
            (ascii "value", jsonString value)] }
    else if action = ascii "set" then serverOptionsSet env options arguments
    else usage ⟨"unknown server options subcommand %q", [.str action]⟩ "Use list, get, or set."

def executeServer : List (List UInt8) → CliM CommandResult
  | [] =>
    usage (text "server requires a subcommand")
      "Use info, path, connection-name, options, or terminate."
  | action :: arguments =>
    if action = ascii "info" then
      plain arguments "server info accepts no arguments" "Use 'cecli server info'." do
        session options do
          let info ← call Client.serverInfo
          return { data := serverInfoJson env options info }
    else if action = ascii "path" then
      plain arguments "server path accepts no arguments" "Use 'cecli server path'." do
        session options do
          let info ← call Client.pathInfo
          return { data := pathInfoJson info }
    else if action = ascii "connection-name" then do
      let flags ← check (parseFlags env connectionNameFlags arguments)
      let name := flags.string (ascii "name")
      if trimSpace name = [] ∨ (0 : UInt8) ∈ name then
        throw (.command (missingRequired "--name"
          "Use a non-empty diagnostic name such as ci-worker-1."))
      else
        session options do
          call (Client.setConnectionName name)
          return { data := .object [(ascii "name", jsonString name)] }
    else if action = ascii "options" then serverOptions env options arguments
    else if action = ascii "terminate" then serverTerminate env options arguments
    else
      usage ⟨"unknown server subcommand %q", [.str action]⟩
        "Use info, path, connection-name, options, or terminate."

end

def processListFlags : FlagSet := [stringFlag "filter" "", intFlag "limit" 0]

def pidFlags : FlagSet := [intFlag "pid" 0]

def speedFlags : FlagSet := [intFlag "pid" 0, ⟨ascii "speed", .float64 0⟩, boolFlag "yes"]

def pidOf (flags : Flags) : Except CommandError Int32 :=
  parsePositiveInt32 (flags.int (ascii "pid")) "--pid"

/-- `x <= 0` of the bits of a float64: zero or a negative number, and never NaN. -/
def notPositive (bits : UInt64) : Bool :=
  let magnitude := bits.toNat % 2 ^ 63
  magnitude ≤ 0x7FF0000000000000 && (magnitude = 0 || 2 ^ 63 ≤ bits.toNat)

def processSpeed (env : Environment) (options : GlobalOptions) (arguments : List (List UInt8)) :
    CliM CommandResult := do
  let flags ← check (parseFlags env speedFlags arguments)
  let pid ← check (pidOf flags)
  let speed := flags.float64 (ascii "speed")
  if notPositive speed then
    usage (text "--speed must be positive") "Use --speed 0.5, 1, or 2."
  else
    let preview := [(ascii "pid", jsonInt pid.toInt), (ascii "speed", .leaf (.number (.float64 speed))),
      dryRunMember options]
    mutation options (flags.bool (ascii "yes")) "process speed change" preview do
      session options do
        let changed ← call (Client.setSpeed pid (env.toFloat32 speed))
        if changed then return finished [] preview
        else throw (.command (operationRejected "process speed change" preview))

def executeProcess (env : Environment) (options : GlobalOptions) :
    List (List UInt8) → CliM CommandResult
  | [] =>
    usage (text "process requires a subcommand")
      "Use 'cecli process list' or 'cecli process info --pid <pid>'."
  | action :: arguments =>
    if action = ascii "list" then do
      let flags ← check (parseFlags env processListFlags arguments)
      let limit := flags.int (ascii "limit")
      if limit < 0 then
        usage (text "--limit cannot be negative") "Use --limit 100 or omit it."
      else
        session options do
          let processes ← call Client.listProcesses
          let matching := processes.filter fun p => matchesFilter (flags.string (ascii "filter")) p.name
          let filtered := if 0 < limit then matching.take limit.toNat else matching
          return { data := .object [(ascii "processes", jsonList (filtered.map processJson)),
            (ascii "count", jsonInt filtered.length)] }
    else if action = ascii "info" then do
      let flags ← check (parseFlags env pidFlags arguments)
      let pid ← check (pidOf flags)
      session options do
        let info ← call (Client.processInfo pid)
        return { data := processInfoJson info }
    else if action = ascii "speed" then processSpeed env options arguments
    else
      usage ⟨"unknown process subcommand %q", [.str action]⟩
        "Use 'cecli process list' or 'cecli process info'."

def extensionLoadFlags : FlagSet := [intFlag "pid" 0, boolFlag "yes"]

def loadExFlags : FlagSet :=
  [intFlag "pid" 0, stringFlag "dlopen" "", stringFlag "path" "", boolFlag "yes"]

def loadFlags : FlagSet := [intFlag "pid" 0, stringFlag "path" "", boolFlag "yes"]

def moduleListFlags : FlagSet := [intFlag "pid" 0, stringFlag "filter" ""]

section

variable (env : Environment) (options : GlobalOptions) (arguments : List (List UInt8))

/-- The branch `extension-load` of `executeModule`. -/
def moduleExtensionLoad : CliM CommandResult := do
  let flags ← check (parseFlags env extensionLoadFlags arguments)
  let pid ← check (pidOf flags)
  let preview := [(ascii "pid", jsonInt pid.toInt), dryRunMember options]
  mutation options (flags.bool (ascii "yes")) "ceserver extension load" preview do
    session options do
      let changed ← call (Client.loadExtension pid)
      if changed then return finished [(ascii "loaded", jsonBool true)] preview
      else throw (.command (operationRejected "ceserver extension load" preview))

def moduleLoadEx : CliM CommandResult := do
  let flags ← check (parseFlags env loadExFlags arguments)
  let pid ← check (pidOf flags)
  let dlopen := flags.string (ascii "dlopen")
  let path := flags.string (ascii "path")
  if trimSpace dlopen = [] then
    throw (.command (missingRequired "--dlopen"
      "Use the resolved dlopen address for the target architecture."))
  else
    let dlopenAddress ← check (parseTarget dlopen "Use a decimal or 0x-prefixed target address.")
    check (validateRemotePath path)
    let preview := [(ascii "pid", jsonInt pid.toInt),
      (ascii "dlopen", jsonString (hexText dlopenAddress.toNat)), (ascii "path", jsonString path),
      dryRunMember options]
    mutation options (flags.bool (ascii "yes")) "explicit-dlopen module load" preview do
      session options do
        let address ← call (Client.loadModuleEx pid dlopenAddress path)
        return finished [(ascii "address", jsonString (hexText address.toNat))] preview

def moduleLoad : CliM CommandResult := do
  let flags ← check (parseFlags env loadFlags arguments)
  let pid ← check (pidOf flags)
  let path := flags.string (ascii "path")
  check (validateRemotePath path)
  let preview :=
    [(ascii "pid", jsonInt pid.toInt), (ascii "path", jsonString path), dryRunMember options]
  mutation options (flags.bool (ascii "yes")) "remote module load" preview do
    session options do
      let address ← call (Client.loadModule pid path)
      return finished [(ascii "address", jsonString (hexText address.toNat))] preview

end

def executeModule (env : Environment) (options : GlobalOptions) :
    List (List UInt8) → CliM CommandResult
  | [] => usage (text "module requires a subcommand") "Use list, load, load-ex, or extension-load."
  | action :: arguments =>
    if action = ascii "extension-load" then moduleExtensionLoad env options arguments
    else if action = ascii "load-ex" then moduleLoadEx env options arguments
    else if action = ascii "load" then moduleLoad env options arguments
    else if action ≠ ascii "list" then
      usage ⟨"unknown module subcommand %q", [.str action]⟩
        "Use list, load, load-ex, or extension-load."
    else do
      let flags ← check (parseFlags env moduleListFlags arguments)
      let pid ← check (pidOf flags)
      session options do
        let modules ← call (Client.listModules pid)
        let filtered := modules.filter fun m => matchesFilter (flags.string (ascii "filter")) m.name
        return { data := .object [(ascii "pid", jsonInt pid.toInt),
          (ascii "modules", jsonList (filtered.map moduleJson)),
          (ascii "count", jsonInt filtered.length)] }

def suspensionFlags : FlagSet := [intFlag "pid" 0, intFlag "tid" 0, boolFlag "yes"]

def threadCreateFlags : FlagSet :=
  [intFlag "pid" 0, stringFlag "start" "", stringFlag "parameter" "0", boolFlag "yes"]

def handleFlags : FlagSet := [stringFlag "handle" "", boolFlag "yes"]

section

variable (env : Environment) (options : GlobalOptions)

/-- `changeThreadSuspension`, with the method of the client for the action. -/
def changeThreadSuspension (action : String)
    (method : Int32 → Int32 → Client.ClientM Int32) (arguments : List (List UInt8)) :
    CliM CommandResult := do
  let flags ← check (parseFlags env suspensionFlags arguments)
  let pid ← check (pidOf flags)
  let tid ← check (parsePositiveInt32 (flags.int (ascii "tid")) "--tid")
  let preview := [(ascii "pid", jsonInt pid.toInt), (ascii "tid", jsonInt tid.toInt),
    (ascii "action", jsonString (ascii action)), dryRunMember options]
  mutation options (flags.bool (ascii "yes")) ("thread " ++ action) preview do
    session options do
      let suspendCount ← call (method pid tid)
      return finished [(ascii "suspend_count", jsonInt suspendCount.toInt)] preview

def threadCreate (arguments : List (List UInt8)) : CliM CommandResult := do
  let flags ← check (parseFlags env threadCreateFlags arguments)
  let pid ← check (pidOf flags)
  let start := flags.string (ascii "start")
  if start = [] then
    throw (.command (missingRequired "--start"
      "Use an authorized executable address in the target process."))
  else
    let startAddress ← check (parseTarget start "Use a valid target start address.")
    let parameter ← check (parseTarget (flags.string (ascii "parameter"))
      "Use --parameter 0 or a valid target address.")
    let preview := [(ascii "pid", jsonInt pid.toInt),
      (ascii "start", jsonString (hexText startAddress.toNat)),
      (ascii "parameter", jsonString (hexText parameter.toNat)), dryRunMember options]
    mutation options (flags.bool (ascii "yes")) "remote thread creation" preview do
      session options do
        let handle ← call (Client.createRemoteThread pid startAddress parameter)
        return finished [(ascii "handle", jsonInt handle.toNat),
          (ascii "handle_hex", jsonString (hexText handle.toNat))] preview

def threadClose (arguments : List (List UInt8)) : CliM CommandResult := do
  let flags ← check (parseFlags env handleFlags arguments)
  let handle ← check (parseHandle (flags.string (ascii "handle")))
  let preview := [(ascii "handle", jsonInt handle.toNat),
    (ascii "handle_hex", jsonString (hexText handle.toNat)), dryRunMember options]
  mutation options (flags.bool (ascii "yes")) "thread handle close" preview do
    session options do
      call (Client.closeHandle handle)
      return finished [] preview

def executeThread : List (List UInt8) → CliM CommandResult
  | [] =>
    usage (text "thread requires a subcommand") "Use list, suspend, resume, create, or close."
  | action :: arguments =>
    if action = ascii "suspend" then
      changeThreadSuspension env options "suspend" Client.suspendThread arguments
    else if action = ascii "resume" then
      changeThreadSuspension env options "resume" Client.resumeThread arguments
    else if action = ascii "create" then threadCreate env options arguments
    else if action = ascii "close" then threadClose env options arguments
    else if action ≠ ascii "list" then
      usage ⟨"unknown thread subcommand %q", [.str action]⟩
        "Use list, suspend, resume, create, or close."
    else do
      let flags ← check (parseFlags env pidFlags arguments)
      let pid ← check (pidOf flags)
      session options do
        let threads ← call (Client.listThreads pid)
        return { data := .object [(ascii "pid", jsonInt pid.toInt),
          (ascii "threads",
            jsonList (threads.map fun tid => .object [(ascii "tid", jsonInt tid.toInt)])),
          (ascii "count", jsonInt threads.length)] }

end

end CheatEngine.Cli
