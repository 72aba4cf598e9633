/-
  CheatEngine.Cli.RemoteCommands

  The commands on files, pipes and symbols of the server (internal/cli/remote.go,
  pipe.go and symbol.go).

  `remote get` looks at the local file before its preview; `remote put` and `pipe write`
  read the local file before they dial.
-/
import CheatEngine.Cli.DebugCommands

namespace CheatEngine.Cli

open CheatEngine.Lib CheatEngine.Lib.Go
open CheatEngine.Client (Message text)

def maximumTransferSize : Nat := 256 * 2 ^ 20

/-! ## Files -/

def setPathFlags : FlagSet := [stringFlag "path" "", boolFlag "yes"]

def listFilesFlags : FlagSet := [stringFlag "path" "."]

def statFlags : FlagSet := [stringFlag "path" ""]

def fileJson (f : Client.RemoteFile) : Json Number :=
  .object [(ascii "name", jsonString f.name), (ascii "type_code", jsonInt f.typeCode.toNat),
    (ascii "type", jsonString (ascii f.type))]

def remoteCd (env : Environment) (options : GlobalOptions) (arguments : List (List UInt8)) :
    CliM CommandResult := do
  let flags ← check (parseFlags env setPathFlags arguments)
  let path := flags.string (ascii "path")
  check (validateRemotePath path)
  let preview := [(ascii "path", jsonString path), dryRunMember options]
  mutation options (flags.bool (ascii "yes")) "remote current-directory change" preview do
    session options do
      let changed ← call (Client.setCurrentPath path)
      if changed then return finished [] preview
      else throw (.command (operationRejected "remote current-directory change" preview))

def localPathOf (flags : Flags) (suggestion : String) : Except CommandError (List UInt8) :=
  let path := flags.string (ascii "local")
  if trimSpace path = [] ∨ (0 : UInt8) ∈ path then .error (missingRequired "--local" suggestion)
  else .ok path

def remoteGetFlags : FlagSet :=
  [stringFlag "remote" "", stringFlag "local" "", boolFlag "force", boolFlag "yes"]

/-- The destination of `remote get` may be written. -/
def checkDestination (path : List UInt8) (force : Bool) : CliM Unit := do
  match ← perform (.stat path) with
  | .ok info =>
    if info.isDir then
      usage (text "--local points to a directory") "Provide a destination file path."
    else if !force then
      throw (.command ⟨.localFileExists, ⟨"local file %q already exists", [.str path]⟩,
        "Choose another destination or add --force to overwrite it.", 30, []⟩)
    else return ()
  | .error .notExist => return ()
  | .error (.other message) => throw (.other message)

def remoteGet (env : Environment) (options : GlobalOptions) (arguments : List (List UInt8)) :
    CliM CommandResult := do
  let flags ← check (parseFlags env remoteGetFlags arguments)
  let remotePath := flags.string (ascii "remote")
  check (validateRemotePath remotePath)
  let localPath ← check (localPathOf flags "Provide a valid local destination path.")
  let force := flags.bool (ascii "force")
  checkDestination localPath force
  let preview := [(ascii "remote", jsonString remotePath), (ascii "local", jsonString localPath),
    (ascii "force", jsonBool force), dryRunMember options]
  mutation options (flags.bool (ascii "yes")) "remote file download" preview do
    session options do
      let content ← call (Client.getRemoteFile remotePath)
      match ← perform (.writeFile localPath content) with
      | .ok () => return finished [(ascii "size", jsonInt content.length)] preview
      | .error _ => throw (.other (text "write local file: %w"))

def remotePutFlags : FlagSet := [stringFlag "local" "", stringFlag "remote" "", boolFlag "yes"]

/-- The source of `remote put` is a file that may be sent: its size. -/
def checkSource (path : List UInt8) : CliM Nat := do
  match ← perform (.stat path) with
  | .error _ => throw (.other (text "inspect local file: %w"))
  | .ok info =>
    if !info.isRegular then
      usage (text "--local must be a regular file") "Provide a regular file smaller than 256 MiB."
    else if maximumTransferSize < info.size then
      usage (text "local file exceeds 256 MiB transfer limit")
        "Use a smaller file or another authenticated transfer mechanism."
    else return info.size

def remotePut (env : Environment) (options : GlobalOptions) (arguments : List (List UInt8)) :
    CliM CommandResult := do
  let flags ← check (parseFlags env remotePutFlags arguments)
  let localPath ← check (localPathOf flags "Provide a valid local source file.")
  let remotePath := flags.string (ascii "remote")
  check (validateRemotePath remotePath)
  let size ← checkSource localPath
  let preview := [(ascii "local", jsonString localPath), (ascii "remote", jsonString remotePath),
    (ascii "size", jsonInt size), dryRunMember options]
  mutation options (flags.bool (ascii "yes")) "remote file write" preview do
    match ← perform (.readFile localPath) with
    | .error _ => throw (.other (text "read local file: %w"))
    | .ok content =>
      session options do
        let written ← call (Client.putRemoteFile remotePath content)
        if written then return finished [] preview
        else throw (.command (operationRejected "remote file write" preview))

/-- `remotePathMutation`, with the method of the client for the operation. -/
def remotePathMutation (env : Environment) (options : GlobalOptions) (operation : String)
    (method : List UInt8 → Client.ClientM Bool) (arguments : List (List UInt8)) :
    CliM CommandResult := do
  let flags ← check (parseFlags env setPathFlags arguments)
  let path := flags.string (ascii "path")
  check (validateRemotePath path)
  let preview := [(ascii "operation", jsonString (ascii operation)), (ascii "path", jsonString path),
    dryRunMember options]
  mutation options (flags.bool (ascii "yes")) ("remote " ++ operation) preview do
    session options do
      let changed ← call (method path)
      if changed then return finished [] preview
      else throw (.command (operationRejected ("remote " ++ operation) preview))

def chmodFlags : FlagSet := [stringFlag "path" "", stringFlag "mode" "", boolFlag "yes"]

def parseOctal (s : List UInt8) : Except NumError Nat :=
  if s = [] ∨ (95 : UInt8) ∈ s then .error .invalid else parseDigits 8 (2 ^ 32 - 1) 0 s

def parseRemoteMode (value : List UInt8) : Except CommandError UInt32 :=
  let normalized := trimSpace value
  let invalid := usageError (text "invalid --mode")
    "Use an octal mode between 0000 and 7777, such as 0755."
  if normalized = [] then .error (missingRequired "--mode" "Use an octal mode such as --mode 0755.")
  else
    let digits :=
      if (ascii "0o").isPrefixOf normalized || (ascii "0O").isPrefixOf normalized then
        normalized.drop 2
      else normalized
    match parseOctal digits with
    | .ok parsed => if 0o7777 < parsed then .error invalid else .ok (UInt32.ofNat parsed)
    | .error _ => .error invalid

def remoteChmod (env : Environment) (options : GlobalOptions) (arguments : List (List UInt8)) :
    CliM CommandResult := do
  let flags ← check (parseFlags env chmodFlags arguments)
  let path := flags.string (ascii "path")
  check (validateRemotePath path)
  let mode ← check (parseRemoteMode (flags.string (ascii "mode")))
  let preview := [(ascii "path", jsonString path), (ascii "mode", jsonString (octalText mode.toNat)),
    dryRunMember options]
  mutation options (flags.bool (ascii "yes")) "remote permission change" preview do
    session options do
      let changed ← call (Client.setRemoteFilePermissions path mode)
      if changed then return finished [] preview
      else throw (.command (operationRejected "remote permission change" preview))

def executeRemote (env : Environment) (options : GlobalOptions) :
    List (List UInt8) → CliM CommandResult
  | [] =>
    usage (text "remote requires a subcommand")
      "Use ls, stat, get, put, mkdir, rm, chmod, pwd, or cd."
  | action :: arguments =>
    if action = ascii "pwd" then
      plain arguments "remote pwd accepts no arguments" "Use 'cecli remote pwd'." do
        session options do
          let path ← call Client.currentPath
          return { data := .object [(ascii "path", jsonString path)] }
    else if action = ascii "cd" then remoteCd env options arguments
    else if action = ascii "ls" then do
      let flags ← check (parseFlags env listFilesFlags arguments)
      let path := flags.string (ascii "path")
      check (validateRemotePath path)
      session options do
        let files ← call (Client.listRemoteFiles path)
        return { data := .object [(ascii "path", jsonString path),
          (ascii "files", jsonList (files.map fileJson)), (ascii "count", jsonInt files.length)] }
    else if action = ascii "stat" then do
      let flags ← check (parseFlags env statFlags arguments)
      let path := flags.string (ascii "path")
      check (validateRemotePath path)
      session options do
        let permissions ← call (Client.remoteFilePermissions path)
        return { data := .object [(ascii "path", jsonString path),
          (ascii "permissions", jsonInt permissions.toNat),
          (ascii "mode", jsonString (octalText permissions.toNat))] }
    else if action = ascii "get" then remoteGet env options arguments
    else if action = ascii "put" then remotePut env options arguments
    else if action = ascii "mkdir" then
      remotePathMutation env options "mkdir" Client.createRemoteDirectory arguments
    else if action = ascii "rm" then
      remotePathMutation env options "rm" Client.deleteRemotePath arguments
    else if action = ascii "chmod" then remoteChmod env options arguments
    else
      usage ⟨"unknown remote subcommand %q", [.str action]⟩
        "Use ls, stat, get, put, mkdir, rm, chmod, pwd, or cd."

/-! ## Pipes -/

def pipeTimeoutOf (flags : Flags) : Except CommandError UInt32 :=
  let timeout := flags.uint (ascii "timeout-ms")
  if 4294967295 < timeout then
    .error (usageError (text "--timeout-ms exceeds uint32") "Use a smaller timeout.")
  else .ok (UInt32.ofNat timeout)

def pipeOpenFlags : FlagSet := [stringFlag "name" "", uintFlag "timeout-ms" 5000]

def pipeOpen (env : Environment) (options : GlobalOptions) (arguments : List (List UInt8)) :
    CliM CommandResult := do
  let flags ← check (parseFlags env pipeOpenFlags arguments)
  let name := flags.string (ascii "name")
  if trimSpace name = [] ∨ (0 : UInt8) ∈ name then
    throw (.command (missingRequired "--name" "Provide a valid ceserver pipe name."))
  else
    let timeout ← check (pipeTimeoutOf flags)
    session options do
      let handle ← call (Client.openPipe name timeout)
      return { data := .object [(ascii "name", jsonString name), (ascii "handle", jsonInt handle.toNat),
        (ascii "handle_hex", jsonString (hexText handle.toNat)),
        (ascii "timeout_ms", jsonInt timeout.toNat)] }

def pipeReadFlags : FlagSet :=
  [stringFlag "handle" "", uintFlag "size" 0, uintFlag "timeout-ms" 5000, stringFlag "format" "hex"]

def pipeRead (env : Environment) (options : GlobalOptions) (arguments : List (List UInt8)) :
    CliM CommandResult := do
  let flags ← check (parseFlags env pipeReadFlags arguments)
  let handle ← check (parseHandle (flags.string (ascii "handle")))
  let size := flags.uint (ascii "size")
  let format := flags.string (ascii "format")
  if size = 0 ∨ maximumReadSize < size then
    usage ⟨"--size must be between 1 and %d", [.int maximumReadSize]⟩ "Use a bounded pipe read size."
  else
    let timeout ← check (pipeTimeoutOf flags)
    if format ≠ ascii "hex" ∧ format ≠ ascii "base64" then
      usage (text "--format must be hex or base64") "Use --format hex."
    else
      session options do
        let data ← call (Client.readPipe handle (UInt32.ofNat size) timeout)
        let encoded := if format = ascii "base64" then base64Encode data else hexEncode data
        return { data := .object [(ascii "handle", jsonInt handle.toNat),
          (ascii "bytes_read", jsonInt data.length), (ascii "format", jsonString format),
          (ascii "data", jsonString encoded)] }

def pipeWriteFlags : FlagSet :=
  [stringFlag "handle" "", stringFlag "hex" "", stringFlag "text" "", stringFlag "file" "",
    uintFlag "timeout-ms" 5000, boolFlag "yes"]

def pipeInput (flags : Flags) : CliM (List UInt8) := do
  let selected := [ascii "hex", ascii "text", ascii "file"].countP fun name => flags.wasSet name
  if selected ≠ 1 then
    usage (text "provide exactly one of --hex, --text, or --file")
      "Use --text 'command', --hex '01 FF', or --file payload.bin."
  else if flags.wasSet (ascii "hex") then
    match parseHex (flags.string (ascii "hex")) with
    | .ok data => return data
    | .error e => usage e "Check the selected pipe input."
  else if flags.wasSet (ascii "text") then return flags.string (ascii "text")
  else
    match ← perform (.readFile (flags.string (ascii "file"))) with
    | .ok data => return data
    | .error e => usage e "Check the selected pipe input."

/-- `pipeWrite` with a connection: fewer bytes than were sent are an error. -/
def pipeWriteConfirmed (handle : UInt32) (data : List UInt8) (timeout : UInt32)
    (preview : List (Name × Json Number)) : CliM CommandResult := do
  let written ← call (Client.writePipe handle data timeout)
  let member := (ascii "written", jsonInt written.toInt)
  if written ≠ Int32.ofNat data.length then
    throw (.command (operationRejected "named-pipe write" (member :: preview)))
  else return { data := .object ((ascii "dry_run", jsonBool false) :: member :: preview) }

section

variable (env : Environment) (options : GlobalOptions)

def pipeWrite (arguments : List (List UInt8)) : CliM CommandResult := do
  let flags ← check (parseFlags env pipeWriteFlags arguments)
  let handle ← check (parseHandle (flags.string (ascii "handle")))
  let data ← pipeInput flags
  if maximumWriteSize < data.length then
    usage ⟨"pipe write exceeds %d bytes", [.int maximumWriteSize]⟩
      "Split the message into smaller protocol frames."
  else
    let timeout ← check (pipeTimeoutOf flags)
    let preview := [(ascii "handle", jsonInt handle.toNat), (ascii "size", jsonInt data.length),
      (ascii "bytes_hex", jsonString (hexEncode data)), (ascii "timeout_ms", jsonInt timeout.toNat),
      dryRunMember options]
    mutation options (flags.bool (ascii "yes")) "named-pipe write" preview
      (session options (pipeWriteConfirmed handle data timeout preview))

def pipeClose (arguments : List (List UInt8)) : CliM CommandResult := do
  let flags ← check (parseFlags env handleFlags arguments)
  let handle ← check (parseHandle (flags.string (ascii "handle")))
  let preview := [(ascii "handle", jsonInt handle.toNat), dryRunMember options]
  mutation options (flags.bool (ascii "yes")) "pipe handle close" preview do
    session options do
      call (Client.closeHandle handle)
      return finished [] preview

def executePipe : List (List UInt8) → CliM CommandResult
  | [] => usage (text "pipe requires a subcommand") "Use open, read, write, or close."
  | action :: arguments =>
    if action = ascii "open" then pipeOpen env options arguments
    else if action = ascii "read" then pipeRead env options arguments
    else if action = ascii "write" then pipeWrite env options arguments
    else if action = ascii "close" then pipeClose env options arguments
    else usage ⟨"unknown pipe subcommand %q", [.str action]⟩ "Use open, read, write, or close."

end

def symbolJson (s : Client.Symbol) : Json Number :=
  .object [(ascii "address", jsonInt s.address.toNat), (ascii "size", jsonInt s.size.toInt),
    (ascii "type", jsonInt s.type.toInt), (ascii "name", jsonString s.name)]

def symbolFlags : FlagSet :=
  [stringFlag "path" "", stringFlag "file-offset" "0", stringFlag "module-base" "0",
    stringFlag "filter" "", intFlag "limit" 10000]

def fileOffsetOf (flags : Flags) : Except CommandError UInt32 :=
  let invalid := usageError (text "invalid --file-offset")
    "Use a 32-bit decimal or 0x-prefixed file offset."
  match parseAddress (flags.string (ascii "file-offset")) with
  | .ok offset => if 4294967295 < offset then .error invalid else .ok (UInt32.ofNat offset)
  | .error _ => .error invalid

def moduleBaseOf (flags : Flags) : Except CommandError UInt64 :=
  match parseAddress (flags.string (ascii "module-base")) with
  | .ok base => .ok (UInt64.ofNat base)
  | .error _ =>
    .error (usageError (text "invalid --module-base")
      "Use 0 or a valid mapped module base address.")

/-- The symbols that are listed: those that the filter lets through, at most `limit`, with the
    base of the module added unless the file is executable. -/
def listedSymbols (list : Client.SymbolList) (filter : List UInt8) (moduleBase : UInt64)
    (limit : Nat) : List Client.Symbol :=
  ((list.symbols.filter fun s => matchesFilter filter s.name).take limit).map fun s =>
    if list.executable then s else { s with address := s.address + moduleBase }

def executeSymbol (env : Environment) (options : GlobalOptions) (arguments : List (List UInt8)) :
    CliM CommandResult := do
  if arguments.head? ≠ some (ascii "list") then
    usage (text "symbol requires the 'list' subcommand")
      "Use 'cecli symbol list --path /remote/module.so'."
  else
    let flags ← check (parseFlags env symbolFlags arguments.tail)
    let path := flags.string (ascii "path")
    check (validateRemotePath path)
    let fileOffset ← check (fileOffsetOf flags)
    let moduleBase ← check (moduleBaseOf flags)
    let limit := flags.int (ascii "limit")
    if limit < 1 ∨ 1000000 < limit then
      usage (text "--limit must be between 1 and 1000000") "Use --limit 10000."
    else
      session options do
        let list ← call (Client.symbols env.inflate path fileOffset)
        let filtered := listedSymbols list (flags.string (ascii "filter")) moduleBase limit.toNat
        return { data := .object [(ascii "path", jsonString path),
          (ascii "file_offset", jsonString (hexText fileOffset.toNat)),
          (ascii "module_base", jsonString (hexText moduleBase.toNat)),
          (ascii "executable", jsonBool list.executable),
          (ascii "symbols", jsonList (filtered.map symbolJson)),
          (ascii "count", jsonInt filtered.length),
          (ascii "total_symbols", jsonInt list.symbols.length),
          (ascii "limit_reached", jsonBool ((filtered.length : Int) = limit))] }

end CheatEngine.Cli
