/-
  CheatEngine.Cli.MemoryCommands

  The commands on memory (internal/cli/commands.go).

  `memoryRead` and `memoryWrite` are each cut in two: what is checked before the
  connection is made (`ReadRequest`, `WriteRequest`), and what is made of the answer.
-/
import CheatEngine.Cli.Commands
import CheatEngine.Cli.Pattern

namespace CheatEngine.Cli

open CheatEngine.Lib CheatEngine.Lib.Go
open CheatEngine.Client (Message text)

def maximumReadSize : Nat := 16 * 2 ^ 20

def maximumWriteSize : Nat := 2 ^ 20

/-! ## Texts of bytes and numbers -/

def base64Digit (d : Nat) : UInt8 :=
  UInt8.ofNat (if d < 26 then 65 + d else if d < 52 then 71 + d else if d < 62 then d - 4
    else if d = 62 then 43 else 47)

def base64Encode : List UInt8 → List UInt8
  | [] => []
  | [a] => [base64Digit (a.toNat / 4), base64Digit (a.toNat % 4 * 16), 61, 61]
  | [a, b] =>
    [base64Digit (a.toNat / 4), base64Digit (a.toNat % 4 * 16 + b.toNat / 16),
      base64Digit (b.toNat % 16 * 4), 61]
  | a :: b :: c :: data =>
    base64Digit (a.toNat / 4) :: base64Digit (a.toNat % 4 * 16 + b.toNat / 16) ::
      base64Digit (b.toNat % 16 * 4 + c.toNat / 64) :: base64Digit (c.toNat % 64) ::
        base64Encode data

def sizeOf (flags : Flags) (suggestion : String) : Except CommandError UInt32 :=
  let size := flags.uint (ascii "size")
  if size = 0 ∨ 4294967295 < size then
    .error (usageError (text "--size must be between 1 and 4294967295") suggestion)
  else .ok (UInt32.ofNat size)

def addressOf (flags : Flags) (missing invalid : String) : Except CommandError UInt64 :=
  let value := flags.string (ascii "address")
  if value = [] then .error (missingRequired "--address" missing)
  else parseTarget value invalid

def pageProtectionError : CommandError :=
  usageError (text "invalid page protection")
    "Use noaccess, r, rw, rc, x, rx, rwx, or the corresponding numeric code."

def parsePageProtection (value : List UInt8) : Except CommandError UInt32 :=
  let normalized := toLower (trimSpace value)
  if normalized ∈ [ascii "noaccess", ascii "none", ascii "---"] then .ok 1
  else if normalized ∈ [ascii "r", ascii "r--", ascii "readonly"] then .ok 2
  else if normalized ∈ [ascii "rw", ascii "rw-", ascii "readwrite"] then .ok 4
  else if normalized ∈ [ascii "rc", ascii "rc-", ascii "writecopy"] then .ok 8
  else if normalized ∈ [ascii "x", ascii "--x", ascii "execute"] then .ok 16
  else if normalized ∈ [ascii "rx", ascii "r-x", ascii "executeread"] then .ok 32
  else if normalized ∈ [ascii "rwx", ascii "executereadwrite"] then .ok 64
  else
    match parseUint normalized 32 with
    | .error _ => .error pageProtectionError
    | .ok parsed =>
      let protection := UInt32.ofNat parsed
      if Client.protectionString protection = "unknown" then
        .error (usageError ⟨"unsupported page protection code %d", [.int parsed]⟩
          "Use one exact Cheat Engine page protection code, not a combined scan mask.")
      else .ok protection

def parseProtection (value : List UInt8) : Except CommandError UInt32 :=
  let normalized := toLower (trimSpace value)
  if normalized ∈ [ascii "readable", ascii "r"] then .ok 110
  else if normalized ∈ [ascii "writable", ascii "w"] then .ok 76
  else if normalized ∈ [ascii "executable", ascii "x"] then .ok 112
  else if normalized = ascii "all" then .ok 127
  else
    match parseUint value 32 with
    | .ok parsed => .ok (UInt32.ofNat parsed)
    | .error _ =>
      .error (usageError (text "invalid --protection value")
        "Use readable, writable, executable, all, or a numeric mask.")

def regionMembers (r : Client.Region) : List (Name × Json Number) :=
  [(ascii "base_address", jsonInt r.baseAddress.toNat), (ascii "size", jsonInt r.size.toNat),
    (ascii "protection_code", jsonInt r.protection.toNat),
    (ascii "permissions", jsonString (ascii r.permissions)),
    (ascii "type_code", jsonInt r.type.toNat), (ascii "type", jsonString (ascii r.typeName))]

def regionsFlags : FlagSet :=
  [intFlag "pid" 0, boolFlag "paged-only", boolFlag "dirty-only", boolFlag "no-shared"]

def memoryRegions (env : Environment) (options : GlobalOptions) (arguments : List (List UInt8)) :
    CliM CommandResult := do
  let flags ← check (parseFlags env regionsFlags arguments)
  let pid ← check (pidOf flags)
  session options do
    let regions ← call (Client.regions pid (Client.newRegionQueryFlags
      (flags.bool (ascii "paged-only")) (flags.bool (ascii "dirty-only"))
      (flags.bool (ascii "no-shared"))))
    return { data := .object [(ascii "pid", jsonInt pid.toInt),
      (ascii "regions", jsonList (regions.map fun r => .object (regionMembers r))),
      (ascii "count", jsonInt regions.length)] }

def regionFlags : FlagSet := [intFlag "pid" 0, stringFlag "address" ""]

def memoryRegion (env : Environment) (options : GlobalOptions) (arguments : List (List UInt8)) :
    CliM CommandResult := do
  let flags ← check (parseFlags env regionFlags arguments)
  let pid ← check (pidOf flags)
  let address ← check (addressOf flags "Use an address to resolve to one mapped region."
    "Use a decimal or 0x-prefixed address.")
  session options do
    let region ← call (Client.regionInfo pid address)
    return { data := .object [(ascii "pid", jsonInt pid.toInt),
      (ascii "address", jsonString (hexText address.toNat)),
      (ascii "region", .object (regionMembers region.region ++
        [(ascii "maps_line", jsonString region.mapsLine)]))] }

def readFlags : FlagSet :=
  [intFlag "pid" 0, stringFlag "address" "", uintFlag "size" 0, stringFlag "format" "hex",
    stringFlag "type" ""]

/-- What `memory read` reads, and how it writes it. -/
structure ReadRequest where
  pid : Int32
  address : UInt64
  size : UInt32
  format : List UInt8
  type : List UInt8

def parseMemoryRead (env : Environment) (arguments : List (List UInt8)) :
    Except CommandError ReadRequest := do
  let flags ← parseFlags env readFlags arguments
  let pid ← pidOf flags
  let address ← addressOf flags "Use --address 0x7ffdeadbeef."
    "Use a decimal address or 0x-prefixed hexadecimal address."
  let size := flags.uint (ascii "size")
  let type := flags.string (ascii "type")
  if maximumReadSize < size then
    .error (usageError ⟨"--size exceeds %d bytes", [.int maximumReadSize]⟩
      "Use a smaller read and stream adjacent ranges separately.")
  else
    let readSize := if size = 0 ∧ type ≠ [] then (byteSize type).getD 0 else size
    let format := toLower (flags.string (ascii "format"))
    if readSize = 0 then
      .error (missingRequired "--size" "Provide --size or a fixed-width --type.")
    else if format ≠ ascii "hex" ∧ format ≠ ascii "base64" ∧ format ≠ ascii "typed" then
      .error (usageError (text "--format must be hex, base64, or typed") "Use --format hex.")
    else if format = ascii "typed" ∧ type = [] then
      .error (missingRequired "--type" "Use --type u32, i32, f32, u64, f64, utf8, or utf16le.")
    else .ok ⟨pid, address, UInt32.ofNat readSize, format, type⟩

/-- A decoded value among the data. -/
def Value.toJson : Value → Json Number
  | .int v => jsonInt v
  | .float32 bits => .leaf (.number (.float32 bits))
  | .float64 bits => .leaf (.number (.float64 bits))
  | .string s => jsonString s

def readMembers (request : ReadRequest) (data : List UInt8) : List (Name × Json Number) :=
  [(ascii "pid", jsonInt request.pid.toInt),
    (ascii "address", jsonString (hexText request.address.toNat)),
    (ascii "requested_size", jsonInt request.size.toNat),
    (ascii "bytes_read", jsonInt data.length), (ascii "format", jsonString request.format)]

def readResult (request : ReadRequest) (data : List UInt8) : Except CommandError CommandResult :=
  if request.format = ascii "hex" then
    .ok { data := .object (readMembers request data ++ [(ascii "data", jsonString (hexEncode data))]) }
  else if request.format = ascii "base64" then
    .ok { data := .object (readMembers request data ++
      [(ascii "data", jsonString (base64Encode data))]) }
  else
    match decode request.type data with
    | .error e =>
      .error (usageError e "Increase --size or choose a decoder matching the target data.")
    | .ok value =>
      .ok { data := .object (readMembers request data ++
        [(ascii "type", jsonString (toLower request.type)), (ascii "data", value.toJson)]) }

def memoryRead (env : Environment) (options : GlobalOptions) (arguments : List (List UInt8)) :
    CliM CommandResult := do
  let request ← check (parseMemoryRead env arguments)
  session options do
    let data ← call (Client.readMemory request.pid request.address request.size)
    check (readResult request data)

def writeFlags : FlagSet :=
  [intFlag "pid" 0, stringFlag "address" "", stringFlag "type" "u32", stringFlag "value" "",
    stringFlag "hex" "", boolFlag "yes", boolFlag "verify"]

/-- What `memory write` writes. -/
structure WriteRequest where
  pid : Int32
  address : UInt64
  encoded : List UInt8
  yes : Bool
  verify : Bool

def parseMemoryWrite (env : Environment) (arguments : List (List UInt8)) :
    Except CommandError WriteRequest := do
  let flags ← parseFlags env writeFlags arguments
  let pid ← pidOf flags
  let address ← addressOf flags "Use --address 0x7ffdeadbeef."
    "Use a decimal address or 0x-prefixed hexadecimal address."
  let hexWasSet := flags.wasSet (ascii "hex")
  if flags.wasSet (ascii "value") = hexWasSet then
    .error (usageError (text "provide exactly one of --value or --hex")
      "Use --value 100 --type i32, or --hex '64 00 00 00'.")
  else
    let parsed := if hexWasSet then parseHex (flags.string (ascii "hex"))
      else encode env.floats (flags.string (ascii "type")) (flags.string (ascii "value"))
    match parsed with
    | .error e => .error (usageError e "Check the selected --type and value encoding.")
    | .ok encoded =>
      if maximumWriteSize < encoded.length then
        .error (usageError ⟨"write exceeds %d bytes", [.int maximumWriteSize]⟩
          "Split the write into smaller authorized operations.")
      else
        .ok ⟨pid, address, encoded, flags.bool (ascii "yes"), flags.bool (ascii "verify")⟩

def writePreview (options : GlobalOptions) (request : WriteRequest) : List (Name × Json Number) :=
  [(ascii "pid", jsonInt request.pid.toInt),
    (ascii "address", jsonString (hexText request.address.toNat)),
    (ascii "size", jsonInt request.encoded.length),
    (ascii "bytes_hex", jsonString (hexEncode request.encoded)),
    (ascii "verify", jsonBool request.verify), dryRunMember options]

def writeRefused (preview : List (Name × Json Number)) : CommandError :=
  ⟨.confirmationRequired, text "memory write refused without --yes",
    "Inspect the command with --dry-run, then repeat with --yes and preferably --verify.", 2, preview⟩

def verificationFailed (details : List (Name × Json Number)) : CommandError :=
  ⟨.writeVerificationFailed, text "read-back bytes do not match the requested write",
    "Stop further writes and inspect target protections, concurrent mutations, and the selected address.",
    30, details⟩

/-- `memoryWrite` with a connection. The number of bytes that the server reports goes into
    the data and is not looked at. -/
def writeConfirmed (options : GlobalOptions) (request : WriteRequest) : CliM CommandResult := do
  let written ← call (Client.writeMemory request.pid request.address request.encoded)
  let preview := (ascii "dry_run", jsonBool false) :: (ascii "written", jsonInt written.toInt) ::
    writePreview options request
  if request.verify then
    let readBack ← call (Client.readMemory request.pid request.address
      (UInt32.ofNat request.encoded.length))
    let details := (ascii "verified", jsonBool (readBack = request.encoded)) :: preview
    if readBack = request.encoded then return { data := .object details }
    else throw (.command (verificationFailed details))
  else return { data := .object preview }

def memoryWrite (env : Environment) (options : GlobalOptions) (arguments : List (List UInt8)) :
    CliM CommandResult := do
  let request ← check (parseMemoryWrite env arguments)
  if options.dryRun then return { data := .object (writePreview options request) }
  else if !request.yes then throw (.command (writeRefused (writePreview options request)))
  else session options (writeConfirmed options request)

/-! ## Scans -/

/-- What both scans read of their flags. -/
structure ScanRequest where
  pid : Int32
  pattern : List UInt8
  mask : List UInt8
  description : List UInt8
  start : UInt64
  stop : UInt64
  alignment : Int
  protection : UInt32
  protectionText : List UInt8
  limit : Int

/-- The flags of a scan, up to the end of its range. -/
structure ScanRange where
  pid : Int32
  start : UInt64
  stop : UInt64
  alignment : Int
  limit : Int

def scanRange (flags : Flags) : Except CommandError ScanRange := do
  let pid ← pidOf flags
  let alignment := flags.int (ascii "alignment")
  let limit := flags.int (ascii "limit")
  if flags.wasSet (ascii "pattern") = flags.wasSet (ascii "value") then
    .error (usageError (text "provide exactly one of --pattern or --value")
      "Use --pattern '48 8B ?? FF', or --value 100 --type i32.")
  else if alignment < 1 then
    .error (usageError (text "--alignment must be at least 1") "Use --alignment 1, 2, 4, or 8.")
  else if limit < 1 ∨ 1000000 < limit then
    .error (usageError (text "--limit must be between 1 and 1000000") "Use --limit 1000.")
  else
    let start ← parseTarget (flags.string (ascii "start"))
      "Use --start with a decimal or 0x-prefixed address."
    let stop ← parseTarget (flags.string (ascii "end"))
      "Use --end with a decimal or 0x-prefixed address."
    .ok ⟨pid, start, stop, alignment, limit⟩

def scanPattern (env : Environment) (flags : Flags) (range : ScanRange) :
    Except CommandError ScanRequest := do
  let protectionText := flags.string (ascii "protection")
  let protection ← parseProtection protectionText
  let pattern := flags.string (ascii "pattern")
  let type := flags.string (ascii "type")
  let value := flags.string (ascii "value")
  let parsed :=
    if flags.wasSet (ascii "pattern") then
      (parsePattern pattern).map fun p => (p.1, p.2, pattern)
    else
      (encode env.floats type value).map fun bytes =>
        (bytes, List.replicate bytes.length 120, toLower type ++ ascii ":" ++ value)
  match parsed with
  | .error e => .error (usageError e "Check the pattern tokens or typed value.")
  | .ok (bytes, mask, description) =>
    .ok ⟨range.pid, bytes, mask, description, range.start, range.stop, range.alignment, protection,
      protectionText, range.limit⟩

def scanFlags : FlagSet :=
  [intFlag "pid" 0, stringFlag "pattern" "", stringFlag "value" "", stringFlag "type" "i32",
    stringFlag "start" "0x0", stringFlag "end" "0x7FFFFFFFFFFF", intFlag "alignment" 1,
    stringFlag "protection" "readable", intFlag "limit" 1000]

def scanMembers (request : ScanRequest) : List (Name × Json Number) :=
  [(ascii "pid", jsonInt request.pid.toInt), (ascii "pattern", jsonString request.description),
    (ascii "pattern_hex", jsonString (hexEncode request.pattern)),
    (ascii "start", jsonString (hexText request.start.toNat)),
    (ascii "end", jsonString (hexText request.stop.toNat)),
    (ascii "alignment", jsonInt request.alignment),
    (ascii "protection", jsonString request.protectionText)]

def addressList (addresses : List UInt64) : Json Number :=
  jsonList (addresses.map fun address => jsonString (hexText address.toNat))

def memoryScan (env : Environment) (options : GlobalOptions) (arguments : List (List UInt8)) :
    CliM CommandResult := do
  let flags ← check (parseFlags env scanFlags arguments)
  let range ← check (scanRange flags)
  let request ← check (scanPattern env flags range)
  session options do
    let addresses ← call (Client.scanMemory request.pid request.pattern request.mask request.start
      request.stop (Int64.ofInt request.alignment) request.protection (Int64.ofInt request.limit))
    return { data := .object (scanMembers request ++
      [(ascii "matches", addressList addresses), (ascii "match_count", jsonInt addresses.length),
        (ascii "limit_reached", jsonBool ((addresses.length : Int) = request.limit))]) }

def aobScanFlags : FlagSet := scanFlags ++ [boolFlag "yes"]

def memoryAOBScan (env : Environment) (options : GlobalOptions) (arguments : List (List UInt8)) :
    CliM CommandResult := do
  let flags ← check (parseFlags env aobScanFlags arguments)
  let range ← check (scanRange flags)
  if range.stop ≤ range.start then
    usage (text "--end must be greater than --start") "Choose a non-empty bounded scan range."
  else
    let request ← check (scanPattern env flags range)
    let preview := scanMembers request ++
      [(ascii "mask", jsonString request.mask), (ascii "limit", jsonInt request.limit),
        (ascii "backend", jsonString (ascii "server")), (ascii "experimental", jsonBool true),
        dryRunMember options]
    mutation options (flags.bool (ascii "yes")) "experimental server-side AOB scan" preview do
      session options do
        let addresses ← call (Client.serverAOBScan request.pid request.pattern request.mask
          request.start request.stop (Int64.ofInt request.alignment) request.protection)
        let shown := addresses.take request.limit.toNat
        return finished
          [(ascii "matches", addressList shown), (ascii "match_count", jsonInt shown.length),
            (ascii "total_match_count", jsonInt addresses.length),
            (ascii "limit_reached", jsonBool (shown.length < addresses.length))] preview

def allocFlags : FlagSet :=
  [intFlag "pid" 0, stringFlag "address" "0", uintFlag "size" 0, stringFlag "protection" "rw",
    boolFlag "yes"]

def memoryAllocate (env : Environment) (options : GlobalOptions) (arguments : List (List UInt8)) :
    CliM CommandResult := do
  let flags ← check (parseFlags env allocFlags arguments)
  let pid ← check (pidOf flags)
  let size ← check (sizeOf flags "Use a bounded allocation size such as --size 4096.")
  let preferredAddress ← check (parseTarget (flags.string (ascii "address"))
    "Use --address 0 or a valid target address.")
  let protection ← check (parsePageProtection (flags.string (ascii "protection")))
  let preview := [(ascii "pid", jsonInt pid.toInt),
    (ascii "preferred_address", jsonString (hexText preferredAddress.toNat)),
    (ascii "size", jsonInt size.toNat),
    (ascii "protection", jsonString (ascii (Client.protectionString protection))),
    dryRunMember options]
  mutation options (flags.bool (ascii "yes")) "memory allocation" preview do
    session options do
      let address ← call (Client.allocateMemory pid preferredAddress size protection)
      return finished [(ascii "address", jsonString (hexText address.toNat))] preview

def freeFlags : FlagSet :=
  [intFlag "pid" 0, stringFlag "address" "", uintFlag "size" 0, boolFlag "yes"]

def memoryFree (env : Environment) (options : GlobalOptions) (arguments : List (List UInt8)) :
    CliM CommandResult := do
  let flags ← check (parseFlags env freeFlags arguments)
  let pid ← check (pidOf flags)
  let address ← check (addressOf flags "Use the exact address returned by 'cecli memory alloc'."
    "Use a valid allocation address.")
  let size ← check (sizeOf flags "Use the exact allocation size.")
  let preview := [(ascii "pid", jsonInt pid.toInt),
    (ascii "address", jsonString (hexText address.toNat)), (ascii "size", jsonInt size.toNat),
    dryRunMember options]
  mutation options (flags.bool (ascii "yes")) "memory free" preview do
    session options do
      let freed ← call (Client.freeMemory pid address size)
      if freed then return finished [] preview
      else throw (.command (operationRejected "memory free" preview))

def protectFlags : FlagSet :=
  [intFlag "pid" 0, stringFlag "address" "", uintFlag "size" 0, stringFlag "protection" "",
    boolFlag "yes"]

def memoryProtect (env : Environment) (options : GlobalOptions) (arguments : List (List UInt8)) :
    CliM CommandResult := do
  let flags ← check (parseFlags env protectFlags arguments)
  let pid ← check (pidOf flags)
  let address ← check (addressOf flags "Use an address from 'cecli memory regions'."
    "Use a valid target address.")
  let size ← check (sizeOf flags "Use a bounded region size.")
  let protectionText := flags.string (ascii "protection")
  if protectionText = [] then
    throw (.command (missingRequired "--protection" "Use noaccess, r, rw, rc, x, rx, or rwx."))
  else
    let protection ← check (parsePageProtection protectionText)
    let preview := [(ascii "pid", jsonInt pid.toInt),
      (ascii "address", jsonString (hexText address.toNat)), (ascii "size", jsonInt size.toNat),
      (ascii "protection", jsonString (ascii (Client.protectionString protection))),
      dryRunMember options]
    mutation options (flags.bool (ascii "yes")) "memory protection change" preview do
      session options do
        let change ← call (Client.changeMemoryProtection pid address size protection)
        return finished [(ascii "old_protection", jsonString (ascii change.oldPermissions))] preview

def executeMemory (env : Environment) (options : GlobalOptions) :
    List (List UInt8) → CliM CommandResult
  | [] => usage (text "memory requires a subcommand") "Use 'cecli help memory'."
  | action :: arguments =>
    if action = ascii "regions" then memoryRegions env options arguments
    else if action = ascii "region" then memoryRegion env options arguments
    else if action = ascii "read" then memoryRead env options arguments
    else if action = ascii "write" then memoryWrite env options arguments
    else if action = ascii "scan" then memoryScan env options arguments
    else if action = ascii "aobscan" then memoryAOBScan env options arguments
    else if action = ascii "alloc" then memoryAllocate env options arguments
    else if action = ascii "free" then memoryFree env options arguments
    else if action = ascii "protect" then memoryProtect env options arguments
    else usage ⟨"unknown memory subcommand %q", [.str action]⟩ "Use 'cecli help memory'."

end CheatEngine.Cli
