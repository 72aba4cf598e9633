/-
  CheatEngine.Client.Process

  Handles, processes, modules and threads: the first half of
  internal/ceserver/client.go, with the command codes and the value types of
  protocol.go and types.go.
-/
import CheatEngine.Client.Net

namespace CheatEngine.Client

open CheatEngine.Lib

/-! ## Command codes (protocol.go) -/

def commandGetVersion : UInt8 := 0
def commandCloseConnection : UInt8 := 1
def commandTerminateServer : UInt8 := 2
def commandOpenProcess : UInt8 := 3
def commandCreateToolhelp32Snapshot : UInt8 := 4
def commandProcess32First : UInt8 := 5
def commandProcess32Next : UInt8 := 6
def commandCloseHandle : UInt8 := 7
def commandReadProcessMemory : UInt8 := 9
def commandWriteProcessMemory : UInt8 := 10
def commandStartDebug : UInt8 := 11
def commandWaitForDebugEvent : UInt8 := 13
def commandContinueFromDebugEvent : UInt8 := 14
def commandSetBreakpoint : UInt8 := 15
def commandRemoveBreakpoint : UInt8 := 16
def commandSuspendThread : UInt8 := 17
def commandResumeThread : UInt8 := 18
def commandGetThreadContext : UInt8 := 19
def commandSetThreadContext : UInt8 := 20
def commandGetArchitecture : UInt8 := 21
def commandGetSymbols : UInt8 := 24
def commandLoadExtension : UInt8 := 25
def commandAllocateMemory : UInt8 := 26
def commandFreeMemory : UInt8 := 27
def commandCreateRemoteThread : UInt8 := 28
def commandLoadModule : UInt8 := 29
def commandSetSpeed : UInt8 := 30
def commandVirtualQueryExFull : UInt8 := 31
def commandGetRegionInfo : UInt8 := 32
def commandGetABI : UInt8 := 33
def commandSetConnectionName : UInt8 := 34
def commandCreateToolhelp32SnapshotEx : UInt8 := 35
def commandChangeMemoryProtection : UInt8 := 36
def commandGetOptions : UInt8 := 37
def commandGetOptionValue : UInt8 := 38
def commandSetOptionValue : UInt8 := 39
def commandOpenNamedPipe : UInt8 := 41
def commandPipeRead : UInt8 := 42
def commandPipeWrite : UInt8 := 43
def commandGetServerPath : UInt8 := 44
def commandIsAndroid : UInt8 := 45
def commandLoadModuleEx : UInt8 := 46
def commandSetCurrentPath : UInt8 := 47
def commandGetCurrentPath : UInt8 := 48
def commandEnumerateFiles : UInt8 := 49
def commandGetFilePermissions : UInt8 := 50
def commandSetFilePermissions : UInt8 := 51
def commandGetFile : UInt8 := 52
def commandPutFile : UInt8 := 53
def commandCreateDirectory : UInt8 := 54
def commandDeleteFile : UInt8 := 55
def commandAOBScan : UInt8 := 200

def toolhelpSnapshotProcess : UInt32 := 0x2
def toolhelpSnapshotThread : UInt32 := 0x4
def toolhelpSnapshotModule : UInt32 := 0x8

/-! ## Values (types.go) -/

structure Process where
  pid : Int32
  name : List UInt8

structure Module where
  baseAddress : UInt64
  size : UInt32
  fileOffset : UInt32
  part : Int32
  name : List UInt8

def architectureString (architecture : UInt8) : String :=
  if architecture = 0 then "x86"
  else if architecture = 1 then "x86_64"
  else if architecture = 2 then "arm"
  else if architecture = 3 then "arm64"
  else "unknown"

def abiString (abi : UInt8) : String :=
  if abi = 0 then "windows" else if abi = 1 then "unix" else "unknown"

/-- `ServerInfo`, less the endpoint that the client copies from itself. -/
structure ServerInfo where
  protocolVersion : Int32
  versionName : List UInt8
  abi : String

structure ProcessInfo where
  pid : Int32
  architecture : String
  moduleCount : Nat
  threadCount : Nat

/-- `connection.Close()` after `client.connection = nil`. -/
def closeConnection : ClientM Unit := do
  match ← ask .close with
  | .ok () => return ()
  | .error e => throw (.plain (text e))

/-- `Close`: without a debug session the server is told first. -/
def close : ClientM Unit := do
  if ← ask .connected then
    if ← ask .debugActive then
      closeConnection
    else
      let _ ← ask (.write [commandCloseConnection])
      closeConnection

def version : ClientM (Int32 × List UInt8) := do
  writePacket [commandGetVersion]
  let header ← readFull "get version" 5
  let name ← readFull "get version name" (u8At header 4).toNat
  return (i32At header 0, name)

def abi : ClientM UInt8 := do
  writePacket [commandGetABI]
  readU8 "get ABI"

def serverInfo : ClientM ServerInfo := do
  let (protocolVersion, versionName) ← version
  let code ← abi
  return ⟨protocolVersion, versionName, abiString code⟩

def openProcess (pid : Int32) : ClientM UInt32 := do
  writePacket (commandOpenProcess :: i32 pid)
  let handle ← readU32 "open process"
  if handle = 0 then
    throw (.protocol "open process"
      ⟨"server denied or could not open PID %d", [.int pid.toInt]⟩)
  else return handle

def closeHandle (handle : UInt32) : ClientM Unit := do
  writePacket (commandCloseHandle :: u32 handle)
  let _ ← readI32 "close handle"
  return ()

/-- Run a method and hand back its error as a value. -/
def attempt {α : Type} (m : ClientM α) : ClientM (Except ClientError α) :=
  ExceptT.mk (do return .ok (← m.run))

/-- `defer func() { _ = client.CloseHandle(handle) }()` around the rest of a
    method. -/
def deferClose {α : Type} (handle : UInt32) (body : ClientM α) : ClientM α := do
  let result ← attempt body
  let _ ← attempt (closeHandle handle)
  ExceptT.mk (return result)

def architecture (handle : UInt32) : ClientM UInt8 := do
  writePacket (commandGetArchitecture :: u32 handle)
  readU8 "get architecture"

def createSnapshot (flags pid : UInt32) : ClientM UInt32 := do
  writePacket (commandCreateToolhelp32Snapshot :: (u32 flags ++ u32 pid))
  let handle ← readU32 "create snapshot"
  if handle = 0 then
    throw (.protocol "create snapshot" (text "server returned an invalid snapshot handle"))
  else return handle

/-- The loop of `ListProcesses`: at most `fuel` entries, the first one asked
    for with `command`. -/
def listProcessesLoop (handle : UInt32) : Nat → UInt8 → List Process → ClientM (List Process)
  | 0, _, processes => return processes
  | fuel + 1, command, processes => do
    writePacket (command :: u32 handle)
    let result ← readI32 "list processes"
    let pid ← readI32 "list processes"
    let nameLength ← readI32 "list processes"
    if result = 0 then return processes
    else
      let name ← readString "read process name" nameLength.toInt
      listProcessesLoop handle fuel commandProcess32Next (processes ++ [⟨pid, name⟩])

def listProcesses : ClientM (List Process) := do
  let handle ← createSnapshot toolhelpSnapshotProcess 0
  deferClose handle
    (listProcessesLoop handle maximumCollectionEntries commandProcess32First [])

def listModulesLoop : Nat → List Module → ClientM (List Module)
  | 0, modules => return modules
  | fuel + 1, modules => do
    let header ← readFull "list modules" 28
    if i32At header 0 = 0 then return modules
    else
      let name ← readString "read module name" (i32At header 24).toInt
      listModulesLoop fuel (modules ++
        [⟨u64At header 4, u32At header 16, u32At header 20, i32At header 12, name⟩])

def listModules (pid : Int32) : ClientM (List Module) := do
  writePacket (commandCreateToolhelp32SnapshotEx ::
    (u32 toolhelpSnapshotModule ++ u32 pid.toUInt32))
  listModulesLoop maximumCollectionEntries []

def readMany {α : Type} (read : ClientM α) : Nat → ClientM (List α)
  | 0 => return []
  | count + 1 => do
    let value ← read
    let values ← readMany read count
    return value :: values

def listThreads (pid : Int32) : ClientM (List Int32) := do
  writePacket (commandCreateToolhelp32SnapshotEx ::
    (u32 toolhelpSnapshotThread ++ u32 pid.toUInt32))
  let count ← readI32 "list threads"
  if count.toInt < 0 ∨ maximumCollectionEntries < count.toInt then
    throw (.protocol "list threads" ⟨"invalid thread count %d", [.int count.toInt]⟩)
  else readMany (readI32 "list threads") count.toInt.toNat

def processInfo (pid : Int32) : ClientM ProcessInfo := do
  let handle ← openProcess pid
  deferClose handle do
    let code ← architecture handle
    let modules ← listModules pid
    let threads ← listThreads pid
    return ⟨pid, architectureString code, modules.length, threads.length⟩

end CheatEngine.Client
