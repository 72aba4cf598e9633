/-
  CheatEngine.Client.Request

  Every packet the client can send, as a value with the packet's arguments
  (`Request`), and the client operations that the command line offers
  (`ClientOp`).
-/
import CheatEngine.Client.Debug
import CheatEngine.Client.Remote
import CheatEngine.Client.Scan

namespace CheatEngine.Client

open CheatEngine.Lib

/-! ## Requests -/

/-- A request, with the arguments its packet carries. -/
inductive Request
  | getVersion
  | closeConnection
  | terminateServer
  | openProcess (pid : Int32)
  | createSnapshot (flags pid : UInt32)
  | process32First (handle : UInt32)
  | process32Next (handle : UInt32)
  | closeHandle (handle : UInt32)
  | readProcessMemory (handle : UInt32) (address : UInt64) (size : UInt32)
  | writeProcessMemory (handle : UInt32) (address : UInt64) (data : List UInt8)
  | startDebug (handle : UInt32)
  | waitForDebugEvent (handle : UInt32) (timeout : Int32)
  | continueFromDebugEvent (handle : UInt32) (tid : UInt32) (mode : Int32)
  | setBreakpoint (handle : UInt32) (tid debugRegister : Int32) (address : UInt64)
      (breakpointType size : Int32)
  | removeBreakpoint (handle : UInt32) (tid debugRegister : Int32) (wasWatchpoint : Bool)
  | suspendThread (handle : UInt32) (tid : Int32)
  | resumeThread (handle : UInt32) (tid : Int32)
  | getThreadContext (handle : UInt32) (tid : Int32)
  | setThreadContext (handle : UInt32) (tid : Int32) (data : List UInt8)
  | getArchitecture (handle : UInt32)
  | getSymbols (fileOffset : UInt32) (path : List UInt8)
  | loadExtension (handle : UInt32)
  | allocateMemory (handle : UInt32) (address : UInt64) (size protection : UInt32)
  | freeMemory (handle : UInt32) (address : UInt64) (size : UInt32)
  | createRemoteThread (handle : UInt32) (start parameter : UInt64)
  | loadModule (handle : UInt32) (path : List UInt8)
  | setSpeed (handle speed : UInt32)
  | virtualQueryExFull (handle : UInt32) (flags : UInt8)
  | getRegionInfo (handle : UInt32) (address : UInt64)
  | getABI
  | setConnectionName (name : List UInt8)
  | createSnapshotEx (flags pid : UInt32)
  | changeMemoryProtection (handle : UInt32) (address : UInt64) (size protection : UInt32)
  | getOptions
  | getOption (name : List UInt8)
  | setOption (name value : List UInt8)
  | openPipe (name : List UInt8) (timeout : UInt32)
  | readPipe (handle size timeout : UInt32)
  | writePipe (handle : UInt32) (data : List UInt8) (timeout : UInt32)
  | getServerPath
  | isAndroid
  | loadModuleEx (handle : UInt32) (dlopen : UInt64) (path : List UInt8)
  | setCurrentPath (path : List UInt8)
  | getCurrentPath
  | enumerateFiles (path : List UInt8)
  | getFilePermissions (path : List UInt8)
  | setFilePermissions (path : List UInt8) (permissions : UInt32)
  | getFile (path : List UInt8)
  | putFile (path content : List UInt8)
  | createDirectory (path : List UInt8)
  | deleteFile (path : List UInt8)
  | aobScan (handle : UInt32) (pattern mask : List UInt8) (start stop : UInt64) (alignment : Int32)
      (protection : UInt32)

/-- A string that `writeString16` accepts. -/
def Text16 (value : List UInt8) : Prop := value.length ≤ 65535 ∧ (0 : UInt8) ∉ value

namespace Request

def string16 (value : List UInt8) : List UInt8 := u16 (UInt16.ofNat value.length) ++ value

def command : Request → UInt8
  | getVersion => commandGetVersion
  | closeConnection => commandCloseConnection
  | terminateServer => commandTerminateServer
  | openProcess _ => commandOpenProcess
  | createSnapshot _ _ => commandCreateToolhelp32Snapshot
  | process32First _ => commandProcess32First
  | process32Next _ => commandProcess32Next
  | closeHandle _ => commandCloseHandle
  | readProcessMemory _ _ _ => commandReadProcessMemory
  | writeProcessMemory _ _ _ => commandWriteProcessMemory
  | startDebug _ => commandStartDebug
  | waitForDebugEvent _ _ => commandWaitForDebugEvent
  | continueFromDebugEvent _ _ _ => commandContinueFromDebugEvent
  | setBreakpoint _ _ _ _ _ _ => commandSetBreakpoint
  | removeBreakpoint _ _ _ _ => commandRemoveBreakpoint
  | suspendThread _ _ => commandSuspendThread
  | resumeThread _ _ => commandResumeThread
  | getThreadContext _ _ => commandGetThreadContext
  | setThreadContext _ _ _ => commandSetThreadContext
  | getArchitecture _ => commandGetArchitecture
  | getSymbols _ _ => commandGetSymbols
  | loadExtension _ => commandLoadExtension
  | allocateMemory _ _ _ _ => commandAllocateMemory
  | freeMemory _ _ _ => commandFreeMemory
  | createRemoteThread _ _ _ => commandCreateRemoteThread
  | loadModule _ _ => commandLoadModule
  | setSpeed _ _ => commandSetSpeed
  | virtualQueryExFull _ _ => commandVirtualQueryExFull
  | getRegionInfo _ _ => commandGetRegionInfo
  | getABI => commandGetABI
  | setConnectionName _ => commandSetConnectionName
  | createSnapshotEx _ _ => commandCreateToolhelp32SnapshotEx
  | changeMemoryProtection _ _ _ _ => commandChangeMemoryProtection
  | getOptions => commandGetOptions
  | getOption _ => commandGetOptionValue
  | setOption _ _ => commandSetOptionValue
  | openPipe _ _ => commandOpenNamedPipe
  | readPipe _ _ _ => commandPipeRead
  | writePipe _ _ _ => commandPipeWrite
  | getServerPath => commandGetServerPath
  | isAndroid => commandIsAndroid
  | loadModuleEx _ _ _ => commandLoadModuleEx
  | setCurrentPath _ => commandSetCurrentPath
  | getCurrentPath => commandGetCurrentPath
  | enumerateFiles _ => commandEnumerateFiles
  | getFilePermissions _ => commandGetFilePermissions
  | setFilePermissions _ _ => commandSetFilePermissions
  | getFile _ => commandGetFile
  | putFile _ _ => commandPutFile
  | createDirectory _ => commandCreateDirectory
  | deleteFile _ => commandDeleteFile
  | aobScan _ _ _ _ _ _ _ => commandAOBScan

/-- The bytes after the command byte. -/
def body : Request → List UInt8
  | getVersion | closeConnection | terminateServer | getABI | getOptions | getServerPath
  | isAndroid | getCurrentPath => []
  | openProcess pid => i32 pid
  | createSnapshot flags pid | createSnapshotEx flags pid => u32 flags ++ u32 pid
  | process32First handle | process32Next handle | closeHandle handle | startDebug handle
  | getArchitecture handle | loadExtension handle => u32 handle
  | readProcessMemory handle address size => u32 handle ++ u64 address ++ u32 size ++ u8 0
  | writeProcessMemory handle address data =>
    i32 handle.toInt32 ++ i64 address.toInt64 ++ i32 (Int32.ofNat data.length) ++ data
  | waitForDebugEvent handle timeout => u32 handle ++ i32 timeout
  | continueFromDebugEvent handle tid mode => u32 handle ++ u32 tid ++ i32 mode
  | setBreakpoint handle tid debugRegister address breakpointType size =>
    u32 handle ++ i32 tid ++ i32 debugRegister ++ u64 address ++ i32 breakpointType ++ i32 size
  | removeBreakpoint handle tid debugRegister wasWatchpoint =>
    u32 handle ++ i32 tid ++ i32 debugRegister ++ u32 (if wasWatchpoint then 1 else 0)
  | suspendThread handle tid | resumeThread handle tid => u32 handle ++ i32 tid
  | getThreadContext handle tid => u32 handle ++ u32 tid.toUInt32
  | setThreadContext handle tid data =>
    u32 handle ++ u32 tid.toUInt32 ++ u32 (UInt32.ofNat data.length) ++ data
  | getSymbols fileOffset path => u32 fileOffset ++ u32 (UInt32.ofNat path.length) ++ path
  | allocateMemory handle address size protection
  | changeMemoryProtection handle address size protection =>
    u32 handle ++ u64 address ++ u32 size ++ u32 protection
  | freeMemory handle address size => u32 handle ++ u64 address ++ u32 size
  | createRemoteThread handle start parameter => u32 handle ++ u64 start ++ u64 parameter
  | loadModule handle path => u32 handle ++ u32 (UInt32.ofNat path.length) ++ path
  | setSpeed handle speed => u32 handle ++ u32 speed
  | virtualQueryExFull handle flags => u32 handle ++ u8 flags
  | getRegionInfo handle address => u32 handle ++ u64 address
  | setConnectionName name => u32 (UInt32.ofNat name.length) ++ name
  | getOption name => string16 name
  | setOption name value => string16 name ++ string16 value
  | openPipe name timeout => string16 name ++ u32 timeout
  | readPipe handle size timeout => u32 handle ++ u32 size ++ u32 timeout
  | writePipe handle data timeout =>
    u32 handle ++ u32 (UInt32.ofNat data.length) ++ u32 timeout ++ data
  | loadModuleEx handle dlopen path =>
    u32 handle ++ u64 dlopen ++ u32 (UInt32.ofNat path.length) ++ path
  | setCurrentPath path | enumerateFiles path | getFilePermissions path | getFile path
  | createDirectory path | deleteFile path => string16 path
  | setFilePermissions path permissions => string16 path ++ u32 permissions
  | putFile path content => string16 path ++ u32 (UInt32.ofNat content.length) ++ content
  | aobScan handle pattern mask start stop alignment protection =>
    u32 handle ++ u64 start ++ u64 stop ++ i32 alignment ++ u32 protection ++
      i32 (Int32.ofNat pattern.length) ++ (pattern ++ mask)

def packet (r : Request) : List UInt8 := r.command :: r.body

end Request

/-- A call of a public client method, with the arguments that the command line
    passes. -/
inductive ClientOp
  | serverInfo
  | pathInfo
  | setConnectionName (name : List UInt8)
  | terminateServer
  | options
  | optionValue (name : List UInt8)
  | setOption (name value : List UInt8)
  | listProcesses
  | processInfo (pid : Int32)
  | setSpeed (pid : Int32) (speed : UInt32)
  | listModules (pid : Int32)
  | loadModule (pid : Int32) (path : List UInt8)
  | loadModuleEx (pid : Int32) (dlopen : UInt64) (path : List UInt8)
  | loadExtension (pid : Int32)
  | listThreads (pid : Int32)
  | suspendThread (pid tid : Int32)
  | resumeThread (pid tid : Int32)
  | createRemoteThread (pid : Int32) (start parameter : UInt64)
  | closeHandle (handle : UInt32)
  | regions (pid : Int32) (flags : UInt8)
  | regionInfo (pid : Int32) (address : UInt64)
  | readMemory (pid : Int32) (address : UInt64) (size : UInt32)
  | writeMemory (pid : Int32) (address : UInt64) (data : List UInt8)
  | scanMemory (pid : Int32) (pattern mask : List UInt8) (start stop : UInt64) (alignment : Int64)
      (protection : UInt32) (maximumMatches : Int64)
  | serverAOBScan (pid : Int32) (pattern mask : List UInt8) (start stop : UInt64)
      (alignment : Int64) (protection : UInt32)
  | allocateMemory (pid : Int32) (address : UInt64) (size protection : UInt32)
  | freeMemory (pid : Int32) (address : UInt64) (size : UInt32)
  | changeMemoryProtection (pid : Int32) (address : UInt64) (size protection : UInt32)
  | traceDebugEvents (timeout : Int64) (pid : Int32) (maximumEvents eventTimeout : Int64)
      (continueMode : DebugContinueMode)
  | setBreakpoint (pid tid debugRegister : Int32) (address : UInt64) (breakpointType size : Int32)
  | removeBreakpoint (pid tid debugRegister : Int32) (wasWatchpoint : Bool)
  | getThreadContext (pid tid : Int32)
  | setThreadContext (pid tid : Int32) (data : List UInt8)
  | currentPath
  | setCurrentPath (path : List UInt8)
  | listRemoteFiles (path : List UInt8)
  | remoteFilePermissions (path : List UInt8)
  | setRemoteFilePermissions (path : List UInt8) (permissions : UInt32)
  | getRemoteFile (path : List UInt8)
  | putRemoteFile (path content : List UInt8)
  | createRemoteDirectory (path : List UInt8)
  | deleteRemotePath (path : List UInt8)
  | openPipe (name : List UInt8) (timeout : UInt32)
  | readPipe (handle size timeout : UInt32)
  | writePipe (handle : UInt32) (data : List UInt8) (timeout : UInt32)
  | symbols (inflate : Inflate) (path : List UInt8) (fileOffset : UInt32)

namespace ClientOp

/-- What the command line checks of the lengths of an operation's arguments
    before it calls the method. -/
def Admitted : ClientOp → Prop
  | optionValue name | setOption name _ => name ≠ []
  | loadModule _ path | loadModuleEx _ _ path | symbols _ path _ =>
    path ≠ [] ∧ path.length ≤ 65535 ∧ (0 : UInt8) ∉ path
  | readMemory _ _ size => 0 < size.toNat ∧ size.toNat ≤ 16 * 2 ^ 20
  | readPipe _ size _ => 0 < size.toNat ∧ size.toNat ≤ 16 * 2 ^ 20
  | writeMemory _ _ data | writePipe _ data _ => data.length ≤ 2 ^ 20
  | _ => True

/-- The method of an operation, its result dropped. -/
def method : ClientOp → ClientM Unit
  | serverInfo => do let _ ← Client.serverInfo
  | pathInfo => do let _ ← Client.pathInfo
  | setConnectionName name => Client.setConnectionName name
  | terminateServer => Client.terminateServer
  | options => do let _ ← Client.options
  | optionValue name => do let _ ← Client.optionValue name
  | setOption name value => Client.setOption name value
  | listProcesses => do let _ ← Client.listProcesses
  | processInfo pid => do let _ ← Client.processInfo pid
  | setSpeed pid speed => do let _ ← Client.setSpeed pid speed
  | listModules pid => do let _ ← Client.listModules pid
  | loadModule pid path => do let _ ← Client.loadModule pid path
  | loadModuleEx pid dlopen path => do let _ ← Client.loadModuleEx pid dlopen path
  | loadExtension pid => do let _ ← Client.loadExtension pid
  | listThreads pid => do let _ ← Client.listThreads pid
  | suspendThread pid tid => do let _ ← Client.suspendThread pid tid
  | resumeThread pid tid => do let _ ← Client.resumeThread pid tid
  | createRemoteThread pid start parameter => do
    let _ ← Client.createRemoteThread pid start parameter
  | closeHandle handle => Client.closeHandle handle
  | regions pid flags => do let _ ← Client.regions pid flags
  | regionInfo pid address => do let _ ← Client.regionInfo pid address
  | readMemory pid address size => do let _ ← Client.readMemory pid address size
  | writeMemory pid address data => do let _ ← Client.writeMemory pid address data
  | scanMemory pid pattern mask start stop alignment protection maximumMatches => do
    let _ ← Client.scanMemory pid pattern mask start stop alignment protection maximumMatches
  | serverAOBScan pid pattern mask start stop alignment protection => do
    let _ ← Client.serverAOBScan pid pattern mask start stop alignment protection
  | allocateMemory pid address size protection => do
    let _ ← Client.allocateMemory pid address size protection
  | freeMemory pid address size => do let _ ← Client.freeMemory pid address size
  | changeMemoryProtection pid address size protection => do
    let _ ← Client.changeMemoryProtection pid address size protection
  | traceDebugEvents timeout pid maximumEvents eventTimeout continueMode => do
    let _ ← Client.traceDebugEvents timeout pid maximumEvents eventTimeout continueMode
  | setBreakpoint pid tid debugRegister address breakpointType size => do
    let _ ← Client.setBreakpoint pid tid debugRegister address breakpointType size
  | removeBreakpoint pid tid debugRegister wasWatchpoint => do
    let _ ← Client.removeBreakpoint pid tid debugRegister wasWatchpoint
  | getThreadContext pid tid => do let _ ← Client.getThreadContext pid tid
  | setThreadContext pid tid data => do let _ ← Client.setThreadContext pid tid data
  | currentPath => do let _ ← Client.currentPath
  | setCurrentPath path => do let _ ← Client.setCurrentPath path
  | listRemoteFiles path => do let _ ← Client.listRemoteFiles path
  | remoteFilePermissions path => do let _ ← Client.remoteFilePermissions path
  | setRemoteFilePermissions path permissions => do
    let _ ← Client.setRemoteFilePermissions path permissions
  | getRemoteFile path => do let _ ← Client.getRemoteFile path
  | putRemoteFile path content => do let _ ← Client.putRemoteFile path content
  | createRemoteDirectory path => do let _ ← Client.createRemoteDirectory path
  | deleteRemotePath path => do let _ ← Client.deleteRemotePath path
  | openPipe name timeout => do let _ ← Client.openPipe name timeout
  | readPipe handle size timeout => do let _ ← Client.readPipe handle size timeout
  | writePipe handle data timeout => do let _ ← Client.writePipe handle data timeout
  | symbols inflate path fileOffset => do let _ ← Client.symbols inflate path fileOffset

end ClientOp

end CheatEngine.Client
