/-
  CheatEngine.Ceserver.Dispatch

  `DispatchCommand` of ceserver.c and the option handlers of options.c, as
  commands over `CeApi`.  A struct is received whole and its fields are read
  at their `#pragma pack(1)` offsets.  Each command has the name of its case.
-/
import CheatEngine.Ceserver.Api

namespace CheatEngine.Ceserver

open CheatEngine.Lib

/-- What the compiler and the command line fix for a ceserver. -/
structure Build where
  /-- `sizeof(uintptr_t) == 4`. -/
  pointer32 : Bool
  /-- `__ANDROID__`. -/
  android : Bool
  /-- `CESERVERPATH`. -/
  ceserverPath : CString 511

/-- A 64-bit Linux build that was started without a path. -/
def Build.linux64 : Build := ⟨false, false, CString.empty _⟩

/-- A 64-bit address as a `void *`. -/
def Build.pointer (b : Build) (address : UInt64) : UInt64 :=
  if b.pointer32 then address &&& 0xFFFFFFFF else address

/-- The thread-local `threadname`. -/
inductive ThreadName
  | null
  /-- A `strdup`ed connection name. -/
  | heap (name : List UInt8)
  /-- The string literal that `StartDebug` assigns. -/
  | literal
  deriving DecidableEq, Repr

/-- The thread-local variables of a connection. -/
structure Connection where
  threadname : ThreadName
  isDebuggerThread : UInt32
  debugfd : Int32

/-- The variables at the top of `newconnection`. -/
def Connection.initial : Connection := ⟨.null, 0, -1⟩

def ascii (s : String) : List UInt8 := s.toList.map Char.toUInt8

/-- What C sees of a buffer that is used as a string. -/
def cString (buffer : List UInt8) : List UInt8 := buffer.takeWhile (· ≠ 0)

/-- `sendstring16`; `NULL` is sent as a length of 0. -/
def sendstring16 (str : List UInt8) : Command CeApi Unit :=
  reply (u16 (UInt16.ofNat str.length) ++ str)

def receivestring16 : Command CeApi (Option (List UInt8)) := do
  let l ← receive 2
  if u16At l 0 = 0 then return none
  else
    let str ← receive (u16At l 0).toNat
    return some (cString str)

def flagByte (b : Bool) : List UInt8 := u8 (if b then 1 else 0)

/-- `windowsProtectionToLinux`: `PROT_READ`, `PROT_WRITE` and `PROT_EXEC` are 1,
    2 and 4. -/
def windowsProtectionToLinux (windowsprotection : UInt32) : Int32 :=
  if windowsprotection = 64 then 7
  else if windowsprotection = 32 then 5
  else if windowsprotection = 16 then 4
  else if windowsprotection = 4 then 3
  else if windowsprotection = 2 then 1
  else 0

def versionstring : List UInt8 := ascii "CHEATENGINE Network 2.3"

def cmdGetVersion : Command CeApi Unit :=
  reply (i32 6 ++ u8 (UInt8.ofNat versionstring.length) ++ versionstring)

/-- `CMD_SET_CONNECTION_NAME`: the old name is freed first, which brings the
    server down when it is a literal. -/
def cmdSetConnectionName (s : Connection) : Command CeApi Connection := do
  let namelength ← receive 4
  let name ← receive (u32At namelength 0).toNat
  if s.threadname = .literal then hangUp
  else return { s with threadname := .heap (cString name) }

def cmdGetABI : Command CeApi Unit := reply (u8 1)

/-- `CMD_GETARCHITECTURE` with its handle. -/
def onGetArchitecture (h : UInt32) : Command CeApi Unit := do
  let arch ← api (.getArchitecture h)
  let specified ← api .specifiedArch
  reply (u8 (if specified ≠ 9 then specified else arch))

def cmdGetArchitecture : Command CeApi Unit := do
  let h ← receive 4
  onGetArchitecture (u32At h 0)

def cmdCloseConnection (s : Connection) : Command CeApi Connection := do
  if s.isDebuggerThread ≠ 0 then
    api (.stopDebug s.isDebuggerThread)
    hangUp
  else hangUp

def cmdTerminateServer : Command CeApi Connection := hangUp

/-! ## Debugging -/

/-- `CMD_STARTDEBUG` with its handle. -/
def onStartDebug (s : Connection) (h : UInt32) : Command CeApi Connection := do
  let (r, isDebugger) ← api (.startDebug h)
  let s := if isDebugger then { s with threadname := .literal } else s
  reply (i32 r)
  if r ≠ 0 then
    let debugfd ← api (.getDebugPort h)
    return { s with isDebuggerThread := h, debugfd := debugfd }
  else return s

def cmdStartDebug (s : Connection) : Command CeApi Connection := do
  let h ← receive 4
  onStartDebug s (u32At h 0)

def DebugEvent.encode (e : DebugEvent) : List UInt8 :=
  i32 e.debugevent ++ i64 e.threadid ++ u64 e.payload

/-- `CMD_WAITFORDEBUGEVENT` with its struct. -/
def onWaitForDebugEvent (hProcess : UInt32) (timeout : Int32) : Command CeApi Unit := do
  let (r, event) ← api (.waitForDebugEvent hProcess timeout)
  if r ≠ 0 then reply (i32 r ++ event.encode) else reply (i32 r)

def cmdWaitForDebugEvent : Command CeApi Unit := do
  let wfd ← receive 8
  onWaitForDebugEvent (u32At wfd 0) (i32At wfd 4)

/-- `CMD_CONTINUEFROMDEBUGEVENT` with its struct. -/
def onContinueFromDebugEvent (hProcess : UInt32) (tid ignore : Int32) : Command CeApi Unit := do
  let r ← api (.continueFromDebugEvent hProcess tid ignore)
  reply (i32 r)

def cmdContinueFromDebugEvent : Command CeApi Unit := do
  let cfd ← receive 12
  onContinueFromDebugEvent (u32At cfd 0) (i32At cfd 4) (i32At cfd 8)

/-- `CMD_SETBREAKPOINT` with its struct. -/
def onSetBreakpoint (b : Build) (hProcess : UInt32) (tid debugreg : Int32) (address : UInt64)
    (bptype bpsize : Int32) : Command CeApi Unit := do
  let r ← api (.setBreakpoint hProcess tid debugreg (b.pointer address) bptype bpsize)
  reply (i32 r)

def cmdSetBreakpoint (b : Build) : Command CeApi Unit := do
  let sb ← receive 28
  onSetBreakpoint b (u32At sb 0) (i32At sb 4) (i32At sb 8) (u64At sb 12) (i32At sb 20)
    (i32At sb 24)

/-- `CMD_REMOVEBREAKPOINT` with its struct. -/
def onRemoveBreakpoint (hProcess : UInt32) (tid debugreg wasWatchpoint : Int32) :
    Command CeApi Unit := do
  let r ← api (.removeBreakpoint hProcess tid debugreg wasWatchpoint)
  reply (i32 r)

def cmdRemoveBreakpoint : Command CeApi Unit := do
  let rb ← receive 16
  onRemoveBreakpoint (u32At rb 0) (i32At rb 4) (i32At rb 8) (i32At rb 12)

/-- The bytes of a filled-in `CONTEXT`. -/
def Context.encode (c : Context) : List UInt8 := u32 c.structsize ++ u32 c.type ++ c.registers

/-- `CMD_GETTHREADCONTEXT` with its struct. -/
def onGetThreadContext (hProcess : UInt32) (tid : Int32) : Command CeApi Unit := do
  match ← api (.getThreadContext hProcess tid) with
  | some context => reply (u32 1 ++ u32 context.structsize ++ context.encode)
  | none => reply (u32 0)

def cmdGetThreadContext : Command CeApi Unit := do
  let gtc ← receive 8
  onGetThreadContext (u32At gtc 0) (i32At gtc 4)

/-- `CMD_SETTHREADCONTEXT` with its struct and context. -/
def onSetThreadContext (hProcess : UInt32) (tid : Int32) (context : List UInt8) :
    Command CeApi Unit := do
  let result ← api (.setThreadContext hProcess tid context)
  reply (i32 result)

def cmdSetThreadContext : Command CeApi Unit := do
  let stc ← receive 12
  let c ← receive (u32At stc 8).toNat
  onSetThreadContext (u32At stc 0) (i32At stc 4) c

/-- `CMD_SUSPENDTHREAD` with its struct. -/
def onSuspendThread (hProcess : UInt32) (tid : Int32) : Command CeApi Unit := do
  let r ← api (.suspendThread hProcess tid)
  reply (i32 r)

def cmdSuspendThread : Command CeApi Unit := do
  let st ← receive 8
  onSuspendThread (u32At st 0) (i32At st 4)

/-- `CMD_RESUMETHREAD` with its struct. -/
def onResumeThread (hProcess : UInt32) (tid : Int32) : Command CeApi Unit := do
  let r ← api (.resumeThread hProcess tid)
  reply (i32 r)

def cmdResumeThread : Command CeApi Unit := do
  let rt ← receive 8
  onResumeThread (u32At rt 0) (i32At rt 4)

/-! ## Handles and snapshots -/

def onCloseHandle (h : UInt32) : Command CeApi Unit := do
  api (.closeHandle h)
  reply (i32 1)

def cmdCloseHandle : Command CeApi Unit := do
  let h ← receive 4
  onCloseHandle (u32At h 0)

/-- `CMD_OPENPROCESS` with its process ID. -/
def onOpenProcess (pid : UInt32) : Command CeApi Unit := do
  let processhandle ← api (.openProcess pid)
  reply (u32 processhandle)

def cmdOpenProcess : Command CeApi Unit := do
  let pid ← receive 4
  onOpenProcess (u32At pid 0)

/-- `CMD_CREATETOOLHELP32SNAPSHOT` with its struct. -/
def onCreateToolhelp32Snapshot (dwFlags th32ProcessID : UInt32) : Command CeApi Unit := do
  let result ← api (.createToolhelp32Snapshot dwFlags th32ProcessID)
  reply (u32 result)

def cmdCreateToolhelp32Snapshot : Command CeApi Unit := do
  let params ← receive 8
  onCreateToolhelp32Snapshot (u32At params 0) (u32At params 4)

def ModuleListEntry.encode (me : ModuleListEntry) : List UInt8 :=
  i32 1 ++ u64 me.baseAddress ++ i32 me.part ++ i32 me.moduleSize ++ u32 me.fileOffset ++
    i32 (Int32.ofNat me.moduleName.bytes.length) ++ me.moduleName.bytes

/-- `TH32CS_SNAPTHREAD` and `TH32CS_SNAPMODULE`. -/
def snapThread : UInt32 := 0x4
def snapModule : UInt32 := 0x8

/-- The module loop of `CMD_CREATETOOLHELP32SNAPSHOTEX`: entries are staged in
    a buffer of 65536 bytes that is sent when the next entry does not fit. -/
def sendModules : List ModuleListEntry → List UInt8 → Command CeApi Unit
  | [], outputstream => if outputstream ≠ [] then reply outputstream else return ()
  | me :: rest, outputstream => do
    if 65536 < outputstream.length + 28 + me.moduleName.bytes.length then
      reply outputstream
      sendModules rest me.encode
    else sendModules rest (outputstream ++ me.encode)

/-- The end-of-list entry: only its result and name size are written. -/
def endOfModules (garbage : List UInt8) : List UInt8 := i32 0 ++ garbage ++ i32 0

/-- `CMD_CREATETOOLHELP32SNAPSHOTEX` with its struct. -/
def onCreateToolhelp32SnapshotEx (dwFlags th32ProcessID : UInt32) : Command CeApi Unit := do
  let r ← api (.createToolhelp32Snapshot dwFlags th32ProcessID)
  if dwFlags &&& snapThread = snapThread then
    if r ≠ 0 then
      let tids ← api (.threadList r)
      reply (i32 (Int32.ofNat tids.val.length) ++ (tids.val.map i32).flatten)
      api (.closeHandle r)
    else reply (i32 0)
  else if dwFlags &&& snapModule = snapModule then
    if r ≠ 0 then
      let modules ← api (.moduleList r)
      sendModules modules []
      let garbage ← api (.uninitialized 20)
      reply (endOfModules garbage.val)
      api (.closeHandle r)
    else
      let garbage ← api (.uninitialized 20)
      reply (endOfModules garbage.val)
  else reply (u32 r)

def cmdCreateToolhelp32SnapshotEx : Command CeApi Unit := do
  let params ← receive 8
  onCreateToolhelp32SnapshotEx (u32At params 0) (u32At params 4)

/-- `CMD_MODULE32FIRST` and `CMD_MODULE32NEXT` with their snapshot: a failed
    query leaves the file offset of its reply unwritten. -/
def onModule32 (first : Bool) (toolhelpsnapshot : UInt32) : Command CeApi Unit := do
  let me ← if first then api (.module32First toolhelpsnapshot)
    else api (.module32Next toolhelpsnapshot)
  match (me : Option ModuleListEntry) with
  | some me => reply me.encode
  | none =>
    let garbage ← api (.uninitialized 4)
    reply (i32 0 ++ u64 0 ++ i32 0 ++ i32 0 ++ garbage.val ++ i32 0)

def cmdModule32 (first : Bool) : Command CeApi Unit := do
  let toolhelpsnapshot ← receive 4
  onModule32 first (u32At toolhelpsnapshot 0)

/-- The reply of `CMD_PROCESS32FIRST` and `CMD_PROCESS32NEXT`: a
    `CeProcessEntry` with its name. -/
def encodeProcess : Option ProcessListEntry → List UInt8
  | some pe => i32 1 ++ i32 pe.pid ++ i32 (Int32.ofNat pe.processName.bytes.length) ++
      pe.processName.bytes
  | none => i32 0 ++ i32 0 ++ i32 0

def onProcess32First (toolhelpsnapshot : UInt32) : Command CeApi Unit := do
  let pe ← api (.process32First toolhelpsnapshot)
  reply (encodeProcess pe)

def cmdProcess32First : Command CeApi Unit := do
  let toolhelpsnapshot ← receive 4
  onProcess32First (u32At toolhelpsnapshot 0)

def onProcess32Next (toolhelpsnapshot : UInt32) : Command CeApi Unit := do
  let pe ← api (.process32Next toolhelpsnapshot)
  reply (encodeProcess pe)

def cmdProcess32Next : Command CeApi Unit := do
  let toolhelpsnapshot ← receive 4
  onProcess32Next (u32At toolhelpsnapshot 0)

/-! ## Memory -/

/-- `sendall(currentsocket, o, sizeof(CeReadProcessMemoryOutput)+o->read, 0)`: a
    negative count shortens the four bytes of the count itself. -/
def encodeRead {size : Int32} : ReadOutcome size → List UInt8
  | .stored data _ => i32 (Int32.ofNat data.length) ++ data
  | .failed count _ => (i32 count).take (4 + count.toInt).toNat

def readCount {size : Int32} : ReadOutcome size → Int32 × List UInt8
  | .stored data _ => (Int32.ofNat data.length, data)
  | .failed count _ => (count, [])

/-- `CMD_READPROCESSMEMORY` with its struct. -/
def onReadProcessMemory (b : Build) (handle : UInt32) (address : UInt64) (size : UInt32)
    (compress : UInt8) : Command CeApi Unit := do
  let o ← api (.readProcessMemory handle (b.pointer address) size.toInt32)
  if compress ≠ 0 then
    let compressed ← api (.deflate compress (readCount o).2)
    reply (i32 (readCount o).1 ++ u32 (UInt32.ofNat compressed.val.length) ++ compressed.val)
  else reply (encodeRead o)

def cmdReadProcessMemory (b : Build) : Command CeApi Unit := do
  let c ← receive 17
  onReadProcessMemory b (u32At c 0) (u64At c 4) (u32At c 12) (u8At c 16)

/-- `CMD_WRITEPROCESSMEMORY` with its struct and data. -/
def onWriteProcessMemory (b : Build) (handle : UInt32) (address : UInt64) (buf : List UInt8)
    (size : Int32) : Command CeApi Unit := do
  let written ← api (.writeProcessMemory handle (b.pointer address) buf size)
  reply (i32 written)

/-- `CMD_WRITEPROCESSMEMORY`; a negative size receives nothing and gets no
    reply. -/
def cmdWriteProcessMemory (b : Build) : Command CeApi Unit := do
  let c ← receive 16
  if i32At c 12 ≠ 0 then
    let buf ← receive (i32At c 12).toInt.toNat
    if buf.length = 0 then return ()
    else onWriteProcessMemory b (u32At c 0) (u64At c 4) buf (i32At c 12)
  else reply (i32 0)

def RegionInfo.encode (r : RegionInfo) : List UInt8 :=
  u64 r.baseaddress ++ u64 r.size ++ u32 r.protection ++ u32 r.type

/-- `CMD_VIRTUALQUERYEXFULL` with its struct: no reply when the query fails. -/
def onVirtualQueryExFull (handle : UInt32) (flags : UInt8) : Command CeApi Unit := do
  match ← api (.virtualQueryExFull handle flags.toUInt32) with
  | some rinfo =>
    reply (u32 (UInt32.ofNat rinfo.val.length) ++ (rinfo.val.map RegionInfo.encode).flatten)
  | none => return ()

def cmdVirtualQueryExFull : Command CeApi Unit := do
  let c ← receive 5
  onVirtualQueryExFull (u32At c 0) (u8At c 4)

def encodeQuery (result : UInt8) (r : RegionInfo) : List UInt8 :=
  u8 result ++ u32 r.protection ++ u32 r.type ++ u64 r.baseaddress ++ u64 r.size

/-- `CMD_GETREGIONINFO` and `CMD_VIRTUALQUERYEX` with their struct. -/
def onVirtualQueryEx (b : Build) (wantsMapsline : Bool) (handle : UInt32)
    (baseaddress : UInt64) : Command CeApi Unit := do
  if b.pointer32 ∧ 0xFFFFFFFF < baseaddress then reply (encodeQuery 0 ⟨0, 0, 0, 0⟩)
  else
    let (found, rinfo, mapsline) ←
      api (.virtualQueryEx handle (b.pointer baseaddress) wantsMapsline)
    let o := encodeQuery (if found then 1 else 0) rinfo
    if wantsMapsline then
      reply (o ++ u8 (UInt8.ofNat mapsline.bytes.length) ++ mapsline.bytes)
    else reply o

/-- `CMD_GETREGIONINFO` and `CMD_VIRTUALQUERYEX`. -/
def cmdVirtualQueryEx (b : Build) (wantsMapsline : Bool) : Command CeApi Unit := do
  let c ← receive 12
  onVirtualQueryEx b wantsMapsline (u32At c 0) (u64At c 4)

def onAlloc (b : Build) (hProcess : UInt32) (preferedBase : UInt64)
    (size windowsprotection : UInt32) : Command CeApi Unit := do
  let prot := windowsProtectionToLinux windowsprotection
  if ← api .readAllocWithoutExtension then
    let address ← api (.allocWithoutExtension hProcess (b.pointer preferedBase) size prot)
    reply (u64 address)
  else
    let address ← api (.ext_alloc hProcess preferedBase size.toInt32 prot)
    reply (u64 address)

def cmdAlloc (b : Build) : Command CeApi Unit := do
  let c ← receive 20
  onAlloc b (u32At c 0) (u64At c 4) (u32At c 12) (u32At c 16)

def onFree (hProcess : UInt32) (address : UInt64) (size : UInt32) : Command CeApi Unit := do
  let r ← api (.ext_free hProcess address size.toInt32)
  reply (i32 r)

def cmdFree : Command CeApi Unit := do
  let c ← receive 16
  onFree (u32At c 0) (u64At c 4) (u32At c 12)

/-- `CMD_CREATETHREAD` with its struct. -/
def onCreateThread (hProcess : UInt32) (startaddress parameter : UInt64) :
    Command CeApi Unit := do
  let th ← api (.ext_createThread hProcess startaddress parameter)
  if th ≠ 0 then
    let h ← api (.createThreadHandle th)
    reply (u32 h)
  else reply (u32 0)

def cmdCreateThread : Command CeApi Unit := do
  let c ← receive 20
  onCreateThread (u32At c 0) (u64At c 4) (u64At c 12)

/-- `CMD_LOADMODULEEX` with its struct and path: an empty path gets no
    reply. -/
def onLoadModuleEx (hProcess : UInt32) (dlopenaddress : UInt64) (modulepath : List UInt8) :
    Command CeApi Unit := do
  if modulepath.length = 0 then return ()
  else
    let result ← api (.ext_loadModuleEx hProcess dlopenaddress (cString modulepath))
    reply (u64 result)

def cmdLoadModuleEx : Command CeApi Unit := do
  let c ← receive 16
  let modulepath ← receive (u32At c 12).toNat
  onLoadModuleEx (u32At c 0) (u64At c 4) modulepath

/-- `CMD_LOADMODULE` with its struct and path: an empty path gets no reply. -/
def onLoadModule (hProcess : UInt32) (modulepath : List UInt8) : Command CeApi Unit := do
  if modulepath.length = 0 then return ()
  else
    let result ← api (.ext_loadModule hProcess (cString modulepath))
    reply (u64 result)

def cmdLoadModule : Command CeApi Unit := do
  let c ← receive 8
  let modulepath ← receive (u32At c 4).toNat
  onLoadModule (u32At c 0) modulepath

/-- `CMD_LOADEXTENSION` with its handle. -/
def onLoadExtension (handle : UInt32) : Command CeApi Unit := do
  let result ← api (.loadCEServerExtension handle)
  reply (i32 result)

def cmdLoadExtension : Command CeApi Unit := do
  let handle ← receive 4
  onLoadExtension (u32At handle 0)

/-- `CMD_SPEEDHACK_SETSPEED` with its struct. -/
def onSpeedhackSetSpeed (hProcess speed : UInt32) : Command CeApi Unit := do
  let r ← api (.ext_speedhack_setSpeed hProcess speed)
  reply (i32 r)

def cmdSpeedhackSetSpeed : Command CeApi Unit := do
  let c ← receive 8
  onSpeedhackSetSpeed (u32At c 0) (u32At c 4)

/-- `CMD_CHANGEMEMORYPROTECTION` with its struct. -/
def onChangeMemoryProtection (b : Build) (hProcess : UInt32) (address : UInt64)
    (size windowsprotection : UInt32) : Command CeApi Unit := do
  let (found, ri, _) ← api (.virtualQueryEx hProcess (b.pointer address) false)
  if found then
    let newprotection := (windowsProtectionToLinux windowsprotection).toUInt32
    let r ← api (.ext_changememoryprotection hProcess address size newprotection)
    reply (i32 r ++ u32 ri.protection)
  else reply (i32 1 ++ u32 1)

def cmdChangeMemoryProtection (b : Build) : Command CeApi Unit := do
  let c ← receive 20
  onChangeMemoryProtection b (u32At c 0) (u64At c 4) (u32At c 12) (u32At c 16)

/-! ## Options (options.c) -/

/-- One option of `handleGetOptions`. -/
def ServerOption.send (o : ServerOption) : Command CeApi Unit := do
  sendstring16 o.optname.bytes
  sendstring16 o.parent.bytes
  sendstring16 o.description.bytes
  sendstring16 o.acceptablevalues.bytes
  sendstring16 o.currentValue.bytes
  reply (i32 o.type)

def sendOptions : List ServerOption → Command CeApi Unit
  | [] => return ()
  | o :: rest => do
    o.send
    sendOptions rest

def handleGetOptions : Command CeApi Unit := do
  let options ← api .getOptions
  reply (u16 (UInt16.ofNat options.val.length))
  sendOptions options.val

/-- `handleGetOption` with its name: an empty name gets no reply. -/
def onGetOption (optname : Option (List UInt8)) : Command CeApi Unit := do
  match optname with
  | some optname =>
    match ← api (.getOption optname) with
    | some value => sendstring16 value.bytes
    | none => sendstring16 []
  | none => return ()

def handleGetOption : Command CeApi Unit := do
  let optname ← receivestring16
  onGetOption optname

/-- `handleSetOption` with its strings: an empty value sets nothing. -/
def onSetOption (optname newvalue : Option (List UInt8)) : Command CeApi Unit := do
  match optname, newvalue with
  | some optname, some newvalue => api (.setOption optname newvalue)
  | _, _ => return ()

def handleSetOption : Command CeApi Unit := do
  let optname ← receivestring16
  let newvalue ← receivestring16
  onSetOption optname newvalue

/-- `CMD_OPENNAMEDPIPE` with its name and timeout. -/
def onOpenNamedPipe (pipename : Option (List UInt8)) (timeout : Int32) :
    Command CeApi Unit := do
  match pipename with
  | some pipename =>
    let pipehandle ← api (.openPipe pipename timeout)
    reply (u32 pipehandle)
  | none => reply (u32 0)

def cmdOpenNamedPipe : Command CeApi Unit := do
  let pipename ← receivestring16
  let timeout ← receive 4
  onOpenNamedPipe pipename (i32At timeout 0)

/-- `CMD_PIPEREAD` with its struct. -/
def onPipeRead (pipehandle size : UInt32) (timeout : Int32) : Command CeApi Unit := do
  if size ≠ 0 then
    let count ← api (.readPipe pipehandle size.toInt32 timeout)
    reply (i32 (readCount count).1 ++ (readCount count).2)
  else reply (i32 0)

def cmdPipeRead : Command CeApi Unit := do
  let c ← receive 12
  onPipeRead (u32At c 0) (u32At c 4) (i32At c 8)

/-- `CMD_PIPEWRITE` with its struct: without memory for the data it stays
    unreceived. -/
def onPipeWrite (pipehandle size : UInt32) (timeout : Int32) : Command CeApi Unit := do
  if size ≠ 0 then
    if ← api (.malloc size.toNat) then
      let buf ← receive size.toNat
      let count ← api (.writePipe pipehandle buf size.toInt32 timeout)
      reply (i32 count)
    else reply (i32 0)
  else reply (i32 0)

def cmdPipeWrite : Command CeApi Unit := do
  let c ← receive 12
  onPipeWrite (u32At c 0) (u32At c 4) (i32At c 8)

/-! ## Files -/

def cmdGetCEServerPath (b : Build) : Command CeApi Unit := sendstring16 b.ceserverPath.bytes

def cmdIsAndroid (b : Build) : Command CeApi Unit := reply (flagByte b.android)

def onSetCurrentPath (path : Option (List UInt8)) : Command CeApi Unit := do
  let r ← api (.chdir path)
  reply (flagByte r)

def cmdSetCurrentPath : Command CeApi Unit := do
  let path ← receivestring16
  onSetCurrentPath path

def cmdGetCurrentPath : Command CeApi Unit := do
  match ← api .getcwd with
  | some p => sendstring16 p.bytes
  | none => sendstring16 []

/-- The `readdir` loop of `CMD_ENUMFILES`. -/
def sendEntries : List DirEntry → Command CeApi Unit
  | [] => return ()
  | dc :: rest => do
    if dc.name.bytes ≠ [] then
      sendstring16 dc.name.bytes
      reply (u8 dc.type)
      sendEntries rest
    else sendEntries rest

/-- `CMD_ENUMFILES` with its path. -/
def onEnumFiles (path : Option (List UInt8)) : Command CeApi Unit := do
  match ← api (.readDirectory path) with
  | some d =>
    sendEntries d
    sendstring16 []
  | none => sendstring16 []

def cmdEnumFiles : Command CeApi Unit := do
  let path ← receivestring16
  onEnumFiles path

/-- `CMD_GETFILEPERMISSIONS` with its path. -/
def onGetFilePermissions (path : Option (List UInt8)) : Command CeApi Unit := do
  match ← api (.lstat path) with
  | some mode => reply (u8 1 ++ u32 (mode &&& 0xFFF))
  | none => reply (u8 0)

def cmdGetFilePermissions : Command CeApi Unit := do
  let path ← receivestring16
  onGetFilePermissions path

/-- `CMD_SETFILEPERMISSIONS` with its path and mode. -/
def onSetFilePermissions (path : Option (List UInt8)) (mode : UInt32) : Command CeApi Unit := do
  let r ← api (.chmod path mode)
  reply (flagByte r)

def cmdSetFilePermissions : Command CeApi Unit := do
  let path ← receivestring16
  let mode ← receive 4
  onSetFilePermissions path (u32At mode 0)

/-- `CMD_GETFILE` with its path. -/
def onGetFile (path : Option (List UInt8)) : Command CeApi Unit := do
  match ← api (.openFile path) with
  | some f =>
    let filesize ← api (.fileSize f)
    if filesize ≠ 0 then
      match ← api (.readFile f filesize) with
      | some contents =>
        reply (u32 (UInt32.ofNat contents.val.length) ++ contents.val)
        api (.closeFile f)
      | none =>
        reply (u32 0xFFFFFFFF)
        api (.closeFile f)
    else
      reply (u32 0)
      api (.closeFile f)
  | none => reply (u32 0xFFFFFFFF)

def cmdGetFile : Command CeApi Unit := do
  let path ← receivestring16
  onGetFile path

/-- The `write` loop of `CMD_PUTFILE`; every round writes at least one byte, so
    the bytes left are enough fuel. -/
def writeAll (f : Int32) : Nat → List UInt8 → Command CeApi Bool
  | 0, contents => return contents.isEmpty
  | fuel + 1, contents => do
    if contents = [] then return true
    else
      match ← api (.writeFile f contents) with
      | some written => writeAll f fuel (contents.drop written.val)
      | none => return false

def onPutFile (path : Option (List UInt8)) (contents : List UInt8) : Command CeApi Unit := do
  match ← api (.creat path 0o777) with
  | some f =>
    let r ← writeAll f contents.length contents
    api (.closeFile f)
    reply (flagByte r)
  | none => reply (flagByte false)

def cmdPutFile : Command CeApi Unit := do
  let path ← receivestring16
  let filesize ← receive 4
  let contents ← receive (u32At filesize 0).toNat
  onPutFile path contents

/-- `CMD_CREATEDIR` with its path. -/
def onCreateDir (path : Option (List UInt8)) : Command CeApi Unit := do
  let r ← api (.mkdir path 0o777)
  reply (flagByte r)

def cmdCreateDir : Command CeApi Unit := do
  let path ← receivestring16
  onCreateDir path

/-- `CMD_DELETEFILE` with its path. -/
def onDeleteFile (path : Option (List UInt8)) : Command CeApi Unit := do
  match ← api (.unlink path) with
  | .done => reply (flagByte true)
  | .isDirectory =>
    let r ← api (.rmdir path)
    reply (flagByte r)
  | .failed => reply (flagByte false)

def cmdDeleteFile : Command CeApi Unit := do
  let path ← receivestring16
  onDeleteFile path

/-! ## Symbols and scans -/

/-- The output buffer of `GetSymbolListFromFile`. -/
def SymbolOutput.encode (o : SymbolOutput) : List UInt8 :=
  u32 o.executable ++ u32 (UInt32.ofNat (o.compressed.length + 12)) ++ u32 o.decompressedSize ++
    o.compressed

/-- `CMD_GETSYMBOLLISTFROMFILE` with its struct and path: files under `/dev/`
    are not looked at, and an empty path ends the connection. -/
def onGetSymbolListFromFile (fileoffset : UInt32) (symbolpath : List UInt8) :
    Command CeApi Unit := do
  if symbolpath.length = 0 then hangUp
  else if (ascii "/dev/").isPrefixOf symbolpath then reply (u64 0)
  else
    match ← api (.getSymbolListFromFile (cString symbolpath) fileoffset) with
    | some output => reply output.encode
    | none => reply (u64 0)

def cmdGetSymbolListFromFile : Command CeApi Unit := do
  let input ← receive 8
  let symbolpath ← receive (u32At input 4).toNat
  onGetSymbolListFromFile (u32At input 0) symbolpath

def onAobScan (hProcess : UInt32) (pattern mask : List UInt8) (scansize : Int32)
    (start stop : UInt64) (inc protection : Int32) : Command CeApi Unit := do
  if 0 < inc.toInt ∧ start < stop then
    let hits ← api (.aobScan hProcess pattern mask scansize start stop inc protection)
    reply (i32 (Int32.ofNat hits.val.length) ++ (hits.val.map u64).flatten)
  else reply (i32 0)

/-- `CMD_AOBSCAN` with its struct. -/
def onAobScanInput (hProcess : UInt32) (start stop : UInt64) (inc protection scansize : Int32) :
    Command CeApi Unit := do
  let n := scansize.toInt
  if 0 < n ∧ n ≤ maxAobPatternSize then
    if ← api (.malloc (2 * n.toNat + 8 * maxHitCount)) then
      let data ← receive (2 * n.toNat)
      onAobScan hProcess (data.take n.toNat) (data.drop n.toNat) scansize start stop inc protection
    else hangUp
  else if maxAobPatternSize < n then hangUp
  else reply (i32 0)

def cmdAobScan : Command CeApi Unit := do
  let c ← receive 32
  onAobScanInput (u32At c 0) (u64At c 4) (u64At c 12) (i32At c 20) (i32At c 24) (i32At c 28)

/-- A command that leaves the thread-local variables alone. -/
def keep (c : Command CeApi Unit) (s : Connection) : Command CeApi Connection := do
  c
  return s

/-- `DispatchCommand`; a byte without a case is ignored. -/
def dispatchCommand (b : Build) (command : UInt8) (s : Connection) : Command CeApi Connection :=
  match command.toNat with
  | 0 => keep cmdGetVersion s
  | 1 => cmdCloseConnection s
  | 2 => cmdTerminateServer
  | 3 => keep cmdOpenProcess s
  | 4 => keep cmdCreateToolhelp32Snapshot s
  | 5 => keep cmdProcess32First s
  | 6 => keep cmdProcess32Next s
  | 7 => keep cmdCloseHandle s
  | 8 => keep (cmdVirtualQueryEx b false) s
  | 9 => keep (cmdReadProcessMemory b) s
  | 10 => keep (cmdWriteProcessMemory b) s
  | 11 => cmdStartDebug s
  | 13 => keep cmdWaitForDebugEvent s
  | 14 => keep cmdContinueFromDebugEvent s
  | 15 => keep (cmdSetBreakpoint b) s
  | 16 => keep cmdRemoveBreakpoint s
  | 17 => keep cmdSuspendThread s
  | 18 => keep cmdResumeThread s
  | 19 => keep cmdGetThreadContext s
  | 20 => keep cmdSetThreadContext s
  | 21 => keep cmdGetArchitecture s
  | 22 => keep (cmdModule32 true) s
  | 23 => keep (cmdModule32 false) s
  | 24 => keep cmdGetSymbolListFromFile s
  | 25 => keep cmdLoadExtension s
  | 26 => keep (cmdAlloc b) s
  | 27 => keep cmdFree s
  | 28 => keep cmdCreateThread s
  | 29 => keep cmdLoadModule s
  | 30 => keep cmdSpeedhackSetSpeed s
  | 31 => keep cmdVirtualQueryExFull s
  | 32 => keep (cmdVirtualQueryEx b true) s
  | 33 => keep cmdGetABI s
  | 34 => cmdSetConnectionName s
  | 35 => keep cmdCreateToolhelp32SnapshotEx s
  | 36 => keep (cmdChangeMemoryProtection b) s
  | 37 => keep handleGetOptions s
  | 38 => keep handleGetOption s
  | 39 => keep handleSetOption s
  | 41 => keep cmdOpenNamedPipe s
  | 42 => keep cmdPipeRead s
  | 43 => keep cmdPipeWrite s
  | 44 => keep (cmdGetCEServerPath b) s
  | 45 => keep (cmdIsAndroid b) s
  | 46 => keep cmdLoadModuleEx s
  | 47 => keep cmdSetCurrentPath s
  | 48 => keep cmdGetCurrentPath s
  | 49 => keep cmdEnumFiles s
  | 50 => keep cmdGetFilePermissions s
  | 51 => keep cmdSetFilePermissions s
  | 52 => keep cmdGetFile s
  | 53 => keep cmdPutFile s
  | 54 => keep cmdCreateDir s
  | 55 => keep cmdDeleteFile s
  | 200 => keep cmdAobScan s
  | _ => return s

def ceserver (b : Build) : Service CeApi Connection := ⟨dispatchCommand b⟩

end CheatEngine.Ceserver
