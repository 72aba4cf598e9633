/-
  CheatEngine.LocalBridge.Server

  The server that the native mode runs in the client's own process
  (internal/localbridge/server.go).  It serves one connection at a time from a
  `Backend`; what the backend and the operating system answer is decided by an
  environment.  `M` is the type of the `ProcessMemory` values of the backend.
-/
import Mathlib.Algebra.Group.Nat.Defs
import Mathlib.Logic.Function.Basic
import CheatEngine.Lib.Bytes
import CheatEngine.Lib.Service

namespace CheatEngine.LocalBridge

open CheatEngine.Lib

def commandGetVersion : UInt8 := 0
def commandCloseConnection : UInt8 := 1
def commandOpenProcess : UInt8 := 3
def commandCreateToolhelp32Snapshot : UInt8 := 4
def commandProcess32First : UInt8 := 5
def commandProcess32Next : UInt8 := 6
def commandCloseHandle : UInt8 := 7
def commandReadProcessMemory : UInt8 := 9
def commandWriteProcessMemory : UInt8 := 10
def commandGetArchitecture : UInt8 := 21
def commandVirtualQueryExFull : UInt8 := 31
def commandGetABI : UInt8 := 33
def commandSetConnectionName : UInt8 := 34
def commandGetServerPath : UInt8 := 44
def commandIsAndroid : UInt8 := 45
def commandGetCurrentPath : UInt8 := 48

/-- Largest read or write. -/
def maximumTransferSize : Nat := 16 * 2 ^ 20

def maximumConnectionName : Nat := 2 ^ 20

def toolhelpSnapshotProcess : UInt32 := 0x2

structure Process where
  pid : Int32
  name : List UInt8

structure Region where
  baseAddress : UInt64
  size : UInt64
  protection : UInt32
  type : UInt32

/-- A call of a method of `Backend` or `ProcessMemory`, or of a function of
    package os. -/
inductive BackendCall (M : Type)
  | abi
  | processes
  | openProcess (pid : Int32)
  | close (process : M)
  | architecture (process : M)
  | regions (process : M) (flags : UInt8)
  | read (process : M) (address : UInt64) (size : UInt32)
  | write (process : M) (address : UInt64) (data : List UInt8)
  /-- `os.Executable`. -/
  | executable
  /-- `os.Getwd`. -/
  | getwd

/-- The answers; the error values are never looked at.  `OpenProcess` may
    return a `nil` process without an error. -/
abbrev BackendResult (M : Type) : BackendCall M → Type
  | .abi => UInt8
  | .processes => Except String (List Process)
  | .openProcess _ => Except String (Option M)
  | .close _ => Unit
  | .architecture _ => UInt8
  | .regions _ _ => Except String (List Region)
  | .read _ _ _ => Except String (List UInt8)
  | .write _ _ _ => Except String UInt32
  | .executable => Except String (List UInt8)
  | .getwd => Except String (List UInt8)

abbrev BackendApi (M : Type) : Sig where
  Op := BackendCall M
  Res := BackendResult M

/-- A value of the handle map. -/
inductive Entry (M : Type)
  | snapshot (processes : List Process) (index : Int)
  | process (process : M)
  /-- A `nil` process. -/
  | null

/-- The value for what `OpenProcess` returned. -/
def Entry.ofProcess {M : Type} : Option M → Entry M
  | some m => .process m
  | none => .null

/-- `connectionState`, less the backend. -/
structure ConnectionState (M : Type) where
  handles : UInt32 → Option (Entry M)
  nextHandle : UInt32
  /-- 0 is never handed out. -/
  nextHandle_ne : nextHandle ≠ 0

variable {M : Type}

namespace ConnectionState

def initial : ConnectionState M := ⟨fun _ => none, 1, by decide⟩

def advance (handle : UInt32) : UInt32 := if handle + 1 = 0 then 1 else handle + 1

theorem advance_ne (handle : UInt32) : advance handle ≠ 0 := by
  unfold advance
  split
  · decide
  · next h => exact h

/-- Assign to the map. -/
def set (s : ConnectionState M) (handle : UInt32) (value : Option (Entry M)) : ConnectionState M :=
  { s with handles := Function.update s.handles handle value }

theorem set_none {s : ConnectionState M} {handle : UInt32}
    (h : s.handles handle = none) : s.set handle none = s := by
  cases s with
  | mk handles next hnext =>
    simp only [set, mk.injEq, and_true]
    rw [← show handles handle = none from h]
    exact Function.update_eq_self handle handles

def addHandle (s : ConnectionState M) (value : Entry M) : UInt32 × ConnectionState M :=
  (s.nextHandle,
    { s.set s.nextHandle (some value) with
      nextHandle := advance s.nextHandle
      nextHandle_ne := advance_ne s.nextHandle })

/-- A handle number is used up; whoever had it from an earlier round loses
    it. -/
def skip (s : ConnectionState M) : ConnectionState M :=
  { s.set s.nextHandle none with
    nextHandle := advance s.nextHandle
    nextHandle_ne := advance_ne s.nextHandle }

/-- The type assertion `state.handles[handle].(ProcessMemory)`. -/
def processAt (s : ConnectionState M) (handle : UInt32) : Option M :=
  match s.handles handle with
  | some (.process process) => some process
  | _ => none

end ConnectionState

/-! ## Commands -/

/-- `Server`, less the backend, and `filepath.Dir` of its platform. -/
structure Server where
  versionName : List UInt8
  dir : List UInt8 → List UInt8

def ascii (s : String) : List UInt8 := s.toList.map Char.toUInt8

/-- The version name that `ServeConnection` hands to the commands. -/
def Server.effectiveName (server : Server) : List UInt8 :=
  if server.versionName = [] then ascii "cecli-local" else server.versionName

def backend (c : BackendCall M) : Command (BackendApi M) (BackendResult M c) :=
  OptionT.lift (Prog.perform (S := ServerSig (BackendApi M)) (.call c))

def writeProcess (process : Process) (result : Bool) : Command (BackendApi M) Unit :=
  reply (i32 (if result then 1 else 0) ++ i32 process.pid ++
    i32 (Int32.ofNat process.name.length) ++ process.name)

def writeString16 (value : List UInt8) : Command (BackendApi M) Unit :=
  if 65535 < value.length then hangUp
  else reply (u16 (UInt16.ofNat value.length) ++ value)

def closeHandle (s : ConnectionState M) (handle : UInt32) :
    Command (BackendApi M) (Int32 × ConnectionState M) :=
  match s.handles handle with
  | none => return (0, s)
  | some (.process process) => do
    backend (.close process)
    return (1, s.set handle none)
  | some _ => return (1, s.set handle none)

section Commands

variable (s : ConnectionState M)

def cmdGetVersion (server : Server) : Command (BackendApi M) (ConnectionState M) := do
  let versionName := server.effectiveName.take 255
  reply (i32 7 ++ u8 (UInt8.ofNat versionName.length) ++ versionName)
  return s

def cmdOpenProcess : Command (BackendApi M) (ConnectionState M) := do
  let pid ← receive 4
  match ← backend (.openProcess (i32At pid 0)) with
  | .error _ => do
    reply (u32 0)
    return s
  | .ok process => do
    let (handle, s) := s.addHandle (.ofProcess process)
    reply (u32 handle)
    return s

def cmdCreateToolhelp32Snapshot : Command (BackendApi M) (ConnectionState M) := do
  let flags ← receive 4
  let _ ← receive 4
  if u32At flags 0 &&& toolhelpSnapshotProcess = 0 then do
    reply (u32 0)
    return s
  else
    match ← backend .processes with
    | .error _ => do
      reply (u32 0)
      return s
    | .ok processes => do
      let (handle, s) := s.addHandle (.snapshot processes (-1))
      reply (u32 handle)
      return s

/-- `commandProcess32First` and, with `first` false, `commandProcess32Next`. -/
def cmdProcess32 (first : Bool) : Command (BackendApi M) (ConnectionState M) := do
  let handle ← receive 4
  match s.handles (u32At handle 0) with
  | some (.snapshot processes index) => do
    let index := if first then 0 else index + 1
    let s := s.set (u32At handle 0) (some (.snapshot processes index))
    if index < 0 ∨ processes.length ≤ index then do
      writeProcess ⟨0, []⟩ false
      return s
    else do
      writeProcess (processes.getD index.toNat ⟨0, []⟩) true
      return s
  | _ => do
    writeProcess ⟨0, []⟩ false
    return s

def cmdCloseHandle : Command (BackendApi M) (ConnectionState M) := do
  let handle ← receive 4
  let (result, s) ← closeHandle s (u32At handle 0)
  reply (i32 result)
  return s

def cmdReadProcessMemory : Command (BackendApi M) (ConnectionState M) := do
  let handle ← receive 4
  let address ← receive 8
  let size ← receive 4
  let compress ← receive 1
  match s.processAt (u32At handle 0) with
  | none => do
    reply (i32 0)
    return s
  | some process =>
    if maximumTransferSize < (u32At size 0).toNat ∨ u8At compress 0 ≠ 0 then do
      reply (i32 0)
      return s
    else
      match ← backend (.read process (u64At address 0) (u32At size 0)) with
      | .error _ => do
        reply (i32 0)
        return s
      | .ok data =>
        if (u32At size 0).toNat < data.length then do
          reply (i32 0)
          return s
        else do
          reply (i32 (Int32.ofNat data.length) ++ data)
          return s

def cmdWriteProcessMemory : Command (BackendApi M) (ConnectionState M) := do
  let handle ← receive 4
  let address ← receive 8
  let size ← receive 4
  let size := (i32At size 0).toInt
  if size < 0 ∨ maximumTransferSize < size then hangUp
  else
    let data ← receive size.toNat
    match s.processAt (i32At handle 0).toUInt32 with
    | none => do
      reply (i32 0)
      return s
    | some process =>
      match ← backend (.write process (i64At address 0).toUInt64 data) with
      | .error _ => do
        reply (i32 0)
        return s
      | .ok written => do
        reply (i32 written.toInt32)
        return s

def cmdGetArchitecture : Command (BackendApi M) (ConnectionState M) := do
  let handle ← receive 4
  match s.processAt (u32At handle 0) with
  | none => do
    reply (u8 0)
    return s
  | some process => do
    let architecture ← backend (.architecture process)
    reply (u8 architecture)
    return s

/-- One region as `commandVirtualQueryExFull` sends it. -/
def Region.encode (region : Region) : List UInt8 :=
  u64 region.baseAddress ++ u64 region.size ++ u32 region.protection ++ u32 region.type

def cmdVirtualQueryExFull : Command (BackendApi M) (ConnectionState M) := do
  let handle ← receive 4
  let flags ← receive 1
  match s.processAt (u32At handle 0) with
  | none => do
    reply (u32 0)
    return s
  | some process =>
    match ← backend (.regions process (u8At flags 0)) with
    | .error _ => do
      reply (u32 0)
      return s
    | .ok regions => do
      reply (u32 (UInt32.ofNat regions.length) ++ (regions.map Region.encode).flatten)
      return s

def cmdGetABI : Command (BackendApi M) (ConnectionState M) := do
  let abi ← backend .abi
  reply (u8 abi)
  return s

def cmdSetConnectionName : Command (BackendApi M) (ConnectionState M) := do
  let size ← receive 4
  if maximumConnectionName < (u32At size 0).toNat then hangUp
  else do
    let _ ← receive (u32At size 0).toNat
    return s

def cmdGetServerPath (server : Server) : Command (BackendApi M) (ConnectionState M) := do
  let executable ← backend .executable
  writeString16 (server.dir (executable.toOption.getD (ascii "cebridge.exe")))
  return s

def cmdIsAndroid : Command (BackendApi M) (ConnectionState M) := do
  reply (u8 0)
  return s

def cmdGetCurrentPath : Command (BackendApi M) (ConnectionState M) := do
  let currentPath ← backend .getwd
  writeString16 (currentPath.toOption.getD (ascii "."))
  return s

end Commands

def handleCommand (server : Server) (command : UInt8) (s : ConnectionState M) :
    Command (BackendApi M) (ConnectionState M) :=
  if command = commandGetVersion then cmdGetVersion s server
  else if command = commandCloseConnection then hangUp
  else if command = commandOpenProcess then cmdOpenProcess s
  else if command = commandCreateToolhelp32Snapshot then cmdCreateToolhelp32Snapshot s
  else if command = commandProcess32First then cmdProcess32 s true
  else if command = commandProcess32Next then cmdProcess32 s false
  else if command = commandCloseHandle then cmdCloseHandle s
  else if command = commandReadProcessMemory then cmdReadProcessMemory s
  else if command = commandWriteProcessMemory then cmdWriteProcessMemory s
  else if command = commandGetArchitecture then cmdGetArchitecture s
  else if command = commandVirtualQueryExFull then cmdVirtualQueryExFull s
  else if command = commandGetABI then cmdGetABI s
  else if command = commandSetConnectionName then cmdSetConnectionName s
  else if command = commandGetServerPath then cmdGetServerPath s server
  else if command = commandIsAndroid then cmdIsAndroid s
  else if command = commandGetCurrentPath then cmdGetCurrentPath s
  else hangUp

def localbridge (M : Type) (server : Server) : Service (BackendApi M) (ConnectionState M) where
  command := handleCommand server

end CheatEngine.LocalBridge
