/-
  CheatEngine.Ceserver.Api

  The functions that `DispatchCommand` calls (api.h, native-api.h,
  extensionfunctions.h, extensionloader.h, symbols.h, options.c and the C
  library), each with the argument types of its C prototype and the outcomes
  it can have.  What they do to the target is not part of the protocol: an
  environment answers each call with any of its outcomes, or not at all when
  the function takes the server down.
-/
import CheatEngine.Lib.Bytes
import CheatEngine.Lib.Service

namespace CheatEngine.Ceserver

open CheatEngine.Lib

/-- A C string of at most `max` characters. -/
structure CString (max : Nat) where
  /-- The characters, without the terminator. -/
  bytes : List UInt8
  /-- It fits its buffer. -/
  length_le : bytes.length ≤ max
  /-- No terminator inside. -/
  noNul : (0 : UInt8) ∉ bytes

/-- The empty string. -/
def CString.empty (max : Nat) : CString max := ⟨[], Nat.zero_le _, List.not_mem_nil⟩

/-- `RegionInfo` of api.h. -/
structure RegionInfo where
  baseaddress : UInt64
  size : UInt64
  protection : UInt32
  type : UInt32

/-- `ProcessListEntry`; a name is a path of 254 bytes, a blank and 255 bytes of
    the command line at most. -/
structure ProcessListEntry where
  pid : Int32
  processName : CString 510

/-- `ModuleListEntry`, less `is64bit` that the protocol does not carry. -/
structure ModuleListEntry where
  baseAddress : UInt64
  fileOffset : UInt32
  part : Int32
  moduleSize : Int32
  moduleName : CString 510

/-- `DebugEvent` of api.h: event code, thread and the eight bytes of the
    union. -/
structure DebugEvent where
  debugevent : Int32
  threadid : Int64
  payload : UInt64
  deriving DecidableEq, Repr

/-- A `CONTEXT` that a function filled in: `structsize` is the size of the
    whole. -/
structure Context where
  type : UInt32
  registers : List UInt8
  fits : registers.length ≤ 4096

def Context.structsize (c : Context) : UInt32 := UInt32.ofNat (8 + c.registers.length)

/-- What a function that fills a buffer of `size` bytes returns: the count of
    bytes it stored, or a negative count. -/
inductive ReadOutcome (size : Int32)
  | stored (data : List UInt8) (fits : data.length ≤ size.toInt.toNat)
  | failed (count : Int32) (negative : count.toInt < 0)

/-- The output buffer of `GetSymbolListFromFile`: three 32-bit fields and the
    deflated symbol list. -/
structure SymbolOutput where
  executable : UInt32
  decompressedSize : UInt32
  compressed : List UInt8
  fits : compressed.length + 12 < 2 ^ 32

/-- `CEServerOption` with its current value as text. -/
structure ServerOption where
  optname : CString 255
  parent : CString 255
  description : CString 255
  acceptablevalues : CString 255
  currentValue : CString 255
  type : Int32

/-- A directory entry: `d_name` and `d_type`. -/
structure DirEntry where
  name : CString 255
  type : UInt8

/-- How `unlink` ends. -/
inductive UnlinkOutcome
  | done
  | isDirectory
  | failed

/-! ## Calls -/

/-- A call by `DispatchCommand`, with its arguments.  Paths that are `NULL`
    are `none`. -/
inductive ApiCall
  | getArchitecture (hProcess : UInt32)
  | specifiedArch
  | stopDebug (hProcess : UInt32)
  | startDebug (hProcess : UInt32)
  | getDebugPort (hProcess : UInt32)
  | waitForDebugEvent (hProcess : UInt32) (timeout : Int32)
  | continueFromDebugEvent (hProcess : UInt32) (tid ignoresignal : Int32)
  | setBreakpoint (hProcess : UInt32) (tid debugreg : Int32) (address : UInt64)
      (bptype bpsize : Int32)
  | removeBreakpoint (hProcess : UInt32) (tid debugreg wasWatchpoint : Int32)
  | getThreadContext (hProcess : UInt32) (tid : Int32)
  | setThreadContext (hProcess : UInt32) (tid : Int32) (context : List UInt8)
  | suspendThread (hProcess : UInt32) (tid : Int32)
  | resumeThread (hProcess : UInt32) (tid : Int32)
  | closeHandle (h : UInt32)
  | createToolhelp32Snapshot (dwFlags th32ProcessID : UInt32)
  | threadList (hSnapshot : UInt32)
  | moduleList (hSnapshot : UInt32)
  | module32First (hSnapshot : UInt32)
  | module32Next (hSnapshot : UInt32)
  | process32First (hSnapshot : UInt32)
  | process32Next (hSnapshot : UInt32)
  | readProcessMemory (hProcess : UInt32) (lpAddress : UInt64) (size : Int32)
  | writeProcessMemory (hProcess : UInt32) (lpAddress : UInt64) (buffer : List UInt8)
      (size : Int32)
  | virtualQueryExFull (hProcess flags : UInt32)
  | virtualQueryEx (hProcess : UInt32) (lpAddress : UInt64) (wantsMapsline : Bool)
  | openProcess (pid : UInt32)
  | getSymbolListFromFile (filename : List UInt8) (fileoffset : UInt32)
  | loadCEServerExtension (hProcess : UInt32)
  /-- The option `ALLOC_WITHOUT_EXTENSION`. -/
  | readAllocWithoutExtension
  | allocWithoutExtension (hProcess : UInt32) (addr : UInt64) (length : UInt32) (prot : Int32)
  | ext_alloc (hProcess : UInt32) (preferedBase : UInt64) (size prot : Int32)
  | ext_free (hProcess : UInt32) (address : UInt64) (size : Int32)
  | ext_createThread (hProcess : UInt32) (startaddress parameter : UInt64)
  | createThreadHandle (thread : UInt64)
  | ext_loadModule (hProcess : UInt32) (modulepath : List UInt8)
  | ext_loadModuleEx (hProcess : UInt32) (dlopenaddress : UInt64) (modulepath : List UInt8)
  /-- The speed by the bits of the `float`. -/
  | ext_speedhack_setSpeed (hProcess : UInt32) (speed : UInt32)
  | ext_changememoryprotection (hProcess : UInt32) (address : UInt64) (size protection : UInt32)
  | getOptions
  | getOption (name : List UInt8)
  | setOption (name value : List UInt8)
  | openPipe (pipename : List UInt8) (timeout : Int32)
  | readPipe (ph : UInt32) (size timeout : Int32)
  | writePipe (ph : UInt32) (source : List UInt8) (size timeout : Int32)
  | chdir (path : Option (List UInt8))
  | getcwd
  /-- `opendir` and all of `readdir`. -/
  | readDirectory (path : Option (List UInt8))
  | lstat (path : Option (List UInt8))
  | chmod (path : Option (List UInt8)) (mode : UInt32)
  | openFile (path : Option (List UInt8))
  /-- `lseek` to the end. -/
  | fileSize (f : Int32)
  | readFile (f : Int32) (size : UInt32)
  | closeFile (f : Int32)
  | creat (path : Option (List UInt8)) (mode : UInt32)
  | writeFile (f : Int32) (contents : List UInt8)
  | mkdir (path : Option (List UInt8)) (mode : UInt32)
  | unlink (path : Option (List UInt8))
  | rmdir (path : Option (List UInt8))
  | aobScan (hProcess : UInt32) (pattern mask : List UInt8) (patternLength : Int32)
      (start stop : UInt64) (inc protection : Int32)
  /-- `deflate` of a whole buffer. -/
  | deflate (level : UInt8) (data : List UInt8)
  | malloc (size : Nat)
  /-- Bytes of memory that was never written. -/
  | uninitialized (size : Nat)

/-- Most hits of a server-side scan (`MAX_HIT_COUNT`). -/
def maxHitCount : Nat := 5000000

/-- Longest pattern of a server-side scan (`MAX_AOB_PATTERN_SIZE`). -/
def maxAobPatternSize : Nat := 1024 * 1024

abbrev ApiResult : ApiCall → Type
  | .getArchitecture _ => UInt8
  | .specifiedArch => UInt8
  | .stopDebug _ => Unit
  | .startDebug _ => Int32 × Bool
  | .getDebugPort _ => Int32
  | .waitForDebugEvent _ _ => Int32 × DebugEvent
  | .continueFromDebugEvent _ _ _ => Int32
  | .setBreakpoint _ _ _ _ _ _ => Int32
  | .removeBreakpoint _ _ _ _ => Int32
  | .getThreadContext _ _ => Option Context
  | .setThreadContext _ _ _ => Int32
  | .suspendThread _ _ => Int32
  | .resumeThread _ _ => Int32
  | .closeHandle _ => Unit
  | .createToolhelp32Snapshot _ _ => UInt32
  | .threadList _ => { tids : List Int32 // tids.length < 2 ^ 31 }
  | .moduleList _ => List ModuleListEntry
  | .module32First _ => Option ModuleListEntry
  | .module32Next _ => Option ModuleListEntry
  | .process32First _ => Option ProcessListEntry
  | .process32Next _ => Option ProcessListEntry
  | .readProcessMemory _ _ size => ReadOutcome size
  | .writeProcessMemory _ _ _ _ => Int32
  | .virtualQueryExFull _ _ => Option { regions : List RegionInfo // regions.length < 2 ^ 32 }
  | .virtualQueryEx _ _ _ => Bool × RegionInfo × CString 199
  | .openProcess _ => UInt32
  | .getSymbolListFromFile _ _ => Option SymbolOutput
  | .loadCEServerExtension _ => Int32
  | .readAllocWithoutExtension => Bool
  | .allocWithoutExtension _ _ _ _ => UInt64
  | .ext_alloc _ _ _ _ => UInt64
  | .ext_free _ _ _ => Int32
  | .ext_createThread _ _ _ => UInt64
  | .createThreadHandle _ => UInt32
  | .ext_loadModule _ _ => UInt64
  | .ext_loadModuleEx _ _ _ => UInt64
  | .ext_speedhack_setSpeed _ _ => Int32
  | .ext_changememoryprotection _ _ _ _ => Int32
  | .getOptions => { options : List ServerOption // options.length ≤ 4 }
  | .getOption _ => Option (CString 255)
  | .setOption _ _ => Unit
  | .openPipe _ _ => UInt32
  | .readPipe _ size _ => ReadOutcome size
  | .writePipe _ _ _ _ => Int32
  | .chdir _ => Bool
  | .getcwd => Option (CString 4095)
  | .readDirectory _ => Option (List DirEntry)
  | .lstat _ => Option UInt32
  | .chmod _ _ => Bool
  | .openFile _ => Option Int32
  | .fileSize _ => UInt32
  | .readFile _ size => Option { contents : List UInt8 // contents.length ≤ size.toNat ∧
      contents.length < 2 ^ 31 }
  | .closeFile _ => Unit
  | .creat _ _ => Option Int32
  | .writeFile _ contents => Option { written : Nat // 0 < written ∧ written ≤ contents.length }
  | .mkdir _ _ => Bool
  | .unlink _ => UnlinkOutcome
  | .rmdir _ => Bool
  | .aobScan _ _ _ _ _ _ _ _ => { hits : List UInt64 // hits.length ≤ maxHitCount }
  | .deflate _ _ => { data : List UInt8 // data.length < 2 ^ 32 }
  | .malloc _ => Bool
  | .uninitialized size => { bytes : List UInt8 // bytes.length = size }

/-- The functions behind ceserver: an outcome, or `none` when the call takes
    the server down. -/
abbrev CeApi : Sig where
  Op := ApiCall
  Res c := Option (ApiResult c)

/-- Call a function; a call that takes the server down ends the connection. -/
def api (c : ApiCall) : Command CeApi (ApiResult c) :=
  OptionT.mk (Prog.perform (S := ServerSig CeApi) (.call c))

section Drive

variable {α σ : Type} (env : Env CeApi σ) (inp out : List UInt8) (a : σ)
  (log : List (Prog.Event CeApi)) (c : ApiCall) (k : ApiResult c → Command CeApi α)

/-- A call that returns. -/
theorem drive_api {r : ApiResult c} (h : (env c a).1 = some r) :
    drive env (api c >>= k).run ⟨inp, out, a, log⟩ =
      drive env (k r).run ⟨inp, out, (env c a).2, log ++ [⟨c, some r⟩]⟩ := by
  have hrun : drive env (api c >>= k).run ⟨inp, out, a, log⟩ =
      drive env ((env c a).1.elim (pure none) fun r => (k r).run)
        ⟨inp, out, (env c a).2, log ++ [⟨c, (env c a).1⟩]⟩ := by
    rw [OptionT.run_bind]
    rfl
  rw [hrun, h]
  rfl

end Drive

abbrev Outcomes (σ : Type) : Type := (c : ApiCall) → σ → ApiResult c × σ

/-- The environment of the outcomes. -/
def Outcomes.env {σ : Type} (o : Outcomes σ) : Env CeApi σ :=
  fun c a => (some (o c a).1, (o c a).2)

@[simp] theorem drive_outcome {α σ : Type} (o : Outcomes σ) (inp out : List UInt8) (a : σ)
    (log : List (Prog.Event CeApi)) (c : ApiCall) (k : ApiResult c → Command CeApi α) :
    drive o.env (api c >>= k).run ⟨inp, out, a, log⟩ =
      drive o.env (k (o c a).1).run ⟨inp, out, (o c a).2, log ++ [⟨c, some (o c a).1⟩]⟩ :=
  drive_api o.env inp out a log c k rfl

/-- Every function refuses: the outcome with which it reports failure, or an
    empty list; memory can be allocated. -/
def refusal : (c : ApiCall) → ApiResult c
  | .getArchitecture _ => 0
  | .specifiedArch => 9
  | .stopDebug _ => ()
  | .startDebug _ => (0, false)
  | .getDebugPort _ => -1
  | .waitForDebugEvent _ _ => (0, ⟨0, 0, 0⟩)
  | .continueFromDebugEvent _ _ _ => 0
  | .setBreakpoint _ _ _ _ _ _ => 0
  | .removeBreakpoint _ _ _ _ => 0
  | .getThreadContext _ _ => none
  | .setThreadContext _ _ _ => 0
  | .suspendThread _ _ => -1
  | .resumeThread _ _ => -1
  | .closeHandle _ => ()
  | .createToolhelp32Snapshot _ _ => 0
  | .threadList _ => ⟨[], by decide⟩
  | .moduleList _ => []
  | .module32First _ => none
  | .module32Next _ => none
  | .process32First _ => none
  | .process32Next _ => none
  | .readProcessMemory _ _ _ => .stored [] (Nat.zero_le _)
  | .writeProcessMemory _ _ _ _ => 0
  | .virtualQueryExFull _ _ => none
  | .virtualQueryEx _ _ _ => (false, ⟨0, 0, 0, 0⟩, ⟨[], by decide, by decide⟩)
  | .openProcess _ => 0
  | .getSymbolListFromFile _ _ => none
  | .loadCEServerExtension _ => 0
  | .readAllocWithoutExtension => false
  | .allocWithoutExtension _ _ _ _ => 0
  | .ext_alloc _ _ _ _ => 0
  | .ext_free _ _ _ => 0
  | .ext_createThread _ _ _ => 0
  | .createThreadHandle _ => 0
  | .ext_loadModule _ _ => 0
  | .ext_loadModuleEx _ _ _ => 0
  | .ext_speedhack_setSpeed _ _ => 0
  | .ext_changememoryprotection _ _ _ _ => 0
  | .getOptions => ⟨[], by decide⟩
  | .getOption _ => none
  | .setOption _ _ => ()
  | .openPipe _ _ => 0
  | .readPipe _ _ _ => .failed (-1) (by decide)
  | .writePipe _ _ _ _ => -1
  | .chdir _ => false
  | .getcwd => none
  | .readDirectory _ => none
  | .lstat _ => none
  | .chmod _ _ => false
  | .openFile _ => none
  | .fileSize _ => 0
  | .readFile _ _ => none
  | .closeFile _ => ()
  | .creat _ _ => none
  | .writeFile _ _ => none
  | .mkdir _ _ => false
  | .unlink _ => .failed
  | .rmdir _ => false
  | .aobScan _ _ _ _ _ _ _ _ => ⟨[], Nat.zero_le _⟩
  | .deflate _ _ => ⟨[], by decide⟩
  | .malloc _ => true
  | .uninitialized size => ⟨List.replicate size 0, List.length_replicate⟩

/-- The outcomes of a target that refuses everything. -/
def refusing : Outcomes Unit := fun c a => (refusal c, a)

end CheatEngine.Ceserver
