/-
  CheatEngine.Ceserver.Requests

  The server at the level of requests.  `handle` is what a command does with
  the arguments of a request once it has them; `drive_dispatchCommand` is the
  link to the byte level: on the body of a request, `DispatchCommand` receives
  exactly the body and goes on as `handle` with the request's own arguments.
-/
import Mathlib.Data.List.TakeWhile
import CheatEngine.Ceserver.Dispatch
import CheatEngine.Client.Request

namespace CheatEngine.Ceserver

open CheatEngine.Lib CheatEngine.Client

/-- A non-empty string that fits a 32-bit length and has no terminator
    inside. -/
def Path32 (value : List UInt8) : Prop :=
  value ≠ [] ∧ value.length < 2 ^ 32 ∧ (0 : UInt8) ∉ value

/-- The lengths of a request fit their fields. -/
def WellFormed : Request → Prop
  | .writeProcessMemory _ _ data => data.length < 2 ^ 31
  | .setThreadContext _ _ data => data.length < 2 ^ 32
  | .getSymbols _ path => Path32 path
  | .loadModule _ path => Path32 path
  | .loadModuleEx _ _ path => Path32 path
  | .setConnectionName name => name.length < 2 ^ 32 ∧ (0 : UInt8) ∉ name
  | .getOption name => Text16 name
  | .setOption name value => Text16 name ∧ Text16 value
  | .openPipe name _ => Text16 name
  | .writePipe _ data _ => data.length < 2 ^ 32
  | .setCurrentPath path | .enumerateFiles path | .getFilePermissions path | .getFile path
  | .createDirectory path | .deleteFile path | .setFilePermissions path _ => Text16 path
  | .putFile path content => Text16 path ∧ content.length < 2 ^ 32
  | .aobScan _ pattern mask _ _ _ _ => pattern ≠ [] ∧ pattern.length = mask.length ∧
      pattern.length ≤ maxAobPatternSize
  | _ => True

/-- A received string: `NULL` when it is empty. -/
def pathArg (value : List UInt8) : Option (List UInt8) := if value = [] then none else some value

/-- `CMD_PIPEWRITE` with its struct and data. -/
def writePipeData (pipehandle : UInt32) (data : List UInt8) (timeout : Int32) :
    Command CeApi Unit := do
  if data ≠ [] then
    let _ ← api (.malloc data.length)
    let count ← api (.writePipe pipehandle data (UInt32.ofNat data.length).toInt32 timeout)
    reply (i32 count)
  else reply (i32 0)

/-- `CMD_AOBSCAN` with its struct, pattern and mask. -/
def aobScanData (hProcess : UInt32) (pattern mask : List UInt8) (start stop : UInt64)
    (inc : Int32) (protection : UInt32) : Command CeApi Unit := do
  let _ ← api (.malloc (2 * pattern.length + 8 * maxHitCount))
  onAobScan hProcess pattern mask (Int32.ofNat pattern.length) start stop inc protection.toInt32

/-- What `DispatchCommand` does with a request, given memory for its data. -/
def handle (b : Build) (s : Connection) : Request → Command CeApi Connection
  | .getVersion => keep cmdGetVersion s
  | .closeConnection => cmdCloseConnection s
  | .terminateServer => cmdTerminateServer
  | .openProcess pid => keep (onOpenProcess pid.toUInt32) s
  | .createSnapshot flags pid => keep (onCreateToolhelp32Snapshot flags pid) s
  | .process32First h => keep (onProcess32First h) s
  | .process32Next h => keep (onProcess32Next h) s
  | .closeHandle h => keep (onCloseHandle h) s
  | .readProcessMemory h address size => keep (onReadProcessMemory b h address size 0) s
  | .writeProcessMemory h address data =>
    if data ≠ [] then keep (onWriteProcessMemory b h address data (Int32.ofNat data.length)) s
    else keep (reply (i32 0)) s
  | .startDebug h => onStartDebug s h
  | .waitForDebugEvent h timeout => keep (onWaitForDebugEvent h timeout) s
  | .continueFromDebugEvent h tid mode => keep (onContinueFromDebugEvent h tid.toInt32 mode) s
  | .setBreakpoint h tid debugRegister address breakpointType size =>
    keep (onSetBreakpoint b h tid debugRegister address breakpointType size) s
  | .removeBreakpoint h tid debugRegister wasWatchpoint =>
    keep (onRemoveBreakpoint h tid debugRegister (if wasWatchpoint then 1 else 0)) s
  | .suspendThread h tid => keep (onSuspendThread h tid) s
  | .resumeThread h tid => keep (onResumeThread h tid) s
  | .getThreadContext h tid => keep (onGetThreadContext h tid) s
  | .setThreadContext h tid data => keep (onSetThreadContext h tid data) s
  | .getArchitecture h => keep (onGetArchitecture h) s
  | .getSymbols fileOffset path => keep (onGetSymbolListFromFile fileOffset path) s
  | .loadExtension h => keep (onLoadExtension h) s
  | .allocateMemory h address size protection => keep (onAlloc b h address size protection) s
  | .freeMemory h address size => keep (onFree h address size) s
  | .createRemoteThread h start parameter => keep (onCreateThread h start parameter) s
  | .loadModule h path => keep (onLoadModule h path) s
  | .setSpeed h speed => keep (onSpeedhackSetSpeed h speed) s
  | .virtualQueryExFull h flags => keep (onVirtualQueryExFull h flags) s
  | .getRegionInfo h address => keep (onVirtualQueryEx b true h address) s
  | .getABI => keep cmdGetABI s
  | .setConnectionName name =>
    if s.threadname = .literal then hangUp
    else return { s with threadname := .heap name }
  | .createSnapshotEx flags pid => keep (onCreateToolhelp32SnapshotEx flags pid) s
  | .changeMemoryProtection h address size protection =>
    keep (onChangeMemoryProtection b h address size protection) s
  | .getOptions => keep handleGetOptions s
  | .getOption name => keep (onGetOption (pathArg name)) s
  | .setOption name value => keep (onSetOption (pathArg name) (pathArg value)) s
  | .openPipe name timeout => keep (onOpenNamedPipe (pathArg name) timeout.toInt32) s
  | .readPipe h size timeout => keep (onPipeRead h size timeout.toInt32) s
  | .writePipe h data timeout => keep (writePipeData h data timeout.toInt32) s
  | .getServerPath => keep (cmdGetCEServerPath b) s
  | .isAndroid => keep (cmdIsAndroid b) s
  | .loadModuleEx h dlopen path => keep (onLoadModuleEx h dlopen path) s
  | .setCurrentPath path => keep (onSetCurrentPath (pathArg path)) s
  | .getCurrentPath => keep cmdGetCurrentPath s
  | .enumerateFiles path => keep (onEnumFiles (pathArg path)) s
  | .getFilePermissions path => keep (onGetFilePermissions (pathArg path)) s
  | .setFilePermissions path permissions =>
    keep (onSetFilePermissions (pathArg path) permissions) s
  | .getFile path => keep (onGetFile (pathArg path)) s
  | .putFile path content => keep (onPutFile (pathArg path) content) s
  | .createDirectory path => keep (onCreateDir (pathArg path)) s
  | .deleteFile path => keep (onDeleteFile (pathArg path)) s
  | .aobScan h pattern mask start stop alignment protection =>
    keep (aobScanData h pattern mask start stop alignment protection) s

section Receive

variable {α σ : Type} {env : Env CeApi σ} {inp rest out : List UInt8} {a : σ}
  {log : List (Prog.Event CeApi)}

theorem drive_receive_front {n : Nat} {k : List UInt8 → Command CeApi α} (bytes : List UInt8)
    (h : inp = bytes ++ rest) (hn : bytes.length = n) :
    drive env (receive n >>= k).run ⟨inp, out, a, log⟩ =
      drive env (k bytes).run ⟨rest, out, a, log⟩ := by
  rw [h]
  exact drive_receive env rest out a log bytes k hn

variable {value : List UInt8}

theorem cString_eq (h : (0 : UInt8) ∉ value) : cString value = value := by
  refine List.takeWhile_eq_self_iff.2 fun c hc => ?_
  have hne : c ≠ 0 := fun h0 => h (h0 ▸ hc)
  simpa using hne

theorem toNat_ofNat_length (h : value.length < 2 ^ 32) :
    (UInt32.ofNat value.length).toNat = value.length := by
  rw [UInt32.toNat_ofNat']
  exact Nat.mod_eq_of_lt h

theorem drive_receivestring16 {k : Option (List UInt8) → Command CeApi α}
    (hv : Text16 value) (h : inp = Request.string16 value ++ rest) :
    drive env (receivestring16 >>= k).run ⟨inp, out, a, log⟩ =
      drive env (k (pathArg value)).run ⟨rest, out, a, log⟩ := by
  obtain ⟨hlen, hnul⟩ := hv
  have hn : (UInt16.ofNat value.length).toNat = value.length := by
    rw [UInt16.toNat_ofNat']
    exact Nat.mod_eq_of_lt (by omega)
  have hbytes : inp = u16 (UInt16.ofNat value.length) ++ (value ++ rest) := by
    rw [h, Request.string16, List.append_assoc]
  rw [receivestring16, bind_assoc, drive_receive_front _ hbytes (u16_length _), u16At_u16_last]
  by_cases h0 : value = []
  · subst h0
    simp [pathArg]
  · have hpos : UInt16.ofNat value.length ≠ 0 := by
      intro hz
      rw [hz] at hn
      exact h0 (List.length_eq_zero_iff.1 hn.symm)
    rw [if_neg hpos, bind_assoc, drive_receive_front value rfl hn.symm, cString_eq hnul, pathArg,
      if_neg h0, pure_bind]

end Receive

/-! ## From the bytes to the request -/

section Dispatch

variable {σ : Type} {env : Env CeApi σ} {b : Build} {s : Connection} {rest out : List UInt8}
  {a : σ} {log : List (Prog.Event CeApi)}

/-- The server has memory for the data of a request. -/
def Allocates (env : Env CeApi σ) : Prop := ∀ n a, (env (.malloc n) a).1 = some true

variable {n : Nat}

theorem drive_struct {k : List UInt8 → Command CeApi Unit} {body : List UInt8}
    (hn : body.length = n) :
    drive env (keep (receive n >>= k) s).run ⟨body ++ rest, out, a, log⟩ =
      drive env (keep (k body) s).run ⟨rest, out, a, log⟩ := by
  rw [keep, bind_assoc, drive_receive_front body rfl hn]
  rfl

theorem drive_fixed {k : List UInt8 → Command CeApi Unit} {body : List UInt8}
    {f : Command CeApi Unit} (hn : body.length = n) (hk : k body = f) :
    drive env (keep (receive n >>= k) s).run ⟨body ++ rest, out, a, log⟩ =
      drive env (keep f s).run ⟨rest, out, a, log⟩ := by
  rw [drive_struct hn, hk]

theorem drive_string {k : Option (List UInt8) → Command CeApi Unit} {value : List UInt8}
    (hv : Text16 value) :
    drive env (keep (receivestring16 >>= k) s).run ⟨Request.string16 value ++ rest, out, a, log⟩ =
      drive env (keep (k (pathArg value)) s).run ⟨rest, out, a, log⟩ := by
  rw [keep, bind_assoc, drive_receivestring16 hv rfl]
  rfl

variable {data : List UInt8}

theorem drive_structData {len : List UInt8 → Nat}
    {k : List UInt8 → List UInt8 → Command CeApi Unit} {header : List UInt8}
    (hn : header.length = n) (hlen : len header = data.length) :
    drive env (keep (receive n >>= fun h => receive (len h) >>= k h) s).run
        ⟨header ++ data ++ rest, out, a, log⟩ =
      drive env (keep (k header data) s).run ⟨rest, out, a, log⟩ := by
  have hbytes : header ++ data ++ rest = header ++ (data ++ rest) := List.append_assoc ..
  rw [keep, bind_assoc, drive_receive_front header hbytes hn, bind_assoc,
    drive_receive_front data rfl hlen.symm]
  rfl

variable {h : UInt32}

theorem drive_writeProcessMemory {address : UInt64} (hlen : data.length < 2 ^ 31) :
    drive env (keep (cmdWriteProcessMemory b) s).run
        ⟨(Request.writeProcessMemory h address data).body ++ rest, out, a, log⟩ =
      drive env (handle b s (.writeProcessMemory h address data)).run ⟨rest, out, a, log⟩ := by
  have hint : (Int32.ofNat data.length).toInt = data.length := Int32.toInt_ofNat_of_lt hlen
  have hbytes : (Request.writeProcessMemory h address data).body ++ rest =
      (i32 h.toInt32 ++ i64 address.toInt64 ++ i32 (Int32.ofNat data.length)) ++ (data ++ rest) := by
    simp [Request.body]
  rw [keep, cmdWriteProcessMemory, bind_assoc, drive_receive_front _ hbytes (by simp)]
  by_cases h0 : data = []
  · subst h0
    simp [handle, keep]
  · have hpos : Int32.ofNat data.length ≠ 0 := by
      intro hz
      rw [hz] at hint
      exact h0 (List.length_eq_zero_iff.1 (by simpa using hint.symm))
    have hsize : i32At (i32 h.toInt32 ++ i64 address.toInt64 ++ i32 (Int32.ofNat data.length)) 12 =
        Int32.ofNat data.length := by simp
    have hdata : data.length ≠ 0 := fun hz => h0 (List.length_eq_zero_iff.1 hz)
    rw [hsize, if_pos hpos, bind_assoc, drive_receive_front data rfl (by simp [hint]),
      if_neg hdata]
    simp [handle, keep, h0]

theorem drive_writePipe (henv : Allocates env) {timeout : UInt32} (hlen : data.length < 2 ^ 32) :
    drive env (keep cmdPipeWrite s).run
        ⟨(Request.writePipe h data timeout).body ++ rest, out, a, log⟩ =
      drive env (handle b s (.writePipe h data timeout)).run ⟨rest, out, a, log⟩ := by
  have hbytes : (Request.writePipe h data timeout).body ++ rest =
      (u32 h ++ u32 (UInt32.ofNat data.length) ++ u32 timeout) ++ (data ++ rest) := by
    simp [Request.body]
  have hnat := toNat_ofNat_length hlen
  rw [keep, cmdPipeWrite, bind_assoc, drive_receive_front _ hbytes (by simp)]
  have htail : ∀ header, header = u32 h ++ u32 (UInt32.ofNat data.length) ++ u32 timeout →
      onPipeWrite (u32At header 0) (u32At header 4) (i32At header 8) =
      onPipeWrite h (UInt32.ofNat data.length) timeout.toInt32 := by
    rintro _ rfl
    simp
  rw [htail _ rfl]
  by_cases h0 : data = []
  · subst h0
    rfl
  · have hpos : UInt32.ofNat data.length ≠ 0 := by
      intro hz
      rw [hz] at hnat
      exact h0 (List.length_eq_zero_iff.1 hnat.symm)
    rw [onPipeWrite, if_pos hpos, bind_assoc, hnat, drive_api env _ _ _ _ _ _ (henv _ _)]
    simp only [if_true, bind_assoc]
    rw [drive_receive_front data rfl rfl]
    simp only [handle, keep, writePipeData, if_pos h0, bind_assoc]
    rw [drive_api env _ _ _ _ _ _ (henv _ _)]

theorem drive_aobScan (henv : Allocates env) {pattern mask : List UInt8}
    {start stop : UInt64} {alignment : Int32} {protection : UInt32}
    (hreq : WellFormed (.aobScan h pattern mask start stop alignment protection)) :
    drive env (keep cmdAobScan s).run
        ⟨(Request.aobScan h pattern mask start stop alignment protection).body ++ rest, out, a,
          log⟩ =
      drive env (handle b s (.aobScan h pattern mask start stop alignment protection)).run
        ⟨rest, out, a, log⟩ := by
  obtain ⟨hne, hmask, hmax⟩ := hreq
  have hlt : pattern.length < 2 ^ 31 := by
    have : maxAobPatternSize = 1048576 := rfl
    omega
  have hint : (Int32.ofNat pattern.length).toInt = pattern.length := Int32.toInt_ofNat_of_lt hlt
  have hbytes : (Request.aobScan h pattern mask start stop alignment protection).body ++ rest =
      (u32 h ++ u64 start ++ u64 stop ++ i32 alignment ++ u32 protection ++
        i32 (Int32.ofNat pattern.length)) ++ ((pattern ++ mask) ++ rest) := by
    simp [Request.body]
  have hpos : 0 < pattern.length := List.length_pos_iff.2 hne
  have hok : 0 < (pattern.length : Int) ∧ (pattern.length : Int) ≤ maxAobPatternSize := by omega
  rw [keep, cmdAobScan, bind_assoc, drive_receive_front _ hbytes (by simp)]
  have htail : ∀ header, header = u32 h ++ u64 start ++ u64 stop ++ i32 alignment ++
        u32 protection ++ i32 (Int32.ofNat pattern.length) →
      onAobScanInput (u32At header 0) (u64At header 4) (u64At header 12) (i32At header 20)
        (i32At header 24) (i32At header 28) =
      onAobScanInput h start stop alignment protection.toInt32 (Int32.ofNat pattern.length) := by
    rintro _ rfl
    simp
  rw [htail _ rfl, onAobScanInput, hint, if_pos hok, bind_assoc, Int.toNat_natCast,
    drive_api env _ _ _ _ _ _ (henv _ _)]
  simp only [if_true, bind_assoc]
  rw [drive_receive_front (pattern ++ mask) rfl (by simp [hmask, two_mul]), List.take_left' rfl,
    List.drop_left' rfl]
  simp only [handle, keep, aobScanData, bind_assoc]
  rw [drive_api env _ _ _ _ _ _ (henv _ _)]

/-- The requests for whose data the server checks that it has memory. -/
def NeedsMemory : Request → Prop
  | .writePipe _ _ _ | .aobScan _ _ _ _ _ _ _ => True
  | _ => False

/-- On the body of a request, `DispatchCommand` receives exactly the body and
    handles the request. -/
theorem drive_dispatchCommand (req : Request) (henv : NeedsMemory req → Allocates env)
    (hreq : WellFormed req) :
    drive env (dispatchCommand b req.command s).run ⟨req.body ++ rest, out, a, log⟩ =
      drive env (handle b s req).run ⟨rest, out, a, log⟩ := by
  cases req with
  | getVersion | closeConnection | terminateServer | getABI | getOptions | getServerPath
  | isAndroid | getCurrentPath => rfl
  | removeBreakpoint h tid debugRegister wasWatchpoint =>
    show drive env (keep cmdRemoveBreakpoint s).run _ = _
    rw [cmdRemoveBreakpoint, drive_struct (by simp [Request.body])]
    cases wasWatchpoint with
    | true => simp [Request.body, handle]
    | false => simp [Request.body, handle]
  | openProcess | createSnapshot | process32First | process32Next | closeHandle
  | readProcessMemory | waitForDebugEvent | continueFromDebugEvent | setBreakpoint
  | suspendThread | resumeThread | getThreadContext | getArchitecture | loadExtension
  | allocateMemory | freeMemory | createRemoteThread | setSpeed | virtualQueryExFull
  | getRegionInfo | createSnapshotEx | changeMemoryProtection | readPipe =>
    exact drive_fixed (by simp [Request.body]) (by simp [Request.body])
  | getOption name => exact drive_string hreq
  | setCurrentPath path => exact drive_string hreq
  | enumerateFiles path => exact drive_string hreq
  | getFilePermissions path => exact drive_string hreq
  | getFile path => exact drive_string hreq
  | createDirectory path => exact drive_string hreq
  | deleteFile path => exact drive_string hreq
  | startDebug h =>
    show drive env (cmdStartDebug s).run _ = _
    rw [cmdStartDebug, Request.body, drive_receive_front (u32 h) rfl (u32_length h),
      u32At_u32_last]
    rfl
  | setThreadContext h tid data =>
    show drive env (keep cmdSetThreadContext s).run _ = _
    rw [cmdSetThreadContext, Request.body,
      drive_structData (by simp) (by simp [toNat_ofNat_length hreq])]
    simp [handle]
  | getSymbols fileOffset path =>
    obtain ⟨-, hlen, -⟩ := hreq
    show drive env (keep cmdGetSymbolListFromFile s).run _ = _
    rw [cmdGetSymbolListFromFile, Request.body,
      drive_structData (by simp) (by simp [toNat_ofNat_length hlen])]
    simp [handle]
  | loadModule h path =>
    obtain ⟨-, hlen, -⟩ := hreq
    show drive env (keep cmdLoadModule s).run _ = _
    rw [cmdLoadModule, Request.body,
      drive_structData (by simp) (by simp [toNat_ofNat_length hlen])]
    simp [handle]
  | loadModuleEx h dlopen path =>
    obtain ⟨-, hlen, -⟩ := hreq
    show drive env (keep cmdLoadModuleEx s).run _ = _
    rw [cmdLoadModuleEx, Request.body,
      drive_structData (by simp) (by simp [toNat_ofNat_length hlen])]
    simp [handle]
  | setConnectionName name =>
    obtain ⟨hlen, hnul⟩ := hreq
    show drive env (cmdSetConnectionName s).run _ = _
    have hbytes : (Request.setConnectionName name).body ++ rest =
        u32 (UInt32.ofNat name.length) ++ (name ++ rest) := by simp [Request.body]
    rw [cmdSetConnectionName, drive_receive_front _ hbytes (u32_length _), u32At_u32_last,
      drive_receive_front name rfl (toNat_ofNat_length hlen).symm, cString_eq hnul]
    rfl
  | setOption name value =>
    obtain ⟨hname, hvalue⟩ := hreq
    show drive env (keep handleSetOption s).run _ = _
    have hbytes : (Request.setOption name value).body ++ rest =
        Request.string16 name ++ (Request.string16 value ++ rest) := by simp [Request.body]
    rw [keep, handleSetOption, bind_assoc, drive_receivestring16 hname hbytes, bind_assoc,
      drive_receivestring16 hvalue rfl]
    rfl
  | openPipe name timeout =>
    show drive env (keep cmdOpenNamedPipe s).run _ = _
    have hbytes : (Request.openPipe name timeout).body ++ rest =
        Request.string16 name ++ (u32 timeout ++ rest) := by simp [Request.body]
    rw [keep, cmdOpenNamedPipe, bind_assoc, drive_receivestring16 hreq hbytes, bind_assoc,
      drive_receive_front _ rfl (u32_length _), i32At_u32_last]
    rfl
  | setFilePermissions path permissions =>
    show drive env (keep cmdSetFilePermissions s).run _ = _
    have hbytes : (Request.setFilePermissions path permissions).body ++ rest =
        Request.string16 path ++ (u32 permissions ++ rest) := by simp [Request.body]
    rw [keep, cmdSetFilePermissions, bind_assoc, drive_receivestring16 hreq hbytes, bind_assoc,
      drive_receive_front _ rfl (u32_length _), u32At_u32_last]
    rfl
  | putFile path content =>
    obtain ⟨hpath, hlen⟩ := hreq
    show drive env (keep cmdPutFile s).run _ = _
    have hbytes : (Request.putFile path content).body ++ rest =
        Request.string16 path ++ (u32 (UInt32.ofNat content.length) ++ (content ++ rest)) := by
      simp [Request.body]
    rw [keep, cmdPutFile, bind_assoc, drive_receivestring16 hpath hbytes, bind_assoc,
      drive_receive_front _ rfl (u32_length _), u32At_u32_last, bind_assoc,
      drive_receive_front _ rfl (toNat_ofNat_length hlen).symm]
    rfl
  | writeProcessMemory h address data => exact drive_writeProcessMemory hreq
  | writePipe h data timeout => exact drive_writePipe (henv trivial) hreq
  | aobScan h pattern mask start stop alignment protection => exact drive_aobScan (henv trivial) hreq

end Dispatch

end CheatEngine.Ceserver
