/-
  CheatEngine.Ceserver.Layout

  Request layout: what arrives at the functions behind ceserver.  Each packet
  of a client operation is received to the last byte by the case of its
  command, and the function behind that case is called with the arguments that
  the operation was given.
-/
import CheatEngine.Client.Sends
import CheatEngine.Ceserver.Effects

namespace CheatEngine.Ceserver

open CheatEngine.Lib CheatEngine.Client

/-- A function was called with exactly these arguments. -/
def Called (events : List (Prog.Event CeApi)) (c : ApiCall) : Prop := ∃ r, ⟨c, r⟩ ∈ events

/-- The function of a request was called with the arguments of the request;
    counts that the function takes as an `int` have the value of the request's
    unsigned field. -/
def Reaches (b : Build) (s : Option Connection) (events : List (Prog.Event CeApi)) :
    Request → Prop
  | .openProcess pid => Called events (.openProcess pid.toUInt32)
  | .createSnapshot flags pid | .createSnapshotEx flags pid =>
    Called events (.createToolhelp32Snapshot flags pid)
  | .process32First h => Called events (.process32First h)
  | .process32Next h => Called events (.process32Next h)
  | .closeHandle h => Called events (.closeHandle h)
  | .readProcessMemory h address size => ∃ n : Int32, n.toInt = size.toNat ∧
      Called events (.readProcessMemory h (b.pointer address) n)
  | .writeProcessMemory h address data => data ≠ [] → ∃ n : Int32, n.toInt = data.length ∧
      Called events (.writeProcessMemory h (b.pointer address) data n)
  | .startDebug h => Called events (.startDebug h)
  | .waitForDebugEvent h timeout => Called events (.waitForDebugEvent h timeout)
  | .continueFromDebugEvent h tid mode =>
    Called events (.continueFromDebugEvent h tid.toInt32 mode)
  | .setBreakpoint h tid debugRegister address breakpointType size =>
    Called events (.setBreakpoint h tid debugRegister (b.pointer address) breakpointType size)
  | .removeBreakpoint h tid debugRegister wasWatchpoint =>
    Called events (.removeBreakpoint h tid debugRegister (if wasWatchpoint then 1 else 0))
  | .suspendThread h tid => Called events (.suspendThread h tid)
  | .resumeThread h tid => Called events (.resumeThread h tid)
  | .getThreadContext h tid => Called events (.getThreadContext h tid)
  | .setThreadContext h tid data => Called events (.setThreadContext h tid data)
  | .getArchitecture h => Called events (.getArchitecture h)
  | .getSymbols fileOffset path => (ascii "/dev/").isPrefixOf path = false →
      Called events (.getSymbolListFromFile path fileOffset)
  | .loadExtension h => Called events (.loadCEServerExtension h)
  | .allocateMemory h address size protection =>
    Called events (.allocWithoutExtension h (b.pointer address) size
      (windowsProtectionToLinux protection)) ∨
    ∃ n : Int32, n.toInt = size.toNat ∧
      Called events (.ext_alloc h address n (windowsProtectionToLinux protection))
  | .freeMemory h address size => ∃ n : Int32, n.toInt = size.toNat ∧
      Called events (.ext_free h address n)
  | .createRemoteThread h start parameter => Called events (.ext_createThread h start parameter)
  | .loadModule h path => Called events (.ext_loadModule h path)
  | .setSpeed h speed => Called events (.ext_speedhack_setSpeed h speed)
  | .virtualQueryExFull h flags => Called events (.virtualQueryExFull h flags.toUInt32)
  | .getRegionInfo h address => (b.pointer32 = true → address ≤ 0xFFFFFFFF) →
      Called events (.virtualQueryEx h (b.pointer address) true)
  | .setConnectionName name => ∀ s', s = some s' → s'.threadname = .heap name
  | .changeMemoryProtection h address size protection =>
    ∃ r : Bool × RegionInfo × CString 199,
      ⟨.virtualQueryEx h (b.pointer address) false, some r⟩ ∈ events ∧
      (r.1 = true → Called events (.ext_changememoryprotection h address size
        (windowsProtectionToLinux protection).toUInt32))
  | .getOption name => name ≠ [] → Called events (.getOption name)
  | .setOption name value => name ≠ [] → value ≠ [] → Called events (.setOption name value)
  | .openPipe name timeout => name ≠ [] → ∃ t : Int32, t.toInt = timeout.toNat ∧
      Called events (.openPipe name t)
  | .readPipe h size timeout => size ≠ 0 → ∃ n t : Int32, n.toInt = size.toNat ∧
      t.toInt = timeout.toNat ∧ Called events (.readPipe h n t)
  | .writePipe h data timeout => data ≠ [] → ∃ n t : Int32, n.toInt = data.length ∧
      t.toInt = timeout.toNat ∧ Called events (.writePipe h data n t)
  | .loadModuleEx h dlopen path => Called events (.ext_loadModuleEx h dlopen path)
  | .setCurrentPath path => Called events (.chdir (pathArg path))
  | .enumerateFiles path => Called events (.readDirectory (pathArg path))
  | .getFilePermissions path => Called events (.lstat (pathArg path))
  | .setFilePermissions path permissions => Called events (.chmod (pathArg path) permissions)
  | .getFile path => Called events (.openFile (pathArg path))
  | .putFile path content => ∃ f : Option Int32, ⟨.creat (pathArg path) 0o777, some f⟩ ∈ events ∧
      ∀ fd, f = some fd → content ≠ [] → Called events (.writeFile fd content)
  | .createDirectory path => Called events (.mkdir (pathArg path) 0o777)
  | .deleteFile path => Called events (.unlink (pathArg path))
  | .aobScan h pattern mask start stop alignment protection => 0 < alignment.toInt → start < stop →
      ∃ n : Int32, n.toInt = pattern.length ∧
        Called events (.aobScan h pattern mask n start stop alignment protection.toInt32)
  | .getVersion | .closeConnection | .terminateServer | .getABI | .getOptions | .getServerPath
  | .isAndroid | .getCurrentPath => True

/-- Counts that a function takes as an `int` fit one. -/
def SignedFit : Request → Prop
  | .readProcessMemory _ _ size | .allocateMemory _ _ size _ | .freeMemory _ _ size =>
    size.toNat < 2 ^ 31
  | .openPipe _ timeout => timeout.toNat < 2 ^ 31
  | .readPipe _ size timeout => size.toNat < 2 ^ 31 ∧ timeout.toNat < 2 ^ 31
  | .writePipe _ data timeout => data.length < 2 ^ 31 ∧ timeout.toNat < 2 ^ 31
  | _ => True

/-! ## Every request reaches its function -/

theorem Ends.keep {σ : Type} {o : Outcomes σ} {c : Command CeApi Unit} {s : Connection}
    {P : List (Prog.Event CeApi) → Prop} (hc : Ends o c fun _ _ events => P events) :
    Ends o (Ceserver.keep c s) fun _ _ events => P events :=
  hc.bind (fun _ _ hp => hp) fun _ _ events hp => Ends.pure (by simpa using hp)

theorem ends_called {σ α : Type} {o : Outcomes σ} {c : ApiCall}
    {k : ApiResult c → Command CeApi α} (hk : ∀ r, Total o (k r)) :
    Ends o (api c >>= k) fun _ _ events => Called events c :=
  Ends.api fun a => (hk _).imp fun _ _ _ _ => ⟨some (o c a).1, List.mem_cons_self⟩

theorem ends_writeAll {σ : Type} {o : Outcomes σ} (f : Int32) (contents : List UInt8) :
    Ends o (writeAll f contents.length contents)
      fun _ _ events => contents ≠ [] → Called events (.writeFile f contents) := by
  cases contents with
  | nil => exact Ends.pure fun h => absurd rfl h
  | cons c rest =>
    have hcalled : Ends o (writeAll f (c :: rest).length (c :: rest))
        fun _ _ events => Called events (.writeFile f (c :: rest)) := by
      refine ends_called fun r => ?_
      cases r with
      | none => exact Total.pure
      | some written => exact (total_writeAll _ _ _).imp fun _ _ _ _ => trivial
    exact hcalled.imp fun _ _ _ h _ => h

theorem Called.cons {events : List (Prog.Event CeApi)} {c : ApiCall} {e : Prog.Event CeApi}
    (h : Called events c) : Called (e :: events) c := by
  obtain ⟨r, hr⟩ := h
  exact ⟨r, List.mem_cons_of_mem e hr⟩

section Handle

variable {σ : Type} {o : Outcomes σ} (b : Build) (s : Connection)

theorem ends_onAlloc {h : UInt32} {address : UInt64} {size protection : UInt32}
    (hfit : size.toNat < 2 ^ 31) :
    Ends o (onAlloc b h address size protection)
      fun _ _ events => Reaches b none events (.allocateMemory h address size protection) := by
  refine Ends.api fun a => ?_
  cases (o .readAllocWithoutExtension a).1 with
  | true =>
    refine Ends.imp (ends_called fun _ => Total.reply) fun _ _ _ hc => ?_
    exact .inl hc.cons
  | false =>
    refine Ends.imp (ends_called fun _ => Total.reply) fun _ _ _ hc => ?_
    exact .inr ⟨size.toInt32, toInt_toInt32 hfit, hc.cons⟩

theorem ends_onChangeMemoryProtection {h : UInt32} {address : UInt64} {size protection : UInt32} :
    Ends o (onChangeMemoryProtection b h address size protection)
      fun _ _ events => Reaches b none events (.changeMemoryProtection h address size protection) := by
  refine Ends.api fun a => ?_
  rcases (o (.virtualQueryEx h (b.pointer address) false) a).1 with ⟨found, ri, line⟩
  cases found with
  | true =>
    refine Ends.imp (ends_called fun _ => Total.reply) fun _ _ _ hc => ?_
    exact ⟨_, List.mem_cons_self, fun _ => hc.cons⟩
  | false => exact Total.reply.imp fun _ _ _ _ => ⟨_, List.mem_cons_self, fun h => nomatch h⟩

theorem ends_onPutFile {path : Option (List UInt8)} {content : List UInt8} :
    Ends o (onPutFile path content) fun _ _ events =>
      ∃ f : Option Int32, ⟨.creat path 0o777, some f⟩ ∈ events ∧
        ∀ fd, f = some fd → content ≠ [] → Called events (.writeFile fd content) := by
  refine Ends.api fun a => ?_
  cases (o (.creat path 0o777) a).1 with
  | none => exact Total.reply.imp fun _ _ _ _ => ⟨none, List.mem_cons_self, fun _ h => nomatch h⟩
  | some fd =>
    have hwrite := ends_writeAll (o := o) fd content
    refine hwrite.bind (fun _ events hc => ?_) fun r _ events hc => ?_
    · refine ⟨some fd, List.mem_cons_self, ?_⟩
      rintro _ ⟨⟩ hne
      exact (hc hne).cons
    · refine (Total.api.bind fun _ => Total.reply).imp fun _ _ events' _ => ?_
      refine ⟨some fd, List.mem_cons_self, ?_⟩
      rintro _ ⟨⟩ hne
      obtain ⟨r', hr⟩ := hc hne
      exact ⟨r', List.mem_cons_of_mem _ (List.mem_append_left _ hr)⟩

theorem ends_handle {req : Request} (hreq : WellFormed req) (hfit : SignedFit req) :
    Ends o (handle b s req) fun s' _ events => Reaches b s' events req := by
  cases req with
  | getVersion | getABI | getServerPath | isAndroid => exact Total.keep Total.reply
  | closeConnection =>
    refine Total.ite (Total.bind Total.api fun _ => Total.hangUp) Total.hangUp
  | terminateServer => exact Total.hangUp
  | getOptions =>
    exact Total.keep (Total.api.bind fun _ => Total.reply.bind fun _ => (answers_sendOptions _).total)
  | getCurrentPath =>
    refine Total.keep (Total.api.bind fun r => ?_)
    cases r with
    | none => exact Total.reply
    | some p => exact Total.reply
  | openProcess | createSnapshot | process32First | process32Next | closeHandle
  | continueFromDebugEvent | setBreakpoint | removeBreakpoint | suspendThread | resumeThread
  | setThreadContext | loadExtension | setSpeed | setCurrentPath | setFilePermissions
  | createDirectory => exact Ends.keep (ends_called fun _ => Total.reply)
  | createSnapshotEx flags pid =>
    refine Ends.keep (ends_called fun r => ?_)
    refine Total.ite (Total.ite ?_ Total.reply) (Total.ite (Total.ite ?_ ?_) Total.reply)
    · exact Total.api.bind fun _ => Total.reply.bind fun _ => Total.api
    · exact Total.api.bind fun _ => (answers_sendModules _ _).total.bind fun _ => Total.api.bind fun _ =>
        Total.reply.bind fun _ => Total.api
    · exact Total.api.bind fun _ => Total.reply
  | readProcessMemory h address size =>
    refine Ends.keep (Ends.imp (ends_called fun r => ?_) fun _ _ _ hc =>
      ⟨size.toInt32, toInt_toInt32 hfit, hc⟩)
    exact Total.ite (Total.api.bind fun _ => Total.reply) Total.reply
  | writeProcessMemory h address data =>
    by_cases h0 : data = []
    · subst h0
      exact (Total.keep (s := s) Total.reply).imp fun _ _ _ _ hne => absurd rfl hne
    · have hwrite : Ends o (keep (onWriteProcessMemory b h address data
          (Int32.ofNat data.length)) s) fun _ _ events =>
          Called events (.writeProcessMemory h (b.pointer address) data
            (Int32.ofNat data.length)) := Ends.keep (ends_called fun _ => Total.reply)
      rw [handle, if_pos h0]
      exact hwrite.imp fun _ _ _ hc _ => ⟨_, Int32.toInt_ofNat_of_lt hreq, hc⟩
  | startDebug h =>
    refine ends_called fun r => Total.reply.bind fun _ => ?_
    exact Total.ite (Total.api.bind fun _ => Total.pure) Total.pure
  | waitForDebugEvent h timeout =>
    exact Ends.keep (ends_called fun r => Total.ite Total.reply Total.reply)
  | getThreadContext h tid =>
    refine Ends.keep (ends_called fun r => ?_)
    cases r with
    | none => exact Total.reply
    | some context => exact Total.reply
  | getArchitecture h => exact Ends.keep (ends_called fun _ => Total.api.bind fun _ => Total.reply)
  | getSymbols fileOffset path =>
    obtain ⟨hne, -, hnul⟩ := hreq
    have hlen : path.length ≠ 0 := fun h0 => hne (List.length_eq_zero_iff.1 h0)
    by_cases hdev : (ascii "/dev/").isPrefixOf path = true
    · have hskip : onGetSymbolListFromFile fileOffset path = reply (u64 0) := by
        rw [onGetSymbolListFromFile, if_neg hlen, if_pos hdev]
      rw [handle, hskip]
      exact (Total.keep Total.reply).imp fun _ _ _ _ hno => absurd hdev (by rw [hno]; decide)
    · rw [handle, onGetSymbolListFromFile, if_neg hlen, if_neg hdev, cString_eq hnul]
      refine Ends.imp (Ends.keep (ends_called fun r => ?_)) fun _ _ _ hc _ => hc
      cases r with
      | none => exact Total.reply
      | some output => exact Total.reply
  | allocateMemory h address size protection => exact Ends.keep (ends_onAlloc b hfit)
  | freeMemory h address size =>
    exact Ends.keep (Ends.imp (ends_called fun _ => Total.reply) fun _ _ _ hc =>
      ⟨size.toInt32, toInt_toInt32 hfit, hc⟩)
  | createRemoteThread h start parameter =>
    exact Ends.keep (ends_called fun r => Total.ite (Total.api.bind fun _ => Total.reply)
      Total.reply)
  | loadModule h path =>
    obtain ⟨hne, -, hnul⟩ := hreq
    have hlen : path.length ≠ 0 := fun h0 => hne (List.length_eq_zero_iff.1 h0)
    rw [handle, onLoadModule, if_neg hlen, cString_eq hnul]
    exact Ends.keep (ends_called fun _ => Total.reply)
  | loadModuleEx h dlopen path =>
    obtain ⟨hne, -, hnul⟩ := hreq
    have hlen : path.length ≠ 0 := fun h0 => hne (List.length_eq_zero_iff.1 h0)
    rw [handle, onLoadModuleEx, if_neg hlen, cString_eq hnul]
    exact Ends.keep (ends_called fun _ => Total.reply)
  | virtualQueryExFull h flags =>
    refine Ends.keep (ends_called fun r => ?_)
    cases r with
    | none => exact Total.pure
    | some rinfo => exact Total.reply
  | getRegionInfo h address =>
    rw [handle, onVirtualQueryEx]
    by_cases hhigh : b.pointer32 = true ∧ 0xFFFFFFFF < address
    · rw [if_pos hhigh]
      refine (Total.keep Total.reply).imp fun _ _ _ _ hle => ?_
      exact absurd (hle hhigh.1) (UInt64.not_le.2 hhigh.2)
    · rw [if_neg hhigh]
      exact Ends.imp (Ends.keep (ends_called fun r => Total.ite Total.reply Total.reply))
        fun _ _ _ hc _ => hc
  | setConnectionName name =>
    rw [handle]
    split
    · exact Ends.hangUp fun s' h => by cases h
    · refine Ends.pure ?_
      rintro _ ⟨⟩
      rfl
  | changeMemoryProtection h address size protection =>
    exact Ends.keep (ends_onChangeMemoryProtection b)
  | getOption name =>
    by_cases h0 : name = []
    · subst h0
      exact (Total.keep (s := s) Total.pure).imp fun _ _ _ _ hne => absurd rfl hne
    · rw [handle, pathArg, if_neg h0]
      refine Ends.imp (Ends.keep (ends_called fun r => ?_)) fun _ _ _ hc _ => hc
      cases r with
      | none => exact Total.reply
      | some value => exact Total.reply
  | setOption name value =>
    by_cases h0 : name = []
    · subst h0
      exact (Total.keep (s := s) Total.pure).imp fun _ _ _ _ hne => absurd rfl hne
    by_cases h1 : value = []
    · subst h1
      rw [handle, pathArg, if_neg h0]
      exact (Total.keep (s := s) Total.pure).imp fun _ _ _ _ _ hne => absurd rfl hne
    · rw [handle, pathArg, pathArg, if_neg h0, if_neg h1]
      have hcall : Ends o (api (.setOption name value) >>= pure)
          fun _ _ events => Called events (.setOption name value) := ends_called fun _ => Total.pure
      rw [bind_pure] at hcall
      exact Ends.imp (Ends.keep hcall) fun _ _ _ hc _ _ => hc
  | openPipe name timeout =>
    by_cases h0 : name = []
    · subst h0
      exact (Total.keep (s := s) Total.reply).imp fun _ _ _ _ hne => absurd rfl hne
    · rw [handle, pathArg, if_neg h0]
      exact Ends.imp (Ends.keep (ends_called fun _ => Total.reply)) fun _ _ _ hc _ =>
        ⟨_, toInt_toInt32 hfit, hc⟩
  | readPipe h size timeout =>
    obtain ⟨hsize, htimeout⟩ := hfit
    by_cases h0 : size = 0
    · subst h0
      exact (Total.keep (s := s) Total.reply).imp fun _ _ _ _ hne => absurd rfl hne
    · rw [handle, onPipeRead, if_pos h0]
      exact Ends.imp (Ends.keep (ends_called fun _ => Total.reply)) fun _ _ _ hc _ =>
        ⟨_, _, toInt_toInt32 hsize, toInt_toInt32 htimeout, hc⟩
  | writePipe h data timeout =>
    obtain ⟨hsize, htimeout⟩ := hfit
    have hint : (UInt32.ofNat data.length).toInt32.toInt = data.length := by
      rw [UInt32.toInt32_ofNat']
      exact Int32.toInt_ofNat_of_lt hsize
    by_cases h0 : data = []
    · subst h0
      exact (Total.keep (s := s) Total.reply).imp fun _ _ _ _ hne => absurd rfl hne
    · rw [handle, writePipeData, if_pos h0]
      refine Ends.keep (Ends.api fun _ => Ends.imp (ends_called fun _ => Total.reply) ?_)
      exact fun _ _ _ hc _ => ⟨_, _, hint, toInt_toInt32 htimeout, hc.cons⟩
  | enumerateFiles path =>
    refine Ends.keep (ends_called fun r => ?_)
    cases r with
    | none => exact Total.reply
    | some d => exact (answers_sendEntries d).total.bind fun _ => Total.reply
  | getFilePermissions path =>
    refine Ends.keep (ends_called fun r => ?_)
    cases r with
    | none => exact Total.reply
    | some mode => exact Total.reply
  | getFile path =>
    refine Ends.keep (ends_called fun r => ?_)
    cases r with
    | none => exact Total.reply
    | some f =>
      refine Total.api.bind fun filesize => Total.ite (Total.api.bind fun r => ?_)
        (Total.reply.bind fun _ => Total.api)
      cases r with
      | none => exact Total.reply.bind fun _ => Total.api
      | some contents => exact Total.reply.bind fun _ => Total.api
  | putFile path content => exact Ends.keep ends_onPutFile
  | deleteFile path =>
    refine Ends.keep (ends_called fun r => ?_)
    cases r with
    | done => exact Total.reply
    | isDirectory => exact Total.api.bind fun _ => Total.reply
    | failed => exact Total.reply
  | aobScan h pattern mask start stop alignment protection =>
    obtain ⟨-, -, hmax⟩ := hreq
    have hlt : pattern.length < 2 ^ 31 := by
      have : maxAobPatternSize = 1048576 := rfl
      omega
    refine Ends.keep (Ends.api fun _ => ?_)
    rw [onAobScan]
    by_cases hrange : 0 < alignment.toInt ∧ start < stop
    · rw [if_pos hrange]
      refine Ends.imp (ends_called fun _ => Total.reply) fun _ _ _ hc _ _ => ?_
      exact ⟨_, Int32.toInt_ofNat_of_lt hlt, hc.cons⟩
    · rw [if_neg hrange]
      exact Total.reply.imp fun _ _ _ _ hpos hlt => absurd ⟨hpos, hlt⟩ hrange

end Handle

/-! ## The requests of the operations -/

/-- Sizes and timeouts that the server takes as an `int` are below 2^31. -/
def CountsFit : ClientOp → Prop
  | .allocateMemory _ _ size _ | .freeMemory _ _ size => size.toNat < 2 ^ 31
  | .openPipe _ timeout | .readPipe _ _ timeout | .writePipe _ _ timeout => timeout.toNat < 2 ^ 31
  | _ => True

theorem wellFormed_withHandle {pid : Int32} {body : UInt32 → History → Request → Prop}
    {h : History} {req : Request} (hreq : WithHandle (.openProcess pid) body h req)
    (hbody : ∀ handle h req, body handle h req → WellFormed req ∧ SignedFit req) :
    WellFormed req ∧ SignedFit req := by
  rcases hreq with rfl | ⟨handle, -, hb | rfl⟩
  · exact ⟨trivial, trivial⟩
  · exact hbody handle h req hb
  · exact ⟨trivial, trivial⟩

theorem wellFormed_of_requests {op : ClientOp} (hadm : op.Admitted) (hfit : CountsFit op)
    {h : History} {req : Request} (hreq : op.Requests h req) : WellFormed req ∧ SignedFit req := by
  have path32 : ∀ path : List UInt8, path ≠ [] ∧ path.length ≤ 65535 ∧ (0 : UInt8) ∉ path →
      Path32 path := fun path hp => ⟨hp.1, by omega, hp.2.2⟩
  cases op with
  | serverInfo => rcases hreq with rfl | rfl <;> exact ⟨trivial, trivial⟩
  | pathInfo => rcases hreq with rfl | rfl | rfl <;> exact ⟨trivial, trivial⟩
  | setConnectionName name =>
    obtain ⟨rfl, hlen, hnul⟩ := hreq
    have hmax : maximumProtocolStringLength = 1048576 := rfl
    exact ⟨⟨by omega, hnul⟩, trivial⟩
  | terminateServer | options | listModules | listThreads | closeHandle | currentPath =>
    subst hreq
    exact ⟨trivial, trivial⟩
  | optionValue | setOption | setCurrentPath | listRemoteFiles | remoteFilePermissions
  | setRemoteFilePermissions | getRemoteFile | createRemoteDirectory | deleteRemotePath =>
    obtain ⟨rfl, htext⟩ := hreq
    exact ⟨htext, trivial⟩
  | listProcesses =>
    rcases hreq with rfl | ⟨handle, -, (rfl | rfl) | rfl⟩ <;> exact ⟨trivial, trivial⟩
  | processInfo pid =>
    simp only [ClientOp.Requests] at hreq
    refine wellFormed_withHandle hreq ?_
    rintro _ _ _ (rfl | rfl | rfl) <;> exact ⟨trivial, trivial⟩
  | setSpeed | loadExtension | suspendThread | resumeThread | createRemoteThread | regions
  | regionInfo | changeMemoryProtection | setBreakpoint | removeBreakpoint | getThreadContext =>
    simp only [ClientOp.Requests] at hreq
    refine wellFormed_withHandle hreq ?_
    rintro _ _ _ rfl
    exact ⟨trivial, trivial⟩
  | loadModule | loadModuleEx =>
    simp only [ClientOp.Requests] at hreq
    refine wellFormed_withHandle hreq ?_
    rintro _ _ _ rfl
    exact ⟨path32 _ hadm, trivial⟩
  | readMemory pid address size =>
    simp only [ClientOp.Requests] at hreq
    refine wellFormed_withHandle hreq ?_
    rintro _ _ _ rfl
    obtain ⟨-, hmax⟩ := hadm
    exact ⟨trivial, show size.toNat < 2 ^ 31 by omega⟩
  | writeMemory pid address data =>
    simp only [ClientOp.Requests] at hreq
    refine wellFormed_withHandle hreq ?_
    rintro _ _ _ rfl
    have hmax : data.length ≤ 2 ^ 20 := hadm
    exact ⟨show data.length < 2 ^ 31 by omega, trivial⟩
  | scanMemory pid =>
    simp only [ClientOp.Requests] at hreq
    refine wellFormed_withHandle hreq ?_
    rintro _ _ _ (rfl | ⟨address, size, rfl, hsize⟩)
    · exact ⟨trivial, trivial⟩
    · have hnat : size.toNat ≤ 1048576 := UInt32.le_iff_toNat_le.1 hsize
      exact ⟨trivial, show size.toNat < 2 ^ 31 by omega⟩
  | serverAOBScan =>
    simp only [ClientOp.Requests] at hreq
    refine wellFormed_withHandle hreq ?_
    rintro _ _ _ ⟨rfl, hne, hmask, hmax, -⟩
    exact ⟨⟨hne, hmask, hmax⟩, trivial⟩
  | allocateMemory | freeMemory =>
    simp only [ClientOp.Requests] at hreq
    refine wellFormed_withHandle hreq ?_
    rintro _ _ _ rfl
    exact ⟨trivial, hfit⟩
  | traceDebugEvents =>
    simp only [ClientOp.Requests] at hreq
    refine wellFormed_withHandle hreq ?_
    rintro _ _ _ (rfl | rfl | ⟨data, -, -, rfl⟩) <;> exact ⟨trivial, trivial⟩
  | setThreadContext pid tid data =>
    simp only [ClientOp.Requests] at hreq
    refine wellFormed_withHandle hreq ?_
    rintro _ _ _ (rfl | ⟨rfl, hlen⟩)
    · exact ⟨trivial, trivial⟩
    · have hmax : maximumThreadContextSize = 1048576 := rfl
      exact ⟨show data.length < 2 ^ 32 by omega, trivial⟩
  | putRemoteFile path content =>
    obtain ⟨rfl, htext, hlen⟩ := hreq
    have hmax : maximumRemoteFileSize = 268435456 := rfl
    exact ⟨⟨htext, by omega⟩, trivial⟩
  | openPipe name timeout =>
    obtain ⟨rfl, htext⟩ := hreq
    exact ⟨htext, hfit⟩
  | readPipe handle size timeout =>
    subst hreq
    obtain ⟨-, hmax⟩ := hadm
    exact ⟨trivial, by omega, hfit⟩
  | writePipe handle data timeout =>
    subst hreq
    have hmax : data.length ≤ 2 ^ 20 := hadm
    exact ⟨show data.length < 2 ^ 32 by omega, by omega, hfit⟩
  | symbols inflate path fileOffset =>
    subst hreq
    exact ⟨path32 _ hadm, trivial⟩

end CheatEngine.Ceserver
