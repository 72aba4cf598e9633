/-
  CheatEngine.Client.Sends

  What a client method writes, against any peer.  `Sends S h m`: started after
  the history `h`, the method `m` writes only packets of requests that `S`
  allows at that point of the history, whatever the reads and the context
  answer.  The rules follow the shapes the methods are built from; the result
  is `ClientOp.sends`, the requests of every operation.
-/
import CheatEngine.Client.Request

namespace CheatEngine.Client

open CheatEngine.Lib

abbrev History : Type := List (Prog.Event NetSig)

/-- An operation is no write, or writes the packet of an allowed request. -/
def Allowed (S : History → Request → Prop) (h : History) : NetOp → Prop
  | .write packet => ∃ req, S h req ∧ packet = req.packet
  | _ => True

/-- Whatever the peer does, `m` writes only allowed packets after `h`. -/
def Sends {α : Type} (S : History → Request → Prop) (h : History) (m : ClientM α) : Prop :=
  Prog.Safe (Allowed S) (fun _ _ => True) h m.run

namespace Sends

variable {α β : Type} {S : History → Request → Prop} {h : History}

/-! ## Rules -/

theorem pure (x : α) : Sends S h (Pure.pure x) := trivial

theorem throw (e : ClientError) : Sends S h (MonadExcept.throw e : ClientM α) := trivial

theorem result (r : Except ClientError α) : Sends S h (ExceptT.mk (Pure.pure r)) := trivial

variable {m : ClientM α}

theorem bind {f : α → ClientM β} (hm : Sends S h m)
    (hf : ∀ h' x, h <+: h' → Sends S h' (f x)) : Sends S h (m >>= f) := by
  rw [Sends, ExceptT.run_bind]
  refine Prog.Safe.bind hm ?_
  intro h' r hpre _
  cases r with
  | ok x => exact hf h' x hpre
  | error e => trivial

theorem ask {o : NetOp} (ho : Allowed S h o) : Sends S h (Client.ask o) := by
  rw [Sends, Client.ask, ExceptT.run_lift]
  exact ⟨ho, fun _ => trivial⟩

theorem packet {req : Request} {bytes : List UInt8} (hreq : S h req) (hb : bytes = req.packet) :
    Sends S h (writePacket bytes) := by
  refine bind (ask ⟨req, hreq, hb⟩) ?_
  intro h' r _
  rcases r with (_ | _) | _
  · exact throw _
  · exact throw _
  · exact pure _

section

variable (operation : String)
include operation

theorem readFull (n : Nat) : Sends S h (Client.readFull operation n) := by
  unfold Client.readFull
  split
  · exact pure _
  · refine bind (ask trivial) ?_
    intro h' r _
    cases r with
    | ok _ => exact pure _
    | error _ => exact throw _

theorem readU8 : Sends S h (Client.readU8 operation) :=
  bind (readFull _ _) fun _ _ _ => pure _

theorem readU16 : Sends S h (Client.readU16 operation) :=
  bind (readFull _ _) fun _ _ _ => pure _

theorem readU32 : Sends S h (Client.readU32 operation) :=
  bind (readFull _ _) fun _ _ _ => pure _

theorem readI32 : Sends S h (Client.readI32 operation) :=
  bind (readFull _ _) fun _ _ _ => pure _

theorem readU64 : Sends S h (Client.readU64 operation) :=
  bind (readFull _ _) fun _ _ _ => pure _

theorem readString (length : Int) :
    Sends S h (Client.readString operation length) := by
  unfold Client.readString
  split
  · exact throw _
  · exact readFull _ _

theorem readString16 : Sends S h (Client.readString16 operation) :=
  bind (readU16 _) fun _ _ _ => readString _ _

end

theorem checkContext : Sends S h Client.checkContext := by
  refine bind (ask trivial) ?_
  intro h' r _
  cases r with
  | none => exact pure _
  | some _ => exact throw _

theorem closeConnection : Sends S h Client.closeConnection := by
  refine bind (ask trivial) ?_
  intro h' r _
  cases r with
  | ok _ => exact pure _
  | error _ => exact throw _

theorem readMany {read : ClientM α} (hread : ∀ h', h <+: h' → Sends S h' read) (n : Nat) :
    Sends S h (Client.readMany read n) := by
  induction n generalizing h with
  | zero => exact pure _
  | succ n ih =>
    refine bind (hread h (List.prefix_refl h)) fun h' _ hpre => ?_
    exact bind (ih fun h'' hpre' => hread h'' (hpre.trans hpre')) fun _ _ _ => pure _

theorem attempt (hm : Sends S h m) : Sends S h (Client.attempt m) :=
  Prog.Safe.bind hm fun _ _ _ _ => trivial

theorem ite {c : Prop} [Decidable c] {m' : ClientM α} (hm : c → Sends S h m)
    (hm' : ¬ c → Sends S h m') : Sends S h (if c then m else m') := by
  split
  · next hc => exact hm hc
  · next hc => exact hm' hc

theorem guard {c : Prop} [Decidable c] {e : ClientError} (hm : ¬ c → Sends S h m) :
    Sends S h (if c then MonadExcept.throw e else m) :=
  ite (fun _ => throw e) hm

theorem request {req : Request} {bytes : List UInt8} {f : Unit → ClientM α} (hreq : S h req)
    (hb : bytes = req.packet) (hf : ∀ h', h <+: h' → Sends S h' (f ())) :
    Sends S h (writePacket bytes >>= f) :=
  bind (packet hreq hb) fun h' _ hpre => hf h' hpre

theorem closeHandle {handle : UInt32} (hreq : S h (.closeHandle handle)) :
    Sends S h (Client.closeHandle handle) :=
  request hreq rfl fun _ _ => bind (readI32 _) fun _ _ _ => pure _

theorem deferClose {handle : UInt32} {body : ClientM α} (hbody : Sends S h body)
    (hclose : ∀ h', h <+: h' → S h' (.closeHandle handle)) :
    Sends S h (Client.deferClose handle body) :=
  bind (attempt hbody) fun h' _ hpre =>
    bind (attempt (closeHandle (hclose h' hpre))) fun _ _ _ => result _

end Sends

/-! ## Methods on a process -/

/-- The second event of the history is a successful read, of `handle`: the
    reply to the request that opened it. -/
def Opened (h : History) (handle : UInt32) : Prop :=
  ∃ e n bytes rest, h = e :: ⟨.read n, .ok bytes⟩ :: rest ∧ handle = u32At bytes 0

theorem Opened.extend {h h' : History} {handle : UInt32} (ho : Opened h handle)
    (hpre : h <+: h') : Opened h' handle := by
  obtain ⟨e, n, bytes, rest, rfl, hh⟩ := ho
  obtain ⟨t, rfl⟩ := hpre
  exact ⟨e, n, bytes, rest ++ t, rfl, hh⟩

/-- What a method that opens a handle with `first` sends: that request, then
    the requests of its body and a `CloseHandle` on the handle it got. -/
def WithHandle (first : Request) (body : UInt32 → History → Request → Prop) (h : History)
    (req : Request) : Prop :=
  req = first ∨ ∃ handle, Opened h handle ∧ (body handle h req ∨ req = .closeHandle handle)

section WithHandle

variable {α : Type} {first : Request} {S : UInt32 → History → Request → Prop}
  {f : UInt32 → ClientM α}

theorem sends_withHandle {operation : String} {refused : ClientError}
    (hf : ∀ h handle, Opened h handle → Sends (WithHandle first S) h (f handle)) :
    Sends (WithHandle first S) [] (writePacket first.packet >>= fun _ => readU32 operation >>=
      fun handle => (if handle = 0 then throw refused else pure handle) >>=
        fun handle => deferClose handle (f handle)) := by
  rw [Sends, ExceptT.run_bind]
  -- the write, with either answer
  refine ⟨⟨first, .inl rfl, rfl⟩, fun w => ?_⟩
  rcases w with (_ | _) | _
  · trivial
  · trivial
  -- the read of the handle
  refine ⟨trivial, fun r => ?_⟩
  cases r with
  | error _ => trivial
  | ok bytes =>
    by_cases h0 : u32At bytes 0 = 0
    · show Sends _ _ ((if u32At bytes 0 = 0 then throw refused else pure (u32At bytes 0)) >>= _)
      rw [if_pos h0]
      trivial
    · show Sends _ _ ((if u32At bytes 0 = 0 then throw refused else pure (u32At bytes 0)) >>= _)
      rw [if_neg h0]
      have hbody : ∀ h, Opened h (u32At bytes 0) →
          Sends (WithHandle first S) h (deferClose (u32At bytes 0) (f (u32At bytes 0))) :=
        fun h ho => Sends.deferClose (hf h _ ho)
          fun h' hpre => .inr ⟨_, ho.extend hpre, .inr rfl⟩
      exact hbody _ ⟨_, _, _, _, rfl, rfl⟩

theorem sends_openProcess {pid : Int32}
    (hf : ∀ h handle, Opened h handle →
      Sends (WithHandle (.openProcess pid) S) h (f handle)) :
    Sends (WithHandle (.openProcess pid) S) []
      (openProcess pid >>= fun handle => deferClose handle (f handle)) := by
  simp only [openProcess, bind_assoc]
  exact sends_withHandle hf

theorem sends_createSnapshot {flags pid : UInt32}
    (hf : ∀ h handle, Opened h handle →
      Sends (WithHandle (.createSnapshot flags pid) S) h (f handle)) :
    Sends (WithHandle (.createSnapshot flags pid) S) []
      (createSnapshot flags pid >>= fun handle => deferClose handle (f handle)) := by
  simp only [createSnapshot, bind_assoc]
  exact sends_withHandle hf

end WithHandle

/-- The last event of the history is the read of a debug event. -/
def EventRead (h : History) (data : List UInt8) : Prop :=
  ∃ before, h = before ++ [⟨.read 20, .ok data⟩]

/-- The requests a call of a client method sends, with the call's own
    arguments.  The memory that `scanMemory` reads and the thread that
    `traceDebugEvents` continues depend on what the server answered. -/
def ClientOp.Requests : ClientOp → History → Request → Prop
  | .serverInfo, _, req => req = .getVersion ∨ req = .getABI
  | .pathInfo, _, req => req = .getServerPath ∨ req = .getCurrentPath ∨ req = .isAndroid
  | .setConnectionName name, _, req => req = .setConnectionName name ∧
      name.length ≤ maximumProtocolStringLength ∧ (0 : UInt8) ∉ name
  | .terminateServer, _, req => req = .terminateServer
  | .options, _, req => req = .getOptions
  | .optionValue name, _, req => req = .getOption name ∧ Text16 name
  | .setOption name value, _, req => req = .setOption name value ∧ Text16 name ∧ Text16 value
  | .listProcesses, h, req =>
    WithHandle (.createSnapshot toolhelpSnapshotProcess 0) (fun handle _ req =>
      req = .process32First handle ∨ req = .process32Next handle) h req
  | .processInfo pid, h, req =>
    WithHandle (.openProcess pid) (fun handle _ req => req = .getArchitecture handle ∨
      req = .createSnapshotEx toolhelpSnapshotModule pid.toUInt32 ∨
      req = .createSnapshotEx toolhelpSnapshotThread pid.toUInt32) h req
  | .setSpeed pid speed, h, req =>
    WithHandle (.openProcess pid) (fun handle _ req => req = .setSpeed handle speed) h req
  | .listModules pid, _, req => req = .createSnapshotEx toolhelpSnapshotModule pid.toUInt32
  | .loadModule pid path, h, req =>
    WithHandle (.openProcess pid) (fun handle _ req => req = .loadModule handle path) h req
  | .loadModuleEx pid dlopen path, h, req =>
    WithHandle (.openProcess pid)
      (fun handle _ req => req = .loadModuleEx handle dlopen path) h req
  | .loadExtension pid, h, req =>
    WithHandle (.openProcess pid) (fun handle _ req => req = .loadExtension handle) h req
  | .listThreads pid, _, req => req = .createSnapshotEx toolhelpSnapshotThread pid.toUInt32
  | .suspendThread pid tid, h, req =>
    WithHandle (.openProcess pid) (fun handle _ req => req = .suspendThread handle tid) h req
  | .resumeThread pid tid, h, req =>
    WithHandle (.openProcess pid) (fun handle _ req => req = .resumeThread handle tid) h req
  | .createRemoteThread pid start parameter, h, req =>
    WithHandle (.openProcess pid)
      (fun handle _ req => req = .createRemoteThread handle start parameter) h req
  | .closeHandle handle, _, req => req = .closeHandle handle
  | .regions pid flags, h, req =>
    WithHandle (.openProcess pid) (fun handle _ req => req = .virtualQueryExFull handle flags) h
      req
  | .regionInfo pid address, h, req =>
    WithHandle (.openProcess pid) (fun handle _ req => req = .getRegionInfo handle address) h req
  | .readMemory pid address size, h, req =>
    WithHandle (.openProcess pid)
      (fun handle _ req => req = .readProcessMemory handle address size) h req
  | .writeMemory pid address data, h, req =>
    WithHandle (.openProcess pid)
      (fun handle _ req => req = .writeProcessMemory handle address data) h req
  | .scanMemory pid _ _ _ _ _ _ _, h, req =>
    WithHandle (.openProcess pid) (fun handle _ req => req = .virtualQueryExFull handle 0 ∨
      ∃ address size, req = .readProcessMemory handle address size ∧ size ≤ 1048576) h req
  | .serverAOBScan pid pattern mask start stop alignment protection, h, req =>
    WithHandle (.openProcess pid) (fun handle _ req =>
      req = .aobScan handle pattern mask start stop alignment.toInt32 protection ∧
      pattern ≠ [] ∧ pattern.length = mask.length ∧
      pattern.length ≤ maximumServerAOBPatternSize ∧ 1 ≤ alignment.toInt ∧
      alignment.toInt ≤ 2 ^ 31 - 1 ∧ start < stop) h req
  | .allocateMemory pid address size protection, h, req =>
    WithHandle (.openProcess pid)
      (fun handle _ req => req = .allocateMemory handle address size protection) h req
  | .freeMemory pid address size, h, req =>
    WithHandle (.openProcess pid) (fun handle _ req => req = .freeMemory handle address size) h
      req
  | .changeMemoryProtection pid address size protection, h, req =>
    WithHandle (.openProcess pid)
      (fun handle _ req => req = .changeMemoryProtection handle address size protection) h req
  | .traceDebugEvents _ pid _ eventTimeout continueMode, h, req =>
    WithHandle (.openProcess pid) (fun handle h req => req = .startDebug handle ∨
      req = .waitForDebugEvent handle (Int32.ofInt (eventTimeout.toInt.tdiv millisecond)) ∨
      ∃ data, EventRead h data ∧ (u64At data 4).toNat < 2 ^ 32 ∧
        req = .continueFromDebugEvent handle (u64At data 4).toUInt32
          (continueModeForEvent continueMode (decodeDebugEvent data))) h req
  | .setBreakpoint pid tid debugRegister address breakpointType size, h, req =>
    WithHandle (.openProcess pid) (fun handle _ req =>
      req = .setBreakpoint handle tid debugRegister address breakpointType size) h req
  | .removeBreakpoint pid tid debugRegister wasWatchpoint, h, req =>
    WithHandle (.openProcess pid) (fun handle _ req =>
      req = .removeBreakpoint handle tid debugRegister wasWatchpoint) h req
  | .getThreadContext pid tid, h, req =>
    WithHandle (.openProcess pid) (fun handle _ req => req = .getThreadContext handle tid) h req
  | .setThreadContext pid tid data, h, req =>
    WithHandle (.openProcess pid) (fun handle _ req => req = .startDebug handle ∨
      req = .setThreadContext handle tid data ∧ data.length ≤ maximumThreadContextSize) h req
  | .currentPath, _, req => req = .getCurrentPath
  | .setCurrentPath path, _, req => req = .setCurrentPath path ∧ Text16 path
  | .listRemoteFiles path, _, req => req = .enumerateFiles path ∧ Text16 path
  | .remoteFilePermissions path, _, req => req = .getFilePermissions path ∧ Text16 path
  | .setRemoteFilePermissions path permissions, _, req =>
    req = .setFilePermissions path permissions ∧ Text16 path
  | .getRemoteFile path, _, req => req = .getFile path ∧ Text16 path
  | .putRemoteFile path content, _, req => req = .putFile path content ∧ Text16 path ∧
      content.length ≤ maximumRemoteFileSize
  | .createRemoteDirectory path, _, req => req = .createDirectory path ∧ Text16 path
  | .deleteRemotePath path, _, req => req = .deleteFile path ∧ Text16 path
  | .openPipe name timeout, _, req => req = .openPipe name timeout ∧ Text16 name
  | .readPipe handle size timeout, _, req => req = .readPipe handle size timeout
  | .writePipe handle data timeout, _, req => req = .writePipe handle data timeout
  | .symbols _ path fileOffset, _, req => req = .getSymbols fileOffset path

section Shapes

variable {α : Type} {S : History → Request → Prop} {h : History}

/-- A result is dropped. -/
theorem sends_drop {m : ClientM α} (hm : Sends S h m) :
    Sends S h (do let _ ← m) :=
  Sends.bind hm fun _ _ _ => Sends.pure _

theorem Sends.of_drop {m : ClientM α} (hm : Sends S h (do let _ ← m)) : Sends S h m := by
  rw [Sends, ExceptT.run_bind] at hm
  exact Prog.Safe.of_bind hm

theorem sends_writeString16 {value : List UInt8} {f : List UInt8 → ClientM α}
    (hf : Text16 value → Sends S h (f (Request.string16 value))) :
    Sends S h (ExceptT.mk (pure (writeString16 value)) >>= f) := by
  by_cases hlen : 65535 < value.length
  · rw [writeString16, if_pos hlen]
    trivial
  by_cases hnul : (0 : UInt8) ∈ value
  · rw [writeString16, if_neg hlen, if_pos hnul]
    trivial
  · rw [writeString16, if_neg hlen, if_neg hnul]
    exact hf ⟨by omega, hnul⟩

theorem sends_stringPacket {c : UInt8} {value : List UInt8} {f : List UInt8 → ClientM α}
    (hf : Text16 value → Sends S h (f (c :: Request.string16 value))) :
    Sends S h (stringPacket c value >>= f) := by
  have hrun : stringPacket c value >>= f =
      ExceptT.mk (pure (writeString16 value)) >>= fun field => f (c :: field) := by
    simp only [stringPacket, bind_assoc, pure_bind]
  rw [hrun]
  exact sends_writeString16 hf

theorem sends_onProcess {pid : Int32} (req : UInt32 → Request) {reply : UInt32 → ClientM α}
    (hreply : ∀ (S : History → Request → Prop) h handle, Sends S h (reply handle)) :
    Sends (WithHandle (.openProcess pid) fun handle _ r => r = req handle) []
      (openProcess pid >>= fun handle =>
        deferClose handle (writePacket (req handle).packet >>= fun _ => reply handle)) :=
  sends_openProcess fun _ handle ho =>
    Sends.request (.inr ⟨handle, ho, .inl rfl⟩) rfl fun h' _ => hreply _ h' handle

end Shapes

theorem sends_listProcessesLoop {S : History → Request → Prop} {h : History} {handle : UInt32}
    (hfirst : ∀ h', h <+: h' → S h' (.process32First handle))
    (hnext : ∀ h', h <+: h' → S h' (.process32Next handle)) (fuel : Nat)
    (first : Bool) (processes : List Process) :
    Sends S h (listProcessesLoop handle fuel
      (if first then commandProcess32First else commandProcess32Next) processes) := by
  induction fuel generalizing h first processes with
  | zero => exact Sends.pure _
  | succ fuel ih =>
    have hpacket : Sends S h (writePacket
        ((if first then commandProcess32First else commandProcess32Next) :: u32 handle)) := by
      cases first with
      | true => exact Sends.packet (hfirst h (List.prefix_refl h)) rfl
      | false => exact Sends.packet (hnext h (List.prefix_refl h)) rfl
    refine Sends.bind hpacket fun h₁ _ h1 => ?_
    refine Sends.bind (Sends.readI32 _) fun h₂ _ h2 => ?_
    refine Sends.bind (Sends.readI32 _) fun h₃ _ h3 => ?_
    refine Sends.bind (Sends.readI32 _) fun h₄ _ h4 => ?_
    refine Sends.ite (fun _ => Sends.pure _) fun _ => ?_
    refine Sends.bind (Sends.readString _ _) fun h₅ _ h5 => ?_
    have hpre : h <+: h₅ := h1.trans (h2.trans (h3.trans (h4.trans h5)))
    exact ih (fun h' hpre' => hfirst h' (hpre.trans hpre'))
      (fun h' hpre' => hnext h' (hpre.trans hpre')) false _

theorem sends_listProcesses :
    Sends (ClientOp.listProcesses.Requests) [] listProcesses := by
  refine sends_createSnapshot fun h handle ho => ?_
  exact sends_listProcessesLoop
    (fun h' hpre => .inr ⟨handle, ho.extend hpre, .inl (.inl rfl)⟩)
    (fun h' hpre => .inr ⟨handle, ho.extend hpre, .inl (.inr rfl)⟩) _ true []

section Lists

variable {S : History → Request → Prop} {h : History}

theorem sends_listModulesLoop (fuel : Nat) (modules : List Module) :
    Sends S h (listModulesLoop fuel modules) := by
  induction fuel generalizing h modules with
  | zero => exact Sends.pure _
  | succ fuel ih =>
    refine Sends.bind (Sends.readFull _ _) fun h₁ _ _ => ?_
    refine Sends.ite (fun _ => Sends.pure _) fun _ => ?_
    exact Sends.bind (Sends.readString _ _) fun _ _ _ => ih _

variable {pid : Int32}

theorem sends_listModules (hreq : S h (.createSnapshotEx toolhelpSnapshotModule pid.toUInt32)) :
    Sends S h (listModules pid) :=
  Sends.request hreq rfl fun _ _ => sends_listModulesLoop _ _

theorem sends_listThreads (hreq : S h (.createSnapshotEx toolhelpSnapshotThread pid.toUInt32)) :
    Sends S h (listThreads pid) := by
  refine Sends.request hreq rfl fun h₁ _ => ?_
  refine Sends.bind (Sends.readI32 _) fun h₂ _ _ => ?_
  exact Sends.guard fun _ =>
    Sends.readMany (fun _ _ => Sends.readI32 _) _

theorem sends_processInfo :
    Sends (ClientOp.processInfo pid).Requests [] (processInfo pid) := by
  refine sends_openProcess fun h handle ho => ?_
  have harch : Sends (ClientOp.processInfo pid).Requests h (architecture handle) :=
    Sends.request (.inr ⟨handle, ho, .inl (.inl rfl)⟩) rfl fun _ _ => Sends.readU8 _
  refine Sends.bind harch fun h₁ _ h1 => ?_
  refine Sends.bind (sends_listModules (.inr ⟨handle, ho.extend h1, .inl (.inr (.inl rfl))⟩))
    fun h₂ _ h2 => ?_
  refine Sends.bind
    (sends_listThreads (.inr ⟨handle, ho.extend (h1.trans h2), .inl (.inr (.inr rfl))⟩))
    fun h₃ _ _ => ?_
  exact Sends.pure _

end Lists

/-! ## Memory -/

section Memory

variable {S : History → Request → Prop} {h : History} {handle : UInt32}

theorem sends_readMemoryWithHandle {address : UInt64} {size : UInt32}
    (hreq : S h (.readProcessMemory handle address size)) :
    Sends S h (readMemoryWithHandle handle address size) := by
  refine Sends.request hreq rfl fun h₁ _ => ?_
  refine Sends.bind (Sends.readI32 _) fun h₂ _ _ => ?_
  exact Sends.guard fun _ => Sends.readFull _ _

theorem sends_regionsWithHandle {flags : UInt8} (hreq : S h (.virtualQueryExFull handle flags)) :
    Sends S h (regionsWithHandle handle flags) := by
  refine Sends.request hreq rfl fun h₁ _ => ?_
  refine Sends.bind (Sends.readU32 _) fun h₂ _ _ => ?_
  refine Sends.guard fun _ => Sends.readMany (fun _ _ => ?_) _
  exact Sends.bind (Sends.readFull _ _) fun _ _ _ => Sends.pure _

theorem requested_le (n : UInt64) : (min chunkSize n).toUInt32 ≤ 1048576 := by
  have hmin : (min chunkSize n).toNat ≤ 1048576 := by
    have h : min chunkSize n = if chunkSize ≤ n then chunkSize else n := rfl
    rw [h]
    split
    · decide
    · next hn => exact Nat.le_of_lt (UInt64.lt_iff_toNat_lt.1 (UInt64.not_le.1 hn))
  rw [UInt32.le_iff_toNat_le, UInt64.toNat_toUInt32]
  exact le_trans (Nat.mod_le _ _) hmin

theorem sends_scanRegionLoop {q : ScanQuery} {regionEnd : UInt64}
    (hread : ∀ h' address size, h <+: h' → size ≤ 1048576 →
      S h' (.readProcessMemory handle address size)) (fuel : Nat) (address next : UInt64)
    (tail : List UInt8) (found : List UInt64) :
    Sends S h (scanRegionLoop q handle regionEnd fuel address next tail found) := by
  induction fuel generalizing h address next tail found with
  | zero => exact Sends.pure _
  | succ fuel ih =>
    refine Sends.ite (fun _ => Sends.pure _) fun _ => ?_
    refine Sends.bind Sends.checkContext fun h₁ _ h1 => ?_
    refine Sends.bind (Sends.attempt (sends_readMemoryWithHandle
      (hread h₁ _ _ h1 (requested_le _)))) fun h₂ r h2 => ?_
    cases r with
    | error _ => exact Sends.pure _
    | ok data =>
      refine Sends.ite (fun _ => Sends.pure _) fun _ => ?_
      refine Sends.ite (fun _ => Sends.pure _) fun _ => ?_
      refine Sends.ite (fun _ => Sends.pure _) fun _ => ?_
      exact ih (fun h' a n hpre => hread h' a n ((h1.trans h2).trans hpre)) _ _ _ _

theorem sends_scanRegions {q : ScanQuery}
    (hread : ∀ h' address size, h <+: h' → size ≤ 1048576 →
      S h' (.readProcessMemory handle address size)) (list : List Region)
    (found : List UInt64) : Sends S h (scanRegions q handle list found) := by
  induction list generalizing h found with
  | nil => exact Sends.pure _
  | cons region rest ih =>
    refine Sends.bind Sends.checkContext fun h₁ _ h1 => ?_
    have hrest : ∀ h' found, h₁ <+: h' → Sends S h' (scanRegions q handle rest found) :=
      fun h' found hpre => ih (fun h'' a n hpre' => hread h'' a n (h1.trans (hpre.trans hpre')))
        found
    refine Sends.ite (fun _ => hrest h₁ _ (List.prefix_refl h₁)) fun _ => ?_
    refine Sends.ite (fun _ => hrest h₁ _ (List.prefix_refl h₁)) fun _ => ?_
    refine Sends.bind (sends_scanRegionLoop
      (fun h' a n hpre => hread h' a n (h1.trans hpre)) _ _ _ _ _) fun h₂ p h2 => ?_
    exact Sends.ite (fun _ => Sends.pure _) fun _ => hrest h₂ _ h2

theorem sends_scanMemory (pid : Int32) (pattern mask : List UInt8) (start stop : UInt64)
    (alignment : Int64) (protection : UInt32) (maximumMatches : Int64) :
    Sends (ClientOp.scanMemory pid pattern mask start stop alignment protection
        maximumMatches).Requests []
      (scanMemory pid pattern mask start stop alignment protection maximumMatches) := by
  refine Sends.guard fun _ => ?_
  refine Sends.guard fun _ => ?_
  refine Sends.guard fun _ => ?_
  refine Sends.guard fun _ => ?_
  refine sends_openProcess fun h handle ho => ?_
  refine Sends.bind (sends_regionsWithHandle (.inr ⟨handle, ho, .inl (.inl rfl)⟩))
    fun h₁ list h1 => ?_
  refine sends_scanRegions (fun h' address size hpre hle => ?_) _ _
  exact .inr ⟨handle, ho.extend (h1.trans hpre), .inl (.inr ⟨address, size, rfl, hle⟩)⟩

theorem sends_serverAOBScan (pid : Int32) (pattern mask : List UInt8) (start stop : UInt64)
    (alignment : Int64) (protection : UInt32) :
    Sends (ClientOp.serverAOBScan pid pattern mask start stop alignment protection).Requests []
      (serverAOBScan pid pattern mask start stop alignment protection) := by
  refine Sends.guard fun hpattern => ?_
  refine Sends.guard fun hmax => ?_
  refine Sends.guard fun halign => ?_
  refine Sends.guard fun hrange => ?_
  refine Sends.guard fun _ => ?_
  have hne : pattern ≠ [] := by
    rintro rfl
    exact hpattern (.inl rfl)
  have hmask : pattern.length = mask.length := by
    by_contra hlen
    exact hpattern (.inr hlen)
  refine sends_openProcess fun h handle ho => ?_
  refine Sends.request (.inr ⟨handle, ho, .inl ⟨rfl, hne, hmask, by omega, by omega, by omega,
    UInt64.not_le.1 hrange⟩⟩) rfl fun _ _ => ?_
  refine Sends.bind (Sends.readI32 _) fun _ _ _ => ?_
  exact Sends.guard fun _ => Sends.readMany (fun _ _ => Sends.readU64 _) _

end Memory

/-! ## Debug sessions -/

section Debug

variable {S : History → Request → Prop} {h : History} {handle : UInt32}

theorem sends_startDebug (hreq : ∀ h', h <+: h' → S h' (.startDebug handle)) :
    Sends S h (startDebug handle) := by
  refine Sends.bind (Sends.ask trivial) fun h₁ active h1 => ?_
  cases active with
  | true => exact Sends.pure _
  | false =>
    refine Sends.request (hreq h₁ h1) rfl fun h₂ _ => ?_
    refine Sends.bind (Sends.ask trivial) fun h₃ _ _ => ?_
    refine Sends.bind (Sends.readI32 _) fun h₄ _ _ => ?_
    refine Sends.ite (fun _ => ?_) fun _ => Sends.pure _
    exact Sends.bind (Sends.ask trivial) fun _ _ _ => Sends.throw _

variable {timeout : Int32}

theorem safe_waitForDebugEvent (hreq : S h (.waitForDebugEvent handle timeout)) :
    Prog.Safe (Allowed S)
      (fun h' r => ∀ event, r = .ok (some event) →
        ∃ data, EventRead h' data ∧ event = decodeDebugEvent data)
      h (waitForDebugEvent handle timeout).run := by
  refine ⟨⟨_, hreq, rfl⟩, fun w => ?_⟩
  rcases w with (_ | _) | _
  · rintro _ ⟨⟩
  · rintro _ ⟨⟩
  refine ⟨trivial, fun r => ?_⟩
  cases r with
  | error _ => rintro _ ⟨⟩
  | ok bytes =>
    show Prog.Safe _ _ _ (ExceptT.run (if i32At bytes 0 = 0 then pure none else _))
    split
    · rintro _ ⟨⟩
    · refine ⟨trivial, fun r => ?_⟩
      cases r with
      | error _ => rintro _ ⟨⟩
      | ok data =>
        rintro _ ⟨⟩
        exact ⟨data, ⟨_, rfl⟩, rfl⟩

/-- What the trace loop may send. -/
structure TraceAllowed (S : History → Request → Prop) (h : History) (handle : UInt32)
    (timeout : Int32) (mode : DebugContinueMode) : Prop where
  wait : ∀ h', h <+: h' → S h' (.waitForDebugEvent handle timeout)
  resume : ∀ h' data, h <+: h' → EventRead h' data → (u64At data 4).toNat < 2 ^ 32 →
    S h' (.continueFromDebugEvent handle (u64At data 4).toUInt32
      (continueModeForEvent mode (decodeDebugEvent data)))

theorem TraceAllowed.extend {mode : DebugContinueMode}
    {h' : History} (ha : TraceAllowed S h handle timeout mode) (hpre : h <+: h') :
    TraceAllowed S h' handle timeout mode :=
  ⟨fun _ hpre' => ha.wait _ (hpre.trans hpre'),
    fun _ data hpre' => ha.resume _ data (hpre.trans hpre')⟩

theorem sends_traceLoop {mode : DebugContinueMode}
    (ha : TraceAllowed S h handle timeout mode) (fuel : Nat) (events : List DebugEvent) :
    Sends S h (traceLoop handle timeout mode fuel events) := by
  induction fuel generalizing h events with
  | zero => exact Sends.pure _
  | succ fuel ih =>
    refine Sends.bind Sends.checkContext fun h₁ _ h1 => ?_
    rw [Sends, ExceptT.run_bind]
    refine Prog.Safe.bind (safe_waitForDebugEvent (ha.wait h₁ h1)) fun h₂ r h2 hevent => ?_
    rcases r with _ | (_ | event)
    · trivial
    · trivial
    obtain ⟨data, hread, rfl⟩ := hevent event rfl
    have hcontinue : Sends S h₂ (continueFromDebugEvent handle (u64At data 4)
        (continueModeForEvent mode (decodeDebugEvent data))) := by
      refine Sends.guard fun hfit => ?_
      refine Sends.request (ha.resume h₂ data (h1.trans h2) hread (by omega)) rfl fun _ _ => ?_
      refine Sends.bind (Sends.readI32 _) fun _ _ _ => ?_
      exact Sends.guard fun _ => Sends.pure _
    exact Sends.bind hcontinue fun h₃ _ h3 => ih (ha.extend (h1.trans (h2.trans h3))) _

theorem sends_traceDebugEvents (timeout : Int64) (pid : Int32) (maximumEvents : Int64)
    (eventTimeout : Int64) (continueMode : DebugContinueMode) :
    Sends (ClientOp.traceDebugEvents timeout pid maximumEvents eventTimeout
        continueMode).Requests []
      (traceDebugEvents timeout pid maximumEvents eventTimeout continueMode) := by
  refine Sends.guard fun _ => ?_
  refine Sends.guard fun _ => ?_
  refine Sends.guard fun _ => ?_
  refine Sends.guard fun _ => ?_
  refine sends_openProcess fun h handle ho => ?_
  refine Sends.bind (sends_startDebug fun h' hpre =>
    .inr ⟨handle, ho.extend hpre, .inl (.inl rfl)⟩) fun h₁ _ h1 => ?_
  refine Sends.bind (sends_traceLoop ⟨fun h' hpre => ?_, fun h' data hpre hread hfit => ?_⟩ _ _)
    fun _ _ _ => Sends.pure _
  · exact .inr ⟨handle, ho.extend (h1.trans hpre), .inl (.inr (.inl rfl))⟩
  · exact .inr ⟨handle, ho.extend (h1.trans hpre), .inl (.inr (.inr ⟨data, hread, hfit, rfl⟩))⟩

theorem sends_setThreadContext (pid tid : Int32) (data : List UInt8) :
    Sends (ClientOp.setThreadContext pid tid data).Requests []
      (setThreadContext pid tid data) := by
  unfold setThreadContext validateThreadContext
  split
  · trivial
  next hlen =>
  split
  · trivial
  refine sends_openProcess fun h handle ho => ?_
  refine Sends.bind (sends_startDebug fun h' hpre =>
    .inr ⟨handle, ho.extend hpre, .inl (.inl rfl)⟩) fun h₁ _ h1 => ?_
  refine Sends.request (.inr ⟨handle, ho.extend h1, .inl (.inr ⟨rfl, by omega⟩)⟩) rfl
    fun _ _ => ?_
  exact Sends.bind (Sends.readU32 _) fun _ _ _ => Sends.pure _

theorem sends_getThreadContext (pid tid : Int32) :
    Sends (ClientOp.getThreadContext pid tid).Requests [] (getThreadContext pid tid) := by
  refine sends_onProcess (fun handle => .getThreadContext handle tid) fun S h handle => ?_
  refine Sends.bind (Sends.readU32 _) fun _ _ _ => ?_
  refine Sends.guard fun _ => ?_
  refine Sends.bind (Sends.readU32 _) fun _ _ _ => ?_
  refine Sends.guard fun _ => ?_
  refine Sends.bind (Sends.readFull _ _) fun _ _ _ => ?_
  exact Sends.guard fun _ => Sends.pure _

end Debug

/-! ## All operations -/

section Replies

variable {S : History → Request → Prop} {h : History}

theorem sends_truth32 (operation : String) :
    Sends S h (do return (← readU32 operation) != 0) :=
  Sends.bind (Sends.readU32 _) fun _ _ _ => Sends.pure _

theorem sends_truthI32 (operation : String) :
    Sends S h (do return (← readI32 operation) != 0) :=
  Sends.bind (Sends.readI32 _) fun _ _ _ => Sends.pure _

/-- A reply of one `uint64` that must not be 0. -/
theorem sends_nonzero64 (operation : String) (e : ClientError) :
    Sends S h (do
      let address ← readU64 operation
      if address = 0 then throw e else return address) :=
  Sends.bind (Sends.readU64 _) fun _ _ _ =>
    Sends.guard fun _ => Sends.pure _

theorem sends_boolean (operation : String) {req : Request} {bytes : List UInt8} (hreq : S h req)
    (hb : bytes = req.packet) : Sends S h (remoteBooleanOperation operation bytes) :=
  Sends.request hreq hb fun _ _ => Sends.bind (Sends.readU8 _) fun _ _ _ => Sends.pure _

theorem sends_changeThreadSuspension (pid tid : Int32) (c : UInt8) (operation : String)
    (req : UInt32 → Request) (hreq : ∀ handle, (req handle).packet = c :: (u32 handle ++ i32 tid)) :
    Sends (WithHandle (.openProcess pid) fun handle _ r => r = req handle) []
      (changeThreadSuspension pid tid c operation) := by
  have heq : changeThreadSuspension pid tid c operation = openProcess pid >>= fun handle =>
      deferClose handle (writePacket (req handle).packet >>= fun _ => do
        let result ← readI32 operation
        if result.toInt < 0 then
          throw (.protocol operation
            ⟨"server could not change TID %d; an active debug session is required",
              [.int tid.toInt]⟩)
        else return result) := by
    simp only [changeThreadSuspension, hreq]
  rw [heq]
  refine sends_onProcess req fun S h handle => ?_
  exact Sends.bind (Sends.readI32 _) fun _ _ _ =>
    Sends.guard fun _ => Sends.pure _

theorem sends_listRemoteFilesLoop (fuel : Nat) (files : List RemoteFile) :
    Sends S h (listRemoteFilesLoop fuel files) := by
  induction fuel generalizing h files with
  | zero => exact Sends.pure _
  | succ fuel ih =>
    refine Sends.bind (Sends.readString16 _) fun _ _ _ => ?_
    refine Sends.ite (fun _ => Sends.pure _) fun _ => ?_
    exact Sends.bind (Sends.readU8 _) fun _ _ _ => ih _

theorem sends_readOption : Sends S h readOption := by
  refine Sends.bind (Sends.readString16 _) fun _ _ _ => ?_
  refine Sends.bind (Sends.readString16 _) fun _ _ _ => ?_
  refine Sends.bind (Sends.readString16 _) fun _ _ _ => ?_
  refine Sends.bind (Sends.readString16 _) fun _ _ _ => ?_
  refine Sends.bind (Sends.readString16 _) fun _ _ _ => ?_
  exact Sends.bind (Sends.readI32 _) fun _ _ _ => Sends.pure _

theorem sends_symbols (inflate : Inflate) (path : List UInt8) (fileOffset : UInt32)
    (hreq : S h (.getSymbols fileOffset path)) : Sends S h (symbols inflate path fileOffset) := by
  refine Sends.guard fun _ => ?_
  refine Sends.request hreq rfl fun _ _ => ?_
  refine Sends.bind (Sends.readU32 _) fun _ _ _ => ?_
  refine Sends.bind (Sends.readU32 _) fun _ _ _ => ?_
  refine Sends.guard fun _ => ?_
  refine Sends.guard fun _ => ?_
  refine Sends.bind (Sends.readU32 _) fun _ _ _ => ?_
  refine Sends.guard fun _ => ?_
  refine Sends.bind (Sends.readFull _ _) fun _ _ _ => ?_
  split
  · exact Sends.throw _
  · refine Sends.guard fun _ => ?_
    exact Sends.bind (Sends.result _) fun _ _ _ => Sends.pure _

end Replies

/-- Whatever the peer answers, a call of a client method writes only packets
    of the call's own requests. -/
theorem ClientOp.sends (op : ClientOp) : Sends op.Requests [] op.method := by
  cases op with
  | serverInfo =>
    refine sends_drop (Sends.bind ?_ fun _ _ _ => Sends.bind ?_ fun _ _ _ => Sends.pure _)
    · refine Sends.request (.inl rfl) rfl fun _ _ => ?_
      refine Sends.bind (Sends.readFull _ _) fun _ _ _ => ?_
      exact Sends.bind (Sends.readFull _ _) fun _ _ _ => Sends.pure _
    · exact Sends.request (.inr rfl) rfl fun _ _ => Sends.readU8 _
  | pathInfo =>
    refine sends_drop (Sends.bind ?_ fun _ _ _ => Sends.bind ?_ fun _ _ _ =>
      Sends.bind ?_ fun _ _ _ => Sends.pure _)
    · exact Sends.request (.inl rfl) rfl fun _ _ => Sends.readString16 _
    · exact Sends.request (.inr (.inl rfl)) rfl fun _ _ => Sends.readString16 _
    · exact Sends.request (.inr (.inr rfl)) rfl fun _ _ =>
        Sends.bind (Sends.readU8 _) fun _ _ _ => Sends.pure _
  | setConnectionName name =>
    refine Sends.guard fun _ => ?_
    refine Sends.guard fun hlen => ?_
    refine Sends.guard fun hnul => ?_
    exact Sends.packet ⟨rfl, by omega, hnul⟩ rfl
  | terminateServer => exact Sends.request rfl rfl fun _ _ => Sends.closeConnection
  | options =>
    refine sends_drop (Sends.request rfl rfl fun _ _ => ?_)
    refine Sends.bind (Sends.readU16 _) fun _ _ _ => ?_
    exact Sends.guard fun _ =>
      Sends.readMany (fun _ _ => sends_readOption) _
  | optionValue name =>
    exact sends_drop (sends_stringPacket fun hname =>
      Sends.request ⟨rfl, hname⟩ rfl fun _ _ => Sends.readString16 _)
  | setOption name value =>
    refine sends_stringPacket fun hname => ?_
    exact sends_writeString16 fun hvalue => Sends.packet ⟨rfl, hname, hvalue⟩ rfl
  | listProcesses => exact sends_drop sends_listProcesses
  | processInfo pid => exact sends_drop sends_processInfo
  | setSpeed pid speed =>
    refine sends_drop (Sends.ite (fun _ => ?_) fun _ => Sends.throw _)
    exact sends_onProcess _ fun _ _ _ => sends_truth32 _
  | listModules pid => exact sends_drop (sends_listModules rfl)
  | loadModule pid path =>
    refine sends_drop (sends_openProcess fun h handle ho => ?_)
    refine Sends.guard fun _ => ?_
    exact Sends.request (.inr ⟨handle, ho, .inl rfl⟩) rfl fun _ _ => sends_nonzero64 _ _
  | loadModuleEx pid dlopen path =>
    refine sends_drop (sends_openProcess fun h handle ho => ?_)
    refine Sends.guard fun _ => ?_
    exact Sends.request (.inr ⟨handle, ho, .inl rfl⟩) rfl fun _ _ => sends_nonzero64 _ _
  | loadExtension pid => exact sends_drop (sends_onProcess _ fun _ _ _ => sends_truthI32 _)
  | listThreads pid => exact sends_drop (sends_listThreads rfl)
  | suspendThread pid tid =>
    exact sends_drop (sends_changeThreadSuspension _ _ _ _ _ fun _ => rfl)
  | resumeThread pid tid =>
    exact sends_drop (sends_changeThreadSuspension _ _ _ _ _ fun _ => rfl)
  | createRemoteThread pid start parameter =>
    refine sends_drop (sends_onProcess _ fun _ _ _ => ?_)
    refine Sends.bind (Sends.readU32 _) fun _ _ _ => ?_
    exact Sends.guard fun _ => Sends.pure _
  | closeHandle handle => exact Sends.closeHandle rfl
  | regions pid flags =>
    refine sends_drop (sends_openProcess fun h handle ho => ?_)
    exact sends_regionsWithHandle (.inr ⟨handle, ho, .inl rfl⟩)
  | regionInfo pid address =>
    refine sends_drop (sends_onProcess _ fun _ _ _ => ?_)
    refine Sends.bind (Sends.readFull _ _) fun _ _ _ => ?_
    refine Sends.bind (Sends.readU8 _) fun _ _ _ => ?_
    refine Sends.bind (Sends.readString _ _) fun _ _ _ => ?_
    exact Sends.guard fun _ => Sends.pure _
  | readMemory pid address size =>
    refine sends_drop (sends_openProcess fun h handle ho => ?_)
    exact sends_readMemoryWithHandle (.inr ⟨handle, ho, .inl rfl⟩)
  | writeMemory pid address data =>
    exact sends_drop (sends_onProcess _ fun _ _ _ => Sends.readI32 _)
  | scanMemory => exact sends_drop (sends_scanMemory _ _ _ _ _ _ _ _)
  | serverAOBScan => exact sends_drop (sends_serverAOBScan _ _ _ _ _ _ _)
  | allocateMemory pid address size protection =>
    exact sends_drop (sends_onProcess _ fun _ _ _ => sends_nonzero64 _ _)
  | freeMemory pid address size =>
    exact sends_drop (sends_onProcess _ fun _ _ _ => sends_truth32 _)
  | changeMemoryProtection pid address size protection =>
    refine sends_drop (sends_onProcess _ fun _ _ _ => ?_)
    refine Sends.bind (Sends.readU32 _) fun _ _ _ => ?_
    refine Sends.bind (Sends.readU32 _) fun _ _ _ => ?_
    exact Sends.guard fun _ => Sends.pure _
  | traceDebugEvents => exact sends_drop (sends_traceDebugEvents _ _ _ _ _)
  | setBreakpoint pid tid debugRegister address breakpointType size =>
    exact sends_drop (sends_onProcess _ fun _ _ _ => sends_truthI32 _)
  | removeBreakpoint pid tid debugRegister wasWatchpoint =>
    exact sends_drop (sends_onProcess _ fun _ _ _ => sends_truthI32 _)
  | getThreadContext pid tid => exact sends_drop (sends_getThreadContext pid tid)
  | setThreadContext pid tid data => exact sends_drop (sends_setThreadContext pid tid data)
  | currentPath => exact sends_drop (Sends.request rfl rfl fun _ _ => Sends.readString16 _)
  | setCurrentPath path =>
    exact sends_drop (sends_stringPacket fun hpath => Sends.request ⟨rfl, hpath⟩ rfl fun _ _ =>
      Sends.bind (Sends.readU8 _) fun _ _ _ => Sends.pure _)
  | listRemoteFiles path =>
    exact sends_drop (sends_stringPacket fun hpath => Sends.request ⟨rfl, hpath⟩ rfl fun _ _ =>
      sends_listRemoteFilesLoop _ _)
  | remoteFilePermissions path =>
    refine sends_drop (sends_stringPacket fun hpath =>
      Sends.request ⟨rfl, hpath⟩ rfl fun _ _ => ?_)
    refine Sends.bind (Sends.readU8 _) fun _ _ _ => ?_
    exact Sends.guard fun _ => Sends.readU32 _
  | setRemoteFilePermissions path permissions =>
    exact sends_drop (sends_stringPacket fun hpath => sends_boolean _ ⟨rfl, hpath⟩ rfl)
  | getRemoteFile path =>
    refine sends_drop (sends_stringPacket fun hpath =>
      Sends.request ⟨rfl, hpath⟩ rfl fun _ _ => ?_)
    refine Sends.bind (Sends.readU32 _) fun _ _ _ => ?_
    refine Sends.guard fun _ => ?_
    exact Sends.guard fun _ => Sends.readFull _ _
  | putRemoteFile path content =>
    refine sends_drop (Sends.guard fun hlen => ?_)
    exact sends_stringPacket fun hpath => sends_boolean _ ⟨rfl, hpath, by omega⟩
      (by simp [Request.packet, Request.command, Request.body])
  | createRemoteDirectory path =>
    exact sends_drop (sends_stringPacket fun hpath => sends_boolean _ ⟨rfl, hpath⟩ rfl)
  | deleteRemotePath path =>
    exact sends_drop (sends_stringPacket fun hpath => sends_boolean _ ⟨rfl, hpath⟩ rfl)
  | openPipe name timeout =>
    refine sends_drop (sends_stringPacket fun hpath =>
      Sends.request ⟨rfl, hpath⟩ rfl fun _ _ => ?_)
    refine Sends.bind (Sends.readU32 _) fun _ _ _ => ?_
    exact Sends.guard fun _ => Sends.pure _
  | readPipe handle size timeout =>
    refine sends_drop (Sends.request rfl rfl fun _ _ => ?_)
    refine Sends.bind (Sends.readI32 _) fun _ _ _ => ?_
    exact Sends.guard fun _ => Sends.readFull _ _
  | writePipe handle data timeout =>
    exact sends_drop (Sends.request rfl rfl fun _ _ => Sends.readI32 _)
  | symbols inflate path fileOffset => exact sends_drop (sends_symbols inflate path fileOffset rfl)

end CheatEngine.Client
