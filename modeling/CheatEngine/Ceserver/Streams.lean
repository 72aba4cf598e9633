/-
  CheatEngine.Ceserver.Streams

  The two directions of the stream over whole sequences of client operations:
  the debug session and the remaining commands, then the step that one
  operation makes and the runs of steps.
-/
import CheatEngine.Ceserver.Framing

namespace CheatEngine.Ceserver

open CheatEngine.Lib CheatEngine.Client

/-! ## Debug sessions -/

section Debug

variable {σ : Type} {o : Outcomes σ} {b : Build}

theorem ends_onStartDebug (s : Connection) (h : UInt32) :
    Ends o (onStartDebug s h) fun x sent _ => x ≠ none ∧ OneI32 sent := by
  refine Ends.api fun a => Ends.reply_bind (Ends.ite (fun _ => Ends.api fun _ => ?_) fun _ => ?_)
  · exact Ends.pure ⟨Option.some_ne_none _, _, List.append_nil _⟩
  · exact Ends.pure ⟨Option.some_ne_none _, _, List.append_nil _⟩

theorem settles_startDebug (handle : UInt32) :
    Settles (ceserver b) o.env [] (startDebug handle) := by
  refine Settles.debugActive fun active => Settles.ite (fun _ => Settles.pure _) fun _ => ?_
  have hwell : WellFormed (.startDebug handle) := trivial
  have hreplies : Replies (ceserver b) o.env commandStartDebug (u32 handle)
      fun reply _ => OneI32 reply :=
    replies_request nofun hwell fun s => ends_onStartDebug s handle
  refine Settles.request hreplies fun reply hr => ?_
  refine Settles.setDebugActive (settles_i32 hr fun result => ?_)
  refine Settles.ite (fun _ => ?_) fun _ => Settles.pure _
  exact Settles.setDebugActive (Settles.throw _)

section

variable (ho : Allocates o.env)
include ho

theorem settles_waitForDebugEvent (handle : UInt32) (timeout : Int32) :
    Settles (ceserver b) o.env [] (Client.waitForDebugEvent handle timeout) := by
  refine settles_request ho (.waitForDebugEvent handle timeout) trivial (fun _ => rfl)
    (R := fun sent => ∃ (r : Int32) (event : DebugEvent),
      sent = i32 r ++ if r ≠ 0 then event.encode else []) (Answers.api fun a => ?_) ?_
  · obtain ⟨r, event⟩ := (o (.waitForDebugEvent handle timeout) a).1
    refine Answers.ite (fun h => Answers.reply ⟨r, event, ?_⟩)
      fun h => Answers.reply ⟨r, event, ?_⟩
    · rw [if_pos h]
    · rw [if_neg h, List.append_nil]
  · rintro _ ⟨r, event, rfl⟩
    refine Settles.read (yields_readI32 r) ?_
    by_cases h : r = 0
    · rw [if_pos h, if_neg (not_not.2 h)]
      exact Settles.pure _
    · rw [if_neg h, if_pos h]
      have hlen : event.encode.length = 20 := by simp [DebugEvent.encode]
      exact Settles.readLast (yields_readFull _ hlen) (Settles.pure _)

theorem settles_continueFromDebugEvent (handle : UInt32)
    (threadID : UInt64) (mode : DebugContinueMode) :
    Settles (ceserver b) o.env [] (Client.continueFromDebugEvent handle threadID mode) := by
  refine Settles.guard fun _ => ?_
  exact settles_request ho (.continueFromDebugEvent handle threadID.toUInt32 mode) trivial
    (fun _ => rfl) (R := OneI32) (Answers.api fun _ => Answers.reply ⟨_, rfl⟩)
    fun _ hr => settles_i32 hr fun _ => settles_checked

theorem settles_traceLoop (handle : UInt32) (timeout : Int32)
    (mode : DebugContinueMode) (fuel : Nat) (events : List Client.DebugEvent) :
    Settles (ceserver b) o.env [] (traceLoop handle timeout mode fuel events) := by
  induction fuel generalizing events with
  | zero => exact Settles.pure _
  | succ fuel ih =>
    refine Settles.checkContext.bind fun _ => ?_
    refine (settles_waitForDebugEvent ho handle timeout).bind fun event => ?_
    cases event with
    | none => exact Settles.pure _
    | some event =>
      exact (settles_continueFromDebugEvent ho handle _ _).bind fun _ => ih _

theorem settles_traceDebugEvents (timeout : Int64) (pid : Int32)
    (maximumEvents eventTimeout : Int64) (mode : DebugContinueMode) :
    Settles (ceserver b) o.env []
      (traceDebugEvents timeout pid maximumEvents eventTimeout mode) := by
  refine Settles.guard fun _ => ?_
  refine Settles.guard fun _ => ?_
  refine Settles.guard fun _ => ?_
  refine Settles.guard fun _ => ?_
  refine settles_onProcess ho fun handle => (settles_startDebug handle).bind fun _ => ?_
  exact (settles_traceLoop ho handle _ _ _ _).bind fun _ => Settles.pure _

theorem settles_suspendThread (pid tid : Int32) :
    Settles (ceserver b) o.env [] (Client.suspendThread pid tid) :=
  settles_processI32 ho pid (fun h => .suspendThread h tid) (fun _ => trivial)
    (fun _ _ => rfl) (fun _ => Answers.api fun _ => Answers.reply ⟨_, rfl⟩)
    fun _ => settles_checked

theorem settles_resumeThread (pid tid : Int32) :
    Settles (ceserver b) o.env [] (Client.resumeThread pid tid) :=
  settles_processI32 ho pid (fun h => .resumeThread h tid) (fun _ => trivial)
    (fun _ _ => rfl) (fun _ => Answers.api fun _ => Answers.reply ⟨_, rfl⟩)
    fun _ => settles_checked

theorem settles_setBreakpoint (pid tid debugRegister : Int32)
    (address : UInt64) (breakpointType size : Int32) :
    Settles (ceserver b) o.env []
      (Client.setBreakpoint pid tid debugRegister address breakpointType size) :=
  settles_processI32 ho pid
    (fun h => .setBreakpoint h tid debugRegister address breakpointType size) (fun _ => trivial)
    (fun _ _ => rfl) (fun _ => Answers.api fun _ => Answers.reply ⟨_, rfl⟩)
    fun _ => Settles.pure _

theorem settles_removeBreakpoint (pid tid debugRegister : Int32) (wasWatchpoint : Bool) :
    Settles (ceserver b) o.env [] (Client.removeBreakpoint pid tid debugRegister wasWatchpoint) :=
  settles_processI32 ho pid (fun h => .removeBreakpoint h tid debugRegister wasWatchpoint)
    (fun _ => trivial) (fun _ _ => rfl) (fun _ => Answers.api fun _ => Answers.reply ⟨_, rfl⟩)
    fun _ => Settles.pure _

theorem settles_getThreadContext (pid tid : Int32) :
    Settles (ceserver b) o.env [] (Client.getThreadContext pid tid) := by
  refine settles_onProcess ho fun handle => ?_
  refine settles_request ho (.getThreadContext handle tid) trivial (fun _ => rfl)
    (R := fun sent => sent = u32 0 ∨
      ∃ context : Context, sent = u32 1 ++ (u32 context.structsize ++ context.encode))
    (Answers.api fun a => ?_) ?_
  · cases (o (.getThreadContext handle tid) a).1 with
    | none => exact Answers.reply (.inl rfl)
    | some context => exact Answers.reply (.inr ⟨context, List.append_assoc ..⟩)
  · rintro _ (rfl | ⟨context, rfl⟩)
    · refine Settles.readLast (yields_readU32 0) ?_
      rw [if_pos rfl]
      exact Settles.throw _
    · have hfits := context.fits
      have hmax : maximumThreadContextSize = 1048576 := rfl
      have hsize : context.structsize.toNat = 8 + context.registers.length := by
        rw [Context.structsize, UInt32.toNat_ofNat']
        omega
      have hlen : context.encode.length = context.structsize.toNat := by
        rw [hsize]
        simp [Context.encode]
        omega
      refine Settles.read (yields_readU32 1) ?_
      rw [if_neg (by decide)]
      refine Settles.read (yields_readU32 _) ?_
      rw [if_neg (by omega)]
      refine Settles.readLast (yields_readFull _ hlen) ?_
      exact Settles.guard fun _ => Settles.pure _

end

theorem length_of_validateThreadContext {data : List UInt8}
    (h : validateThreadContext data = .ok ()) : data.length < 2 ^ 32 := by
  have hmax : maximumThreadContextSize = 1048576 := rfl
  by_contra hlen
  rw [validateThreadContext, if_pos (by omega)] at h
  exact nomatch h

theorem settles_setThreadContext (ho : Allocates o.env) (pid tid : Int32) (data : List UInt8) :
    Settles (ceserver b) o.env [] (Client.setThreadContext pid tid data) := by
  rw [Client.setThreadContext]
  cases hvalid : validateThreadContext data with
  | error e => exact Settles.throw e
  | ok u =>
    refine settles_onProcess ho fun handle => (settles_startDebug handle).bind fun _ => ?_
    exact settles_request ho (.setThreadContext handle tid data)
      (length_of_validateThreadContext hvalid) (fun _ => rfl)
      (Answers.api fun _ => Answers.reply (OneI32.oneU32 ⟨_, rfl⟩))
      fun _ hr => settles_u32 hr fun _ => Settles.pure _

end Debug

/-! ## Mutations -/

section Mutations

variable {σ : Type} {o : Outcomes σ} {b : Build}

section

variable (ho : Allocates o.env)
include ho

theorem settles_allocateMemory (pid : Int32) (address : UInt64) (size protection : UInt32) :
    Settles (ceserver b) o.env [] (allocateMemory pid address size protection) := by
  refine settles_onProcess ho fun handle => ?_
  refine settles_nonzero64 ho (.allocateMemory handle address size protection) trivial
    (fun _ => rfl) (Answers.api fun _ => ?_)
  exact Answers.ite (fun _ => Answers.api fun _ => Answers.reply ⟨_, rfl⟩)
    fun _ => Answers.api fun _ => Answers.reply ⟨_, rfl⟩

theorem settles_freeMemory (pid : Int32) (address : UInt64)
    (size : UInt32) : Settles (ceserver b) o.env [] (freeMemory pid address size) :=
  settles_process32 ho pid (fun h => .freeMemory h address size) (fun _ => trivial)
    (fun _ _ => rfl) (fun _ => Answers.api fun _ => Answers.reply (OneI32.oneU32 ⟨_, rfl⟩))
    fun _ => Settles.pure _

theorem settles_setSpeed (pid : Int32) (speed : UInt32) :
    Settles (ceserver b) o.env [] (setSpeed pid speed) := by
  refine Settles.ite (fun _ => ?_) fun _ => Settles.throw _
  exact settles_process32 ho pid (fun h => .setSpeed h speed) (fun _ => trivial)
    (fun _ _ => rfl) (fun _ => Answers.api fun _ => Answers.reply (OneI32.oneU32 ⟨_, rfl⟩))
    fun _ => Settles.pure _

theorem settles_loadModule (pid : Int32) {path : List UInt8}
    (hpath : Path32 path) : Settles (ceserver b) o.env [] (loadModule pid path) := by
  have hne : path.length ≠ 0 := fun h => hpath.1 (List.length_eq_zero_iff.1 h)
  refine settles_onProcess ho fun handle => Settles.guard fun _ => ?_
  refine settles_nonzero64 ho (.loadModule handle path) hpath (fun _ => rfl) ?_
  exact Answers.ite (fun h => absurd h hne) fun _ => Answers.api fun _ => Answers.reply ⟨_, rfl⟩

theorem settles_loadModuleEx (pid : Int32) (dlopen : UInt64)
    {path : List UInt8} (hpath : Path32 path) :
    Settles (ceserver b) o.env [] (loadModuleEx pid dlopen path) := by
  have hne : path.length ≠ 0 := fun h => hpath.1 (List.length_eq_zero_iff.1 h)
  refine settles_onProcess ho fun handle => Settles.guard fun _ => ?_
  refine settles_nonzero64 ho (.loadModuleEx handle dlopen path) hpath (fun _ => rfl) ?_
  exact Answers.ite (fun h => absurd h hne) fun _ => Answers.api fun _ => Answers.reply ⟨_, rfl⟩

theorem settles_loadExtension (pid : Int32) :
    Settles (ceserver b) o.env [] (loadExtension pid) :=
  settles_processI32 ho pid (fun h => .loadExtension h) (fun _ => trivial)
    (fun _ _ => rfl) (fun _ => Answers.api fun _ => Answers.reply ⟨_, rfl⟩)
    fun _ => Settles.pure _

theorem settles_createRemoteThread (pid : Int32) (start parameter : UInt64) :
    Settles (ceserver b) o.env [] (createRemoteThread pid start parameter) := by
  refine settles_process32 ho pid (fun h => .createRemoteThread h start parameter)
    (fun _ => trivial) (fun _ _ => rfl) (fun h => Answers.api fun a => ?_)
    fun _ => settles_checked
  exact Answers.ite (fun _ => Answers.api fun _ => Answers.reply ⟨_, rfl⟩)
    fun _ => Answers.reply ⟨_, rfl⟩

theorem settles_setRemoteFilePermissions (path : List UInt8) (permissions : UInt32) :
    Settles (ceserver b) o.env [] (setRemoteFilePermissions path permissions) :=
  settles_stringPacket fun hpath =>
    settles_boolean ho (.setFilePermissions path permissions) hpath (fun _ => rfl)
      (Answers.api fun _ => Answers.reply ⟨_, rfl⟩) rfl

theorem settles_createRemoteDirectory (path : List UInt8) :
    Settles (ceserver b) o.env [] (createRemoteDirectory path) :=
  settles_stringPacket fun hpath =>
    settles_boolean ho (.createDirectory path) hpath (fun _ => rfl)
      (Answers.api fun _ => Answers.reply ⟨_, rfl⟩) rfl

theorem settles_serverInfo :
    Settles (ceserver b) o.env [] serverInfo :=
  (settles_version ho).bind fun _ => (settles_abi ho).bind fun _ => Settles.pure _

end

end Mutations

section Operations

variable {σ : Type} {o : Outcomes σ} {b : Build}

/-- What an operation needs for replies that the client reads to their end:
    arguments that the command line admits, outcomes that can be framed, and
    for a region above 4 GiB a server with 64-bit pointers. -/
def OpReady (b : Build) (o : Outcomes σ) (op : ClientOp) : Prop :=
  op.Admitted ∧ Framed o op ∧ match op with
    | .regionInfo _ address => b.pointer32 = true → address ≤ 0xFFFFFFFF
    | _ => True

theorem path32_of_admitted {path : List UInt8}
    (h : path ≠ [] ∧ path.length ≤ 65535 ∧ (0 : UInt8) ∉ path) : Path32 path :=
  ⟨h.1, by omega, h.2.2⟩

theorem settles_method (ho : Allocates o.env) {op : ClientOp} (hop : OpReady b o op)
    (hname : ∀ name, op ≠ .setConnectionName name) (hend : op ≠ .terminateServer) :
    Settles (ceserver b) o.env [] op.method := by
  obtain ⟨hadm, hf, hready⟩ := hop
  cases op with
  | setConnectionName name => exact absurd rfl (hname name)
  | terminateServer => exact absurd rfl hend
  | serverInfo => exact (settles_serverInfo ho).drop
  | pathInfo => exact (settles_pathInfo ho).drop
  | options => exact (settles_options ho).drop
  | optionValue name => exact (settles_optionValue ho hadm).drop
  | setOption name value => exact settles_setOption ho name value
  | listProcesses => exact (settles_listProcesses ho).drop
  | processInfo pid => exact (settles_processInfo ho hf.1 hf.2 pid).drop
  | setSpeed pid speed => exact (settles_setSpeed ho pid speed).drop
  | listModules pid => exact (settles_listModules ho hf pid).drop
  | loadModule pid path => exact (settles_loadModule ho pid (path32_of_admitted hadm)).drop
  | loadModuleEx pid dlopen path =>
    exact (settles_loadModuleEx ho pid dlopen (path32_of_admitted hadm)).drop
  | loadExtension pid => exact (settles_loadExtension ho pid).drop
  | listThreads pid => exact (settles_listThreads ho hf pid).drop
  | suspendThread pid tid => exact (settles_suspendThread ho pid tid).drop
  | resumeThread pid tid => exact (settles_resumeThread ho pid tid).drop
  | createRemoteThread pid start parameter =>
    exact (settles_createRemoteThread ho pid start parameter).drop
  | closeHandle handle => exact settles_closeHandle ho handle
  | regions pid flags =>
    exact (settles_onProcess ho fun h => settles_regionsWithHandle ho hf h).drop
  | regionInfo pid address => exact (settles_regionInfo ho pid address hready).drop
  | readMemory pid address size =>
    exact (settles_onProcess ho fun h => settles_readMemoryWithHandle ho hf h address size).drop
  | writeMemory pid address data =>
    have hlen : data.length ≤ 2 ^ 20 := hadm
    exact (settles_writeMemory ho pid address (by omega)).drop
  | scanMemory pid pattern mask start stop alignment protection maximumMatches =>
    exact (settles_scanMemory ho hf.1 hf.2 pid pattern mask start stop alignment protection
      maximumMatches).drop
  | serverAOBScan pid pattern mask start stop alignment protection =>
    exact (settles_serverAOBScan ho pid pattern mask start stop alignment protection).drop
  | allocateMemory pid address size protection =>
    exact (settles_allocateMemory ho pid address size protection).drop
  | freeMemory pid address size => exact (settles_freeMemory ho pid address size).drop
  | changeMemoryProtection pid address size protection =>
    exact (settles_changeMemoryProtection ho pid address size protection).drop
  | traceDebugEvents timeout pid maximumEvents eventTimeout mode =>
    exact (settles_traceDebugEvents ho timeout pid maximumEvents eventTimeout mode).drop
  | setBreakpoint pid tid debugRegister address breakpointType size =>
    exact (settles_setBreakpoint ho pid tid debugRegister address breakpointType size).drop
  | removeBreakpoint pid tid debugRegister wasWatchpoint =>
    exact (settles_removeBreakpoint ho pid tid debugRegister wasWatchpoint).drop
  | getThreadContext pid tid => exact (settles_getThreadContext ho pid tid).drop
  | setThreadContext pid tid data => exact (settles_setThreadContext ho pid tid data).drop
  | currentPath => exact (settles_currentPath ho).drop
  | setCurrentPath path => exact (settles_setCurrentPath ho path).drop
  | listRemoteFiles path => exact (settles_listRemoteFiles ho hf).drop
  | remoteFilePermissions path => exact (settles_remoteFilePermissions ho path).drop
  | setRemoteFilePermissions path permissions =>
    exact (settles_setRemoteFilePermissions ho path permissions).drop
  | getRemoteFile path => exact (settles_getRemoteFile ho hf path).drop
  | putRemoteFile path content => exact (settles_putRemoteFile ho path content).drop
  | createRemoteDirectory path => exact (settles_createRemoteDirectory ho path).drop
  | deleteRemotePath path => exact (settles_deleteRemotePath ho path).drop
  | openPipe name timeout => exact (settles_openPipe ho name timeout).drop
  | readPipe handle size timeout => exact (settles_readPipe ho handle size timeout).drop
  | writePipe handle data timeout =>
    have hlen : data.length ≤ 2 ^ 20 := hadm
    exact (settles_writePipe ho handle (by omega) timeout).drop
  | symbols inflate path fileOffset =>
    exact (settles_symbols ho inflate hadm.2.2 hf).drop

end Operations

section Closed

variable {σ α : Type} {o : Outcomes σ} {b : Build}

/-- Nothing is in flight, and the service is idle or gone. -/
def Settled (l : Link CeApi Connection σ) : Prop :=
  ((∃ s, l.session = .idle s) ∧ l.connected = true ∨ l.session = .closed) ∧
    l.wire.inp = [] ∧ l.wire.out = []

theorem interp_closed (m : Prog NetSig α) (l : Link CeApi Connection σ)
    (hclosed : l.session = .closed) (hl : Settled l) :
    ∃ x l', Prog.interp (answer (ceserver b) o.env) m l = some (x, l') ∧
      l'.session = .closed ∧ Settled l' := by
  induction m generalizing l with
  | pure x => exact ⟨x, l, rfl, hclosed, hl⟩
  | op op k ih =>
    obtain ⟨session, wire, connected, debugActive, ctx⟩ := l
    obtain ⟨-, hinp, hout⟩ := hl
    simp only at hclosed hinp hout
    subst hclosed
    rw [Prog.interp_op]
    cases op with
    | write packet => exact ih _ _ rfl ⟨.inr rfl, hinp, hout⟩
    | read n =>
      by_cases hn : n ≤ wire.out.length
      · simp only [answer, if_pos hn, Option.bind_some]
        exact ih _ _ rfl ⟨.inr rfl, hinp, by simp [hout]⟩
      · simp only [answer, if_neg hn, Option.bind_some]
        exact ih _ _ rfl ⟨.inr rfl, hinp, rfl⟩
    | connected => exact ih _ _ rfl ⟨.inr rfl, hinp, hout⟩
    | close => exact ih _ _ rfl ⟨.inr rfl, hinp, hout⟩
    | debugActive => exact ih _ _ rfl ⟨.inr rfl, hinp, hout⟩
    | setDebugActive active => exact ih _ _ rfl ⟨.inr rfl, hinp, hout⟩
    | ctxErr => exact ih _ _ rfl ⟨.inr rfl, hinp, hout⟩

end Closed

/-! ## Sequences of operations -/

section Runs

variable {σ : Type} {o : Outcomes σ} {b : Build}

/-- One operation; `none` once the client waits for ever. -/
def opStep (b : Build) (o : Outcomes σ) (l : Option (Link CeApi Connection σ)) (op : ClientOp) :
    Option (Link CeApi Connection σ) :=
  l.bind fun l => (Link.run (ceserver b) o.env op.method l).map Prod.snd

/-- The operation is ready and the client has not given its connection up, as
    `TerminateServer` does. -/
def StepReady (b : Build) (o : Outcomes σ) (l : Option (Link CeApi Connection σ)) (op : ClientOp) : Prop :=
  (∀ l', l = some l' → l'.connected = true) ∧ OpReady b o op

theorem opStep_of_run {l l' : Link CeApi Connection σ} {op : ClientOp}
    {r : Except ClientError Unit} (h : Link.run (ceserver b) o.env op.method l = some (r, l')) :
    opStep b o (some l) op = some l' := by
  simp [opStep, h]

theorem run_terminateServer (s : Connection) (a : σ) (log : List (Prog.Event CeApi)) (d : Bool)
    (ctx : List (Option String)) :
    Link.run (ceserver b) o.env terminateServer (.ready s a log [] d ctx) =
      some (.ok (), ⟨.closed, ⟨[], [], a, log⟩, false, d, ctx⟩) := by
  have hwrite : Link.run (ceserver b) o.env (writePacket [commandTerminateServer])
      (.ready s a log [] d ctx) = some (.ok (), ⟨.closed, ⟨[], [], a, log⟩, true, d, ctx⟩) :=
    run_writePacket_close rfl
  rw [terminateServer, run_bind_ok hwrite]
  rfl

theorem run_setConnectionName (name : List UInt8) (s : Connection) (a : σ)
    (log : List (Prog.Event CeApi)) (d : Bool) (ctx : List (Option String)) :
    ∃ r l', Link.run (ceserver b) o.env (setConnectionName name) (.ready s a log [] d ctx) =
      some (r, l') ∧ Settled l' := by
  have hready : Settled (Link.ready s a log [] d ctx : Link CeApi Connection σ) :=
    ⟨.inl ⟨⟨s, rfl⟩, rfl⟩, rfl, rfl⟩
  rw [setConnectionName]
  by_cases hempty : name = []
  · rw [if_pos hempty]
    exact ⟨_, _, run_throw _, hready⟩
  by_cases hmax : maximumProtocolStringLength < name.length
  · rw [if_neg hempty, if_pos hmax]
    exact ⟨_, _, run_throw _, hready⟩
  by_cases hnul : (0 : UInt8) ∈ name
  · rw [if_neg hempty, if_neg hmax, if_pos hnul]
    exact ⟨_, _, run_throw _, hready⟩
  rw [if_neg hempty, if_neg hmax, if_neg hnul]
  have hlimit : maximumProtocolStringLength = 1048576 := rfl
  have hwell : WellFormed (.setConnectionName name) := ⟨by omega, hnul⟩
  have hdrive : drive o.env (dispatchCommand b commandSetConnectionName s).run
      ⟨(Request.setConnectionName name).body, [], a, log⟩ =
        drive o.env (handle b s (.setConnectionName name)).run ⟨[], [], a, log⟩ := by
    rw [← drive_dispatchCommand (.setConnectionName name) nofun hwell, List.append_nil]
    rfl
  by_cases hliteral : s.threadname = .literal
  · rw [handle, if_pos hliteral] at hdrive
    exact ⟨_, _, run_writePacket_close hdrive, .inr rfl, rfl, rfl⟩
  · rw [handle, if_neg hliteral] at hdrive
    exact ⟨_, _, run_writePacket hdrive, .inl ⟨⟨_, rfl⟩, rfl⟩, rfl, rfl⟩

/-- One operation leaves nothing in flight. -/
theorem settled_opStep (ho : Allocates o.env) {l : Link CeApi Connection σ} (hl : Settled l)
    {op : ClientOp} (hop : OpReady b o op) :
    ∃ l', opStep b o (some l) op = some l' ∧ Settled l' := by
  by_cases hclosed : l.session = .closed
  · obtain ⟨x, l', hrun, -, hl'⟩ := interp_closed op.method.run l hclosed hl
    exact ⟨l', opStep_of_run hrun, hl'⟩
  obtain ⟨session, ⟨inp, out, a, log⟩, connected, d, ctx⟩ := l
  obtain ⟨⟨⟨s, hs⟩, hconnected⟩ | hc, hinp, hout⟩ := hl
  · simp only at hs hconnected hinp hout
    subst hs hconnected hinp hout
    by_cases hname : ∃ name, op = .setConnectionName name
    · obtain ⟨name, rfl⟩ := hname
      obtain ⟨r, l', hrun, hl'⟩ := run_setConnectionName name s a log d ctx
      exact ⟨l', opStep_of_run hrun, hl'⟩
    by_cases hend : op = .terminateServer
    · subst hend
      exact ⟨_, opStep_of_run (run_terminateServer s a log d ctx), .inr rfl, rfl, rfl⟩
    · have hsettles := settles_method ho hop (fun name h => hname ⟨name, h⟩) hend
      obtain ⟨r, s', a', events, d', ctx', hrun, -⟩ := hsettles s a log d ctx
      exact ⟨_, opStep_of_run hrun, .inl ⟨⟨s', rfl⟩, rfl⟩, rfl, rfl⟩
  · exact absurd hc hclosed

/-- A target that opens as handle 1 and whose region list is `regions`, if it
    can be read at all. -/
def opened (regions : Option { regions : List RegionInfo // regions.length < 2 ^ 32 }) :
    Outcomes Unit
  | .openProcess _, a => (1, a)
  | .virtualQueryExFull _ _, a => (regions, a)
  | c, a => (refusal c, a)

end Runs

end CheatEngine.Ceserver
