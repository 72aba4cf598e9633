/-
  CheatEngine.LocalBridge.Native

  The client on a connection that the local bridge serves, against the same
  calls made on the backend itself.  `NativeOp.direct` says what each call is
  for, without a protocol; main result: the client's calls return what the
  direct calls return and leave nothing in the stream.
-/
import CheatEngine.Lib.Run
import CheatEngine.Client.Exchange
import CheatEngine.Client.Memory
import CheatEngine.Client.Remote
import CheatEngine.LocalBridge.Server

namespace CheatEngine.LocalBridge

open CheatEngine.Lib

variable {M σ : Type}

/-- A client call that the native mode supports. -/
inductive NativeOp
  | version
  | abi
  | listProcesses
  | openProcess (pid : Int32)
  | architecture (handle : UInt32)
  | regions (pid : Int32) (flags : UInt8)
  | readMemory (pid : Int32) (address : UInt64) (size : UInt32)
  | writeMemory (pid : Int32) (address : UInt64) (data : List UInt8)
  | closeHandle (handle : UInt32)
  | setConnectionName (name : List UInt8)
  | serverPath
  | isAndroid
  | currentPath

/-- What a call returns. -/
abbrev NativeOp.Result : NativeOp → Type
  | .version => Int32 × List UInt8
  | .abi => UInt8
  | .listProcesses => List Client.Process
  | .openProcess _ => UInt32
  | .architecture _ => UInt8
  | .regions _ _ => List Client.Region
  | .readMemory _ _ _ => List UInt8
  | .writeMemory _ _ _ => Int32
  | .closeHandle _ => Unit
  | .setConnectionName _ => Unit
  | .serverPath => List UInt8
  | .isAndroid => Bool
  | .currentPath => List UInt8

def NativeOp.method : (op : NativeOp) → Client.ClientM op.Result
  | .version => Client.version
  | .abi => Client.abi
  | .listProcesses => Client.listProcesses
  | .openProcess pid => Client.openProcess pid
  | .architecture handle => Client.architecture handle
  | .regions pid flags => Client.regions pid flags
  | .readMemory pid address size => Client.readMemory pid address size
  | .writeMemory pid address data => Client.writeMemory pid address data
  | .closeHandle handle => Client.closeHandle handle
  | .setConnectionName name => Client.setConnectionName name
  | .serverPath => Client.serverPath
  | .isAndroid => Client.isAndroid
  | .currentPath => Client.currentPath

/-! ## The same on the backend itself -/

abbrev BackendM (M α : Type) : Type := Prog (BackendApi M) α

def ask (c : BackendCall M) : BackendM M (BackendResult M c) := Prog.perform (S := BackendApi M) c

def closeEntry : Option (Entry M) → BackendM M Unit
  | some (.process m) => ask (.close m)
  | _ => return ()

/-- Open a process, do something with it and close it again. -/
def usingProcess {α : Type} (pid : Int32) (body : Option M → BackendM M α)
    (s : ConnectionState M) : BackendM M (Option α × ConnectionState M) := do
  match ← ask (.openProcess pid) with
  | .error _ => return (none, s)
  | .ok process => do
    let x ← body process
    closeEntry (some (.ofProcess process))
    return (some x, s.skip)

/-- A process of the backend as the client's type. -/
def Process.toClient (process : Process) : Client.Process := ⟨process.pid, process.name⟩

def Region.toClient (region : Region) : Client.Region :=
  Client.mkRegion region.baseAddress region.size region.protection region.type

/-- The regions of a process, none if the backend fails. -/
def regionsOf (flags : UInt8) : Option M → BackendM M (List Client.Region)
  | none => return []
  | some m => do
    match ← ask (.regions m flags) with
    | .error _ => return []
    | .ok regions => return regions.map Region.toClient

/-- The bytes read, none if the backend fails or returns more than it was
    asked for. -/
def bytesOf (address : UInt64) (size : UInt32) : Option M → BackendM M (List UInt8)
  | none => return []
  | some m => do
    match ← ask (.read m address size) with
    | .error _ => return []
    | .ok data => return if size.toNat < data.length then [] else data

/-- The count of bytes written, 0 if the backend fails. -/
def writtenOf (address : UInt64) (data : List UInt8) : Option M → BackendM M Int32
  | none => return 0
  | some m => do
    match ← ask (.write m address data) with
    | .error _ => return 0
    | .ok written => return written.toInt32

/-- What each call is for: its result, `none` for an error, and the handles
    after it. -/
def NativeOp.direct (server : Server) :
    (op : NativeOp) → ConnectionState M → BackendM M (Option op.Result × ConnectionState M)
  | .version, s => return (some (7, server.effectiveName.take 255), s)
  | .abi, s => do
    let abi ← ask .abi
    return (some abi, s)
  | .listProcesses, s => do
    match ← ask .processes with
    | .error _ => return (none, s)
    | .ok processes => return (some (processes.map Process.toClient), s.skip)
  | .openProcess pid, s => do
    match ← ask (.openProcess pid) with
    | .error _ => return (none, s)
    | .ok process =>
      let (handle, s) := s.addHandle (.ofProcess process)
      return (some handle, s)
  | .architecture handle, s => do
    match s.processAt handle with
    | none => return (some 0, s)
    | some m => do
      let architecture ← ask (.architecture m)
      return (some architecture, s)
  | .regions pid flags, s => usingProcess pid (regionsOf flags) s
  | .readMemory pid address size, s => usingProcess pid (bytesOf address size) s
  | .writeMemory pid address data, s => usingProcess pid (writtenOf address data) s
  | .closeHandle handle, s => do
    closeEntry (s.handles handle)
    return (some (), s.set handle none)
  | .setConnectionName name, s =>
    return (if name = [] ∨ Client.maximumProtocolStringLength < name.length ∨ (0 : UInt8) ∈ name
      then none else some (), s)
  | .serverPath, s => do
    let executable ← ask .executable
    return (some (server.dir (executable.toOption.getD (ascii "cebridge.exe"))), s)
  | .isAndroid, s => return (some false, s)
  | .currentPath, s => do
    let currentPath ← ask .getwd
    return (some (currentPath.toOption.getD (ascii ".")), s)

/-- What the protocol can carry: process names of 1 MiB, 5,000,000 regions,
    fewer processes than that, and paths of 65,535 bytes. -/
structure Bounded (server : Server) (env : Env (BackendApi M) σ) : Prop where
  processes : ∀ a l, (env .processes a).1 = .ok l → l.length < Client.maximumCollectionEntries ∧
    ∀ p ∈ l, p.name.length ≤ Client.maximumProtocolStringLength
  regions : ∀ a m flags l, (env (.regions m flags) a).1 = .ok l →
    l.length ≤ Client.maximumCollectionEntries
  executable : ∀ a, (server.dir ((env .executable a).1.toOption.getD
    (ascii "cebridge.exe"))).length ≤ 65535
  getwd : ∀ a, ((env .getwd a).1.toOption.getD (ascii ".")).length ≤ 65535

/-- Reads and writes of at most 16 MiB. -/
def NativeOp.Bounded : NativeOp → Prop
  | .readMemory _ _ size => size.toNat ≤ maximumTransferSize
  | .writeMemory _ _ data => data.length ≤ maximumTransferSize
  | _ => True

variable {server : Server} {env : Env (BackendApi M) σ} {α β : Type}

/-- From an empty stream the client method `m` returns what `spec` returns,
    with the same calls to the backend, and leaves the stream empty. -/
def Refines (server : Server) (env : Env (BackendApi M) σ) (m : Client.ClientM α)
    (spec : ConnectionState M → BackendM M (Option α × ConnectionState M)) : Prop :=
  ∀ s a log d ctx, ∃ r, Client.Link.run (localbridge M server) env m (.ready s a log [] d ctx) =
    some (r, .ready (direct env (spec s) a).1.2 (direct env (spec s) a).2.1
      (log ++ (direct env (spec s) a).2.2) [] d ctx) ∧
    r.toOption = (direct env (spec s) a).1.1

theorem direct_ask (c : BackendCall M) (k : BackendResult M c → BackendM M α) (a : σ) :
    direct env (ask c >>= k) a =
      ((direct env (k (env c a).1) (env c a).2).1, (direct env (k (env c a).1) (env c a).2).2.1,
        ⟨c, (env c a).1⟩ :: (direct env (k (env c a).1) (env c a).2).2.2) := rfl

section Drive

variable (s : ConnectionState M) (inp out : List UInt8) (a : σ)
  (log : List (Prog.Event (BackendApi M)))

@[simp] theorem drive_backend (c : BackendCall M)
    (k : BackendResult M c → Command (BackendApi M) α) :
    drive env (backend c >>= k).run ⟨inp, out, a, log⟩ =
      drive env (k (env c a).1).run ⟨inp, out, (env c a).2, log ++ [⟨c, (env c a).1⟩]⟩ := rfl

theorem ConnectionState.addHandle_set_none (s : ConnectionState M) (value : Entry M) :
    (s.addHandle value).2.set s.nextHandle none = s.skip := by
  simp only [ConnectionState.addHandle, ConnectionState.set, ConnectionState.skip,
    Function.update_idem]

theorem drive_openProcess_error {pid : Int32} {e : String}
    (hopen : (env (.openProcess pid) a).1 = .error e) :
    drive env (cmdOpenProcess s).run ⟨i32 pid, [], a, log⟩ =
      (pure (some s), ⟨[], u32 0, (env (.openProcess pid) a).2,
        log ++ [⟨.openProcess pid, .error e⟩]⟩) := by
  rw [cmdOpenProcess, drive_receive_all env [] a log (i32 pid) _ (i32_length pid),
    i32At_i32_last, drive_backend, hopen]
  rfl

theorem drive_openProcess_ok {pid : Int32} {process : Option M}
    (hopen : (env (.openProcess pid) a).1 = .ok process) :
    drive env (cmdOpenProcess s).run ⟨i32 pid, [], a, log⟩ =
      (pure (some (s.addHandle (.ofProcess process)).2),
        ⟨[], u32 s.nextHandle, (env (.openProcess pid) a).2,
          log ++ [⟨.openProcess pid, .ok process⟩]⟩) := by
  rw [cmdOpenProcess, drive_receive_all env [] a log (i32 pid) _ (i32_length pid),
    i32At_i32_last, drive_backend, hopen]
  rfl

theorem drive_closeHandle (handle : UInt32) :
    drive env (cmdCloseHandle s).run ⟨u32 handle, [], a, log⟩ =
      (pure (some (s.set handle none)),
        ⟨[], i32 (if (s.handles handle).isSome then 1 else 0),
          (direct env (closeEntry (s.handles handle)) a).2.1,
          log ++ (direct env (closeEntry (s.handles handle)) a).2.2⟩) := by
  rw [cmdCloseHandle, drive_receive_all env [] a log (u32 handle) _ (u32_length handle),
    u32At_u32_last, closeHandle]
  cases hentry : s.handles handle with
  | none =>
    simp only [closeEntry, Option.isSome_none, direct_pure, List.append_nil,
      ConnectionState.set_none hentry]
    rfl
  | some entry => cases entry <;> simp [closeEntry, direct_pure, ask, Prog.perform, direct] <;> rfl

end Drive

/-! ## Requests -/

section Requests

variable (server env) in
/-- With `reply` to be read, `m` takes all of it and ends with `r`. -/
def Reads (reply : List UInt8) (m : Client.ClientM α) (r : Except Client.ClientError α) : Prop :=
  ∀ s a log d ctx, Client.Link.run (localbridge M server) env m (.ready s a log reply d ctx) =
    some (r, .ready s a log [] d ctx)

variable {m : Client.ClientM α} {x : α}

theorem Reads.of_yields {reply : List UInt8}
    (h : Client.Yields (localbridge M server) env reply m x) : Reads server env reply m (.ok x) := by
  intro s a log d ctx
  simpa using h s a log [] d ctx

theorem Reads.bind {front rest : List UInt8} {f : α → Client.ClientM β}
    {r : Except Client.ClientError β} (hm : Client.Yields (localbridge M server) env front m x)
    (hf : Reads server env rest (f x) r) : Reads server env (front ++ rest) (m >>= f) r := by
  intro s a log d ctx
  rw [Client.run_bind_ok (hm s a log rest d ctx)]
  exact hf s a log d ctx

theorem Reads.bind_last {reply : List UInt8} {f : α → Client.ClientM β}
    {r : Except Client.ClientError β} (hm : Client.Yields (localbridge M server) env reply m x)
    (hf : Reads server env [] (f x) r) : Reads server env reply (m >>= f) r := by
  simpa using Reads.bind hm hf

theorem Reads.result (r : Except Client.ClientError α) :
    Reads server env [] (ExceptT.mk (pure r) : Client.ClientM α) r := fun _ _ _ _ _ => rfl

variable {s s' : ConnectionState M} {a a' : σ} {log log' : List (Prog.Event (BackendApi M))}
  {d : Bool} {ctx : List (Option String)} {c : UInt8} {body reply : List UInt8}

theorem run_request {m : Unit → Client.ClientM α} {r : Except Client.ClientError α}
    (hdrive : drive env (handleCommand server c s).run ⟨body, [], a, log⟩ =
      (pure (some s'), ⟨[], reply, a', log'⟩))
    (hread : Reads server env reply (m ()) r) :
    Client.Link.run (localbridge M server) env (Client.writePacket (c :: body) >>= m)
        (.ready s a log [] d ctx) = some (r, .ready s' a' log' [] d ctx) := by
  have hwrite : Client.Link.run (localbridge M server) env (Client.writePacket (c :: body))
      (.ready s a log [] d ctx) = some (.ok (), .ready s' a' log' reply d ctx) :=
    Client.run_writePacket hdrive
  rw [Client.run_bind_ok hwrite]
  exact hread s' a' log' d ctx

theorem refines_request {m : Unit → Client.ClientM α}
    {spec : ConnectionState M → BackendM M (Option α × ConnectionState M)}
    (h : ∀ s a log, ∃ x s' a' events reply r, direct env (spec s) a = ((x, s'), a', events) ∧
      drive env (handleCommand server c s).run ⟨body, [], a, log⟩ =
        (pure (some s'), ⟨[], reply, a', log ++ events⟩) ∧
      Reads server env reply (m ()) r ∧ r.toOption = x) :
    Refines server env (Client.writePacket (c :: body) >>= m) spec := by
  intro s a log d ctx
  obtain ⟨x, s', a', events, reply, r, hdirect, hdrive, hread, hresult⟩ := h s a log
  rw [hdirect]
  exact ⟨r, run_request hdrive hread, hresult⟩

theorem refines_version : Refines server env Client.version (NativeOp.version.direct server) := by
  apply refines_request
  intro s a log
  have hlen : (server.effectiveName.take 255).length ≤ 255 := List.length_take_le ..
  refine ⟨_, _, _, [], i32 7 ++ u8 (UInt8.ofNat (server.effectiveName.take 255).length) ++
    server.effectiveName.take 255, .ok (7, server.effectiveName.take 255), rfl, ?_, ?_, rfl⟩
  · rw [List.append_nil]
    rfl
  · generalize server.effectiveName.take 255 = name at hlen ⊢
    have hname : (UInt8.ofNat name.length).toNat = name.length := by
      rw [UInt8.toNat_ofNat']
      omega
    refine Reads.bind (Client.yields_readFull _ (by simp)) ?_
    simp only [i32At_i32, u8At_skip_i32, u8At_u8_last, hname]
    exact Reads.bind_last (Client.yields_readFull name rfl) (Reads.result _)

theorem refines_abi : Refines server env Client.abi (NativeOp.abi.direct server) := by
  apply refines_request
  intro s a log
  exact ⟨_, _, _, _, _, .ok (env .abi a).1, rfl, rfl, Reads.of_yields (Client.yields_readU8 _), rfl⟩

theorem refines_isAndroid : Refines server env Client.isAndroid
    (NativeOp.isAndroid.direct server) := by
  apply refines_request
  intro s a log
  refine ⟨_, _, _, [], u8 0, .ok false, rfl, ?_, ?_, rfl⟩
  · rw [List.append_nil]
    rfl
  · exact Reads.bind_last (Client.yields_readU8 0) (Reads.result _)

theorem refines_architecture (handle : UInt32) : Refines server env (Client.architecture handle)
    ((NativeOp.architecture handle).direct server) := by
  apply refines_request
  intro s a log
  have hdrive : drive env (cmdGetArchitecture s).run ⟨u32 handle, [], a, log⟩ = _ :=
    drive_receive_all env [] a log (u32 handle) _ (u32_length handle)
  rw [u32At_u32_last] at hdrive
  cases hprocess : s.processAt handle with
  | none =>
    rw [hprocess] at hdrive
    refine ⟨some 0, s, a, [], u8 0, .ok 0, ?_, ?_, ?_, rfl⟩
    · simp only [NativeOp.direct, hprocess]
      rfl
    · rw [List.append_nil]
      exact hdrive
    · exact Reads.of_yields (Client.yields_readU8 _)
  | some m =>
    rw [hprocess] at hdrive
    refine ⟨some (env (.architecture m) a).1, s, _, _, _, .ok _, ?_, hdrive, ?_, rfl⟩
    · simp only [NativeOp.direct, hprocess]
      rfl
    · exact Reads.of_yields (Client.yields_readU8 _)

variable (server env s a log d ctx) in
theorem run_closeHandle (handle : UInt32) :
    ∃ r, Client.Link.run (localbridge M server) env (Client.closeHandle handle)
        (.ready s a log [] d ctx) =
      some (r, .ready (s.set handle none) (direct env (closeEntry (s.handles handle)) a).2.1
        (log ++ (direct env (closeEntry (s.handles handle)) a).2.2) [] d ctx) ∧
      r.toOption = some () := by
  refine ⟨.ok (), run_request (drive_closeHandle s a log handle) ?_, rfl⟩
  exact Reads.bind_last (Client.yields_readI32 _) (Reads.result _)

theorem refines_closeHandle (handle : UInt32) : Refines server env (Client.closeHandle handle)
    ((NativeOp.closeHandle handle).direct server) := by
  intro s a log d ctx
  simp only [NativeOp.direct, direct_bind, direct_pure, List.append_nil]
  exact run_closeHandle server env s a log d ctx handle

variable {pid : Int32}

theorem run_openProcess_error {e : String} (hopen : (env (.openProcess pid) a).1 = .error e) :
    ∃ e', Client.Link.run (localbridge M server) env (Client.openProcess pid)
        (.ready s a log [] d ctx) =
      some (.error e', .ready s (env (.openProcess pid) a).2
        (log ++ [⟨.openProcess pid, .error e⟩]) [] d ctx) := by
  refine ⟨.protocol "open process" ⟨"server denied or could not open PID %d", [.int pid.toInt]⟩,
    run_request (drive_openProcess_error s a log hopen) ?_⟩
  refine Reads.bind_last (Client.yields_readU32 0) ?_
  rw [if_pos rfl]
  exact Reads.result _

variable {process : Option M}

theorem run_openProcess_ok (hopen : (env (.openProcess pid) a).1 = .ok process) :
    Client.Link.run (localbridge M server) env (Client.openProcess pid) (.ready s a log [] d ctx) =
      some (.ok s.nextHandle, .ready (s.addHandle (.ofProcess process)).2
        (env (.openProcess pid) a).2 (log ++ [⟨.openProcess pid, .ok process⟩]) [] d ctx) := by
  refine run_request (drive_openProcess_ok s a log hopen) ?_
  refine Reads.bind_last (Client.yields_readU32 s.nextHandle) ?_
  rw [if_neg s.nextHandle_ne]
  exact Reads.result _

theorem refines_openProcess (pid : Int32) : Refines server env (Client.openProcess pid)
    ((NativeOp.openProcess pid).direct server) := by
  intro s a log d ctx
  rw [NativeOp.direct, direct_ask]
  cases hopen : (env (.openProcess pid) a).1 with
  | error e =>
    obtain ⟨e', hrun⟩ := run_openProcess_error hopen
    exact ⟨.error e', hrun, rfl⟩
  | ok process => exact ⟨.ok s.nextHandle, run_openProcess_ok hopen, rfl⟩

theorem refines_usingProcess {body : UInt32 → Client.ClientM α} {spec : Option M → BackendM M α}
    (hbody : ∀ s handle process, s.handles handle = some (Entry.ofProcess process) →
      ∀ a log d ctx, Client.Link.run (localbridge M server) env (body handle)
          (.ready s a log [] d ctx) =
        some (.ok (direct env (spec process) a).1, .ready s (direct env (spec process) a).2.1
          (log ++ (direct env (spec process) a).2.2) [] d ctx)) :
    Refines server env (Client.openProcess pid >>= fun handle =>
      Client.deferClose handle (body handle)) (usingProcess pid spec) := by
  intro s a log d ctx
  rw [usingProcess, direct_ask]
  cases hopen : (env (.openProcess pid) a).1 with
  | error e =>
    obtain ⟨e', hrun⟩ := run_openProcess_error hopen
    exact ⟨.error e', Client.run_bind_error hrun, rfl⟩
  | ok process =>
    have hentry : (s.addHandle (.ofProcess process)).2.handles s.nextHandle =
        some (.ofProcess process) := Function.update_self ..
    have hrun := hbody _ _ process hentry (env (.openProcess pid) a).2
      (log ++ [⟨.openProcess pid, .ok process⟩]) d ctx
    obtain ⟨r, hclose, -⟩ := run_closeHandle server env (s.addHandle (.ofProcess process)).2
      (direct env (spec process) (env (.openProcess pid) a).2).2.1
      (log ++ [⟨.openProcess pid, .ok process⟩] ++
        (direct env (spec process) (env (.openProcess pid) a).2).2.2) d ctx s.nextHandle
    rw [hentry, ConnectionState.addHandle_set_none] at hclose
    refine ⟨.ok (direct env (spec process) (env (.openProcess pid) a).2).1, ?_, ?_⟩
    · rw [Client.run_bind_ok (run_openProcess_ok hopen), Client.run_deferClose hrun hclose]
      simp only [direct_bind, direct_pure, List.append_nil, List.append_assoc,
        List.nil_append, List.cons_append]
    · simp only [direct_bind, direct_pure]
      rfl

theorem reads_string16 {operation : String} (value : List UInt8) (hle : value.length ≤ 65535) :
    Reads server env (u16 (UInt16.ofNat value.length) ++ value) (Client.readString16 operation)
      (.ok value) :=
  Reads.of_yields (Client.yields_readString16 value (by omega))

theorem refines_serverPath (hb : Bounded server env) : Refines server env Client.serverPath
    (NativeOp.serverPath.direct server) := by
  apply refines_request
  intro s a log
  have hle := hb.executable a
  refine ⟨_, _, _, _, _, .ok _, rfl, ?_, reads_string16 _ hle, rfl⟩
  show drive env (cmdGetServerPath s server).run ⟨[], [], a, log⟩ = _
  rw [cmdGetServerPath, drive_backend, writeString16, if_neg (by omega)]
  rfl

theorem refines_currentPath (hb : Bounded server env) : Refines server env Client.currentPath
    (NativeOp.currentPath.direct server) := by
  apply refines_request
  intro s a log
  have hle := hb.getwd a
  refine ⟨_, _, _, _, _, .ok _, rfl, ?_, reads_string16 _ hle, rfl⟩
  show drive env (cmdGetCurrentPath s).run ⟨[], [], a, log⟩ = _
  rw [cmdGetCurrentPath, drive_backend, writeString16, if_neg (by omega)]
  rfl

variable {handle : UInt32}

theorem ConnectionState.processAt_ofProcess
    (hentry : s.handles handle = some (.ofProcess process)) : s.processAt handle = process := by
  rw [ConnectionState.processAt, hentry]
  cases process <;> rfl

theorem yields_readRegion (region : Region) : Client.Yields (localbridge M server) env
    region.encode Client.readRegion region.toClient := by
  rw [← List.append_nil region.encode]
  refine (Client.yields_readFull region.encode (by simp [Region.encode])).bind ?_
  simp only [Region.encode, List.append_assoc, u64At_u64, u64At_skip_u64, u32At_skip_u64,
    u32At_u32, u32At_skip_u32, u32At_u32_last]
  exact Client.Yields.pure _

theorem reads_regions (regions : List Region)
    (hle : regions.length ≤ Client.maximumCollectionEntries) :
    Reads server env (u32 (UInt32.ofNat regions.length) ++ (regions.map Region.encode).flatten) (do
      let count ← Client.readU32 "list memory regions"
      if Client.maximumCollectionEntries < count.toNat then
        throw (.protocol "list memory regions"
          ⟨"invalid region count %d", [.int count.toNat]⟩)
      else Client.readMany Client.readRegion count.toNat) (.ok (regions.map Region.toClient)) := by
  have hmax : Client.maximumCollectionEntries = 5000000 := rfl
  have hcount : (UInt32.ofNat regions.length).toNat = regions.length := by
    rw [UInt32.toNat_ofNat']
    omega
  refine Reads.bind (Client.yields_readU32 _) ?_
  rw [hcount, if_neg (by omega)]
  exact Reads.of_yields (Client.yields_readMany Region.encode Region.toClient
    (fun region => yields_readRegion region) regions rfl)

theorem run_regionsWithHandle (hb : Bounded server env)
    (hprocess : s.processAt handle = process) (flags : UInt8) :
    Client.Link.run (localbridge M server) env (Client.regionsWithHandle handle flags)
        (.ready s a log [] d ctx) =
      some (.ok (direct env (regionsOf flags process) a).1,
        .ready s (direct env (regionsOf flags process) a).2.1
          (log ++ (direct env (regionsOf flags process) a).2.2) [] d ctx) := by
  have hdrive : drive env (cmdVirtualQueryExFull s).run ⟨u32 handle ++ u8 flags, [], a, log⟩ = _ :=
    (drive_receive env (u8 flags) [] a log (u32 handle) _ (u32_length handle)).trans
      (drive_receive_all env [] a log (u8 flags) _ (u8_length flags))
  rw [u32At_u32_last, u8At_u8_last, hprocess] at hdrive
  cases process with
  | none =>
    rw [show (direct env (regionsOf flags (none : Option M)) a).2.2 = [] from rfl,
      List.append_nil]
    exact run_request hdrive (reads_regions [] (Nat.zero_le _))
  | some m =>
    rw [drive_backend] at hdrive
    rw [regionsOf, direct_ask]
    cases hregions : (env (.regions m flags) a).1 with
    | error e =>
      rw [hregions] at hdrive
      exact run_request hdrive (reads_regions [] (Nat.zero_le _))
    | ok regions =>
      rw [hregions] at hdrive
      exact run_request hdrive (reads_regions regions (hb.regions a m flags regions hregions))

theorem refines_regions (hb : Bounded server env) (pid : Int32) (flags : UInt8) :
    Refines server env (Client.regions pid flags) ((NativeOp.regions pid flags).direct server) := by
  apply refines_usingProcess
  intro s handle process hentry a log d ctx
  exact run_regionsWithHandle hb (ConnectionState.processAt_ofProcess hentry) flags

variable {size : UInt32}

theorem reads_bytes (data : List UInt8) (hsize : size.toNat ≤ maximumTransferSize)
    (hle : data.length ≤ size.toNat) :
    Reads server env (i32 (Int32.ofNat data.length) ++ data) (do
      let bytesRead ← Client.readI32 "read memory"
      if bytesRead.toInt < 0 ∨ size < bytesRead.toUInt32 then
        throw (.protocol "read memory" ⟨"invalid byte count %d", [.int bytesRead.toInt]⟩)
      else Client.readFull "read memory bytes" bytesRead.toInt.toNat) (.ok data) := by
  have hmax : maximumTransferSize = 16777216 := rfl
  have hint : (Int32.ofNat data.length).toInt = data.length :=
    Int32.toInt_ofNat_of_lt (by omega)
  have hunsigned : (Int32.ofNat data.length).toUInt32.toNat = data.length := by
    rw [Int32.toUInt32_ofNat', UInt32.toNat_ofNat']
    omega
  refine Reads.bind (Client.yields_readI32 _) ?_
  rw [hint, if_neg, Int.toNat_natCast]
  · exact Reads.of_yields (Client.yields_readFull data rfl)
  · rw [UInt32.lt_iff_toNat_lt, hunsigned]
    omega

theorem run_readMemoryWithHandle (hprocess : s.processAt handle = process) (address : UInt64)
    (hsize : size.toNat ≤ maximumTransferSize) :
    Client.Link.run (localbridge M server) env (Client.readMemoryWithHandle handle address size)
        (.ready s a log [] d ctx) =
      some (.ok (direct env (bytesOf address size process) a).1,
        .ready s (direct env (bytesOf address size process) a).2.1
          (log ++ (direct env (bytesOf address size process) a).2.2) [] d ctx) := by
  have hdrive : drive env (cmdReadProcessMemory s).run
      ⟨u32 handle ++ (u64 address ++ (u32 size ++ u8 0)), [], a, log⟩ = _ :=
    (drive_receive env _ [] a log (u32 handle) _ (u32_length handle)).trans
      ((drive_receive env _ [] a log (u64 address) _ (u64_length address)).trans
        ((drive_receive env (u8 0) [] a log (u32 size) _ (u32_length size)).trans
          (drive_receive_all env [] a log (u8 0) _ (u8_length 0))))
  rw [u32At_u32_last, u32At_u32_last, u64At_u64_last, u8At_u8_last, hprocess] at hdrive
  have hbody : u32 handle ++ u64 address ++ u32 size ++ u8 0 =
      u32 handle ++ (u64 address ++ (u32 size ++ u8 0)) := by
    simp only [List.append_assoc]
  rw [Client.readMemoryWithHandle, hbody]
  cases process with
  | none =>
    rw [show (direct env (bytesOf address size (none : Option M)) a).2.2 = [] from rfl,
      List.append_nil]
    exact run_request hdrive (reads_bytes [] hsize (Nat.zero_le _))
  | some m =>
    have hok : ¬ (maximumTransferSize < size.toNat ∨ (0 : UInt8) ≠ 0) := by
      simp only [ne_eq, not_true_eq_false, or_false]
      omega
    simp only [if_neg hok] at hdrive
    rw [drive_backend] at hdrive
    rw [bytesOf, direct_ask]
    cases hread : (env (.read m address size) a).1 with
    | error e =>
      rw [hread] at hdrive
      exact run_request hdrive (reads_bytes [] hsize (Nat.zero_le _))
    | ok data =>
      rw [hread] at hdrive
      dsimp only at hdrive ⊢
      by_cases hmore : size.toNat < data.length
      · rw [if_pos hmore] at hdrive ⊢
        exact run_request hdrive (reads_bytes [] hsize (Nat.zero_le _))
      · rw [if_neg hmore] at hdrive ⊢
        exact run_request hdrive (reads_bytes data hsize (Nat.le_of_not_lt hmore))

theorem refines_readMemory (pid : Int32) (address : UInt64)
    (hsize : size.toNat ≤ maximumTransferSize) :
    Refines server env (Client.readMemory pid address size)
      ((NativeOp.readMemory pid address size).direct server) := by
  apply refines_usingProcess
  intro s handle process hentry a log d ctx
  exact run_readMemoryWithHandle (ConnectionState.processAt_ofProcess hentry) address hsize

/-- The part of `WriteMemory` between opening and closing the process. -/
def writeWithHandle (handle : UInt32) (address : UInt64) (data : List UInt8) :
    Client.ClientM Int32 := do
  Client.writePacket (Client.commandWriteProcessMemory ::
    (i32 handle.toInt32 ++ i64 address.toInt64 ++ i32 (Int32.ofNat data.length) ++ data))
  Client.readI32 "write memory"

theorem run_writeWithHandle
    (hprocess : s.processAt handle = process) (address : UInt64) {data : List UInt8}
    (hsize : data.length ≤ maximumTransferSize) :
    Client.Link.run (localbridge M server) env (writeWithHandle handle address data)
        (.ready s a log [] d ctx) =
      some (.ok (direct env (writtenOf address data process) a).1,
        .ready s (direct env (writtenOf address data process) a).2.1
          (log ++ (direct env (writtenOf address data process) a).2.2) [] d ctx) := by
  have hmax : maximumTransferSize = 16777216 := rfl
  have hint : (Int32.ofNat data.length).toInt = data.length :=
    Int32.toInt_ofNat_of_lt (by omega)
  have hok : ¬ ((data.length : Int) < 0 ∨ (maximumTransferSize : Int) < data.length) := by omega
  have hhead : drive env (cmdWriteProcessMemory s).run
      ⟨i32 handle.toInt32 ++ (i64 address.toInt64 ++ (i32 (Int32.ofNat data.length) ++ data)),
        [], a, log⟩ = _ :=
    (drive_receive env _ [] a log (i32 handle.toInt32) _ (i32_length _)).trans
      ((drive_receive env _ [] a log (i64 address.toInt64) _ (i64_length _)).trans
        (drive_receive env data [] a log (i32 (Int32.ofNat data.length)) _ (i32_length _)))
  simp only [i32At_i32_last, hint, if_neg hok, Int.toNat_natCast] at hhead
  have hdrive := hhead.trans (drive_receive_all env [] a log data _ rfl)
  have hbody : i32 handle.toInt32 ++ i64 address.toInt64 ++ i32 (Int32.ofNat data.length) ++ data =
      i32 handle.toInt32 ++ (i64 address.toInt64 ++ (i32 (Int32.ofNat data.length) ++ data)) := by
    simp only [List.append_assoc]
  have hhandle : handle.toInt32.toUInt32 = handle := rfl
  have haddress : (i64At (i64 address.toInt64) 0).toUInt64 = address := by
    have hlast := i64At_i64 address.toInt64 []
    rw [List.append_nil] at hlast
    rw [hlast]
    rfl
  rw [hhandle, hprocess, haddress] at hdrive
  rw [writeWithHandle, hbody]
  cases process with
  | none =>
    rw [show (direct env (writtenOf address data (none : Option M)) a).2.2 = [] from rfl,
      List.append_nil]
    exact run_request hdrive (Reads.of_yields (Client.yields_readI32 _))
  | some m =>
    rw [drive_backend] at hdrive
    rw [writtenOf, direct_ask]
    cases hwrite : (env (.write m address data) a).1 with
    | error e =>
      rw [hwrite] at hdrive
      exact run_request hdrive (Reads.of_yields (Client.yields_readI32 _))
    | ok written =>
      rw [hwrite] at hdrive
      exact run_request hdrive (Reads.of_yields (Client.yields_readI32 _))

theorem refines_writeMemory (pid : Int32) (address : UInt64) {data : List UInt8}
    (hsize : data.length ≤ maximumTransferSize) :
    Refines server env (Client.writeMemory pid address data)
      ((NativeOp.writeMemory pid address data).direct server) := by
  show Refines server env (Client.openProcess pid >>= fun handle =>
    Client.deferClose handle (writeWithHandle handle address data)) _
  apply refines_usingProcess
  intro s handle process hentry a log d ctx
  exact run_writeWithHandle (ConnectionState.processAt_ofProcess hentry) address hsize

theorem refines_setConnectionName (name : List UInt8) :
    Refines server env (Client.setConnectionName name)
      ((NativeOp.setConnectionName name).direct server) := by
  intro s a log d ctx
  simp only [NativeOp.direct, direct_pure, List.append_nil]
  by_cases hbad : name = [] ∨ Client.maximumProtocolStringLength < name.length ∨ (0 : UInt8) ∈ name
  · -- refused by the client
    have hthrow : ∃ e, Client.setConnectionName name = throw e := by
      unfold Client.setConnectionName
      by_cases hempty : name = []
      · exact ⟨_, if_pos hempty⟩
      · rw [if_neg hempty]
        by_cases hlong : Client.maximumProtocolStringLength < name.length
        · exact ⟨_, if_pos hlong⟩
        · rw [if_neg hlong]
          have hnul : (0 : UInt8) ∈ name := by tauto
          exact ⟨_, if_pos hnul⟩
    obtain ⟨e, he⟩ := hthrow
    rw [he, if_pos hbad]
    exact ⟨.error e, rfl, rfl⟩
  · rw [if_neg hbad]
    obtain ⟨hempty, hlong, hnul⟩ : name ≠ [] ∧
        ¬ Client.maximumProtocolStringLength < name.length ∧ (0 : UInt8) ∉ name := by tauto
    refine ⟨.ok (), ?_, rfl⟩
    rw [Client.setConnectionName, if_neg hempty, if_neg hlong, if_neg hnul]
    have hmax : Client.maximumProtocolStringLength = 1048576 := rfl
    have hname : maximumConnectionName = 1048576 := rfl
    have hsize : (UInt32.ofNat name.length).toNat = name.length := by
      rw [UInt32.toNat_ofNat']
      omega
    apply Client.run_writePacket
    show drive env (cmdSetConnectionName s).run _ = _
    rw [cmdSetConnectionName, drive_receive env name [] a log (u32 (UInt32.ofNat name.length)) _
      (u32_length _), u32At_u32_last, hsize, if_neg (by omega),
      drive_receive_all env [] a log name _ rfl]
    rfl

/-! ### Processes -/

/-- The answer to a request for entry `k` of a snapshot. -/
def encodeProcess : Option Process → List UInt8
  | none => i32 0 ++ i32 0 ++ i32 0
  | some process => i32 1 ++ i32 process.pid ++ i32 (Int32.ofNat process.name.length) ++
      process.name

variable {index : Int} {processes : List Process}

theorem drive_process32
    (hentry : s.handles handle = some (.snapshot processes index)) (first : Bool) {k : Nat}
    (hk : (if first then 0 else index + 1) = (k : Int)) :
    drive env (cmdProcess32 s first).run ⟨u32 handle, [], a, log⟩ =
      (pure (some (s.set handle (some (.snapshot processes k)))),
        ⟨[], encodeProcess processes[k]?, a, log⟩) := by
  rw [cmdProcess32, drive_receive_all env [] a log (u32 handle) _ (u32_length handle),
    u32At_u32_last, hentry]
  dsimp only
  rw [hk]
  by_cases hlt : k < processes.length
  · rw [if_neg (by omega), List.getD_eq_getElem?_getD, Int.toNat_natCast,
      List.getElem?_eq_getElem hlt]
    rfl
  · rw [if_pos (by omega), List.getElem?_eq_none (Nat.le_of_not_lt hlt)]
    rfl

theorem ConnectionState.set_set (s : ConnectionState M) (handle : UInt32)
    (value value' : Option (Entry M)) :
    (s.set handle value).set handle value' = s.set handle value' := by
  simp only [ConnectionState.set, Function.update_idem]

/-- One request of the loop. -/
theorem run_process32
    (hentry : s.handles handle = some (.snapshot processes index)) (first : Bool) {k : Nat}
    (hk : (if first then 0 else index + 1) = (k : Int)) :
    Client.Link.run (localbridge M server) env
        (Client.writePacket ((if first then Client.commandProcess32First
          else Client.commandProcess32Next) :: u32 handle)) (.ready s a log [] d ctx) =
      some (.ok (), .ready (s.set handle (some (.snapshot processes k))) a log
        (encodeProcess processes[k]?) d ctx) := by
  apply Client.run_writePacket
  have hcommand : (localbridge M server).command (if first then Client.commandProcess32First
      else Client.commandProcess32Next) s = cmdProcess32 s first := by
    cases first <;> rfl
  rw [hcommand]
  exact drive_process32 hentry first hk

theorem run_listProcessesLoop
    (hnames : ∀ p ∈ processes, p.name.length ≤ Client.maximumProtocolStringLength)
    (rest : List Process) (done : List Process) (hsplit : processes = done ++ rest)
    {fuel : Nat} (hfuel : rest.length < fuel) {s : ConnectionState M}
    (hentry : s.handles handle = some (.snapshot processes index)) (first : Bool)
    (hindex : (if first then 0 else index + 1) = (done.length : Int)) :
    Client.Link.run (localbridge M server) env
        (Client.listProcessesLoop handle fuel
          (if first then Client.commandProcess32First else Client.commandProcess32Next)
          (done.map Process.toClient)) (.ready s a log [] d ctx) =
      some (.ok (processes.map Process.toClient),
        .ready (s.set handle (some (.snapshot processes processes.length))) a log [] d ctx) := by
  induction rest generalizing done fuel s index first with
  | nil =>
    obtain ⟨fuel, rfl⟩ := Nat.exists_eq_add_of_lt hfuel
    have hlast : done.length = processes.length := by rw [hsplit, List.append_nil]
    have hnone : processes[done.length]? = none := by
      rw [hlast]
      exact List.getElem?_eq_none (Nat.le_refl _)
    rw [List.length_nil, Nat.zero_add, Client.listProcessesLoop,
      Client.run_bind_ok (run_process32 hentry first hindex), hnone, encodeProcess,
      List.append_assoc, Client.run_bind_ok (Client.run_readI32 0),
      Client.run_bind_ok (Client.run_readI32 0), ← List.append_nil (i32 0),
      Client.run_bind_ok (Client.run_readI32 0), if_pos rfl, hlast, hsplit, List.append_nil]
    rfl
  | cons process rest ih =>
    obtain ⟨fuel, rfl⟩ := Nat.exists_eq_add_of_lt hfuel
    have hsome : processes[done.length]? = some process := by
      rw [hsplit, List.getElem?_append_right (Nat.le_refl _), Nat.sub_self]
      rfl
    have hname : process.name.length ≤ Client.maximumProtocolStringLength := by
      apply hnames
      rw [hsplit]
      simp
    have hmax : Client.maximumProtocolStringLength = 1048576 := rfl
    have hint : (Int32.ofNat process.name.length).toInt = process.name.length :=
      Int32.toInt_ofNat_of_lt (by omega)
    -- one entry is read, the others are asked for with `commandProcess32Next`
    have hstring : ∀ s : ConnectionState M, Client.Link.run (localbridge M server) env
        (Client.readString "read process name" process.name.length)
        (.ready s a log process.name d ctx) = some (.ok process.name, .ready s a log [] d ctx) := by
      intro s
      simpa using Client.yields_readString process.name rfl hname s a log [] d ctx
    have hnext : Client.Link.run (localbridge M server) env
        (Client.listProcessesLoop handle ((process :: rest).length + fuel)
          Client.commandProcess32Next
          (done.map Process.toClient ++ [process.toClient]))
        (.ready (s.set handle (some (.snapshot processes done.length))) a log [] d ctx) =
        some (.ok (processes.map Process.toClient),
          .ready (s.set handle (some (.snapshot processes processes.length))) a log [] d ctx) := by
      have hfuel' : rest.length < (process :: rest).length + fuel := by
        rw [List.length_cons]
        omega
      have hih := ih (done ++ [process]) (by rw [hsplit, List.append_assoc]; rfl) hfuel'
        (s := s.set handle (some (.snapshot processes done.length))) (Function.update_self ..)
        false (by simp)
      rw [ConnectionState.set_set, List.map_append] at hih
      exact hih
    rw [Client.listProcessesLoop, Client.run_bind_ok (run_process32 hentry first hindex), hsome,
      encodeProcess, List.append_assoc, List.append_assoc,
      Client.run_bind_ok (Client.run_readI32 1), Client.run_bind_ok (Client.run_readI32 _),
      Client.run_bind_ok (Client.run_readI32 _), if_neg (by decide), hint,
      Client.run_bind_ok (hstring _)]
    exact hnext

theorem refines_listProcesses (hb : Bounded server env) : Refines server env Client.listProcesses
    (NativeOp.listProcesses.direct server) := by
  intro s a log d ctx
  have hdrive : drive env (cmdCreateToolhelp32Snapshot s).run
      ⟨u32 Client.toolhelpSnapshotProcess ++ u32 0, [], a, log⟩ = _ :=
    (drive_receive env (u32 0) [] a log (u32 Client.toolhelpSnapshotProcess) _ (u32_length _)).trans
      (drive_receive_all env [] a log (u32 0) _ (u32_length 0))
  rw [u32At_u32_last, if_neg (by decide), drive_backend] at hdrive
  rw [NativeOp.direct, direct_ask]
  cases hprocesses : (env .processes a).1 with
  | error e =>
    rw [hprocesses] at hdrive
    refine ⟨.error (.protocol "create snapshot"
      (Client.text "server returned an invalid snapshot handle")), ?_, rfl⟩
    apply Client.run_bind_error
    refine run_request hdrive (Reads.bind_last (Client.yields_readU32 0) ?_)
    rw [if_pos rfl]
    exact Reads.result _
  | ok processes =>
    rw [hprocesses] at hdrive
    obtain ⟨hcount, hnames⟩ := hb.processes a processes hprocesses
    have hsnapshot : Client.Link.run (localbridge M server) env
        (Client.createSnapshot Client.toolhelpSnapshotProcess 0) (.ready s a log [] d ctx) =
        some (.ok s.nextHandle, .ready (s.addHandle (.snapshot processes (-1))).2
          (env .processes a).2 (log ++ [⟨.processes, .ok processes⟩]) [] d ctx) := by
      refine run_request hdrive (Reads.bind_last (Client.yields_readU32 s.nextHandle) ?_)
      rw [if_neg s.nextHandle_ne]
      exact Reads.result _
    have hloop : Client.Link.run (localbridge M server) env
        (Client.listProcessesLoop s.nextHandle Client.maximumCollectionEntries
          Client.commandProcess32First [])
        (.ready (s.addHandle (.snapshot processes (-1))).2 (env .processes a).2
          (log ++ [⟨.processes, .ok processes⟩]) [] d ctx) = _ :=
      run_listProcessesLoop hnames processes [] rfl hcount (Function.update_self ..) true rfl
    obtain ⟨r, hclose, -⟩ := run_closeHandle server env
      ((s.addHandle (.snapshot processes (-1))).2.set s.nextHandle
        (some (.snapshot processes processes.length))) (env .processes a).2
      (log ++ [⟨.processes, .ok processes⟩]) d ctx s.nextHandle
    rw [show ((s.addHandle (.snapshot processes (-1))).2.set s.nextHandle
        (some (.snapshot processes processes.length))).handles s.nextHandle =
          some (.snapshot processes processes.length) from Function.update_self ..,
      ConnectionState.set_set, ConnectionState.addHandle_set_none] at hclose
    refine ⟨.ok (processes.map Process.toClient), ?_, rfl⟩
    rw [Client.listProcesses, Client.run_bind_ok hsnapshot, Client.run_deferClose hloop hclose]
    simp only [closeEntry, direct_pure, List.append_nil]

end Requests

theorem refines_method (hb : Bounded server env) (op : NativeOp) (hop : op.Bounded) :
    Refines server env op.method (op.direct server) := by
  cases op with
  | version => exact refines_version
  | abi => exact refines_abi
  | listProcesses => exact refines_listProcesses hb
  | openProcess pid => exact refines_openProcess pid
  | architecture handle => exact refines_architecture handle
  | regions pid flags => exact refines_regions hb pid flags
  | readMemory pid address size => exact refines_readMemory pid address hop
  | writeMemory pid address data => exact refines_writeMemory pid address hop
  | closeHandle handle => exact refines_closeHandle handle
  | setConnectionName name => exact refines_setConnectionName name
  | serverPath => exact refines_serverPath hb
  | isAndroid => exact refines_isAndroid
  | currentPath => exact refines_currentPath hb

/-! ## Sequences of calls -/

/-- The two ends of a connection; `none` when the client waits for ever. -/
abbrev NativeLink (M σ : Type) : Type :=
  Option (Client.Link (BackendApi M) (ConnectionState M) σ)

def callStep (server : Server) (env : Env (BackendApi M) σ) (l : NativeLink M σ)
    (op : NativeOp) : NativeLink M σ :=
  l.bind fun l => (Client.Link.run (localbridge M server) env op.method l).map (·.2)

/-- The call starts on an empty stream, leaves the stream empty, and returns
    what the backend returns. -/
def CallAgrees (server : Server) (env : Env (BackendApi M) σ) (l : NativeLink M σ)
    (op : NativeOp) : Prop :=
  ∃ s a log d ctx r, l = some (.ready s a log [] d ctx) ∧
    Client.Link.run (localbridge M server) env op.method (.ready s a log [] d ctx) =
      some (r, .ready (direct env (op.direct server s) a).1.2
        (direct env (op.direct server s) a).2.1
        (log ++ (direct env (op.direct server s) a).2.2) [] d ctx) ∧
    r.toOption = (direct env (op.direct server s) a).1.1

/-- On a connection that the local bridge serves, every call of every sequence
    returns the backend's result and leaves the stream empty. -/
theorem native_calls_agree (server : Server) (env : Env (BackendApi M) σ) (a : σ)
    (ctx : List (Option String)) (hb : Bounded server env) (ops : List NativeOp)
    (hops : ∀ op ∈ ops, op.Bounded) :
    Along (callStep server env) (CallAgrees server env)
      (some (.ready ConnectionState.initial a [] [] false ctx)) ops := by
  -- the handles, the backend and the log may be anything between two calls
  suffices h : ∀ s a log, Along (callStep server env) (CallAgrees server env)
      (some (.ready s a log [] false ctx)) ops from h _ _ _
  induction ops with
  | nil => exact fun _ _ _ => trivial
  | cons op ops ih =>
    intro s a log
    obtain ⟨r, hrun, hresult⟩ :=
      refines_method hb op (hops op (List.mem_cons_self ..)) s a log false ctx
    refine ⟨⟨s, a, log, false, ctx, r, rfl, hrun, hresult⟩, ?_⟩
    rw [callStep, Option.bind_some, hrun]
    exact ih (fun op hop => hops op (List.mem_cons_of_mem _ hop)) _ _ _

/-- A backend with one process, one region and one working directory. -/
def oneProcess (data : List UInt8) (written : UInt32) (path : List UInt8) :
    Env (BackendApi Unit) Unit := fun c a =>
  match c with
  | .abi => (0, a)
  | .processes => (.ok [⟨7, ascii "game"⟩], a)
  | .openProcess _ => (.ok (some ()), a)
  | .close _ => ((), a)
  | .architecture _ => (1, a)
  | .regions _ _ => (.ok [⟨0x1000, 0x1000, 4, 0x20000⟩], a)
  | .read _ _ _ => (.ok data, a)
  | .write _ _ _ => (.ok written, a)
  | .executable => (.error "", a)
  | .getwd => (.ok path, a)

/-- A scan, a read, a write and the paths on that backend. -/
theorem oneProcess_calls_agree :
    Along (callStep ⟨[], id⟩ (oneProcess [1, 2] 2 (ascii "/")))
      (CallAgrees ⟨[], id⟩ (oneProcess [1, 2] 2 (ascii "/")))
      (some (.ready ConnectionState.initial () [] [] false []))
      [.version, .listProcesses, .regions 7 0, .readMemory 7 0x1000 2,
        .writeMemory 7 0x1000 [3, 4], .serverPath, .currentPath] := by
  apply native_calls_agree
  · constructor
    · rintro a l hl
      obtain rfl : [⟨7, ascii "game"⟩] = l := Except.ok.inj hl
      decide
    · rintro a m flags l hl
      obtain rfl : [⟨0x1000, 0x1000, 4, 0x20000⟩] = l := Except.ok.inj hl
      decide
    · rintro ⟨⟩
      decide
    · rintro ⟨⟩
      decide
  · simp [NativeOp.Bounded, maximumTransferSize]

/-- A backend that returns more bytes than it was asked for, a count that does
    not fit in 31 bits, and a path that does not fit in 16. -/
theorem native_calls_differ :
    (Client.Link.run (localbridge Unit ⟨[], id⟩) (oneProcess [1, 2] 0 [])
        (Client.readMemory 7 0x1000 1) (.ready ConnectionState.initial () [] [] false [])).map
      (·.1.toOption) = some (some []) ∧
    (Client.Link.run (localbridge Unit ⟨[], id⟩) (oneProcess [] 0x80000000 [])
        (Client.writeMemory 7 0x1000 [1]) (.ready ConnectionState.initial () [] [] false [])).map
      (·.1.toOption) = some (some (-2147483648)) ∧
    (Client.Link.run (localbridge Unit ⟨[], id⟩) (oneProcess [] 0 (List.replicate 65536 47))
        Client.currentPath (.ready ConnectionState.initial () [] [] false [])).map
      (·.1.toOption) = some none := by
  have hread : Refines ⟨[], id⟩ (oneProcess [1, 2] 0 []) (Client.readMemory 7 0x1000 1)
      ((NativeOp.readMemory 7 0x1000 1).direct ⟨[], id⟩) := refines_readMemory 7 0x1000 (by decide)
  have hwrite : Refines ⟨[], id⟩ (oneProcess [] 0x80000000 []) (Client.writeMemory 7 0x1000 [1])
      ((NativeOp.writeMemory 7 0x1000 [1]).direct ⟨[], id⟩) :=
    refines_writeMemory 7 0x1000 (by decide)
  refine ⟨?_, ?_, ?_⟩
  · obtain ⟨r, hrun, hresult⟩ := hread ConnectionState.initial () [] false []
    rw [hrun]
    exact congrArg some hresult
  · obtain ⟨r, hrun, hresult⟩ := hwrite ConnectionState.initial () [] false []
    rw [hrun]
    exact congrArg some hresult
  · -- the server hangs up, and the client finds the end of the stream
    have hlong : 65535 < (List.replicate 65536 (47 : UInt8)).length := by
      rw [List.length_replicate]
      decide
    have hclose : drive (oneProcess [] 0 (List.replicate 65536 47))
        (cmdGetCurrentPath ConnectionState.initial).run ⟨[], [], (), []⟩ =
        (pure none, ⟨[], [], (), [⟨.getwd, .ok (List.replicate 65536 47)⟩]⟩) := by
      rw [cmdGetCurrentPath, drive_backend]
      show drive _ (writeString16 (List.replicate 65536 47) >>= _).run _ = _
      rw [writeString16, if_pos hlong]
      rfl
    have hsend : Client.Link.run (localbridge Unit ⟨[], id⟩)
        (oneProcess [] 0 (List.replicate 65536 47))
        (Client.writePacket [Client.commandGetCurrentPath])
        (.ready ConnectionState.initial () [] [] false []) = _ := Client.run_writePacket_close hclose
    rw [Client.currentPath, Client.run_bind_ok hsend]
    rfl

end CheatEngine.LocalBridge
