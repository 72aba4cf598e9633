/-
  CheatEngine.Cli.Confirmation

  The confirmation gate.  A packet that changes the target or the server is sent only by a
  subcommand whose own `--yes` was parsed to true and without `--dry-run`; with `--dry-run`
  a subcommand that can send such a packet does not dial.

  `Gate` says which operations a run may perform.  A mutating subcommand comes to its
  connection only through `mutation`, and behind that everything is allowed; the others
  send requests that only read.
-/
import CheatEngine.Cli.Execute

namespace CheatEngine.Cli

open CheatEngine.Lib CheatEngine.Lib.Go
open CheatEngine.Client (ClientM ClientOp History NetOp Request Sends)

/-- The commands that change the target or the server. -/
def mutatingCommands : List UInt8 :=
  [Client.commandTerminateServer, Client.commandWriteProcessMemory, Client.commandStartDebug,
    Client.commandContinueFromDebugEvent, Client.commandSetBreakpoint,
    Client.commandRemoveBreakpoint, Client.commandSuspendThread, Client.commandResumeThread,
    Client.commandSetThreadContext, Client.commandAllocateMemory, Client.commandFreeMemory,
    Client.commandCreateRemoteThread, Client.commandLoadModule, Client.commandLoadModuleEx,
    Client.commandLoadExtension, Client.commandSetSpeed, Client.commandChangeMemoryProtection,
    Client.commandSetOptionValue, Client.commandSetCurrentPath, Client.commandSetFilePermissions,
    Client.commandGetFile, Client.commandPutFile, Client.commandCreateDirectory,
    Client.commandDeleteFile, Client.commandPipeWrite, Client.commandAOBScan]

/-- The subcommands that can send such a packet, each with its flags. -/
def mutatingSubcommands : List (List (List UInt8) × FlagSet) :=
  [(["server", "terminate"].map ascii, terminateFlags),
    (["server", "options", "set"].map ascii, optionSetFlags),
    (["process", "speed"].map ascii, speedFlags),
    (["module", "extension-load"].map ascii, extensionLoadFlags),
    (["module", "load-ex"].map ascii, loadExFlags),
    (["module", "load"].map ascii, loadFlags),
    (["thread", "suspend"].map ascii, suspensionFlags),
    (["thread", "resume"].map ascii, suspensionFlags),
    (["thread", "create"].map ascii, threadCreateFlags),
    (["thread", "close"].map ascii, handleFlags),
    (["debug", "trace"].map ascii, traceFlags),
    (["debug", "breakpoint", "set"].map ascii, setBreakpointFlags),
    (["debug", "breakpoint", "remove"].map ascii, removeBreakpointFlags),
    (["debug", "context", "set"].map ascii, setContextFlags),
    (["memory", "write"].map ascii, writeFlags),
    (["memory", "aobscan"].map ascii, aobScanFlags),
    (["memory", "alloc"].map ascii, allocFlags),
    (["memory", "free"].map ascii, freeFlags),
    (["memory", "protect"].map ascii, protectFlags),
    (["remote", "cd"].map ascii, setPathFlags),
    (["remote", "get"].map ascii, remoteGetFlags),
    (["remote", "put"].map ascii, remotePutFlags),
    (["remote", "mkdir"].map ascii, setPathFlags),
    (["remote", "rm"].map ascii, setPathFlags),
    (["remote", "chmod"].map ascii, chmodFlags),
    (["pipe", "write"].map ascii, pipeWriteFlags),
    (["pipe", "close"].map ascii, handleFlags)]

/-- The command line starts with such a subcommand. -/
def mayMutate (remaining : List (List UInt8)) : Bool :=
  mutatingSubcommands.any fun p => p.1.isPrefixOf remaining

/-- The subcommand takes a handle from the command line. -/
def takesHandle (remaining : List (List UInt8)) : Bool :=
  [["thread", "close"], ["pipe", "read"], ["pipe", "write"], ["pipe", "close"]].any fun words =>
    (words.map ascii).isPrefixOf remaining

/-- The packet changes the target or the server; so does a `CloseHandle` of a handle that was
    taken from the command line. -/
def Mutating (remaining : List (List UInt8)) (packet : List UInt8) : Prop :=
  (∃ c ∈ mutatingCommands, packet.head? = some c) ∨
    (takesHandle remaining = true ∧ packet.head? = some Client.commandCloseHandle)

/-- `--dry-run` was not given, and `--yes` was, to the subcommand itself. -/
structure Confirmed (env : Environment) (options : GlobalOptions) (remaining : List (List UInt8)) :
    Prop where
  notDry : options.dryRun = false
  yes : ∃ p ∈ mutatingSubcommands, ∃ rest flags, remaining = p.1 ++ rest ∧
    parseFlags env p.2 rest = .ok flags ∧ flags.bool (ascii "yes") = true

/-- The operations that a run may perform. -/
def Gate (env : Environment) (options : GlobalOptions) (remaining : List (List UInt8)) :
    CliOp → Prop
  | .net (.write packet) => Mutating remaining packet → Confirmed env options remaining
  | .dial _ _ | .newSystemBackend => mayMutate remaining = true → options.dryRun = false
  | _ => True

/-! ## Rules -/

section Rules

variable {P : CliOp → Prop} {α β : Type} {options : GlobalOptions}

theorem performs_check {c : Except CommandError α} {f : α → CliM β}
    (hf : ∀ a, c = .ok a → (f a).run.Performs P) : (check c >>= f).run.Performs P := by
  cases hc : c with
  | ok a => exact hf a hc
  | error e => trivial

theorem performs_ite {c : Prop} [Decidable c] {x y : CliM α} (hx : c → x.run.Performs P)
    (hy : ¬ c → y.run.Performs P) : (if c then x else y).run.Performs P := by
  split
  · next h => exact hx h
  · next h => exact hy h

theorem performs_guard {c : Prop} [Decidable c] {e : GoError} {x : CliM α}
    (hx : ¬ c → x.run.Performs P) : (if c then throw e else x).run.Performs P :=
  performs_ite (fun _ => trivial) hx

theorem performs_perform {o : CliOp} (ho : P o) : (perform o).run.Performs P :=
  ⟨ho, fun _ => trivial⟩

/-- What a connection needs: it is made, read and closed, and only requests that read are
    sent. -/
structure Connects (P : CliOp → Prop) : Prop where
  contextErr : P .contextErr
  backend : P .newSystemBackend
  dial : ∀ endpoint timeout, P (.dial endpoint timeout)
  silent : ∀ o : NetOp, (∀ packet, o ≠ .write packet) → P (.net o)
  reads : ∀ req : Request, req.command ∉ Client.commandCloseHandle :: mutatingCommands →
    P (.net (.write req.packet))

theorem performs_call {m : ClientM α} {R : History → Request → Prop} (hP : Connects P)
    (hsends : Sends R [] m) (hR : ∀ h req, R h req → P (.net (.write req.packet))) :
    (call m).run.Performs P := by
  have hnet : ∀ h o, Client.Allowed R h o → P (.net o) := by
    intro h o ho
    cases o with
    | write packet =>
      obtain ⟨req, hreq, rfl⟩ := ho
      exact hR h req hreq
    | read n => exact hP.silent _ fun packet hwrite => NetOp.noConfusion hwrite
    | connected => exact hP.silent _ fun packet hwrite => NetOp.noConfusion hwrite
    | close => exact hP.silent _ fun packet hwrite => NetOp.noConfusion hwrite
    | debugActive => exact hP.silent _ fun packet hwrite => NetOp.noConfusion hwrite
    | setDebugActive active => exact hP.silent _ fun packet hwrite => NetOp.noConfusion hwrite
    | ctxErr => exact hP.silent _ fun packet hwrite => NetOp.noConfusion hwrite
  have hclient : m.run.Performs fun o => P (.net o) := Prog.Performs.of_safe hnet hsends
  have hhandled : (m.run.handle fun o => Prog.perform (S := CliSig) (.net o)).Performs P := by
    refine hclient.handle fun o ho => ?_
    exact ⟨ho, fun _ => trivial⟩
  refine Prog.Performs.bind hhandled fun result => ?_
  cases result <;> trivial

theorem performs_close (hP : Connects P) : (call Client.close).run.Performs P := by
  refine performs_call (R := fun _ req => req = .closeConnection) hP ?_ ?_
  · refine Sends.bind (Sends.ask trivial) fun _ connected _ => Sends.ite (fun _ => ?_) fun _ =>
      Sends.pure _
    refine Sends.bind (Sends.ask trivial) fun _ active _ => Sends.ite (fun _ => ?_) fun _ => ?_
    · exact Sends.closeConnection
    · exact Sends.bind (Sends.ask ⟨_, rfl, rfl⟩) fun _ _ _ => Sends.closeConnection
  · rintro h req rfl
    exact hP.reads _ (by decide)

theorem performs_dial (hP : Connects P) : (dial options).run.Performs P := by
  refine Prog.Performs.bindExcept ?_ fun _ => performs_ite (fun _ => ?_) fun _ => trivial
  · refine performs_ite (fun _ => ?_) fun _ => ?_
    · refine Prog.Performs.bindExcept (performs_perform hP.contextErr) fun refused => ?_
      cases refused with
      | some e => trivial
      | none =>
        refine Prog.Performs.bindExcept (performs_perform hP.backend) fun made => ?_
        cases made <;> trivial
    · refine Prog.Performs.bindExcept (performs_perform (hP.dial _ _)) fun dialed => ?_
      cases dialed <;> trivial
  · -- the name of the connection, and closing after an error
    refine Prog.Performs.bind (performs_call hP (ClientOp.sends (.setConnectionName _)) ?_)
      fun result => ?_
    · rintro h req ⟨rfl, -⟩
      have hreads : Client.commandSetConnectionName ∉ Client.commandCloseHandle :: mutatingCommands := by
        decide
      exact hP.reads _ hreads
    · cases result with
      | ok _ => trivial
      | error e => exact Prog.Performs.bind (performs_close hP) fun _ => trivial

theorem performs_session {body : CliM α} (hP : Connects P) (hbody : body.run.Performs P) :
    (session options body).run.Performs P :=
  Prog.Performs.bindExcept (performs_dial hP) fun _ =>
    Prog.Performs.bind hbody fun _ => Prog.Performs.bind (performs_close hP) fun _ => trivial

/-- Behind the gate. -/
theorem performs_mutation {confirmed : Bool} {operation : String}
    {preview : List (Name × Json Number)} {rest : CliM CommandResult}
    (hrest : options.dryRun = false → confirmed = true → rest.run.Performs P) :
    (mutation options confirmed operation preview rest).run.Performs P := by
  refine performs_ite (fun _ => trivial) fun hdry => ?_
  rw [Bool.not_eq_true] at hdry
  refine performs_check fun _ hyes => hrest hdry ?_
  rw [requireYes] at hyes
  split at hyes
  · next hconfirmed => exact hconfirmed
  · cases hyes

end Rules

/-! ## Requests that only read -/

/-- The operations of the client that the other subcommands use. -/
def readsOnly : ClientOp → Bool
  | .serverInfo | .pathInfo | .setConnectionName _ | .options | .optionValue _ | .listProcesses
  | .processInfo _ | .listModules _ | .listThreads _ | .regions _ _ | .regionInfo _ _
  | .readMemory _ _ _ | .scanMemory _ _ _ _ _ _ _ _ | .getThreadContext _ _ | .currentPath
  | .listRemoteFiles _ | .remoteFilePermissions _ | .openPipe _ _ | .readPipe _ _ _
  | .symbols _ _ _ => true
  | _ => false

section ReadsOnly

variable {h : History} {req : Request}

theorem withHandle_reads {first : Request} {body : UInt32 → History → Request → Prop}
    (hreq : Client.WithHandle first body h req) (hfirst : first.command ∉ mutatingCommands)
    (hbody : ∀ handle, body handle h req → req.command ∉ mutatingCommands) :
    req.command ∉ mutatingCommands := by
  rcases hreq with rfl | ⟨handle, -, hreq | rfl⟩
  · exact hfirst
  · exact hbody handle hreq
  · show Client.commandCloseHandle ∉ mutatingCommands
    decide

theorem readsOnly_command {op : ClientOp} (hop : readsOnly op = true) (hreq : op.Requests h req) :
    req.command ∉ mutatingCommands := by
  have hopen : Client.commandOpenProcess ∉ mutatingCommands := by decide
  have hsnapshot : Client.commandCreateToolhelp32SnapshotEx ∉ mutatingCommands := by decide
  cases op with
  | serverInfo => rcases hreq with rfl | rfl <;> decide
  | pathInfo => rcases hreq with rfl | rfl | rfl <;> decide
  | setConnectionName name =>
    obtain ⟨rfl, -⟩ := hreq
    show Client.commandSetConnectionName ∉ mutatingCommands
    decide
  | options =>
    obtain rfl := hreq
    decide
  | optionValue name =>
    obtain ⟨rfl, -⟩ := hreq
    show Client.commandGetOptionValue ∉ mutatingCommands
    decide
  | listProcesses =>
    rw [ClientOp.Requests] at hreq
    refine withHandle_reads hreq ?_ fun handle hbody => ?_
    · show Client.commandCreateToolhelp32Snapshot ∉ mutatingCommands
      decide
    · rcases hbody with rfl | rfl
      · show Client.commandProcess32First ∉ mutatingCommands
        decide
      · show Client.commandProcess32Next ∉ mutatingCommands
        decide
  | processInfo pid =>
    rw [ClientOp.Requests] at hreq
    refine withHandle_reads hreq hopen fun handle hbody => ?_
    rcases hbody with rfl | rfl | rfl
    · show Client.commandGetArchitecture ∉ mutatingCommands
      decide
    · exact hsnapshot
    · exact hsnapshot
  | listModules pid =>
    obtain rfl := hreq
    exact hsnapshot
  | listThreads pid =>
    obtain rfl := hreq
    exact hsnapshot
  | regions pid flags =>
    rw [ClientOp.Requests] at hreq
    refine withHandle_reads hreq hopen fun handle hbody => ?_
    obtain rfl := hbody
    show Client.commandVirtualQueryExFull ∉ mutatingCommands
    decide
  | regionInfo pid address =>
    rw [ClientOp.Requests] at hreq
    refine withHandle_reads hreq hopen fun handle hbody => ?_
    obtain rfl := hbody
    show Client.commandGetRegionInfo ∉ mutatingCommands
    decide
  | readMemory pid address size =>
    rw [ClientOp.Requests] at hreq
    refine withHandle_reads hreq hopen fun handle hbody => ?_
    obtain rfl := hbody
    show Client.commandReadProcessMemory ∉ mutatingCommands
    decide
  | scanMemory pid pattern mask start stop alignment protection maximumMatches =>
    rw [ClientOp.Requests] at hreq
    refine withHandle_reads hreq hopen fun handle hbody => ?_
    rcases hbody with rfl | ⟨address, size, rfl, -⟩
    · show Client.commandVirtualQueryExFull ∉ mutatingCommands
      decide
    · show Client.commandReadProcessMemory ∉ mutatingCommands
      decide
  | getThreadContext pid tid =>
    rw [ClientOp.Requests] at hreq
    refine withHandle_reads hreq hopen fun handle hbody => ?_
    obtain rfl := hbody
    show Client.commandGetThreadContext ∉ mutatingCommands
    decide
  | currentPath =>
    obtain rfl := hreq
    decide
  | listRemoteFiles path =>
    obtain ⟨rfl, -⟩ := hreq
    show Client.commandEnumerateFiles ∉ mutatingCommands
    decide
  | remoteFilePermissions path =>
    obtain ⟨rfl, -⟩ := hreq
    show Client.commandGetFilePermissions ∉ mutatingCommands
    decide
  | openPipe name timeout =>
    obtain ⟨rfl, -⟩ := hreq
    show Client.commandOpenNamedPipe ∉ mutatingCommands
    decide
  | readPipe handle size timeout =>
    obtain rfl := hreq
    show Client.commandPipeRead ∉ mutatingCommands
    decide
  | symbols inflate path fileOffset =>
    obtain rfl := hreq
    show Client.commandGetSymbols ∉ mutatingCommands
    decide
  | _ => cases hop

end ReadsOnly

/-- What a command that only reads needs: a connection, and to close its own handles. -/
structure Reads (P : CliOp → Prop) : Prop extends Connects P where
  closes : ∀ handle, P (.net (.write (Request.closeHandle handle).packet))

theorem Reads.request {P : CliOp → Prop} (hP : Reads P) {req : Request}
    (hreq : req.command ∉ mutatingCommands) : P (.net (.write req.packet)) := by
  by_cases hclose : req.command = Client.commandCloseHandle
  · -- the only request with this command
    cases req with
    | closeHandle handle => exact hP.closes handle
    | _ => exact absurd (congrArg UInt8.toNat hclose) (Nat.ne_of_beq_eq_false rfl)
  · exact hP.reads req fun hmem => (List.mem_cons.1 hmem).elim hclose hreq

theorem performs_reads {P : CliOp → Prop} {α : Type} {m : ClientM α} (op : ClientOp)
    (hm : op.method = do let _ ← m) (hop : readsOnly op = true) (hP : Reads P) :
    (call m).run.Performs P := by
  refine performs_call hP.toConnects (R := op.Requests) ?_ fun h req hreq =>
    hP.request (readsOnly_command hop hreq)
  have hsends := ClientOp.sends op
  rw [hm] at hsends
  exact hsends.of_drop

/-- With `--yes` among the flags of the subcommand and without `--dry-run` everything is
    allowed. -/
def Gated (P : CliOp → Prop) (env : Environment) (options : GlobalOptions) (formal : FlagSet)
    (arguments : List (List UInt8)) : Prop :=
  ∀ flags, parseFlags env formal arguments = .ok flags → options.dryRun = false →
    flags.bool (ascii "yes") = true → ∀ o, P o

section Gated

variable {P : CliOp → Prop} {env : Environment} {options : GlobalOptions}
  {arguments : List (List UInt8)}

theorem Gated.mutation {formal : FlagSet} {flags : Flags} (h : Gated P env options formal arguments)
    (hflags : parseFlags env formal arguments = .ok flags) (operation : String)
    (preview : List (Name × Json Number)) (rest : CliM CommandResult) :
    (mutation options (flags.bool (ascii "yes")) operation preview rest).run.Performs P :=
  performs_mutation fun hdry hyes => Prog.Performs.of_forall (h flags hflags hdry hyes) _

theorem gated_changeThreadSuspension {action : String} {method : Int32 → Int32 → ClientM Int32}
    (h : Gated P env options suspensionFlags arguments) :
    (changeThreadSuspension env options action method arguments).run.Performs P :=
  performs_check fun _ hflags => performs_check fun _ _ => performs_check fun _ _ =>
    h.mutation hflags _ _ _

theorem gated_memoryWrite (h : Gated P env options writeFlags arguments) :
    (memoryWrite env options arguments).run.Performs P := by
  refine performs_check fun request hrequest => performs_ite (fun _ => trivial) fun hdry =>
    performs_guard fun hyes => ?_
  rw [Bool.not_eq_true] at hdry
  have hconfirmed : request.yes = true := by simpa using hyes
  -- the request carries the flag
  rw [parseMemoryWrite] at hrequest
  cases hflags : parseFlags env writeFlags arguments with
  | error e =>
    rw [hflags] at hrequest
    cases hrequest
  | ok flags =>
    have hfield : request.yes = flags.bool (ascii "yes") := by
      rw [hflags] at hrequest
      simp only [bind, Except.bind] at hrequest
      repeat' split at hrequest
      all_goals cases hrequest
      rfl
    exact Prog.Performs.of_forall (h flags hflags hdry (hfield ▸ hconfirmed)) _

theorem gated_remoteGet (hstat : ∀ path, P (.stat path))
    (h : Gated P env options remoteGetFlags arguments) :
    (remoteGet env options arguments).run.Performs P := by
  refine performs_check fun _ hflags => performs_check fun _ _ => performs_check fun path _ => ?_
  refine Prog.Performs.bindExcept ?_ fun _ => h.mutation hflags _ _ _
  refine Prog.Performs.bindExcept (performs_perform (hstat path)) fun info => ?_
  cases info with
  | ok info =>
    exact performs_guard fun _ =>
      performs_guard fun _ => trivial
  | error e => cases e <;> trivial

theorem gated_remotePut (hstat : ∀ path, P (.stat path))
    (h : Gated P env options remotePutFlags arguments) :
    (remotePut env options arguments).run.Performs P := by
  refine performs_check fun _ hflags => performs_check fun path _ => performs_check fun _ _ => ?_
  refine Prog.Performs.bindExcept ?_ fun _ => h.mutation hflags _ _ _
  refine Prog.Performs.bindExcept (performs_perform (hstat path)) fun info => ?_
  cases info with
  | ok info =>
    exact performs_guard fun _ =>
      performs_guard fun _ => trivial
  | error e => trivial

theorem gated_remotePathMutation {operation : String} {method : List UInt8 → ClientM Bool}
    (h : Gated P env options setPathFlags arguments) :
    (remotePathMutation env options operation method arguments).run.Performs P :=
  performs_check fun _ hflags => performs_check fun _ _ => h.mutation hflags _ _ _

theorem gated_pipeWrite (hread : ∀ path, P (.readFile path))
    (h : Gated P env options pipeWriteFlags arguments) :
    (pipeWrite env options arguments).run.Performs P := by
  refine performs_check fun flags hflags => performs_check fun _ _ => ?_
  refine Prog.Performs.bindExcept ?_ fun bytes => performs_guard fun _ =>
    performs_check fun _ _ => h.mutation hflags _ _ _
  refine performs_ite (fun _ => trivial) fun _ => performs_ite (fun _ => ?_) fun _ =>
    performs_ite (fun _ => trivial) fun _ => ?_
  · split <;> trivial
  · refine Prog.Performs.bindExcept (performs_perform (hread _)) fun content => ?_
    cases content <;> trivial

end Gated

/-! ## The gate of every command -/

section Gate

variable {env : Environment} {options : GlobalOptions} {remaining : List (List UInt8)}

/-- A subcommand that sends no such packet may dial and read. -/
theorem gate_connects (hmutate : mayMutate remaining = false) :
    Connects (Gate env options remaining) where
  contextErr := trivial
  backend h := by
    rw [hmutate] at h
    cases h
  dial _ _ h := by
    rw [hmutate] at h
    cases h
  silent o ho := by
    cases o with
    | write packet => exact absurd rfl (ho packet)
    | _ => trivial
  reads req hreq h := by
    rcases h with ⟨c, hc, hpacket⟩ | ⟨-, hpacket⟩
    · obtain rfl := Option.some.inj hpacket
      exact absurd (List.mem_cons_of_mem _ hc) hreq
    · exact absurd (Option.some.inj hpacket ▸ List.mem_cons_self) hreq

theorem gate_reads (hmutate : mayMutate remaining = false) (hhandle : takesHandle remaining = false) :
    Reads (Gate env options remaining) where
  toConnects := gate_connects hmutate
  closes handle h := by
    rcases h with ⟨c, hc, hpacket⟩ | ⟨htakes, -⟩
    · obtain rfl := Option.some.inj hpacket
      have hcloses : Client.commandCloseHandle ∉ mutatingCommands := by decide
      exact absurd hc hcloses
    · rw [hhandle] at htakes
      cases htakes

theorem gate_gated {words : List (List UInt8)} {formal : FlagSet} {arguments : List (List UInt8)}
    (hmem : (words, formal) ∈ mutatingSubcommands) :
    Gated (Gate env options (words ++ arguments)) env options formal arguments := by
  intro flags hflags hdry hyes o
  have hconfirmed : Confirmed env options (words ++ arguments) :=
    ⟨hdry, _, hmem, arguments, flags, rfl, hflags, hyes⟩
  cases o with
  | net o =>
    cases o with
    | write packet => exact fun _ => hconfirmed
    | _ => trivial
  | dial endpoint timeout => exact fun _ => hdry
  | newSystemBackend => exact fun _ => hdry
  | _ => trivial

theorem gate_mutation {words arguments : List (List UInt8)} {formal : FlagSet} {flags : Flags}
    {operation : String} {preview : List (Name × Json Number)} {rest : CliM CommandResult} (i : Nat)
    (hget : mutatingSubcommands[i]? = some (words, formal))
    (hflags : parseFlags env formal arguments = .ok flags) :
    (mutation options (flags.bool (ascii "yes")) operation preview rest).run.Performs
      (Gate env options (words ++ arguments)) :=
  (gate_gated (List.mem_of_getElem? hget)).mutation hflags _ _ _

theorem gate_query {α β : Type} {m : ClientM α} {f : α → β} (op : ClientOp)
    (hm : op.method = do let _ ← m)
    (hop : (readsOnly op && !mayMutate remaining && !takesHandle remaining) = true) :
    (session options (call m >>= fun a => pure (f a))).run.Performs (Gate env options remaining) := by
  simp only [Bool.and_eq_true, Bool.not_eq_true'] at hop
  obtain ⟨⟨hreads, hmutate⟩, hhandle⟩ := hop
  exact performs_session (gate_connects hmutate) (Prog.Performs.bindExcept
    (performs_reads op hm hreads (gate_reads hmutate hhandle)) fun _ => trivial)

section

variable (arguments : List (List UInt8))
include arguments

theorem gate_executeServer :
    (executeServer env options arguments).run.Performs
      (Gate env options (ascii "server" :: arguments)) := by
  cases arguments with
  | nil => trivial
  | cons action arguments =>
    refine performs_ite ?_ fun _ => performs_ite ?_ fun _ => performs_ite ?_ fun _ =>
      performs_ite ?_ fun _ => performs_ite ?_ fun _ => trivial
    · rintro rfl
      exact performs_guard fun _ => gate_query .serverInfo rfl rfl
    · rintro rfl
      exact performs_guard fun _ => gate_query .pathInfo rfl rfl
    · rintro rfl
      refine performs_check fun _ _ => performs_guard fun _ =>
        performs_session (gate_connects rfl) ?_
      refine Prog.Performs.bindExcept (performs_call (gate_connects rfl)
        (ClientOp.sends (.setConnectionName _)) fun h req hreq => ?_) fun _ => trivial
      exact (gate_reads rfl rfl).request (readsOnly_command rfl hreq)
    · rintro rfl
      cases arguments with
      | nil => trivial
      | cons action arguments =>
        refine performs_ite ?_ fun _ => performs_ite ?_ fun _ => performs_ite ?_ fun _ => trivial
        · rintro rfl
          exact performs_guard fun _ =>
            gate_query .options rfl rfl
        · rintro rfl
          exact performs_check fun _ _ => performs_guard fun _ =>
            gate_query (.optionValue _) rfl rfl
        · rintro rfl
          exact performs_check fun _ hflags => performs_guard fun _ =>
            performs_guard fun _ => gate_mutation 1 rfl hflags
    · rintro rfl
      exact performs_check fun _ hflags => gate_mutation 0 rfl hflags

theorem gate_executeProcess :
    (executeProcess env options arguments).run.Performs
      (Gate env options (ascii "process" :: arguments)) := by
  cases arguments with
  | nil => trivial
  | cons action arguments =>
    refine performs_ite ?_ fun _ => performs_ite ?_ fun _ => performs_ite ?_ fun _ => trivial
    · rintro rfl
      exact performs_check fun _ _ => performs_guard fun _ =>
        gate_query .listProcesses rfl rfl
    · rintro rfl
      exact performs_check fun _ _ => performs_check fun _ _ =>
        gate_query (.processInfo _) rfl rfl
    · rintro rfl
      exact performs_check fun _ hflags => performs_check fun _ _ => performs_guard fun _ => gate_mutation 2 rfl hflags

theorem gate_executeModule :
    (executeModule env options arguments).run.Performs
      (Gate env options (ascii "module" :: arguments)) := by
  cases arguments with
  | nil => trivial
  | cons action arguments =>
    refine performs_ite ?_ fun _ => performs_ite ?_ fun _ => performs_ite ?_ fun _ =>
      performs_guard fun hlist => ?_
    · rintro rfl
      exact performs_check fun _ hflags => performs_check fun _ _ => gate_mutation 3 rfl hflags
    · rintro rfl
      exact performs_check fun _ hflags => performs_check fun _ _ => performs_guard fun _ => performs_check fun _ _ => performs_check fun _ _ =>
        gate_mutation 4 rfl hflags
    · rintro rfl
      exact performs_check fun _ hflags => performs_check fun _ _ => performs_check fun _ _ =>
        gate_mutation 5 rfl hflags
    · obtain rfl := not_not.1 hlist
      exact performs_check fun _ _ => performs_check fun _ _ =>
        gate_query (.listModules _) rfl rfl

theorem gate_executeThread :
    (executeThread env options arguments).run.Performs
      (Gate env options (ascii "thread" :: arguments)) := by
  cases arguments with
  | nil => trivial
  | cons action arguments =>
    refine performs_ite ?_ fun _ => performs_ite ?_ fun _ => performs_ite ?_ fun _ =>
      performs_ite ?_ fun _ => performs_guard fun hlist => ?_
    · rintro rfl
      exact gated_changeThreadSuspension (gate_gated (List.mem_of_getElem? (i := 6) rfl))
    · rintro rfl
      exact gated_changeThreadSuspension (gate_gated (List.mem_of_getElem? (i := 7) rfl))
    · rintro rfl
      exact performs_check fun _ hflags => performs_check fun _ _ => performs_guard fun _ => performs_check fun _ _ => performs_check fun _ _ =>
        gate_mutation 8 rfl hflags
    · rintro rfl
      exact performs_check fun _ hflags => performs_check fun _ _ => gate_mutation 9 rfl hflags
    · obtain rfl := not_not.1 hlist
      exact performs_check fun _ _ => performs_check fun _ _ =>
        gate_query (.listThreads _) rfl rfl

theorem gate_executeDebug :
    (executeDebug env options arguments).run.Performs
      (Gate env options (ascii "debug" :: arguments)) := by
  cases arguments with
  | nil => trivial
  | cons action arguments =>
    refine performs_ite ?_ fun _ => performs_ite ?_ fun _ => performs_ite ?_ fun _ => trivial
    · rintro rfl
      exact performs_check fun _ hflags => performs_check fun _ _ => performs_guard fun _ => performs_check fun _ _ => performs_check fun _ _ =>
        gate_mutation 10 rfl hflags
    · rintro rfl
      cases arguments with
      | nil => trivial
      | cons action arguments =>
        refine performs_ite ?_ fun _ => performs_ite ?_ fun _ => trivial
        · rintro rfl
          exact performs_check fun _ hflags => performs_check fun _ _ =>
            performs_check fun _ _ => performs_check fun _ _ => performs_guard fun _ => performs_check fun _ _ => performs_check fun _ _ =>
            performs_guard fun _ => gate_mutation 11 rfl hflags
        · rintro rfl
          exact performs_check fun _ hflags => performs_check fun _ _ =>
            performs_check fun _ _ => performs_check fun _ _ => gate_mutation 12 rfl hflags
    · rintro rfl
      cases arguments with
      | nil => trivial
      | cons action arguments =>
        refine performs_ite ?_ fun _ => performs_ite ?_ fun _ => trivial
        · rintro rfl
          exact performs_check fun _ _ => performs_check fun _ _ => performs_check fun _ _ =>
            gate_query (.getThreadContext _ _) rfl rfl
        · rintro rfl
          exact performs_check fun _ hflags => performs_check fun _ _ =>
            performs_check fun _ _ => performs_check fun _ _ => gate_mutation 13 rfl hflags

theorem gate_executeMemory :
    (executeMemory env options arguments).run.Performs
      (Gate env options (ascii "memory" :: arguments)) := by
  cases arguments with
  | nil => trivial
  | cons action arguments =>
    refine performs_ite ?_ fun _ => performs_ite ?_ fun _ => performs_ite ?_ fun _ =>
      performs_ite ?_ fun _ => performs_ite ?_ fun _ => performs_ite ?_ fun _ =>
        performs_ite ?_ fun _ => performs_ite ?_ fun _ => performs_ite ?_ fun _ => trivial
    · rintro rfl
      exact performs_check fun _ _ => performs_check fun _ _ =>
        gate_query (.regions _ _) rfl rfl
    · rintro rfl
      exact performs_check fun _ _ => performs_check fun _ _ => performs_check fun _ _ =>
        gate_query (.regionInfo _ _) rfl rfl
    · rintro rfl
      refine performs_check fun request _ => performs_session (gate_connects rfl) ?_
      refine Prog.Performs.bindExcept
        (performs_reads (.readMemory _ _ _) rfl rfl (gate_reads rfl rfl)) fun bytes => ?_
      cases readResult request bytes <;> trivial
    · rintro rfl
      exact gated_memoryWrite (gate_gated (List.mem_of_getElem? (i := 14) rfl))
    · rintro rfl
      exact performs_check fun _ _ => performs_check fun _ _ => performs_check fun _ _ =>
        gate_query (.scanMemory _ _ _ _ _ _ _ _) rfl rfl
    · rintro rfl
      exact performs_check fun _ hflags => performs_check fun _ _ => performs_guard fun _ => performs_check fun _ _ => gate_mutation 15 rfl hflags
    · rintro rfl
      exact performs_check fun _ hflags => performs_check fun _ _ => performs_check fun _ _ =>
        performs_check fun _ _ => performs_check fun _ _ => gate_mutation 16 rfl hflags
    · rintro rfl
      exact performs_check fun _ hflags => performs_check fun _ _ => performs_check fun _ _ =>
        performs_check fun _ _ => gate_mutation 17 rfl hflags
    · rintro rfl
      exact performs_check fun _ hflags => performs_check fun _ _ => performs_check fun _ _ =>
        performs_check fun _ _ => performs_guard fun _ =>
        performs_check fun _ _ => gate_mutation 18 rfl hflags

theorem gate_executeRemote :
    (executeRemote env options arguments).run.Performs
      (Gate env options (ascii "remote" :: arguments)) := by
  cases arguments with
  | nil => trivial
  | cons action arguments =>
    refine performs_ite ?_ fun _ => performs_ite ?_ fun _ => performs_ite ?_ fun _ =>
      performs_ite ?_ fun _ => performs_ite ?_ fun _ => performs_ite ?_ fun _ =>
        performs_ite ?_ fun _ => performs_ite ?_ fun _ => performs_ite ?_ fun _ => trivial
    · rintro rfl
      exact performs_guard fun _ => gate_query .currentPath rfl rfl
    · rintro rfl
      exact performs_check fun _ hflags => performs_check fun _ _ => gate_mutation 19 rfl hflags
    · rintro rfl
      exact performs_check fun _ _ => performs_check fun _ _ =>
        gate_query (.listRemoteFiles _) rfl rfl
    · rintro rfl
      exact performs_check fun _ _ => performs_check fun _ _ =>
        gate_query (.remoteFilePermissions _) rfl rfl
    · rintro rfl
      exact gated_remoteGet (fun _ => trivial) (gate_gated (List.mem_of_getElem? (i := 20) rfl))
    · rintro rfl
      exact gated_remotePut (fun _ => trivial) (gate_gated (List.mem_of_getElem? (i := 21) rfl))
    · rintro rfl
      exact gated_remotePathMutation (gate_gated (List.mem_of_getElem? (i := 22) rfl))
    · rintro rfl
      exact gated_remotePathMutation (gate_gated (List.mem_of_getElem? (i := 23) rfl))
    · rintro rfl
      exact performs_check fun _ hflags => performs_check fun _ _ => performs_check fun _ _ =>
        gate_mutation 24 rfl hflags

theorem gate_executePipe :
    (executePipe env options arguments).run.Performs
      (Gate env options (ascii "pipe" :: arguments)) := by
  cases arguments with
  | nil => trivial
  | cons action arguments =>
    refine performs_ite ?_ fun _ => performs_ite ?_ fun _ => performs_ite ?_ fun _ =>
      performs_ite ?_ fun _ => trivial
    · rintro rfl
      exact performs_check fun _ _ => performs_guard fun _ =>
        performs_check fun _ _ => gate_query (.openPipe _ _) rfl rfl
    · rintro rfl
      refine performs_check fun _ _ => performs_check fun _ _ =>
        performs_guard fun _ => performs_check fun _ _ =>
          performs_guard fun _ => performs_session (gate_connects rfl) ?_
      -- a handle of the command line is only read from
      refine Prog.Performs.bindExcept (performs_call (gate_connects rfl)
        (ClientOp.sends (.readPipe _ _ _)).of_drop fun h req hreq => ?_) fun _ => trivial
      obtain rfl := hreq
      have hpipe : Client.commandPipeRead ∉ Client.commandCloseHandle :: mutatingCommands := by
        decide
      exact (gate_connects rfl).reads _ hpipe
    · rintro rfl
      exact gated_pipeWrite (fun _ => trivial) (gate_gated (List.mem_of_getElem? (i := 25) rfl))
    · rintro rfl
      exact performs_check fun _ hflags => performs_check fun _ _ => gate_mutation 26 rfl hflags

theorem gate_executeSymbol :
    (executeSymbol env options arguments).run.Performs
      (Gate env options (ascii "symbol" :: arguments)) := by
  have hP : Reads (Gate env options (ascii "symbol" :: arguments)) := gate_reads rfl rfl
  refine performs_guard fun _ => performs_check fun _ _ => performs_check fun _ _ =>
    performs_check fun _ _ => performs_check fun _ _ => performs_guard fun _ =>
      performs_session hP.toConnects ?_
  exact Prog.Performs.bindExcept (performs_reads (.symbols _ _ _) rfl rfl hP) fun _ => trivial

theorem gate_executeSelfCheck :
    (executeSelfCheck env options arguments).run.Performs
      (Gate env options (ascii "self-check" :: arguments)) := by
  have hP : Reads (Gate env options (ascii "self-check" :: arguments)) := gate_reads rfl rfl
  have hserver : (checkServer options).run.Performs
      (Gate env options (ascii "self-check" :: arguments)) := by
    refine Prog.Performs.bind (performs_dial hP.toConnects) fun dialed => ?_
    cases dialed with
    | error e => trivial
    | ok _ =>
      refine Prog.Performs.bind (performs_reads .serverInfo rfl rfl hP) fun info => ?_
      refine Prog.Performs.bind (performs_close hP.toConnects) fun _ => ?_
      cases info <;> trivial
  have hmapped : ((fun c => [c]) <$> checkServer options).run.Performs
      (Gate env options (ascii "self-check" :: arguments)) :=
    Prog.Performs.bind hserver fun result => by cases result <;> trivial
  refine performs_check fun flags _ => performs_ite (fun _ => ?_) fun _ => ?_
  · refine Prog.Performs.bindExcept hmapped fun server => ?_
    exact performs_ite (fun _ => trivial) fun _ => trivial
  · refine Prog.Performs.bindExcept (x := pure []) trivial fun server => ?_
    exact performs_ite (fun _ => trivial) fun _ => trivial

end

theorem gate_execute : (execute env options remaining).run.Performs (Gate env options remaining) := by
  refine performs_ite (fun _ => trivial) fun _ => ?_
  cases remaining with
  | nil => trivial
  | cons command rest =>
    refine performs_ite (fun _ => trivial) fun _ => performs_ite ?_ fun _ => performs_ite ?_ fun _ =>
      performs_ite ?_ fun _ => performs_ite ?_ fun _ => performs_ite ?_ fun _ =>
        performs_ite ?_ fun _ => performs_ite ?_ fun _ => performs_ite ?_ fun _ =>
          performs_ite ?_ fun _ => performs_ite ?_ fun _ => trivial
    · rintro rfl
      exact gate_executeServer rest
    · rintro rfl
      exact gate_executeProcess rest
    · rintro rfl
      exact gate_executeModule rest
    · rintro rfl
      exact gate_executeThread rest
    · rintro rfl
      exact gate_executeDebug rest
    · rintro rfl
      exact gate_executeMemory rest
    · rintro rfl
      exact gate_executeRemote rest
    · rintro rfl
      exact gate_executePipe rest
    · rintro rfl
      exact gate_executeSymbol rest
    · rintro rfl
      exact gate_executeSelfCheck rest

end Gate

/-- What is left of the arguments without the global options, if these can be parsed. -/
def remainingArguments (env : Environment) (arguments : List (List UInt8)) : List (List UInt8) :=
  match (parseGlobalOptions env arguments).2 with
  | .ok remaining => remaining
  | .error _ => []

/-- Whatever the environment and the server answer, a mutating packet is sent only with the
    subcommand's own `--yes` and without `--dry-run`, and with `--dry-run` a subcommand that
    can send one does not dial. -/
theorem confirmationGate (env : Environment) (arguments : List (List UInt8)) :
    (run env arguments).Performs
      (Gate env (parseGlobalOptions env arguments).1 (remainingArguments env arguments)) := by
  rw [run, remainingArguments]
  obtain ⟨options, remaining | remaining⟩ := parseGlobalOptions env arguments
  · trivial
  · exact Prog.Performs.bind gate_execute fun _ => trivial

end CheatEngine.Cli
