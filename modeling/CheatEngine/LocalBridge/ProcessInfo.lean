/-
  CheatEngine.LocalBridge.ProcessInfo

  `ProcessInfo` on a connection that the local bridge serves.  The client asks
  for the architecture, the modules and the threads of a process; the bridge
  has no command for the last two and ends the connection on them, so the
  architecture, which it did send, is lost with the rest.
-/
import CheatEngine.LocalBridge.Native

namespace CheatEngine.LocalBridge

open CheatEngine.Lib

variable {M σ : Type} {server : Server} {env : Env (BackendApi M) σ}

section Unserved

variable (server env) {l : Client.Link (BackendApi M) (ConnectionState M) σ}

theorem run_listModules (s : ConnectionState M) (a : σ) (log : List (Prog.Event (BackendApi M)))
    (d : Bool) (ctx : List (Option String)) (pid : Int32) :
    ∃ e l', Client.Link.run (localbridge M server) env (Client.listModules pid)
      (.ready s a log [] d ctx) = some (.error e, l') ∧ l'.session = .closed := by
  have hdrive : drive env (handleCommand server Client.commandCreateToolhelp32SnapshotEx s).run
      ⟨u32 Client.toolhelpSnapshotModule ++ u32 pid.toUInt32, [], a, log⟩ =
        (pure none, ⟨u32 Client.toolhelpSnapshotModule ++ u32 pid.toUInt32, [], a, log⟩) := rfl
  have hsend : Client.Link.run (localbridge M server) env
      (Client.writePacket (Client.commandCreateToolhelp32SnapshotEx ::
        (u32 Client.toolhelpSnapshotModule ++ u32 pid.toUInt32))) (.ready s a log [] d ctx) = _ :=
    Client.run_writePacket_close hdrive
  -- the header of the first module is the end of the stream
  rw [Client.listModules, Client.run_bind_ok hsend]
  exact ⟨_, _, rfl, rfl⟩

theorem run_closeHandle_closed (handle : UInt32) (h : l.session = .closed) :
    Client.Link.run (localbridge M server) env (Client.closeHandle handle) l =
      some (.error (.protocol "send request" (Client.text "connection closed")), l) := by
  obtain ⟨session, wire, connected, debugActive, ctx⟩ := l
  obtain rfl : session = .closed := h
  rfl

end Unserved

theorem run_architecture (server : Server) (env : Env (BackendApi M) σ) (handle : UInt32)
    (s : ConnectionState M) (a : σ) (log : List (Prog.Event (BackendApi M))) (d : Bool)
    (ctx : List (Option String)) :
    ∃ code a' log', Client.Link.run (localbridge M server) env (Client.architecture handle)
      (.ready s a log [] d ctx) = some (.ok code, .ready s a' log' [] d ctx) := by
  have hrefines : Refines server env (Client.architecture handle)
      ((NativeOp.architecture handle).direct server) := refines_architecture handle
  obtain ⟨r, hrun, hr⟩ := hrefines s a log d ctx
  cases hprocess : s.processAt handle with
  | none =>
    simp only [NativeOp.direct, hprocess, direct_pure] at hrun hr
    cases r with
    | error e => cases hr
    | ok code => exact ⟨code, _, _, hrun⟩
  | some m =>
    simp only [NativeOp.direct, hprocess] at hrun hr
    cases r with
    | error e => cases hr
    | ok code => exact ⟨code, _, _, hrun⟩

/-- `ProcessInfo` returns the architecture of the process, and the connection
    waits for the next command. -/
def InfoWorks (server : Server) (env : Env (BackendApi M) σ) (pid : Int32)
    (architecture : UInt8) (l : Client.Link (BackendApi M) (ConnectionState M) σ) : Prop :=
  ∃ info l', Client.Link.run (localbridge M server) env (Client.processInfo pid) l =
    some (.ok info, l') ∧ info.architecture = Client.architectureString architecture ∧ l'.Quiet

theorem run_processInfo (server : Server) (env : Env (BackendApi M) σ) (s : ConnectionState M) (a : σ)
    (log : List (Prog.Event (BackendApi M))) (d : Bool) (ctx : List (Option String)) (pid : Int32)
    (process : Option M) (hopen : (env (.openProcess pid) a).1 = .ok process) :
    ∃ e l', Client.Link.run (localbridge M server) env (Client.processInfo pid)
      (.ready s a log [] d ctx) = some (.error e, l') ∧ l'.session = .closed := by
  have hstart : Client.Link.run (localbridge M server) env (Client.openProcess pid)
      (.ready s a log [] d ctx) = _ := run_openProcess_ok hopen
  -- the architecture arrives, the first module does not
  obtain ⟨code, a', log', harch⟩ := run_architecture server env s.nextHandle
    (s.addHandle (.ofProcess process)).2 (env (.openProcess pid) a).2
    (log ++ [⟨.openProcess pid, .ok process⟩]) d ctx
  obtain ⟨e, l', hmodules, hclosed⟩ :=
    run_listModules server env (s.addHandle (.ofProcess process)).2 a' log' d ctx pid
  refine ⟨e, l', ?_, hclosed⟩
  rw [Client.processInfo, Client.run_bind_ok hstart]
  -- the handle cannot be closed on the connection that the server has left
  apply Client.run_deferClose _ (run_closeHandle_closed server env _ hclosed)
  rw [Client.run_bind_ok harch]
  exact Client.run_bind_error hmodules

/-- Native process info does not work, for no backend and no process. -/
theorem processInfo_never (server : Server) (env : Env (BackendApi M) σ) (pid : Int32)
    (architecture : UInt8) (s : ConnectionState M) (a : σ)
    (log : List (Prog.Event (BackendApi M))) (d : Bool) (ctx : List (Option String))
    (process : Option M) (hopen : (env (.openProcess pid) a).1 = .ok process) :
    ¬ InfoWorks server env pid architecture (.ready s a log [] d ctx) := by
  rintro ⟨info, l, hrun, -, -⟩
  obtain ⟨e, l', hfail, -⟩ := run_processInfo server env s a log d ctx pid process hopen
  rw [hfail] at hrun
  cases hrun

/-- The process of a backend that can open it and knows its architecture. -/
theorem processInfo_never_oneProcess :
    (oneProcess [] 0 [] (.openProcess 7) ()).1 = .ok (some ()) ∧
      (oneProcess [] 0 [] (.architecture ()) ()).1 = 1 ∧
      ¬ InfoWorks ⟨[], id⟩ (oneProcess [] 0 []) 7 1 (.ready ConnectionState.initial () [] [] false []) :=
  ⟨rfl, rfl, processInfo_never ⟨[], id⟩ (oneProcess [] 0 []) 7 1 ConnectionState.initial () [] false []
    (some ()) rfl⟩

/-- The architecture that this backend reports does not reach the caller. -/
theorem processInfo_fails_oneProcess :
    ¬ ∀ (architecture : UInt8), (oneProcess [] 0 [] (.architecture ()) ()).1 = architecture →
      InfoWorks ⟨[], id⟩ (oneProcess [] 0 []) 7 architecture
        (.ready ConnectionState.initial () [] [] false []) := by
  intro h
  obtain ⟨info, l, hrun, -, -⟩ := h 1 rfl
  obtain ⟨e, l', hfail, -⟩ := run_processInfo ⟨[], id⟩ (oneProcess [] 0 []) ConnectionState.initial ()
    [] false [] 7 (some ()) rfl
  rw [hfail] at hrun
  cases hrun

end CheatEngine.LocalBridge
