/-
  CheatEngine.Ceserver.CurrentDirectory

  The working directory of ceserver.  It belongs to the server process, so all
  connections share it, and the paths of the file commands are looked up from
  it.  Two places of the source change it: `CMD_SETCURRENTPATH`, and
  `OpenProcess` (api.c), which enters `/proc/<pid>/` to see whether a process
  exists that has no handle yet and stays there.
-/
import CheatEngine.Ceserver.References
import CheatEngine.Lib.Hub

namespace CheatEngine.Ceserver

open CheatEngine.Lib

/-! ## Calls that reach the directory -/

/-- What the system answers to `OpenProcess`. -/
structure OpenAnswers (Dir : Type) where
  /-- The directory that `chdir("/proc/<pid>/")` enters. -/
  entered : Option Dir
  /-- `fopen` of the maps for a list of all modules. -/
  maps : Bool
  /-- `fopen` of the maps for the first module. -/
  firstMaps : Bool

/-- What the system answers to `CreateToolhelp32Snapshot`. -/
structure ListAnswers (Dir : Type) where
  /-- `ATTACH_PID` is not set, or is the process. -/
  attached : Bool
  opening : OpenAnswers Dir
  /-- `opendir` of the tasks of the process. -/
  tasks : Bool

/-- A call that may change the directory or the handles, with what the system
    answers. -/
inductive DirectoryCall (Dir : Type)
  /-- `chdir` of `CMD_SETCURRENTPATH`, with the directory it enters. -/
  | setCurrentPath (entered : Option Dir)
  | openProcess (pid : Int32) (answers : OpenAnswers Dir)
  | createToolhelp32Snapshot (dwFlags : UInt32) (pid : Int32) (answers : ListAnswers Dir)
  /-- Any other function: the handles after it. -/
  | other (server : ServerState)

/-- The working directory, beside the handles of the server. -/
structure DirectoryState (Dir : Type) where
  cwd : Dir
  /-- What the last successful `CMD_SETCURRENTPATH` entered, or the directory
      the server was started in. -/
  designated : Dir
  server : ServerState

variable {Dir τ κ : Type}

def OpenAnswers.proc (a : OpenAnswers Dir) : ProcAnswers := ⟨a.entered.isSome, a.maps, a.firstMaps⟩

def ListAnswers.snapshot (a : ListAnswers Dir) : SnapshotAnswers :=
  ⟨a.attached, a.opening.proc, a.tasks⟩

/-- `CreateToolhelp32Snapshot` reads the maps of the process, and so opens it. -/
def ListAnswers.opensProcess (a : ListAnswers Dir) (dwFlags : UInt32) : Bool :=
  !hasFlag dwFlags th32csSnapProcess &&
    (hasFlag dwFlags th32csSnapModule || hasFlag dwFlags th32csSnapFirstModule) &&
    a.attached && a.opening.maps

namespace DirectoryState

/-- A server started in `d`. -/
def start (d : Dir) : DirectoryState Dir := ⟨d, d, .initial⟩

section

variable (s : DirectoryState Dir)

/-- The directory after `OpenProcess`.  The list of the first module opens the
    process once more: that finds the new handle, or enters the same directory
    again. -/
def openProcessCwd (pid : Int32) (answers : OpenAnswers Dir) : Dir :=
  if s.server.openedHandle pid ≠ 0 then s.cwd else answers.entered.getD s.cwd

def step : DirectoryCall Dir → DirectoryState Dir
  | .setCurrentPath none => s
  | .setCurrentPath (some d) => { s with cwd := d, designated := d }
  | .openProcess pid answers =>
    { s with
      cwd := s.openProcessCwd pid answers
      server := (ServerState.openProcess answers.proc 2 s.server pid).2 }
  | .createToolhelp32Snapshot dwFlags pid answers =>
    { s with
      cwd := if answers.opensProcess dwFlags then s.openProcessCwd pid answers.opening else s.cwd
      server := (s.server.createToolhelp32Snapshot dwFlags pid answers.snapshot).2 }
  | .other server => { s with server }

/-- `OpenProcess` of `pid` finds a handle, or no process. -/
def FindsProcess (pid : Int32) (answers : OpenAnswers Dir) : Prop :=
  s.server.openedHandle pid ≠ 0 ∨ answers.entered = none

/-- The call opens no process that exists and has no handle. -/
def Calm : DirectoryCall Dir → Prop
  | .setCurrentPath _ => True
  | .openProcess pid answers => s.FindsProcess pid answers
  | .createToolhelp32Snapshot dwFlags pid answers =>
    answers.opensProcess dwFlags = true → s.FindsProcess pid answers.opening
  | .other _ => True

end

instance (s : DirectoryState Dir) (pid : Int32) (answers : OpenAnswers Dir) :
    Decidable (s.FindsProcess pid answers) :=
  match h : answers.entered with
  | none => .isTrue (.inr h)
  | some d => decidable_of_iff (s.server.openedHandle pid ≠ 0) (by simp [FindsProcess, h])

instance (s : DirectoryState Dir) (call : DirectoryCall Dir) : Decidable (s.Calm call) :=
  match call with
  | .setCurrentPath _ => inferInstanceAs (Decidable True)
  | .openProcess pid answers => inferInstanceAs (Decidable (s.FindsProcess pid answers))
  | .createToolhelp32Snapshot dwFlags pid answers =>
    inferInstanceAs (Decidable (answers.opensProcess dwFlags = true →
      s.FindsProcess pid answers.opening))
  | .other _ => inferInstanceAs (Decidable True)

variable {s : DirectoryState Dir} {pid : Int32} {answers : OpenAnswers Dir}

theorem openProcessCwd_of_findsProcess (h : s.FindsProcess pid answers) :
    s.openProcessCwd pid answers = s.cwd := by
  rcases h with hhandle | hnone
  · exact if_pos hhandle
  · rw [openProcessCwd, hnone]
    exact ite_self _

theorem step_cwd (call : DirectoryCall Dir) (hs : s.cwd = s.designated) (hcalm : s.Calm call) :
    (s.step call).cwd = (s.step call).designated := by
  cases call with
  | setCurrentPath entered =>
    cases entered with
    | none => exact hs
    | some d => rfl
  | openProcess pid answers => exact (openProcessCwd_of_findsProcess hcalm).trans hs
  | createToolhelp32Snapshot dwFlags pid answers =>
    show (if answers.opensProcess dwFlags then _ else _) = s.designated
    split
    · next hopens => exact (openProcessCwd_of_findsProcess (hcalm hopens)).trans hs
    · exact hs
  | other server => exact hs

end DirectoryState

/-! ## The functions behind the server -/

def procPath (pid : Int32) : List UInt8 :=
  let digits := (Nat.toDigits 10 pid.toInt.natAbs).map fun c => UInt8.ofNat c.toNat
  [47, 112, 114, 111, 99, 47] ++ (if pid.toInt < 0 then [45] else []) ++ digits ++ [47]

/-- The functions that may load the extension or search a symbol, and list the
    modules of the process then. -/
def ApiCall.listsModules : ApiCall → Bool
  | .loadCEServerExtension _ | .allocWithoutExtension _ _ _ _ | .ext_alloc _ _ _ _
  | .ext_free _ _ _ | .ext_createThread _ _ _ | .ext_loadModule _ _ | .ext_loadModuleEx _ _ _
  | .ext_speedhack_setSpeed _ _ | .ext_changememoryprotection _ _ _ _ => true
  | _ => false

/-- The system that the server runs on: how the file system and `/proc` answer
    in each of its states, and what the functions that are not about the
    directory do. -/
structure System (τ Dir : Type) where
  /-- The directory that `chdir` enters from another one. -/
  enter : τ → Dir → List UInt8 → Option Dir
  /-- `getcwd` in a directory. -/
  path : τ → Dir → Option (CString 4095)
  maps : τ → Int32 → Bool
  firstMaps : τ → Int32 → Bool
  attached : τ → Int32 → Bool
  tasks : τ → Int32 → Bool
  /-- The processes whose modules a call lists on its way. -/
  searches : ApiCall → τ → ServerState → List Int32
  handles : ApiCall → τ → ServerState → ServerState
  answer : (c : ApiCall) → τ → DirectoryState Dir → Option (ApiResult c)
  /-- What else changes while the call runs. -/
  next : ApiCall → τ → DirectoryState Dir → τ

/-- The server and the system around it, with the calls that were made. -/
structure World (τ Dir : Type) where
  outside : τ
  state : DirectoryState Dir
  history : List (DirectoryCall Dir)

/-- Before the first connection. -/
def World.start (t : τ) (d : Dir) : World τ Dir := ⟨t, .start d, []⟩

/-- Make calls. -/
def World.perform (w : World τ Dir) (calls : List (DirectoryCall Dir)) : World τ Dir :=
  { w with state := exec DirectoryState.step w.state calls, history := w.history ++ calls }

namespace System

variable (sys : System τ Dir) (w : World τ Dir)

def opening (pid : Int32) : OpenAnswers Dir where
  entered := sys.enter w.outside w.state.cwd (procPath pid)
  maps := sys.maps w.outside pid
  firstMaps := sys.firstMaps w.outside pid

def listing (pid : Int32) : ListAnswers Dir where
  attached := sys.attached w.outside pid
  opening := sys.opening w pid
  tasks := sys.tasks w.outside pid

/-- The directory that `chdir(path)` enters; `NULL` is no path. -/
def entered (path : Option (List UInt8)) : Option Dir :=
  path.bind (sys.enter w.outside w.state.cwd)

/-- What a function behind the server does to the directory and the handles. -/
def calls (c : ApiCall) : List (DirectoryCall Dir) :=
  match c with
  | .chdir path => [.setCurrentPath (sys.entered w path)]
  | .openProcess pid => [.openProcess pid.toInt32 (sys.opening w pid.toInt32)]
  | .createToolhelp32Snapshot dwFlags pid =>
    [.createToolhelp32Snapshot dwFlags pid.toInt32 (sys.listing w pid.toInt32)]
  | .closeHandle h => [.other (w.state.server.closeHandle h.toInt32.toInt)]
  | c =>
    let lists := if c.listsModules then sys.searches c w.outside w.state.server else []
    lists.map (fun pid => .createToolhelp32Snapshot th32csSnapModule pid (sys.listing w pid)) ++
      [.other (sys.handles c w.outside w.state.server)]

def result (c : ApiCall) : Option (ApiResult c) :=
  match c with
  | .chdir path => some (sys.entered w path).isSome
  | .getcwd => some (sys.path w.outside w.state.cwd)
  | .openProcess pid =>
    let o := ServerState.openProcess (sys.opening w pid.toInt32).proc 2 w.state.server pid.toInt32
    some (UInt32.ofInt o.1)
  | .createToolhelp32Snapshot dwFlags pid =>
    let o := w.state.server.createToolhelp32Snapshot dwFlags pid.toInt32
      (sys.listing w pid.toInt32).snapshot
    some (UInt32.ofInt o.1)
  | c => sys.answer c w.outside w.state

/-- The environment of the connections. -/
def env : Env CeApi (World τ Dir) := fun c w =>
  (sys.result w c, { w.perform (sys.calls w c) with outside := sys.next c w.outside w.state })

/-- The bytes of `getcwd` that `CMD_GETCURRENTPATH` sends for a directory; an
    empty path when there is none. -/
def pathBytes (t : τ) (d : Dir) : List UInt8 := ((sys.path t d).map CString.bytes).getD []

end System

/-! ## Runs of the connections -/

/-- The server with its connections, before the first command. -/
abbrev Site.start (t : τ) (d : Dir) : Hub CeApi Connection (World τ Dir) κ :=
  .start .initial (.start t d)

/-- The connections and the server after the steps. -/
abbrev Site.run [DecidableEq κ] (b : Build) (sys : System τ Dir) (t : τ) (d : Dir)
    (is : List (HubInput κ)) : Hub CeApi Connection (World τ Dir) κ :=
  exec (Hub.step (ceserver b) sys.env) (Site.start t d) is

section Run

variable [DecidableEq κ] (b : Build) (sys : System τ Dir) (t : τ) (d : Dir)

theorem run_state (is : List (HubInput κ)) :
    (Site.run b sys t d is).api.state =
      exec DirectoryState.step (.start d) (Site.run b sys t d is).api.history := by
  apply Hub.exec_api (I := fun w : World τ Dir =>
    w.state = exec DirectoryState.step (.start d) w.history)
  · intro c w hw
    show exec DirectoryState.step w.state (sys.calls w c) =
      exec DirectoryState.step (.start d) (w.history ++ sys.calls w c)
    rw [exec_append, ← hw]
  · rfl

/-- `CMD_GETCURRENTPATH` asks for the directory, and goes on with what it will
    send. -/
theorem getCurrentPath_run (s : Connection) : ∃ k : Option (Option (CString 4095)) →
    Handler CeApi (Option Connection), (dispatchCommand b 48 s).run = .op (.call .getcwd) k ∧
      ∀ path, k (some path) = (keep (sendstring16 ((path.map CString.bytes).getD [])) s).run := by
  refine ⟨_, rfl, ?_⟩
  intro path
  cases path with
  | none => rfl
  | some p => rfl

/-- The next operation of `CMD_GETCURRENTPATH`: what it will send. -/
theorem advance_getCurrentPath {hub : Hub CeApi Connection (World τ Dir) κ} {c : κ}
    {s : Connection} (hbusy : hub.session c = .busy (dispatchCommand b 48 s).run) :
    (Hub.step (ceserver b) sys.env hub (.advance c)).session c =
      .busy (keep (sendstring16 (sys.pathBytes hub.api.outside hub.api.state.cwd)) s).run := by
  obtain ⟨k, hrun, hk⟩ := getCurrentPath_run b s
  show Function.update hub.session c _ c = _
  rw [Function.update_self, hbusy, hrun, Service.tick]
  show (Service.settle (k (some (sys.path hub.api.outside hub.api.state.cwd)), _)).1 = _
  rw [hk]
  rfl

/-- In every run of the connections whose calls open no existing process
    without a handle, the server is where the last successful
    `CMD_SETCURRENTPATH` sent it, and a `CMD_GETCURRENTPATH` that any
    connection is about to execute sends the path of that directory. -/
theorem current_path_last_set (is : List (HubInput κ))
    (hcalm : Along DirectoryState.step DirectoryState.Calm (.start d)
      (Site.run b sys t d is).api.history) :
    (Site.run b sys t d is).api.state.cwd = (Site.run b sys t d is).api.state.designated ∧
      ∀ c s, (Site.run b sys t d is).session c = .busy (dispatchCommand b 48 s).run →
        (Hub.step (ceserver b) sys.env (Site.run b sys t d is) (.advance c)).session c =
          .busy (keep (sendstring16 (sys.pathBytes (Site.run b sys t d is).api.outside
            (Site.run b sys t d is).api.state.designated)) s).run := by
  have hcwd : (Site.run b sys t d is).api.state.cwd =
      (Site.run b sys t d is).api.state.designated := by
    rw [run_state]
    exact exec_invariant (I := fun s : DirectoryState Dir => s.cwd = s.designated)
      (fun s call hs hc => DirectoryState.step_cwd call hs hc) rfl hcalm
  refine ⟨hcwd, ?_⟩
  intro c s hbusy
  rw [advance_getCurrentPath b sys hbusy, hcwd]

end Run

/-- A system with the directories `/`, `/tmp` and `/proc/7`, whose other
    functions refuse. -/
def smallSystem : System Unit (Fin 3) where
  enter _ _ path :=
    if path = [47, 116, 109, 112] then some 1
    else if path = procPath 7 then some 2
    else none
  path _ d := some (match d with
    | 0 => ⟨[47], by decide, by decide⟩
    | 1 => ⟨[47, 116, 109, 112], by decide, by decide⟩
    | 2 => ⟨[47, 112, 114, 111, 99, 47, 55], by decide, by decide⟩)
  maps _ _ := true
  firstMaps _ _ := true
  attached _ _ := true
  tasks _ _ := true
  searches _ _ _ := []
  handles _ _ s := s
  answer c _ _ := some (refusal c)
  next _ t _ := t

def serveAll (bytes : List UInt8) : List (HubInput Unit) :=
  .deliver () bytes :: List.replicate 5 (.advance ())

/-- `CMD_SETCURRENTPATH` of `/tmp`. -/
def setTmp : List UInt8 := [47, 4, 0, 47, 116, 109, 112]

/-- `CMD_OPENPROCESS` of process 8, which does not exist, and then of `/tmp`. -/
def missingThenSet : List (HubInput Unit) := serveAll [3, 8, 0, 0, 0] ++ serveAll setTmp

/-- A process that does not exist leaves the server in `/tmp`. -/
theorem missingThenSet_stays :
    (Site.run .linux64 smallSystem () 0 missingThenSet).api.state.designated = 1 ∧
      (Site.run .linux64 smallSystem () 0 missingThenSet).api.state.cwd =
        (Site.run .linux64 smallSystem () 0 missingThenSet).api.state.designated :=
  ⟨by decide,
    (current_path_last_set .linux64 smallSystem () 0 missingThenSet (by decide)).1⟩

/-- `CMD_SETCURRENTPATH` of `/tmp`, `CMD_OPENPROCESS` of process 7 and
    `CMD_GETCURRENTPATH`. -/
def setThenOpen : List (HubInput Unit) :=
  serveAll setTmp ++ serveAll [3, 7, 0, 0, 0] ++ serveAll [48]

/-- Opening process 7 moves the server from `/tmp` to `/proc/7`, and that path
    is sent. -/
theorem openProcess_moves_current_path :
    (Site.run .linux64 smallSystem () 0 setThenOpen).api.state.designated = 1 ∧
      smallSystem.pathBytes () 1 = [47, 116, 109, 112] ∧
      (Site.run .linux64 smallSystem () 0 setThenOpen).out () =
        [1] ++ [1, 0, 0, 0] ++ [7, 0, 47, 112, 114, 111, 99, 47, 55] := by
  refine ⟨?_, ?_, ?_⟩ <;> decide +kernel

end CheatEngine.Ceserver
