/-
  CheatEngine.Ceserver.StopDebug

  `StopDebug` (api.c): every thread of a debugged process is stopped and detached,
  and the sockets of the debugger are closed.

  For each thread the function waits in a loop that is left only by what the status
  word says, and `waitpid` writes that word only when it succeeds.  A wait that fails
  is therefore judged by the last report of another thread, or by what the stack held
  before the first report.
-/
import CheatEngine.Lib.Loop
import CheatEngine.Ceserver.Debugger

namespace CheatEngine.Ceserver

open CheatEngine.Lib

def WIFSTOPPED (status : Int32) : Bool := status &&& 0xff == 0x7f

def WSTOPSIG (status : Int32) : Int32 := (status &&& 0xff00) >>> 8

abbrev SigstopWord : Type := { w : Int32 // WIFSTOPPED w = true ∧ WSTOPSIG w = SIGSTOP }

abbrev OtherStopWord : Type := { w : Int32 // WIFSTOPPED w = true ∧ WSTOPSIG w ≠ SIGSTOP }

abbrev EndWord : Type := { w : Int32 // WIFSTOPPED w = false }

/-- What comes of a thread that is sent `SIGSTOP` again and again. -/
inductive Fate
  | stops (w : SigstopWord)
  | exits (w : EndWord)
  /-- It ended and was waited for before: there is nothing to report any more. -/
  | reaped

/-- What a wait may give before that. -/
inductive Interim
  /-- The wait fails, as when a signal interrupts it. -/
  | fails
  /-- The thread stopped with another signal first. -/
  | stopped (w : OtherStopWord)

/-- What waiting for a thread gives, from now on. -/
structure Waits where
  ahead : List Interim
  fate : Fate

/-- One `waitpid` for the thread: the word it writes, if it succeeds. -/
def Waits.waitpid : Waits → Option Int32 × Waits
  | ⟨.fails :: ahead, fate⟩ => (none, ⟨ahead, fate⟩)
  | ⟨.stopped w :: ahead, fate⟩ => (some w.val, ⟨ahead, fate⟩)
  | ⟨[], .stops w⟩ => (some w.val, ⟨[], .stops w⟩)
  | ⟨[], .exits w⟩ => (some w.val, ⟨[], .reaped⟩)
  | ⟨[], .reaped⟩ => (none, ⟨[], .reaped⟩)

/-- A thread of the thread list.  Its id is one that the kernel gave. -/
structure ListedThread where
  tid : Int
  tid_pos : 0 < tid
  waits : Waits

/-- The thread did not end, as far as waiting for it has shown. -/
def ListedThread.alive (t : ListedThread) : Bool :=
  match t.waits.fate with
  | .stops _ | .exits _ => true
  | .reaped => false

/-! ## The loops -/

/-- The calls of `ptrace`. -/
inductive StopCall
  | cont (tid : Int) (signal : Int32)
  | detach (tid : Int)

/-- What the loop for a thread changes: what is ahead of the thread, the status word
    and the calls made. -/
structure StopState where
  waits : Waits
  status : Int32
  calls : List StopCall

/-- One turn of `while (1)`, which is left with the variable `tid`. -/
def stopTurn (listed : Int) (s : StopState) : StopState ⊕ (Int × StopState) :=
  let (report, waits) := s.waits.waitpid
  let tid : Int := if report.isSome then listed else -1
  let status := report.getD s.status
  if WIFSTOPPED status then
    if WSTOPSIG status = SIGSTOP then
      if tid = listed then .inr (tid, { s with waits, status })
      else .inl { waits, status, calls := s.calls ++ [.cont tid 0] }
    else .inl { waits, status, calls := s.calls ++ [.cont tid (WSTOPSIG status)] }
  else .inr (0, { s with waits, status })

/-- The detach behind the loop; a thread that is gone left 0 in `tid`. -/
def leaveThread (tid : Int) (calls : List StopCall) : List StopCall :=
  if tid ≠ 0 then calls ++ [.detach tid] else calls

/-- The loop over the thread list, with a bound on the waits for each thread. -/
def stopThreads (fuel : Nat) :
    List ListedThread → Int32 → List StopCall → Option (List ListedThread × List StopCall)
  | [], _, calls => some ([], calls)
  | t :: ts, status, calls =>
    match loop (stopTurn t.tid) fuel ⟨t.waits, status, calls⟩ with
    | none => none
    | some (tid, s) =>
      match stopThreads fuel ts s.status (leaveThread tid s.calls) with
      | none => none
      | some (ts', calls) => some ({ t with waits := s.waits } :: ts', calls)

/-- What `StopDebug` uses of the process data; a socket of 0 is none. -/
structure DebuggedProcess where
  threadlist : List ListedThread
  isDebugged : Bool
  debuggerClient : Nat
  debuggerServer : Nat

/-- What `StopDebug` leaves behind. -/
structure StopResult where
  process : DebuggedProcess
  calls : List StopCall
  closed : List Nat

/-- `StopDebug` for a valid handle; `status` is what the stack holds at the place of
    the status word. -/
def stopDebug (fuel : Nat) (p : DebuggedProcess) (status : Int32) : Option StopResult :=
  match stopThreads fuel p.threadlist status [] with
  | none => none
  | some (threadlist, calls) =>
    some {
      process := { threadlist, isDebugged := false, debuggerClient := 0, debuggerServer := 0 }
      calls
      closed := (if p.debuggerClient ≠ 0 then [p.debuggerClient] else []) ++
        if p.debuggerServer ≠ 0 then [p.debuggerServer] else [] }

/-- The threads that are detached by some calls, in order. -/
def detached (calls : List StopCall) : List Int :=
  calls.filterMap fun
    | .detach tid => some tid
    | .cont _ _ => none

@[simp] theorem detached_append (calls calls' : List StopCall) :
    detached (calls ++ calls') = detached calls ++ detached calls' :=
  List.filterMap_append

@[simp] theorem detached_cont (tid : Int) (signal : Int32) :
    detached [.cont tid signal] = [] := rfl

@[simp] theorem detached_detach (tid : Int) : detached [.detach tid] = [tid] := rfl

section Turn

variable {tid : Int} {s : StopState} {waits : Waits} {status : Int32}

theorem stopTurn_sigstop {w : SigstopWord} (h : s.waits.waitpid = (some w.val, waits)) :
    stopTurn tid s = .inr (tid, { s with waits, status := w.val }) := by
  simp only [stopTurn, h, Option.isSome_some, Option.getD_some, w.property.1, w.property.2,
    ↓reduceIte]

variable (tid s) in
theorem stopTurn_other (w : OtherStopWord) (h : s.waits.waitpid = (some w.val, waits)) :
    stopTurn tid s = .inl ⟨waits, w.val, s.calls ++ [.cont tid (WSTOPSIG w.val)]⟩ := by
  simp only [stopTurn, h, Option.isSome_some, Option.getD_some, w.property.1, w.property.2,
    ↓reduceIte]

theorem stopTurn_end {w : EndWord} (h : s.waits.waitpid = (some w.val, waits)) :
    stopTurn tid s = .inr (0, { s with waits, status := w.val }) := by
  simp only [stopTurn, h, Option.getD_some, w.property, Bool.false_eq_true, ↓reduceIte]

theorem stopTurn_fails (h : s.waits.waitpid = (none, waits)) (hw : WIFSTOPPED s.status = false) :
    stopTurn tid s = .inr (0, { s with waits }) := by
  simp only [stopTurn, h, Option.getD_none, hw, Bool.false_eq_true, ↓reduceIte]

/-- Otherwise it continues the thread `-1`, and goes on with the same word. -/
theorem stopTurn_fails_stopped (htid : 0 < tid) (h : s.waits.waitpid = (none, waits))
    (hw : WIFSTOPPED s.status = true) :
    ∃ signal, stopTurn tid s = .inl ⟨waits, s.status, s.calls ++ [.cont (-1) signal]⟩ := by
  have hne : ¬ (-1 : Int) = tid := by omega
  by_cases hsig : WSTOPSIG s.status = SIGSTOP
  · refine ⟨0, ?_⟩
    simp only [stopTurn, h, Option.isSome_none, Option.getD_none, hw, hsig, hne,
      Bool.false_eq_true, ↓reduceIte]
  · refine ⟨WSTOPSIG s.status, ?_⟩
    simp only [stopTurn, h, Option.isSome_none, Option.getD_none, hw, hsig, Bool.false_eq_true,
      ↓reduceIte]

end Turn

/-! ## The loop for one thread -/

/-- The wait that comes next fails. -/
def Waits.nextFails : Waits → Bool
  | ⟨.fails :: _, _⟩ => true
  | ⟨[], .reaped⟩ => true
  | _ => false

/-- The loop for a thread is left with `left` in `tid`, and nothing is detached in it. -/
def LeftWith (t : ListedThread) (status : Int32) (left : Int) (fate : Fate) (status' : Int32) :
    Prop :=
  ∀ calls, ∃ ahead calls', detached calls' = detached calls ∧
    LeavesWith (stopTurn t.tid) ⟨t.waits, status, calls⟩ (left, ⟨⟨ahead, fate⟩, status', calls'⟩)

section Thread

variable {tid : Int} {status : Int32} {calls : List StopCall} {fate : Fate}

variable (calls fate) in
theorem leaves_of_stopped (htid : 0 < tid) (ahead : List Interim) (hw : WIFSTOPPED status = true) :
    ∃ status' calls', WIFSTOPPED status' = true ∧ detached calls' = detached calls ∧
      ∀ r, LeavesWith (stopTurn tid) ⟨⟨[], fate⟩, status', calls'⟩ r →
        LeavesWith (stopTurn tid) ⟨⟨ahead, fate⟩, status, calls⟩ r := by
  induction ahead generalizing status calls with
  | nil => exact ⟨status, calls, hw, rfl, fun _ h => h⟩
  | cons i ahead ih =>
    cases i with
    | fails =>
      obtain ⟨signal, hturn⟩ := stopTurn_fails_stopped htid
        (s := ⟨⟨.fails :: ahead, fate⟩, status, calls⟩) rfl hw
      obtain ⟨status', calls', hw', hsame, hleaves⟩ := ih (calls ++ [.cont (-1) signal]) hw
      rw [detached_append, detached_cont, List.append_nil] at hsame
      exact ⟨status', calls', hw', hsame, fun r h => .go hturn (hleaves r h)⟩
    | stopped v =>
      have hturn := stopTurn_other tid ⟨⟨.stopped v :: ahead, fate⟩, status, calls⟩ v rfl
      obtain ⟨status', calls', hw', hsame, hleaves⟩ := ih
        (calls ++ [.cont tid (WSTOPSIG v.val)]) v.property.1
      rw [detached_append, detached_cont, List.append_nil] at hsame
      exact ⟨status', calls', hw', hsame, fun r h => .go hturn (hleaves r h)⟩

/-- A thread that is gone keeps the loop going for ever from the word of a stop: no wait
    writes another one. -/
theorem reaped_spins (htid : 0 < tid) (ahead : List Interim) (hw : WIFSTOPPED status = true)
    (fuel : Nat) : loop (stopTurn tid) fuel ⟨⟨ahead, .reaped⟩, status, calls⟩ = none := by
  apply loop_spins (I := fun s : StopState =>
    WIFSTOPPED s.status = true ∧ s.waits.fate = .reaped) _ ⟨hw, rfl⟩
  rintro ⟨⟨ahead, fate⟩, status, calls⟩ ⟨hw, rfl⟩
  cases ahead with
  | nil =>
    obtain ⟨signal, hturn⟩ := stopTurn_fails_stopped htid
      (s := ⟨⟨[], .reaped⟩, status, calls⟩) rfl hw
    exact ⟨_, hturn, hw, rfl⟩
  | cons i ahead =>
    cases i with
    | fails =>
      obtain ⟨signal, hturn⟩ := stopTurn_fails_stopped htid
        (s := ⟨⟨.fails :: ahead, .reaped⟩, status, calls⟩) rfl hw
      exact ⟨_, hturn, hw, rfl⟩
    | stopped v =>
      have hturn := stopTurn_other tid ⟨⟨.stopped v :: ahead, .reaped⟩, status, calls⟩ v rfl
      exact ⟨_, hturn, v.property.1, rfl⟩

end Thread

section Threads

variable {t : ListedThread} {status : Int32}

/-- Whatever is ahead, a wait that fails at first ends the loop for the thread when the
    status word is not that of a stop. -/
theorem leftWith_fails (hnext : t.waits.nextFails = true) (hw : WIFSTOPPED status = false) :
    LeftWith t status 0 t.waits.fate status := by
  intro calls
  obtain ⟨tid, htid, ahead, fate⟩ := t
  cases ahead with
  | nil =>
    cases fate with
    | stops w => cases hnext
    | exits w => cases hnext
    | reaped => exact ⟨[], calls, rfl, .leave (stopTurn_fails rfl hw)⟩
  | cons i ahead =>
    cases i with
    | fails => exact ⟨ahead, calls, rfl, .leave (stopTurn_fails rfl hw)⟩
    | stopped v => cases hnext

/-- A loop that does not start with a wait that fails under another word goes on to the
    last report. -/
theorem leaves_last (hgo : t.waits.nextFails = true → WIFSTOPPED status = true)
    (calls : List StopCall) :
    ∃ status' calls', detached calls' = detached calls ∧
      ∀ r, LeavesWith (stopTurn t.tid) ⟨⟨[], t.waits.fate⟩, status', calls'⟩ r →
        LeavesWith (stopTurn t.tid) ⟨t.waits, status, calls⟩ r := by
  obtain ⟨tid, htid, ahead, fate⟩ := t
  cases ahead with
  | nil => exact ⟨status, calls, rfl, fun _ h => h⟩
  | cons i ahead =>
    cases i with
    | fails =>
      obtain ⟨status', calls', -, hsame, hleaves⟩ :=
        leaves_of_stopped calls fate htid (.fails :: ahead) (hgo rfl)
      exact ⟨status', calls', hsame, hleaves⟩
    | stopped v =>
      have hturn := stopTurn_other tid ⟨⟨.stopped v :: ahead, fate⟩, status, calls⟩ v rfl
      obtain ⟨status', calls', -, hsame, hleaves⟩ := leaves_of_stopped
        (calls ++ [.cont tid (WSTOPSIG v.val)]) fate htid ahead v.property.1
      rw [detached_append, detached_cont, List.append_nil] at hsame
      exact ⟨status', calls', hsame, fun r h => .go hturn (hleaves r h)⟩

theorem leftWith_stops {w : SigstopWord} (hfate : t.waits.fate = .stops w)
    (hgo : t.waits.nextFails = true → WIFSTOPPED status = true) :
    LeftWith t status t.tid (.stops w) w.val := by
  intro calls
  obtain ⟨status', calls', hsame, hleaves⟩ := leaves_last hgo calls
  rw [hfate] at hleaves
  exact ⟨[], calls', hsame, hleaves _ (.leave (stopTurn_sigstop rfl))⟩

theorem leftWith_exits {w : EndWord} (hfate : t.waits.fate = .exits w)
    (hgo : t.waits.nextFails = true → WIFSTOPPED status = true) :
    LeftWith t status 0 .reaped w.val := by
  intro calls
  obtain ⟨status', calls', hsame, hleaves⟩ := leaves_last hgo calls
  rw [hfate] at hleaves
  exact ⟨[], calls', hsame, hleaves _ (.leave (stopTurn_end rfl))⟩

end Threads

/-- The loop over the threads returns. -/
def StopsTo (ts : List ListedThread) (status : Int32) (calls : List StopCall)
    (r : List ListedThread × List StopCall) : Prop :=
  ∃ fuel, stopThreads fuel ts status calls = some r

theorem stopThreads_mono {fuel fuel' : Nat} (hle : fuel ≤ fuel') {ts : List ListedThread}
    {status : Int32} {calls : List StopCall} {r : List ListedThread × List StopCall}
    (h : stopThreads fuel ts status calls = some r) :
    stopThreads fuel' ts status calls = some r := by
  induction ts generalizing status calls r with
  | nil => exact h
  | cons t ts ih =>
    rw [stopThreads] at h ⊢
    cases hloop : loop (stopTurn t.tid) fuel ⟨t.waits, status, calls⟩ with
    | none =>
      rw [hloop] at h
      cases h
    | some left =>
      rw [loop_mono hle hloop]
      rw [hloop] at h
      cases hrest : stopThreads fuel ts left.2.status (leaveThread left.1 left.2.calls) with
      | none =>
        simp only [hrest] at h
        cases h
      | some rest =>
        simp only [hrest, ih hrest] at h ⊢
        exact h

section List

variable {t : ListedThread} {ts ts' : List ListedThread} {status status' : Int32}
  {calls calls' : List StopCall} {left : Int} {fate : Fate}

variable (ts calls) in
theorem stopsTo_cons (h : LeftWith t status left fate status') :
    ∃ ahead calls₁, detached calls₁ = detached calls ∧
      ∀ r, StopsTo (t :: ts) status calls r ↔
        ∃ rest, StopsTo ts status' (leaveThread left calls₁) rest ∧
          r = ({ t with waits := ⟨ahead, fate⟩ } :: rest.1, rest.2) := by
  obtain ⟨ahead, calls₁, hsame, hleaves⟩ := h calls
  refine ⟨ahead, calls₁, hsame, fun r => ?_⟩
  constructor
  · rintro ⟨fuel, hfuel⟩
    rw [stopThreads] at hfuel
    cases hloop : loop (stopTurn t.tid) fuel ⟨t.waits, status, calls⟩ with
    | none =>
      rw [hloop] at hfuel
      cases hfuel
    | some out =>
      obtain rfl := LeavesWith.unique ⟨fuel, hloop⟩ hleaves
      rw [hloop] at hfuel
      cases hrest : stopThreads fuel ts status' (leaveThread left calls₁) with
      | none =>
        simp only [hrest] at hfuel
        cases hfuel
      | some rest =>
        simp only [hrest] at hfuel
        exact ⟨rest, ⟨fuel, hrest⟩, (Option.some.inj hfuel).symm⟩
  · rintro ⟨rest, ⟨fuel, hrest⟩, rfl⟩
    obtain ⟨fuel', hloop⟩ := hleaves
    refine ⟨max fuel fuel', ?_⟩
    have hrest' := stopThreads_mono (Nat.le_max_left fuel fuel') hrest
    rw [stopThreads, loop_mono (Nat.le_max_right fuel fuel') hloop]
    simp only [hrest']

theorem not_stopsTo_cons (h : ∀ fuel calls, loop (stopTurn t.tid) fuel ⟨t.waits, status, calls⟩ = none)
    (r : List ListedThread × List StopCall) : ¬ StopsTo (t :: ts) status calls r := by
  rintro ⟨fuel, hfuel⟩
  rw [stopThreads, h] at hfuel
  cases hfuel

end List

/-! ## When the loop serves every thread -/

/-- The status word suits the thread: a wait that fails at first finds the word of a
    stop when the thread is alive, and another one when it is gone. -/
def Served (status : Int32) (t : ListedThread) : Prop :=
  match t.waits.fate with
  | .stops _ | .exits _ => t.waits.nextFails = true → WIFSTOPPED status = true
  | .reaped => t.waits.nextFails = true ∧ WIFSTOPPED status = false

/-- The status word that a thread leaves for the next one: its last report. -/
def lastReport (status : Int32) (t : ListedThread) : Int32 :=
  match t.waits.fate with
  | .stops w => w.val
  | .exits w => w.val
  | .reaped => status

/-- The status word suits every thread of a list. -/
def AllServed : Int32 → List ListedThread → Prop
  | _, [] => True
  | status, t :: ts => Served status t ∧ AllServed (lastReport status t) ts

/-- What becomes of a thread: it is detached, or found gone, and otherwise left alive or
    waited for without end. -/
inductive Outcome (status : Int32) (t : ListedThread) : Prop
  | detached (w : SigstopWord) (hserved : Served status t)
      (hleft : LeftWith t status t.tid (.stops w) (lastReport status t))
  | gone (hserved : Served status t) (hleft : LeftWith t status 0 .reaped (lastReport status t))
  | missed (hserved : ¬ Served status t) (halive : t.alive = true)
      (hleft : LeftWith t status 0 t.waits.fate status)
  | spins (hserved : ¬ Served status t)
      (hloop : ∀ fuel calls, loop (stopTurn t.tid) fuel ⟨t.waits, status, calls⟩ = none)

theorem reaped_unserved {status : Int32} {t : ListedThread} (hfate : t.waits.fate = .reaped)
    (h : ¬ (t.waits.nextFails = true ∧ WIFSTOPPED status = false)) (fuel : Nat)
    (calls : List StopCall) : loop (stopTurn t.tid) fuel ⟨t.waits, status, calls⟩ = none := by
  obtain ⟨tid, htid, ahead, fate⟩ := t
  obtain rfl : fate = .reaped := hfate
  by_cases hw : WIFSTOPPED status = true
  · exact reaped_spins htid ahead hw fuel
  · -- it stopped with another signal first, and that word stays
    rw [Bool.not_eq_true] at hw
    cases ahead with
    | nil => exact absurd ⟨rfl, hw⟩ h
    | cons i ahead =>
      cases i with
      | fails => exact absurd ⟨rfl, hw⟩ h
      | stopped v =>
        have hturn := stopTurn_other tid ⟨⟨.stopped v :: ahead, .reaped⟩, status, calls⟩ v rfl
        cases fuel with
        | zero => rfl
        | succ fuel =>
          rw [loop_go hturn]
          exact reaped_spins htid ahead v.property.1 fuel

theorem outcome (status : Int32) (t : ListedThread) : Outcome status t := by
  by_cases hserved : Served status t
  · cases hfate : t.waits.fate with
    | stops w =>
      simp only [Served, hfate] at hserved
      have hleft := leftWith_stops hfate hserved
      exact .detached w (by simp only [Served, hfate]; exact hserved)
        (by simp only [lastReport, hfate]; exact hleft)
    | exits w =>
      simp only [Served, hfate] at hserved
      have hleft := leftWith_exits hfate hserved
      exact .gone (by simp only [Served, hfate]; exact hserved)
        (by simp only [lastReport, hfate]; exact hleft)
    | reaped =>
      simp only [Served, hfate] at hserved
      have hleft := leftWith_fails hserved.1 hserved.2
      rw [hfate] at hleft
      exact .gone (by simp only [Served, hfate]; exact hserved)
        (by simp only [lastReport, hfate]; exact hleft)
  · cases halive : t.alive with
    | true =>
      -- the first wait failed, under a word that is not that of a stop
      have hno : ¬ (t.waits.nextFails = true → WIFSTOPPED status = true) := by
        intro h
        apply hserved
        cases hfate : t.waits.fate with
        | stops w => simpa only [Served, hfate] using h
        | exits w => simpa only [Served, hfate] using h
        | reaped =>
          rw [ListedThread.alive, hfate] at halive
          cases halive
      rw [Classical.not_imp, Bool.not_eq_true] at hno
      exact .missed hserved halive (leftWith_fails hno.1 hno.2)
    | false =>
      have hfate : t.waits.fate = .reaped := by
        cases hfate : t.waits.fate with
        | stops w => rw [ListedThread.alive, hfate] at halive; cases halive
        | exits w => rw [ListedThread.alive, hfate] at halive; cases halive
        | reaped => rfl
      refine .spins hserved (reaped_unserved hfate ?_)
      intro h
      apply hserved
      simpa only [Served, hfate] using h

def living (ts : List ListedThread) : List Int := (ts.filter ListedThread.alive).map ListedThread.tid

theorem living_cons (t : ListedThread) (ts : List ListedThread) :
    living (t :: ts) = (if t.alive then [t.tid] else []) ++ living ts := by
  cases h : t.alive with
  | true => simp only [living, List.filter_cons, h, ↓reduceIte, List.map_cons, List.singleton_append]
  | false => simp only [living, List.filter_cons, h, Bool.false_eq_true, ↓reduceIte, List.nil_append]

section Run

variable {ts ts' : List ListedThread} {status : Int32} {calls calls' : List StopCall}

theorem leaveThread_listed (t : ListedThread) (calls : List StopCall) :
    detached (leaveThread t.tid calls) = detached calls ++ [t.tid] := by
  have hne : t.tid ≠ 0 := by
    have hpos := t.tid_pos
    omega
  rw [leaveThread, if_pos hne, detached_append, detached_detach]

theorem leaveThread_zero (calls : List StopCall) : leaveThread 0 calls = calls :=
  if_neg fun h => h rfl

/-- Run lemma: the threads stay listed, and what is detached are threads that did not
    end, each once and in order. -/
theorem stopsTo_sublist (h : StopsTo ts status calls (ts', calls')) :
    ts'.map ListedThread.tid = ts.map ListedThread.tid ∧
      ∃ tids, detached calls' = detached calls ++ tids ∧ tids.Sublist (living ts') := by
  induction ts generalizing status calls ts' with
  | nil =>
    obtain ⟨_, h⟩ := h
    cases h
    exact ⟨rfl, [], (List.append_nil _).symm, List.Sublist.refl _⟩
  | cons t ts ih =>
    cases outcome status t with
    | detached w _ hleft =>
      obtain ⟨ahead, calls₁, hsame, hcons⟩ := stopsTo_cons ts calls hleft
      obtain ⟨rest, hrest, hr⟩ := (hcons _).mp h
      cases hr
      obtain ⟨htids, tids, hdetached, hsub⟩ := ih hrest
      refine ⟨congrArg (t.tid :: ·) htids, t.tid :: tids, ?_, ?_⟩
      · rw [hdetached, leaveThread_listed, hsame, List.append_assoc, List.singleton_append]
      · rw [living_cons]
        exact List.Sublist.cons_cons _ hsub
    | gone _ hleft =>
      obtain ⟨ahead, calls₁, hsame, hcons⟩ := stopsTo_cons ts calls hleft
      obtain ⟨rest, hrest, hr⟩ := (hcons _).mp h
      cases hr
      obtain ⟨htids, tids, hdetached, hsub⟩ := ih hrest
      refine ⟨congrArg (t.tid :: ·) htids, tids, ?_, ?_⟩
      · rw [hdetached, leaveThread_zero, hsame]
      · rw [living_cons]
        exact hsub
    | missed _ _ hleft =>
      obtain ⟨ahead, calls₁, hsame, hcons⟩ := stopsTo_cons ts calls hleft
      obtain ⟨rest, hrest, hr⟩ := (hcons _).mp h
      cases hr
      obtain ⟨htids, tids, hdetached, hsub⟩ := ih hrest
      refine ⟨congrArg (t.tid :: ·) htids, tids, ?_, ?_⟩
      · rw [hdetached, leaveThread_zero, hsame]
      · rw [living_cons]
        exact hsub.trans (List.sublist_append_right _ _)
    | spins _ hloop => exact absurd h (not_stopsTo_cons hloop _)

variable (calls) in
/-- Every thread that did not end is detached, once and in order, exactly when the
    status word suits every thread. -/
theorem stopsTo_living_iff :
    (∃ ts' calls', StopsTo ts status calls (ts', calls') ∧
      detached calls' = detached calls ++ living ts') ↔ AllServed status ts := by
  induction ts generalizing status calls with
  | nil => exact ⟨fun _ => trivial, fun _ => ⟨[], calls, ⟨0, rfl⟩, (List.append_nil _).symm⟩⟩
  | cons t ts ih =>
    rw [AllServed]
    cases outcome status t with
    | detached w hserved hleft =>
      obtain ⟨ahead, calls₁, hsame, hcons⟩ := stopsTo_cons ts calls hleft
      rw [and_iff_right hserved, ← ih (leaveThread t.tid calls₁)]
      constructor
      · rintro ⟨ts', calls', h, hliving⟩
        obtain ⟨rest, hrest, hr⟩ := (hcons _).mp h
        cases hr
        refine ⟨rest.1, rest.2, hrest, ?_⟩
        rw [hliving, living_cons, leaveThread_listed, hsame, List.append_assoc]
        rfl
      · rintro ⟨ts', calls', h, hliving⟩
        refine ⟨_, _, (hcons _).mpr ⟨_, h, rfl⟩, ?_⟩
        rw [hliving, living_cons, leaveThread_listed, hsame, List.append_assoc]
        rfl
    | gone hserved hleft =>
      obtain ⟨ahead, calls₁, hsame, hcons⟩ := stopsTo_cons ts calls hleft
      rw [and_iff_right hserved, ← ih (leaveThread 0 calls₁)]
      constructor
      · rintro ⟨ts', calls', h, hliving⟩
        obtain ⟨rest, hrest, hr⟩ := (hcons _).mp h
        cases hr
        refine ⟨rest.1, rest.2, hrest, ?_⟩
        rw [hliving, living_cons, leaveThread_zero, hsame]
        rfl
      · rintro ⟨ts', calls', h, hliving⟩
        refine ⟨_, _, (hcons _).mpr ⟨_, h, rfl⟩, ?_⟩
        rw [hliving, living_cons, leaveThread_zero, hsame]
        rfl
    | missed hserved halive hleft =>
      refine iff_of_false ?_ fun h => hserved h.1
      rintro ⟨ts', calls', h, hliving⟩
      obtain ⟨ahead, calls₁, hsame, hcons⟩ := stopsTo_cons ts calls hleft
      obtain ⟨rest, hrest, hr⟩ := (hcons _).mp h
      cases hr
      obtain ⟨-, tids, hdetached, hsub⟩ := stopsTo_sublist hrest
      -- the thread that was missed would have to be among the detached ones behind it
      rw [hdetached, leaveThread_zero, hsame] at hliving
      have halive' : ListedThread.alive { t with waits := ⟨ahead, t.waits.fate⟩ } = true := halive
      have htids := List.append_cancel_left hliving
      rw [living_cons, halive'] at htids
      have hlength := hsub.length_le
      rw [htids] at hlength
      exact absurd hlength (Nat.not_succ_le_self _)
    | spins hserved hloop =>
      refine iff_of_false ?_ fun h => hserved h.1
      rintro ⟨ts', calls', h, -⟩
      exact not_stopsTo_cons hloop _ h

end Run

/-- `StopDebug` returns; the threads that did not end are detached, each once; the
    process is no longer debugged and the sockets of the debugger are closed. -/
def StopDebugComplete (p : DebuggedProcess) (status : Int32) : Prop :=
  ∃ fuel r, stopDebug fuel p status = some r ∧
    r.process.threadlist.map ListedThread.tid = p.threadlist.map ListedThread.tid ∧
    detached r.calls = living r.process.threadlist ∧
    r.process.isDebugged = false ∧ r.process.debuggerClient = 0 ∧ r.process.debuggerServer = 0 ∧
    ∀ socket, socket ≠ 0 → socket = p.debuggerClient ∨ socket = p.debuggerServer →
      socket ∈ r.closed

theorem allServed_of_complete {p : DebuggedProcess} {status : Int32}
    (h : StopDebugComplete p status) : AllServed status p.threadlist := by
  obtain ⟨fuel, r, hstop, -, hliving, -⟩ := h
  rw [stopDebug] at hstop
  cases hthreads : stopThreads fuel p.threadlist status [] with
  | none =>
    rw [hthreads] at hstop
    cases hstop
  | some out =>
    rw [hthreads] at hstop
    cases hstop
    exact (stopsTo_living_iff []).mp ⟨out.1, out.2, ⟨fuel, hthreads⟩, hliving⟩

end CheatEngine.Ceserver
