/-
  CheatEngine.Ceserver.EventSession

  Debug sessions and the record of events: what a continue, a wait that comes
  back and a report of the kernel have to respect so that the event of every
  paused thread stays on record, and that every run of such steps keeps it
  there.  The commands that stop a thread to reach the memory of the process
  wait for any thread and without a time limit, so each is one step.
-/
import CheatEngine.Ceserver.EventRecord

namespace CheatEngine.Ceserver

open CheatEngine.Lib

/-! ## `ContinueFromDebugEvent` -/

/-- A continue leaves the record of the current event's thread in order, and a
    thread that is lost to a failed request leaves nothing behind.  Whatever
    else the continue does, it clears the current event only. -/
structure Continuable (k : Kernel) (s : DebugSession) (tid ignoresignal : Int32) : Prop where
  /-- The current event is that of the thread that is let go, unless the
      thread is suspended or not stopped, or its event is also queued. -/
  current : ∀ t ∈ s.process.threadlist, t.isPaused = true → t.suspendCount = 0 →
    s.process.debuggedThreadEvent.threadid = t.tid.toInt64 → ¬ s.process.Queued t.tid →
    0 ≤ s.process.debuggedThreadEvent.debugevent.toInt ∧
      (t.tid = tid ∨ ∃ i ∈ s.process.slot tid,
        0 < s.process.suspendCount i ∨ k.getSigInfo tid = none)
  /-- The request succeeds, or no command waits and no event of the thread is
      queued. -/
  removed : ∀ i ∈ s.process.slot tid, s.process.suspendCount i = 0 →
    0 ≤ s.process.debuggedThreadEvent.debugevent.toInt → ∀ si ∈ k.getSigInfo tid,
    (resumeThreadWith k tid ignoresignal (passedSignal ignoresignal si)).2.toInt < 0 →
    s.stack = [] ∧ ¬ s.process.Queued tid

namespace Recorded

open ProcessData

variable {p : ProcessData} {rest : List Frame} {tid : Int32} {i : Nat} {de : DebugEvent}

theorem clear (h : Recorded none p rest) (hde : de.threadid = 0)
    (hqueued : ∀ t ∈ p.threadlist, t.isPaused = true → t.suspendCount = 0 →
      p.debuggedThreadEvent.threadid = t.tid.toInt64 → p.Queued t.tid) :
    Recorded none { p with debuggedThreadEvent := de } rest :=
  { h with
    paused := fun t ht hpaused hcount => by
      rcases h.paused t ht hpaused hcount with hnone | hcurrent | hqueue
      · exact nomatch hnone
      · exact .inr (.inr (hqueued t ht hpaused hcount hcurrent))
      · exact .inr (.inr hqueue)
    waiting := fun _ _ _ => hde }

theorem remove (h : Recorded none p []) (hqueue : ¬ p.Queued tid) :
    Recorded none (p.removeThread tid) [] := by
  have hsub : (p.removeThread tid).tids.Sublist p.tids := List.eraseP_sublist.map _
  constructor
  · exact fun t ht => h.paused t (List.mem_of_mem_eraseP ht)
  · intro e he
    obtain ⟨tid', htid', hthread⟩ := h.listed e he
    refine ⟨tid', ?_, hthread⟩
    have hne : tid' ≠ tid := by
      rintro rfl
      exact hqueue ⟨e, he, hthread⟩
    obtain ⟨t, ht, rfl⟩ := List.mem_map.1 htid'
    exact List.mem_map_of_mem ((List.mem_eraseP_of_neg (by simpa using hne)).2 ht)
  · exact fun t ht => h.stored t (List.mem_of_mem_eraseP ht)
  · exact fun tid' htid' => h.positive tid' (hsub.subset htid')
  · exact h.nodup.sublist hsub
  · exact nofun
  · exact nofun
  · exact h.single

/-- A thread that runs is not on record for the current event. -/
theorem letGo (h : Recorded none p rest) (hslot : p.slot tid = some i) :
    Recorded none (p.setPaused i false) rest ∧
      ∀ t ∈ (p.setPaused i false).threadlist, t.isPaused = true → t ∈ p.threadlist ∧ t.tid ≠ tid := by
  have hheld : Recorded (some tid) p rest := h.weaken
  refine ⟨hheld.drop hslot, ?_⟩
  intro t ht hpaused
  obtain ⟨t₀, ht₀, rfl⟩ := thread_of_slot hslot
  rcases mem_modify h.nodup ht₀ ht with rfl | hother
  · exact nomatch hpaused
  · exact hother

end Recorded

section Continue

open ProcessData

variable {s : DebugSession} {k : Kernel} {tid ignoresignal : Int32}

theorem recorded_continueFromDebugEvent (h : Recorded none s.process s.stack)
    (hc : Continuable k s tid ignoresignal) :
    KeepsRecorded s.stack
      (some ((continueFromDebugEvent k s.process tid ignoresignal).2.1, none, [])) := by
  obtain ⟨p, stack, results⟩ := s
  apply records_done
  simp only at h ⊢
  unfold continueFromDebugEvent
  by_cases hvirtual : p.debuggedThreadEvent.debugevent.toInt < 0
  · -- the thread of a virtual event is not let go
    rw [if_pos hvirtual]
    refine h.clear rfl fun t ht hpaused hcount hcurrent => ?_
    by_contra hqueue
    have hreal := (hc.current t ht hpaused hcount hcurrent hqueue).1
    simp only at hreal
    omega
  rw [if_neg hvirtual]
  cases hslot : p.slot tid with
  | none =>
    refine h.clear rfl fun t ht hpaused hcount hcurrent => ?_
    by_contra hqueue
    rcases (hc.current t ht hpaused hcount hcurrent hqueue).2 with rfl | ⟨i, hi, -⟩
    · exact slot_ne_none (tid_mem_tids ht) hslot
    · cases hslot.symm.trans hi
  | some i =>
    simp only
    by_cases hcount : (p.thread i).elim 0 ThreadData.suspendCount > 0
    · rw [if_pos hcount]
      exact h
    · rw [if_neg hcount]
      have hzero : p.suspendCount i = 0 := Nat.eq_zero_of_not_pos hcount
      cases hsi : k.getSigInfo tid with
      | none => exact h
      | some si =>
        obtain ⟨hrecorded, hothers⟩ := h.letGo hslot
        -- the current event was that of the thread that runs now
        have hclear : ∀ t ∈ (p.setPaused i false).threadlist, t.isPaused = true →
            t.suspendCount = 0 →
              (p.setPaused i false).debuggedThreadEvent.threadid = t.tid.toInt64 →
                (p.setPaused i false).Queued t.tid := by
          intro t ht hpaused hsuspended hcurrent
          obtain ⟨hmem, hne⟩ := hothers t ht hpaused
          by_contra hqueue
          rcases (hc.current t hmem hpaused hsuspended hcurrent hqueue).2 with heq |
            ⟨j, hj, hkept⟩
          · exact hne heq
          · cases hslot.symm.trans hj
            rcases hkept with hpos | hnone
            · exact absurd hpos (by simp [hzero])
            · cases hsi.symm.trans hnone
        have hcleared : Recorded none { p.setPaused i false with
            debuggedThreadEvent := { p.debuggedThreadEvent with threadid := 0 } } stack :=
          hrecorded.clear rfl hclear
        by_cases hfail : (resumeThreadWith k tid ignoresignal
            (passedSignal ignoresignal si)).2.toInt < 0
        · simp only [if_pos hfail]
          obtain ⟨rfl, hqueue⟩ :=
            hc.removed i hslot hzero (Int.not_lt.1 hvirtual) si hsi hfail
          exact hcleared.remove hqueue
        · simp only [if_neg hfail]
          exact hcleared

end Continue

/-! ## Frames -/

/-- A frame may get back without an event: the thread that is suspended has an
    event of its own, and a pausing command that stops waiting has one for the
    queue or one that lets the thread run. -/
def Frame.Ready (p : ProcessData) : Frame → Prop
  | .suspend tid i => p.paused i = true → ∀ t ∈ p.thread i,
      t.suspendedDevent.threadid = tid.toInt64
  | .wait _ => True
  | .pause _ tid i tries de _ => ¬ p.paused i = true ∧ tries + 1 < 10 ∨
      de.debugevent = SIGSTOP ∨ de.threadid = tid.toInt64

/-- The event of a thread that the frame does not wait for is that of a thread
    of the process, and is not written over the event of a suspended one. -/
def Frame.Admits (p : ProcessData) (tid : Int32) (f : Frame) : Prop :=
  f.wanted = -1 ∨ tid = f.wanted ∨ tid ∈ p.tids ∧
    match f with
    | .suspend _ i => p.suspendCount i = 0
    | _ => True

section Frames

open ProcessData

variable {p : ProcessData} {rest : List Frame} {f : Frame} {tid : Int32} {i : Nat}
  {garbage de : DebugEvent} {k : Kernel} {results : List CountResult}

theorem records_release (h : Recorded (some tid) p rest) (hslot : p.slot tid = some i)
    (kind : PauseCommand) (hde : de.debugevent = SIGSTOP ∨ de.threadid = tid.toInt64)
    {p' : ProcessData} (hp' : release kind p tid i de = some p') : Recorded none p' rest := by
  have hplace : (if kind = .setBreakpoint then some i else p.slot tid) = some i := by
    split
    · rfl
    · exact hslot
  rw [release, hplace, Option.map_some] at hp'
  by_cases hstop : de.debugevent ≠ SIGSTOP
  · rw [if_pos hstop] at hp'
    cases hp'
    exact h.requeue hslot (hde.resolve_left hstop)
  · rw [if_neg hstop] at hp'
    cases hp'
    exact h.drop hslot

theorem records_pauseReturned (h : Recorded (some tid) p rest) (hslot : p.slot tid = some i)
    (kind : PauseCommand) (hde : de.debugevent = SIGSTOP ∨ de.threadid = tid.toInt64)
    (next : Option Nat) :
    KeepsRecorded rest ((release kind p tid i de).map fun p =>
      (p, next.bind fun j => pauseAll kind garbage p p.threadlist.length j, [])) := by
  cases hp' : release kind p tid i de with
  | none => exact nofun
  | some p' =>
    have hrecorded := records_release h hslot kind hde hp'
    rw [Option.map_some]
    cases next with
    | none => exact records_done hrecorded
    | some j => exact records_pauseAll hrecorded kind _ j

theorem records_returned_event (h : Recorded (some tid) p (f :: rest))
    (hwanted : f.wanted = -1 ∨ tid = f.wanted) (hde : de.threadid = tid.toInt64) :
    KeepsRecorded rest (f.returned garbage p (some de)) := by
  have hpoints := h.points f (List.mem_cons_self ..)
  cases f with
  | suspend t i =>
    obtain rfl : tid = t := hwanted.resolve_left (h.ne_any hpoints)
    exact records_stored h.tail hpoints hde
  | wait timeout =>
    have hsingle := h.single
    rw [List.countP_cons_of_pos rfl] at hsingle
    have hcurrent := h.waiting _ (List.mem_cons_self ..) rfl
    exact records_done (h.tail.report hcurrent hde (by omega))
  | pause kind t i tries _ next =>
    obtain rfl : tid = t := hwanted.resolve_left (h.ne_any hpoints)
    have hgiven : ¬ (some de = none ∧ ¬ p.paused i = true ∧ tries + 1 < 10) := fun h => nomatch h.1
    simp only [Frame.returned, if_neg hgiven]
    exact records_pauseReturned h.tail hpoints kind (.inr hde) next

/-- A frame gets back without an event. -/
theorem records_returned_none (h : Recorded none p (f :: rest)) (hready : f.Ready p) :
    KeepsRecorded rest (f.returned garbage p none) := by
  have hpoints := h.points f (List.mem_cons_self ..)
  cases f with
  | suspend tid i =>
    simp only [Frame.returned]
    by_cases hpaused : p.paused i = true
    · rw [if_pos hpaused]
      exact records_suspended h.tail.weaken hpoints fun t ht => hready hpaused t ht
    · rw [if_neg hpaused]
      exact records_frame h
  | wait timeout => exact records_done h.tail
  | pause kind tid i tries de next =>
    by_cases hwait : ¬ p.paused i = true ∧ tries + 1 < 10
    · simp only [Frame.returned, true_and, if_pos hwait]
      exact records_frame (h.tail.push hpoints rfl)
    · simp only [Frame.returned, true_and, if_neg hwait]
      exact records_pauseReturned h.tail.weaken hpoints kind (hready.resolve_left hwait) next

/-- An event that nothing waits for is queued. -/
theorem recorded_unexpected (h : Recorded (some tid) p (f :: rest)) (hlisted : tid ∈ p.tids)
    (hfree : ∀ t i, f = .suspend t i → p.suspendCount i = 0) (hde : de.threadid = tid.toInt64) :
    Recorded none (f.unexpected p de).1 ((f.unexpected p de).2 :: rest) := by
  have hpoints := h.points f (List.mem_cons_self ..)
  cases f with
  | suspend t i =>
    have hstore : Recorded (some tid) (p.setSuspendedDevent i de) (.suspend t i :: rest) :=
      h.store hpoints fun hpos => absurd hpos (by simp [hfree t i rfl])
    exact hstore.enqueue (tids_setSuspendedDevent (p := p) ▸ hlisted) hde
  | wait timeout => exact h.enqueue hlisted hde
  | pause kind t i tries _ next =>
    have hqueued := h.enqueue hlisted hde
    exact hqueued.tail.push hpoints rfl

theorem recorded_checkQueue (h : Recorded none p rest) {s : DebugSession}
    (hs : checkQueue k garbage p rest results = some s) : Recorded none s.process s.stack := by
  induction rest generalizing p results with
  | nil =>
    cases hs
    exact h
  | cons f rest ih =>
    rw [checkQueue] at hs
    cases hfind : p.findThreadDebugEventInQueue f.wanted with
    | none =>
      rw [hfind] at hs
      cases hs
      exact h
    | some e =>
      rw [hfind] at hs
      simp only at hs
      -- the event is that of a thread of the process
      obtain ⟨tid, htid, hthread⟩ := h.listed e (List.mem_of_find?_eq_some hfind)
      have hetid : e.tid = tid := by rw [DebugEvent.tid, hthread, tid_toInt64]
      have hpos := h.positive tid htid
      rw [hetid, if_neg (by omega), hthread] at hs
      have htaken := (h.dequeue tid).take
      have hwanted : f.wanted = -1 ∨ tid = f.wanted := by
        rcases thread_of_find hfind with hany | heq
        · exact .inl hany
        · exact .inr (toInt64_inj.1 (hthread.symm.trans heq))
      generalize (p.removeThreadDebugEventFromQueue tid.toInt64).markPaused tid = p' at hs htaken
      have hreturned : KeepsRecorded rest (f.returned garbage p' (some { garbage with
          debugevent := (k.getSigInfo tid).getD (-1), threadid := tid.toInt64 })) :=
        records_returned_event htaken hwanted rfl
      cases hr : f.returned garbage p' (some { garbage with
          debugevent := (k.getSigInfo tid).getD (-1), threadid := tid.toInt64 }) with
      | none =>
        rw [hr] at hs
        cases hs
      | some r =>
        obtain ⟨p'', f', counted⟩ := r
        rw [hr] at hs
        have hrecorded := hreturned p'' f' counted hr
        cases f' with
        | none => exact ih hrecorded hs
        | some f' =>
          cases hs
          exact hrecorded

theorem recorded_proceed {r : Progress} (h : KeepsRecorded rest r) {s : DebugSession}
    (hs : proceed k garbage rest results r = some s) : Recorded none s.process s.stack := by
  match r with
  | none => exact nomatch hs
  | some (p, none, counted) => exact recorded_checkQueue (h p none counted rfl) hs
  | some (p, some f, counted) =>
    cases hs
    exact h p (some f) counted rfl

end Frames

/-! ## Memory -/

/-- The end of `ReadProcessMemoryDebug` and `WriteProcessMemoryDebug`, with the
    event of the thread that they stopped. -/
def endAccess (p : ProcessData) (tid : Int32) (de : DebugEvent) : ProcessData :=
  if de.debugevent = SIGSTOP then
    match p.slot tid with
    | some i => p.setPaused i false
    | none => p
  else (p.markPaused tid).addDebugEventToQueue de

/-- `ReadProcessMemoryDebug` and `WriteProcessMemoryDebug`, as far as they touch
    the threads.  `stop` is the stop that `waitpid` reports, `none` when it
    fails; only the reading command looks at that. -/
def accessMemory (garbage : DebugEvent) (p : ProcessData) (write : Bool)
    (stop : Option (Int32 × Int32)) : ProcessData :=
  if p.findPausedThread ≠ 0 then p
  else
    match stop with
    | some (tid, signal) =>
      endAccess (p.markPaused tid) tid
        { garbage with debugevent := signal, threadid := tid.toInt64 }
    | none => if write then endAccess p 0 { garbage with threadid := 0 } else p

/-- What happens next in a session. -/
inductive SessionInput
  | debug (input : DebugInput)
  /-- A command on the memory, and the stop that it waits for if no thread is
      paused. -/
  | memory (write : Bool) (stop : Option (Int32 × Int32))

/-- One step of a session; `none` when it brings the server down. -/
def DebugSession.serve (k : Kernel) (garbage : DebugEvent) (s : DebugSession) :
    SessionInput → Option DebugSession
  | .debug input => s.step k garbage input
  | .memory write stop =>
    if s.stack.all Frame.timed then
      checkQueue k garbage (accessMemory garbage s.process write stop) s.stack s.results
    else some s

section Memory

open ProcessData

variable {p : ProcessData} {rest : List Frame} {tid : Int32} {garbage de : DebugEvent}

theorem tids_markPaused : (p.markPaused tid).tids = p.tids := by
  unfold markPaused
  split
  · exact tids_modify fun _ => rfl
  · rfl

/-- The thread goes on, or its event is queued. -/
theorem recorded_endAccess (h : Recorded (some tid) p rest)
    (hde : de.debugevent = SIGSTOP ∨ tid ∈ p.tids ∧ de.threadid = tid.toInt64) :
    Recorded none (endAccess p tid de) rest := by
  unfold endAccess
  by_cases hstop : de.debugevent = SIGSTOP
  · rw [if_pos hstop]
    cases hslot : p.slot tid with
    | some i => exact h.drop hslot
    | none =>
      -- no thread of the process has its event in hand
      refine { h with paused := fun t ht hpaused hcount => ?_ }
      rcases h.paused t ht hpaused hcount with heq | hrecord
      · cases heq
        exact absurd hslot (slot_ne_none (tid_mem_tids ht))
      · exact .inr hrecord
  · rw [if_neg hstop]
    obtain ⟨hlisted, hthread⟩ := hde.resolve_left hstop
    exact h.take.enqueue (tids_markPaused (p := p) ▸ hlisted) hthread

/-- A memory command that stops a thread stops one of the process, or one that
    goes on at once; a write whose wait fails finds a `SIGSTOP` on the stack. -/
def Accessible (garbage : DebugEvent) (p : ProcessData) (write : Bool) :
    Option (Int32 × Int32) → Prop
  | some (tid, signal) => p.findPausedThread = 0 → signal = SIGSTOP ∨ tid ∈ p.tids
  | none => p.findPausedThread = 0 → write = true → garbage.debugevent = SIGSTOP

theorem recorded_accessMemory (h : Recorded none p rest) (write : Bool)
    {stop : Option (Int32 × Int32)} (hc : Accessible garbage p write stop) :
    Recorded none (accessMemory garbage p write stop) rest := by
  unfold accessMemory
  by_cases hpaused : p.findPausedThread ≠ 0
  · rw [if_pos hpaused]
    exact h
  rw [if_neg hpaused]
  have hnone : p.findPausedThread = 0 := not_not.1 hpaused
  match stop with
  | some (tid, signal) =>
    have htaken : Recorded (some tid) (p.markPaused tid) rest := h.weaken.take
    refine recorded_endAccess htaken ?_
    rcases hc hnone with hstop | hlisted
    · exact .inl hstop
    · refine .inr ⟨?_, rfl⟩
      rwa [tids_markPaused]
  | none =>
    simp only
    by_cases hwrite : write = true
    · rw [if_pos hwrite]
      exact recorded_endAccess h.weaken (.inl (hc hnone hwrite))
    · rw [if_neg hwrite]
      exact h

end Memory

/-! ## Steps and runs -/

/-- What a step of the debugger thread has to respect for the record: no wait
    for events begins inside another one, a continue is in order, an unexpected
    event has a thread of the process, and no wait is given up with an event of
    nobody. -/
def Recordable (k : Kernel) (s : DebugSession) : DebugInput → Prop
  | .command (.waitForDebugEvent _) => s.process.debuggedThreadEvent.threadid = 0 →
      ∀ f ∈ s.stack, f.isWait = false
  | .command (.continueFromDebugEvent tid ignoresignal) => Continuable k s tid ignoresignal
  | .stop tid _ => ∀ f ∈ s.stack.head?, f.Admits s.process tid
  | .timeout => ∀ f ∈ s.stack.head?, f.Ready s.process
  | _ => True

/-- What a step of a session has to respect. -/
def Servable (k : Kernel) (garbage : DebugEvent) (s : DebugSession) : SessionInput → Prop
  | .debug input => Recordable k s input
  | .memory write stop => Accessible garbage s.process write stop

section Steps

open ProcessData

variable {s s' : DebugSession} {k : Kernel} {garbage : DebugEvent}

theorem records_beginCommand (h : Recorded none s.process s.stack) {c : DebugCommand}
    (hc : Recordable k s (.command c)) :
    KeepsRecorded s.stack (beginCommand k garbage s.process c) := by
  cases c with
  | suspendThread tid => exact records_suspendThread h
  | resumeThread tid => exact records_resumeThread h
  | waitForDebugEvent timeout =>
    refine recorded_waitForDebugEvent h timeout fun hcurrent => List.countP_eq_zero.2 ?_
    intro f hf
    simp [hc hcurrent f hf]
  | continueFromDebugEvent tid ignoresignal => exact recorded_continueFromDebugEvent h hc
  | pause kind tid => exact records_pauseThread h kind

theorem recorded_step (h : Recorded none s.process s.stack) {input : DebugInput}
    (hc : Recordable k s input) (hs : s.step k garbage input = some s') :
    Recorded none s'.process s'.stack := by
  obtain ⟨p, stack, results⟩ := s
  cases input with
  | command c =>
    rw [DebugSession.step] at hs
    by_cases htimed : stack.all Frame.timed = true
    · rw [if_pos htimed] at hs
      exact recorded_proceed (records_beginCommand h hc) hs
    · rw [if_neg htimed] at hs
      cases hs
      exact h
  | stop tid signal =>
    cases stack with
    | nil =>
      cases hs
      exact h
    | cons f rest =>
      rw [DebugSession.step] at hs
      simp only at hs
      have htaken : Recorded (some tid) (p.markPaused tid) (f :: rest) := h.weaken.take
      by_cases hwanted : f.wanted = -1 ∨ tid = f.wanted
      · rw [if_pos hwanted] at hs
        exact recorded_proceed (records_returned_event htaken hwanted rfl) hs
      · rw [if_neg hwanted] at hs
        cases hs
        obtain ⟨hlisted, hfree⟩ : tid ∈ p.tids ∧ _ :=
          ((hc f rfl).resolve_left fun h => hwanted (.inl h)).resolve_left
            fun h => hwanted (.inr h)
        have hcounts := counts_markPaused (p := p) tid
        apply recorded_unexpected htaken ?_ ?_ rfl
        · rwa [tids_markPaused]
        · rintro t i rfl
          rw [suspendCount_eq, hcounts, ← suspendCount_eq]
          exact hfree
  | wake =>
    rw [DebugSession.step] at hs
    by_cases htimed : stack.all Frame.timed = true
    · rw [if_pos htimed] at hs
      exact recorded_checkQueue h hs
    · rw [if_neg htimed] at hs
      cases hs
      exact h
  | timeout =>
    cases stack with
    | nil =>
      cases hs
      exact h
    | cons f rest => exact recorded_proceed (records_returned_none h (hc f rfl)) hs

theorem recorded_serve (h : Recorded none s.process s.stack) {input : SessionInput}
    (hc : Servable k garbage s input) (hs : s.serve k garbage input = some s') :
    Recorded none s'.process s'.stack := by
  cases input with
  | debug input => exact recorded_step h hc hs
  | memory write stop =>
    rw [DebugSession.serve] at hs
    by_cases htimed : s.stack.all Frame.timed = true
    · rw [if_pos htimed] at hs
      exact recorded_checkQueue (recorded_accessMemory h write hc) hs
    · rw [if_neg htimed] at hs
      cases hs
      exact h

end Steps

/-- One input with the kernel's answers and the content of unwritten events;
    `none` once the server is down. -/
def serveStep (s : Option DebugSession) (input : Kernel × DebugEvent × SessionInput) :
    Option DebugSession :=
  s.bind fun s => s.serve input.1 input.2.1 input.2.2

/-- The step respects the record. -/
def ServableStep (s : Option DebugSession) (input : Kernel × DebugEvent × SessionInput) : Prop :=
  ∀ s', s = some s' → Servable input.1 input.2.1 s' input.2.2

/-- The session that `StartDebug` begins, for the tasks of a process that nobody
    debugs: their numbers are positive and their own, and the first task has the
    number of the process. -/
structure DebugSession.Started (s : DebugSession) (p : ProcessData) (tasks : List Int32) : Prop where
  process : s.process = p.startDebug (some tasks)
  stack : s.stack = []
  isDebugged : p.isDebugged = false
  queue : p.debugEventQueue = []
  positive : ∀ tid ∈ tasks, 0 < tid.toInt
  nodup : tasks.Nodup
  pid : p.pid ∈ tasks

section Started

open ProcessData

/-- The tasks that are attached so far: nothing is paused, and their events are
    queued, with the one of the process. -/
structure AttachedSoFar (pid : Int32) (q : ProcessData) (done : List Int32) : Prop where
  process : q.pid = pid
  threadlist : q.threadlist = done.map fun tid => ⟨tid, false, 0, ⟨0, 0, 0⟩⟩
  queue : ∀ e ∈ q.debugEventQueue, e.threadid = pid.toInt64 ∨ ∃ tid ∈ done, e.threadid = tid.toInt64

theorem attachTask_eq (q : ProcessData) (tid : Int32) :
    (q.attachTask tid).pid = q.pid ∧
      (q.attachTask tid).threadlist = q.threadlist ++ [⟨tid, false, 0, ⟨0, 0, 0⟩⟩] ∧
        (q.attachTask tid).debugEventQueue = q.debugEventQueue ++
          ((if q.isDebugged then [] else [⟨-2, q.pid.toInt64, 0x40000⟩]) ++
            [⟨-1, tid.toInt64, 0⟩]) := by
  cases hdebugged : q.isDebugged <;>
    simp [attachTask, addDebugEventToQueue, clearCurrent, hdebugged]

theorem AttachedSoFar.next {pid : Int32} {q : ProcessData} {done : List Int32}
    (h : AttachedSoFar pid q done) (tid : Int32) :
    AttachedSoFar pid (q.attachTask tid) (done ++ [tid]) := by
  obtain ⟨hpid, hlist, hqueue⟩ := attachTask_eq q tid
  refine ⟨hpid.trans h.process, ?_, ?_⟩
  · rw [hlist, h.threadlist, List.map_append]
    rfl
  · intro e he
    rw [hqueue, h.process] at he
    rcases List.mem_append.1 he with he | he
    · exact (h.queue e he).imp_right fun ⟨tid', htid', heq⟩ =>
        ⟨tid', List.mem_append_left _ htid', heq⟩
    · rcases List.mem_append.1 he with he | he
      · -- the event of the process, when this is the first task
        split at he
        · exact nomatch he
        · rw [List.mem_singleton.1 he]
          exact .inl rfl
      · rw [List.mem_singleton.1 he]
        exact .inr ⟨tid, List.mem_append_right _ (List.mem_singleton.2 rfl), rfl⟩

theorem AttachedSoFar.all {pid : Int32} {q : ProcessData} {done : List Int32}
    (h : AttachedSoFar pid q done) (tasks : List Int32) :
    AttachedSoFar pid (tasks.foldl attachTask q) (done ++ tasks) := by
  induction tasks generalizing q done with
  | nil =>
    rw [List.append_nil]
    exact h
  | cons tid tasks ih =>
    have hnext := ih (h.next tid)
    rwa [List.append_assoc, List.singleton_append] at hnext

theorem recorded_started {s : DebugSession} {p : ProcessData} {tasks : List Int32}
    (h : s.Started p tasks) : Recorded none s.process s.stack := by
  have hbegin : AttachedSoFar p.pid { p with threadlist := [] } [] :=
    ⟨rfl, rfl, fun e he => by simp [h.queue] at he⟩
  have hall := hbegin.all tasks
  rw [List.nil_append] at hall
  have hprocess : s.process = tasks.foldl attachTask { p with threadlist := [] } := h.process
  rw [← hprocess] at hall
  have htids : s.process.tids = tasks := by
    rw [tids, hall.threadlist, List.map_map]
    exact List.map_id tasks
  rw [h.stack]
  constructor
  · intro t ht hpaused
    rw [hall.threadlist] at ht
    obtain ⟨tid, -, rfl⟩ := List.mem_map.1 ht
    cases hpaused
  · intro e he
    rw [htids]
    rcases hall.queue e he with hpid | hlisted
    · exact ⟨p.pid, h.pid, hpid⟩
    · exact hlisted
  · intro t ht hcount
    rw [hall.threadlist] at ht
    obtain ⟨tid, -, rfl⟩ := List.mem_map.1 ht
    cases hcount
  · rw [htids]
    exact h.positive
  · rw [htids]
    exact h.nodup
  · intro f hf
    cases hf
  · intro f hf
    cases hf
  · exact Nat.zero_le _

end Started

theorem recorded_run {s : DebugSession} (hs : Recorded none s.process s.stack)
    {inputs : List (Kernel × DebugEvent × SessionInput)}
    (hrun : Along serveStep ServableStep (some s) inputs) {s' : DebugSession}
    (hs' : exec serveStep (some s) inputs = some s') : Recorded none s'.process s'.stack := by
  refine exec_invariant (I := fun s => ∀ s', s = some s' → Recorded none s'.process s'.stack)
    ?_ ?_ hrun s' hs'
  · intro s input hs hc s' hs'
    cases s with
    | none => exact nomatch hs'
    | some s => exact recorded_serve (hs s rfl) (hc s rfl) hs'
  · rintro _ ⟨⟩
    exact hs

def undebugged : ProcessData := ⟨1, false, [], ⟨0, 0, 0⟩, []⟩

def oneThreadSession : DebugSession := ⟨undebugged.startDebug (some [1]), [], []⟩

theorem oneThreadSession_started : oneThreadSession.Started undebugged [1] := by
  have hpositive : ∀ tid ∈ ([1] : List Int32), 0 < tid.toInt := by
    intro tid htid
    rw [List.mem_singleton.mp htid]
    exact Int.one_pos
  exact ⟨rfl, rfl, rfl, rfl, hpositive, List.nodup_singleton 1, List.mem_singleton_self 1⟩

/-- The two events that begin the session are taken. -/
def takeEvents : List DebugInput :=
  [.command (.waitForDebugEvent 100), .command (.continueFromDebugEvent 1 0),
    .command (.waitForDebugEvent 100), .command (.continueFromDebugEvent 1 0)]

/-- Inputs of a session under the kernel where every request succeeds. -/
def calmSession (inputs : List DebugInput) : List (Kernel × DebugEvent × SessionInput) :=
  inputs.map fun input => (calmKernel, ⟨0, 0, 0⟩, .debug input)

/-- A trap comes while the context is read; then the thread is suspended. -/
def suspendAfterTrap : List DebugInput :=
  takeEvents ++ [.command (.pause .getThreadContext 1), .stop 1 SIGTRAP,
    .command (.suspendThread 1)]

theorem continuable_of_running {k : Kernel} {s : DebugSession} {tid ignoresignal : Int32}
    (hrun : ∀ t ∈ s.process.threadlist, t.isPaused = false)
    (hok : ∀ signal, (k.cont tid signal).toInt = 0) (hstep : k.singleStep tid = 0) :
    Continuable k s tid ignoresignal where
  current t ht hpaused := absurd hpaused (by simp [hrun t ht])
  removed i _ _ _ si _ hfail := by
    unfold resumeThreadWith at hfail
    rw [hstep, if_neg (not_not.2 rfl)] at hfail
    split at hfail
    · exact absurd hfail (show ¬ (0 : Int32).toInt < 0 by decide)
    · rw [hok] at hfail
      omega

end CheatEngine.Ceserver
