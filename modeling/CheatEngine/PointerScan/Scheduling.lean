/-
  CheatEngine.PointerScan.Scheduling

  A pointer scan does not depend on its scheduling.  What is stored, what waits in
  the queues and what the workers have still to do together always make up the
  paths of one recursive `rscan`: an entry for the next level is counted in the
  queue, or in the worker that follows it, or where it was found.  Every token
  belongs to an element of the queue, so that no worker goes on with an element
  twice.  When `reversescan` leaves its loop nothing is left to do: it looked at
  the workers while it held the lock without which no worker can start.
-/
import Mathlib.Algebra.Order.BigOperators.Group.List
import Mathlib.Algebra.Order.Group.Nat
import Mathlib.Tactic.Abel
import CheatEngine.Lib.Slots
import CheatEngine.PointerScan.Workers

namespace CheatEngine.PointerScan

open CheatEngine.Lib

/-! ## Work that is left -/

section

variable (s : Settings) (t : Target)

/-- The paths that the calls of a worker still store. -/
def framesPaths (frames : List Frame) (a : Arrays) : Multiset Path :=
  (frames.map fun f => framePaths s t f a).sum

def elementPaths (e : PathQueueElement) : Multiset Path :=
  callPaths s t e.startlevel e.arrays e.valuetofind

def workerPaths (w : Worker) : Multiset Path :=
  framesPaths s t w.frames w.arrays

/-- The paths that are still to be stored. -/
def ScanState.pending (st : ScanState) : Multiset Path :=
  (st.pathqueue.map (elementPaths s t)).sum + (st.overflowqueue.map (elementPaths s t)).sum +
    (st.workers.map (workerPaths s t)).sum

end

/-- Inner calls are on higher levels. -/
def Nested (frames : List Frame) : Prop := frames.Pairwise fun f g => g.level < f.level

variable {s : Settings} {t : Target}

@[simp] theorem framesPaths_nil (a : Arrays) : framesPaths s t [] a = 0 := rfl

@[simp] theorem framesPaths_cons (f : Frame) (frames : List Frame) (a : Arrays) :
    framesPaths s t (f :: frames) a = framePaths s t f a + framesPaths s t frames a := by
  simp [framesPaths]

variable {a : Arrays} {frames : List Frame}

/-- The outer calls do not see what inner calls write. -/
theorem framesPaths_agree {n : Nat} (hlevels : ∀ f ∈ frames, f.level < n)
    {b : Arrays} (h : Arrays.Agree s n a b) :
    framesPaths s t frames a = framesPaths s t frames b := by
  rw [framesPaths, framesPaths]
  congr 1
  apply List.map_congr_left
  intro f hf
  exact framePaths_agree (h.mono (hlevels f hf))

variable {f : Frame}

theorem advance_moved {a' : Arrays} {frames' : List Frame}
    {calls : List StoreCall} (hnested : Nested (f :: frames))
    (h : advance s a f frames = .moved a' frames' calls) :
    paths calls + framesPaths s t frames' a' = framesPaths s t (f :: frames) a ∧
      Nested frames' := by
  have hrest : Nested frames := (List.pairwise_cons.1 hnested).2
  have hlevels : ∀ g ∈ frames, g.level < f.level := (List.pairwise_cons.1 hnested).1
  -- a frame of the same level keeps the nesting
  have hsame : ∀ f' : Frame, f'.level = f.level → Nested (f' :: frames) := by
    intro f' hlevel
    exact List.pairwise_cons.2 ⟨fun g hg => hlevel ▸ hlevels g hg, hrest⟩
  unfold advance at h
  split at h
  · obtain ⟨rfl, rfl, rfl⟩ := Deed.moved.inj h
    refine ⟨?_, hsame _ rfl⟩
    rw [framesPaths_cons, framesPaths_cons, framePaths_storing (f := f), add_assoc]
  · next hstoring =>
    split at h
    · next hentries =>
      have hnext := framePaths_nextList (s := s) (t := t) (a := a) hstoring hentries
      have hkeeps := nextList_keeps (s := s) a f
      have hsome : ∀ f', (nextList s a f).2 = some f' → f'.level = f.level ∧ f'.storing = none ∧
          ∃ plist, f.previous = plist :: f'.previous := fun _ => nextList_some
      generalize nextList s a f = next at *
      obtain ⟨a₁, found⟩ := next
      cases found with
      | none =>
        obtain ⟨rfl, rfl, rfl⟩ := Deed.moved.inj h
        refine ⟨?_, hrest⟩
        rw [framesPaths_cons, hnext, paths_nil, zero_add, zero_add]
        exact (framesPaths_agree hlevels hkeeps).symm
      | some f' =>
        obtain ⟨rfl, rfl, rfl⟩ := Deed.moved.inj h
        refine ⟨?_, hsame f' (hsome f' rfl).1⟩
        rw [framesPaths_cons, framesPaths_cons, hnext, paths_nil, zero_add,
          framesPaths_agree hlevels hkeeps]
    · next e entries hentries =>
      split at h
      · next static hstatic =>
        obtain ⟨rfl, rfl, rfl⟩ := Deed.moved.inj h
        refine ⟨?_, hsame _ rfl⟩
        rw [framesPaths_cons, framesPaths_cons, framePaths_static hstoring hentries hstatic,
          add_assoc]
      · next hstatic =>
        split at h
        · next hdont =>
          obtain ⟨rfl, rfl, rfl⟩ := Deed.moved.inj h
          refine ⟨?_, hsame _ rfl⟩
          rw [framesPaths_cons, framesPaths_cons,
            framePaths_skip hstoring hentries hstatic hdont, paths_nil, zero_add]
        · next hdont =>
          split at h
          · exact nomatch h
          · next hlevel =>
            obtain ⟨rfl, rfl, rfl⟩ := Deed.moved.inj h
            refine ⟨?_, hsame _ rfl⟩
            rw [framesPaths_cons, framesPaths_cons,
              framePaths_deeper hstoring hentries hstatic (Bool.eq_false_iff.2 hdont),
              if_neg hlevel, paths_nil, zero_add, zero_add]

theorem advance_deeper {f' : Frame} {address : UInt64}
    (h : advance s a f frames = .deeper address f') :
    f'.level = f.level ∧ f.level + 1 < s.maxlevel ∧
      framePaths s t f a = callPaths s t (f.level + 1) a address + framePaths s t f' a := by
  unfold advance at h
  split at h
  · exact nomatch h
  · next hstoring =>
    split at h
    · split at h <;> exact nomatch h
    · next e entries hentries =>
      split at h
      · exact nomatch h
      · next hstatic =>
        split at h
        · exact nomatch h
        · next hdont =>
          split at h
          · next hlevel =>
            obtain ⟨rfl, rfl⟩ := Deed.deeper.inj h
            refine ⟨rfl, hlevel, ?_⟩
            rw [framePaths_deeper hstoring hentries hstatic (Bool.eq_false_iff.2 hdont),
              if_pos hlevel]
          · exact nomatch h

variable {w : Worker}

theorem recurse_spec (hquit : (w.terminated && !w.savestate) = false)
    (address : UInt64) (hnested : Nested (f :: frames)) :
    workerPaths s t (ScanState.recurse s t w address f frames) =
        callPaths s t (f.level + 1) w.arrays address + framesPaths s t (f :: frames) w.arrays ∧
      Nested (ScanState.recurse s t w address f frames).frames ∧
      ∃ a frames', ScanState.recurse s t w address f frames =
        { w with arrays := a, frames := frames' } := by
  have hkeeps := enter_keeps (s := s) (t := t) false w.arrays address (f.level + 1)
  have hlevel := enter_level (s := s) (t := t) false w.arrays address (f.level + 1)
  have hcall := callPaths_eq (s := s) (t := t) (f.level + 1) w.arrays address
  have hlevels : ∀ g ∈ f :: frames, g.level < f.level + 1 := by
    intro g hg
    rcases List.mem_cons.1 hg with rfl | hmem
    · omega
    · have hlt := (List.pairwise_cons.1 hnested).1 g hmem
      omega
  unfold ScanState.recurse
  rw [hquit]
  generalize enter s t false w.arrays address (f.level + 1) = entered at *
  obtain ⟨a, found⟩ := entered
  have hagree : framesPaths s t (f :: frames) w.arrays = framesPaths s t (f :: frames) a :=
    framesPaths_agree hlevels hkeeps
  cases found with
  | none =>
    refine ⟨?_, hnested, a, _, rfl⟩
    rw [hcall, zero_add, hagree]
    rfl
  | some g =>
    refine ⟨?_, ?_, a, _, rfl⟩
    · rw [hcall, hagree]
      exact framesPaths_cons ..
    · refine List.pairwise_cons.2 ⟨fun f' hf' => ?_, hnested⟩
      rw [hlevel g rfl]
      exact hlevels f' hf'

def Worker.tokens (w : Worker) : Nat :=
  match w.phase with
  | .token | .passed => 1
  | _ => 0

/-- A worker that was not told to stop. -/
structure Worker.Working (w : Worker) : Prop where
  stop : w.stop = false
  terminated : w.terminated = false
  phase : w.phase ≠ .finished
  isdone : w.isdone = false ↔ w.phase = .scanning
  frames : w.phase ≠ .scanning → w.frames = []
  nested : Nested w.frames

/-- What `reversescan` knows.  Before the first element, and from the look at the
    queue on, the queue is empty; workers that were found done stay so. -/
def ScanState.Found (st : ScanState) : Prop :=
  match st.controller with
  | .checking i => st.pathqueue = [] ∧ ∀ j < i, ∀ w, st.workers[j]? = some w → w.isdone = true
  | .starting | .decided true | .leaving true | .left =>
    st.pathqueue = [] ∧ ∀ w ∈ st.workers, w.isdone = true
  | .telling _ | .saved _ | .ending _ | .joining _ | .over => False
  | _ => True

/-- A scan that was not stopped, up to the end of the loop of `reversescan`. -/
structure Running (s : Settings) (t : Target) (automaticaddress : UInt64) (st : ScanState) :
    Prop where
  terminated : st.terminated = false
  outofdiskspace : st.outofdiskspace = false
  overflowqueue : st.overflowqueue = []
  workers : ∀ w ∈ st.workers, w.Working
  tokens : st.semaphore + (st.workers.map Worker.tokens).sum +
    (if st.controller = .started then 1 else 0) = st.pathqueue.length
  length : st.pathqueue.length < maxQueueSize
  conserved : paths st.stored + st.pending s t +
      (if st.controller = .starting then
        elementPaths s t (ScanState.firstElement automaticaddress) else 0) =
    elementPaths s t (ScanState.firstElement automaticaddress)
  found : st.Found

variable {automaticaddress : UInt64} {st st' : ScanState}

theorem running_initial (workers : List Arrays) :
    Running s t automaticaddress (ScanState.initial workers) := by
  have hworkers : ∀ w ∈ workers.map ScanState.newWorker, ∃ a, w = ScanState.newWorker a := by
    intro w hw
    obtain ⟨a, -, rfl⟩ := List.mem_map.1 hw
    exact ⟨a, rfl⟩
  have hsum : ∀ {M : Type} [AddCommMonoid M] (f : Worker → M),
      (∀ a, f (ScanState.newWorker a) = 0) → ((workers.map ScanState.newWorker).map f).sum = 0 := by
    intro M _ f hf
    apply List.sum_eq_zero
    intro x hx
    obtain ⟨w, hw, rfl⟩ := List.mem_map.1 hx
    obtain ⟨a, rfl⟩ := hworkers w hw
    exact hf a
  constructor
  · rfl
  · rfl
  · rfl
  · intro w hw
    obtain ⟨a, rfl⟩ := hworkers w hw
    exact ⟨rfl, rfl, nofun, ⟨nofun, nofun⟩, fun _ => rfl, List.Pairwise.nil⟩
  · show 0 + ((workers.map ScanState.newWorker).map Worker.tokens).sum + 0 = 0
    rw [hsum Worker.tokens fun _ => rfl]
    rfl
  · exact Nat.zero_lt_succ _
  · show paths [] + (0 + 0 + ((workers.map ScanState.newWorker).map (workerPaths s t)).sum) +
      elementPaths s t (ScanState.firstElement automaticaddress) = _
    rw [hsum (workerPaths s t) fun _ => rfl, paths_nil, zero_add, zero_add, zero_add, zero_add]
  · refine ⟨rfl, fun w hw => ?_⟩
    obtain ⟨a, rfl⟩ := hworkers w hw
    rfl

/-! ## Steps of the workers -/

theorem exchange_paths {calls queue queue' work work' workers workers' : Multiset Path}
    (hqueue : calls + queue' + work' = queue + work)
    (hworkers : workers' + work = workers + work') :
    calls + queue' + workers' = queue + workers := by
  apply add_right_cancel (b := work + work')
  calc calls + queue' + workers' + (work + work')
      = (calls + queue' + work') + (workers' + work) := by abel
    _ = (queue + work) + (workers + work') := by rw [hqueue, hworkers]
    _ = queue + workers + (work + work') := by abel

variable {i : Nat}

theorem Running.update (h : Running s t automaticaddress st) (w' : Worker)
    (hw : st.workers[i]? = some w) (hw' : w'.Working) (calls : List StoreCall)
    (pathqueue : List PathQueueElement) (semaphore : Nat)
    (hpaths : paths calls + (pathqueue.map (elementPaths s t)).sum + workerPaths s t w' =
      (st.pathqueue.map (elementPaths s t)).sum + workerPaths s t w)
    (htokens : semaphore + w'.tokens + st.pathqueue.length =
      st.semaphore + w.tokens + pathqueue.length)
    (hlength : pathqueue.length < maxQueueSize)
    (hempty : st.locked = true ∨ w.isdone = true → st.pathqueue = [] →
      pathqueue = [] ∧ (w.isdone = true → w'.isdone = true)) :
    Running s t automaticaddress { st with
      workers := st.workers.set i w', pathqueue := pathqueue, semaphore := semaphore,
      stored := st.stored ++ calls } where
  terminated := h.terminated
  outofdiskspace := h.outofdiskspace
  overflowqueue := h.overflowqueue
  workers v hv := by
    rcases List.mem_or_eq_of_mem_set hv with hold | rfl
    · exact h.workers v hold
    · exact hw'
  tokens := by
    have htotal := h.tokens
    have hsum := sum_map_set Worker.tokens hw w'
    show semaphore + ((st.workers.set i w').map Worker.tokens).sum +
      (if st.controller = .started then 1 else 0) = pathqueue.length
    omega
  length := hlength
  conserved := by
    have hmoved := exchange_paths hpaths (sum_map_set (workerPaths s t) hw w')
    refine Eq.trans ?_ h.conserved
    show paths (st.stored ++ calls) + ((pathqueue.map (elementPaths s t)).sum +
      (st.overflowqueue.map (elementPaths s t)).sum +
        ((st.workers.set i w').map (workerPaths s t)).sum) + _ = _
    congr 1
    rw [paths_append, ScanState.pending]
    calc _ = paths st.stored + (paths calls + (pathqueue.map (elementPaths s t)).sum +
            ((st.workers.set i w').map (workerPaths s t)).sum) +
            (st.overflowqueue.map (elementPaths s t)).sum := by abel
      _ = _ := by rw [hmoved]; abel
  found := by
    have hfound := h.found
    -- what was found before stays, also of this worker
    have hset : ∀ j v, (st.workers.set i w')[j]? = some v → st.workers[j]? = some v ∨
        j = i ∧ v = w' := by
      intro j v hj
      rw [List.getElem?_set] at hj
      split at hj
      · next hji =>
        split at hj
        · exact .inr ⟨hji.symm, (Option.some.inj hj).symm⟩
        · exact nomatch hj
      · exact .inl hj
    have hall : st.pathqueue = [] ∧ (∀ v ∈ st.workers, v.isdone = true) →
        pathqueue = [] ∧ ∀ v ∈ st.workers.set i w', v.isdone = true := by
      rintro ⟨hqueue, hdone⟩
      have hwdone := hdone w (List.mem_of_getElem? hw)
      obtain ⟨hqueue', hkeep⟩ := hempty (.inr hwdone) hqueue
      refine ⟨hqueue', fun v hv => ?_⟩
      rcases List.mem_or_eq_of_mem_set hv with hold | rfl
      · exact hdone v hold
      · exact hkeep hwdone
    unfold ScanState.Found at hfound ⊢
    dsimp only at hfound ⊢
    split at hfound
    · next j hcontroller =>
      obtain ⟨hqueue, hdone⟩ := hfound
      have hlocked : st.locked = true := by rw [ScanState.locked, hcontroller]
      obtain ⟨hqueue', hkeep⟩ := hempty (.inl hlocked) hqueue
      refine ⟨hqueue', fun k hk v hv => ?_⟩
      rcases hset k v hv with hold | ⟨rfl, rfl⟩
      · exact hdone k hk v hold
      · exact hkeep (hdone k hk w hw)
    · exact hall hfound
    · exact hall hfound
    · exact hall hfound
    · exact hall hfound
    all_goals first
      | exact hfound.elim
      | exact hfound

theorem Running.tokens_le (h : Running s t automaticaddress st)
    (hw : st.workers[i]? = some w) : st.semaphore + w.tokens ≤ st.pathqueue.length := by
  have htotal := h.tokens
  have hle : w.tokens ≤ (st.workers.map Worker.tokens).sum :=
    List.le_sum_of_mem (List.mem_map.2 ⟨w, List.mem_of_getElem? hw, rfl⟩)
  omega

theorem Worker.Working.paths_eq (h : w.Working) (hphase : w.phase ≠ .scanning) :
    workerPaths s t w = 0 := by
  rw [workerPaths, h.frames hphase, framesPaths_nil]

theorem Worker.Working.isdone_of_not_scanning (h : w.Working)
    (hphase : w.phase ≠ .scanning) : w.isdone = true := by
  cases hdone : w.isdone with
  | true => rfl
  | false => exact absurd (h.isdone.1 hdone) hphase

theorem fetch_eq {queue : List PathQueueElement} {e : PathQueueElement}
    (hqueue : st.pathqueue = queue ++ [e]) (hquit : (w.terminated && !w.savestate) = false) :
    ∃ a frames, st.fetch s t i w = { st with
        pathqueue := queue
        workers := st.workers.set i { w with
          phase := .scanning, isdone := false, arrays := a, valuetofind := e.valuetofind,
          startlevel := e.startlevel, frames := frames } } ∧
      Nested frames ∧ framesPaths s t frames a = elementPaths s t e := by
  have hlast : st.pathqueue.getLast? = some e := by rw [hqueue, List.getLast?_concat]
  have hdrop : st.pathqueue.dropLast = queue := by rw [hqueue, List.dropLast_concat]
  -- the worker gets the arrays of the element, as far as they are used
  let a : Arrays := ⟨e.arrays.tempresults, if s.noLoop then e.arrays.valuelist
    else w.arrays.valuelist⟩
  have hagree : Arrays.Agree s e.startlevel e.arrays a :=
    fun i _ => ⟨rfl, fun hno => by simp only [a, hno, if_true]⟩
  have helement : elementPaths s t e = callPaths s t e.startlevel a e.valuetofind := by
    rw [elementPaths, callPaths_agree hagree]
  rw [callPaths_eq] at helement
  unfold ScanState.fetch
  simp only [hlast, hdrop, hquit]
  generalize enter s t false a e.valuetofind e.startlevel = entered at helement ⊢
  obtain ⟨a', found⟩ := entered
  cases found with
  | none => exact ⟨a', [], rfl, List.Pairwise.nil, helement.symm⟩
  | some f =>
    have hpaths : framesPaths s t [f] a' = elementPaths s t e := by
      rw [framesPaths_cons, framesPaths_nil, add_zero]
      exact helement.symm
    exact ⟨a', [f], rfl, List.pairwise_singleton _ f, hpaths⟩

theorem Running.fetch (h : Running s t automaticaddress st)
    (hw : st.workers[i]? = some w) (hphase : w.phase = .passed) :
    Running s t automaticaddress (st.fetch s t i w) := by
  have hworking := h.workers w (List.mem_of_getElem? hw)
  have htoken : w.tokens = 1 := by rw [Worker.tokens, hphase]
  have hlength := h.length
  have hpos := h.tokens_le hw
  have hne : st.pathqueue ≠ [] := by
    intro hnil
    rw [hnil, List.length_nil, htoken] at hpos
    omega
  obtain ⟨queue, e, hqueue⟩ : ∃ queue e, st.pathqueue = queue ++ [e] :=
    ⟨_, _, (List.dropLast_append_getLast hne).symm⟩
  have hcount : st.pathqueue.length = queue.length + 1 := by
    rw [hqueue, List.length_append, List.length_singleton]
  have hquit : (w.terminated && !w.savestate) = false := by
    rw [hworking.terminated, Bool.false_and]
  obtain ⟨a, frames, heq, hnested, hpaths⟩ :=
    fetch_eq (s := s) (t := t) (i := i) (w := w) hqueue hquit
  rw [heq, ← List.append_nil st.stored]
  apply h.update _ hw
  · exact ⟨hworking.stop, hworking.terminated, nofun, ⟨fun _ => rfl, fun _ => rfl⟩,
      fun hno => absurd rfl hno, hnested⟩
  · rw [hqueue, List.map_append, List.sum_append, List.map_singleton, List.sum_singleton,
      hworking.paths_eq (by rw [hphase]; exact nofun), paths_nil, zero_add, add_zero, ← hpaths]
    rfl
  · show st.semaphore + 0 + st.pathqueue.length = st.semaphore + w.tokens + queue.length
    omega
  · omega
  · exact fun _ hnil => absurd hnil hne

theorem Running.setWorker (h : Running s t automaticaddress st)
    (w' : Worker) (hw : st.workers[i]? = some w) (hw' : w'.Working) (calls : List StoreCall)
    (semaphore : Nat) (hpaths : paths calls + workerPaths s t w' = workerPaths s t w)
    (htokens : semaphore + w'.tokens = st.semaphore + w.tokens)
    (hdone : w.isdone = true → w'.isdone = true) :
    Running s t automaticaddress { st with
      workers := st.workers.set i w', semaphore := semaphore, stored := st.stored ++ calls } := by
  apply h.update w' hw hw' calls st.pathqueue semaphore
  · rw [add_right_comm, hpaths, add_comm]
  · omega
  · exact h.length
  · exact fun _ hnil => ⟨hnil, hdone⟩

theorem Running.push (h : Running s t automaticaddress st) {w' : Worker}
    (hw : st.workers[i]? = some w) (hw' : w'.Working) (hphase : w.phase = .scanning)
    (hphase' : w'.phase = .scanning) (e : PathQueueElement)
    (hpaths : elementPaths s t e + workerPaths s t w' = workerPaths s t w)
    (hlocked : st.locked = false) (hroom : st.pathqueue.length < maxQueueSize - 1) :
    Running s t automaticaddress ((st.setWorker i w').push e) := by
  have hworking := h.workers w (List.mem_of_getElem? hw)
  have hle := h.tokens_le hw
  have htoken : w.tokens = 0 := by rw [Worker.tokens, hphase]
  have htoken' : w'.tokens = 0 := by rw [Worker.tokens, hphase']
  have hdone : ¬ w.isdone = true := by
    rw [hworking.isdone.2 hphase]
    exact Bool.false_ne_true
  have hlength : (st.pathqueue ++ [e]).length = st.pathqueue.length + 1 := by simp
  have hsemaphore : st.semaphore + 1 ≤ maxQueueSize := by omega
  have hpush : (st.setWorker i w').push e = { st with
      workers := st.workers.set i w', pathqueue := st.pathqueue ++ [e],
      semaphore := st.semaphore + 1, stored := st.stored ++ [] } := by
    rw [ScanState.push, ScanState.release, ScanState.setWorker, if_pos hsemaphore, List.append_nil]
  rw [hpush]
  apply h.update w' hw hw'
  · rw [List.map_append, List.sum_append, List.map_singleton, List.sum_singleton, paths_nil,
      zero_add, add_assoc, hpaths]
  · omega
  · omega
  · rintro (hyes | hyes)
    · exact absurd (hlocked.symm.trans hyes) Bool.false_ne_true
    · exact absurd hyes hdone

theorem nested_deeper (hnested : Nested w.frames) {f' : Frame} (hframes : w.frames = f :: frames)
    {address : UInt64} (hdeeper : advance s w.arrays f frames = .deeper address f') :
    Nested (f' :: frames) ∧ workerPaths s t w =
      callPaths s t (f'.level + 1) w.arrays address + framesPaths s t (f' :: frames) w.arrays := by
  obtain ⟨hlevel, -, hpaths⟩ := advance_deeper (t := t) hdeeper
  rw [hframes] at hnested
  constructor
  · exact List.pairwise_cons.2 ⟨fun g hg => hlevel ▸ (List.pairwise_cons.1 hnested).1 g hg,
      (List.pairwise_cons.1 hnested).2⟩
  · rw [workerPaths, hframes, framesPaths_cons, framesPaths_cons, hpaths, hlevel, add_assoc]

theorem nested_moved (hnested : Nested w.frames) (hframes : w.frames = f :: frames) {a : Arrays}
    {frames' : List Frame} {calls : List StoreCall}
    (hmoved : advance s w.arrays f frames = .moved a frames' calls) :
    Nested frames' ∧ paths calls + workerPaths s t { w with arrays := a, frames := frames' } =
      workerPaths s t w := by
  rw [hframes] at hnested
  obtain ⟨hpaths, hnested'⟩ := advance_moved (t := t) hnested hmoved
  rw [workerPaths, workerPaths, hframes]
  exact ⟨hnested', hpaths⟩

/-- Inside `rscan`, at an entry for the next level. -/
theorem Running.deeper (h : Running s t automaticaddress st)
    (hw : st.workers[i]? = some w) (hphase : w.phase = .scanning) {f' : Frame}
    (hframes : w.frames = f :: frames) {address : UInt64}
    (hdeeper : advance s w.arrays f frames = .deeper address f') (lengths : Nat → Nat)
    (tries : Nat → Bool) :
    ∃ st', st.deeper s t i w frames address f' lengths tries = some st' ∧
      Running s t automaticaddress st' := by
  have hworking := h.workers w (List.mem_of_getElem? hw)
  obtain ⟨hnested, hwork⟩ := nested_deeper (t := t) hworking.nested hframes hdeeper
  have hgo : (!w.terminated && !st.outofdiskspace) = true := by
    rw [hworking.terminated, h.outofdiskspace]
    rfl
  have hwaits : ∀ a frames', Nested frames' →
      ({ w with arrays := a, frames := frames' } : Worker).Working := by
    intro a frames' hnested'
    exact ⟨hworking.stop, hworking.terminated, hworking.phase, hworking.isdone,
      fun hno => absurd hphase hno, hnested'⟩
  rw [ScanState.deeper, if_pos hgo]
  split
  · exact ⟨st, rfl, h⟩
  split
  · next hqueue =>
    simp only [Bool.and_eq_true, Bool.not_eq_true', decide_eq_true_eq] at hqueue
    obtain ⟨⟨⟨-, hlocked⟩, -⟩, hroom⟩ := hqueue
    refine ⟨_, rfl, h.push hw (hwaits w.arrays _ hnested) hphase hphase _ ?_ hlocked hroom⟩
    rw [hwork]
    rfl
  · have hquit : (w.terminated && !w.savestate) = false := by
      rw [hworking.terminated, Bool.false_and]
    obtain ⟨hsame, hnested', a, frames', hrecurse⟩ :=
      recurse_spec (s := s) (t := t) hquit address hnested
    have hsame' : paths [] + workerPaths s t (ScanState.recurse s t w address f' frames) =
        workerPaths s t w := by rw [hsame, hwork, paths_nil, zero_add]
    rw [hrecurse] at hnested' hsame' ⊢
    refine ⟨_, rfl, ?_⟩
    have hrun := h.setWorker _ hw (hwaits a frames' hnested') [] st.semaphore hsame' rfl id
    rw [List.append_nil] at hrun
    exact hrun

theorem Running.workerStep (h : Running s t automaticaddress st)
    (hw : st.workers[i]? = some w) (lengths : Nat → Nat) (tries : Nat → Bool) :
    ∃ st', st.workerStep s t i w lengths tries = some st' ∧ Running s t automaticaddress st' := by
  have hworking := h.workers w (List.mem_of_getElem? hw)
  have hstop : ¬ (w.stop || w.terminated) = true := by
    rw [hworking.stop, hworking.terminated]
    exact Bool.false_ne_true
  -- a worker that stays outside `rscan`
  have hmove : ∀ phase : Phase, w.phase ≠ .scanning → phase ≠ .scanning → phase ≠ .finished →
      ∀ semaphore, semaphore + ({ w with phase := phase } : Worker).tokens =
        st.semaphore + w.tokens →
      Running s t automaticaddress { st with
        workers := st.workers.set i { w with phase := phase }, semaphore := semaphore } := by
    intro phase hphase hnew hend semaphore htokens
    have hdone := hworking.isdone_of_not_scanning hphase
    have hrun := h.setWorker { w with phase := phase } hw
      ⟨hworking.stop, hworking.terminated, hend,
        ⟨fun hno => absurd (hno.symm.trans hdone) Bool.false_ne_true, fun hno => absurd hno hnew⟩,
        fun _ => hworking.frames hphase, hworking.nested⟩ [] semaphore
      (by rw [paths_nil, zero_add]; rfl) htokens (fun _ => hdone)
    rw [List.append_nil] at hrun
    exact hrun
  unfold ScanState.workerStep
  split
  · next hphase =>
    have hscanning : w.phase ≠ .scanning := by rw [hphase]; exact nofun
    have htoken : w.tokens = 0 := by rw [Worker.tokens, hphase]
    split
    · next hpos =>
      refine ⟨_, rfl, hmove .token hscanning nofun nofun (st.semaphore - 1) ?_⟩
      show st.semaphore - 1 + 1 = st.semaphore + w.tokens
      omega
    · exact ⟨st, rfl, h⟩
  · next hphase =>
    have hscanning : w.phase ≠ .scanning := by rw [hphase]; exact nofun
    have htoken : w.tokens = 1 := by rw [Worker.tokens, hphase]
    have hdisk : ¬ st.outofdiskspace = true := by
      rw [h.outofdiskspace]
      exact Bool.false_ne_true
    rw [if_neg hstop, if_neg hdisk]
    refine ⟨_, rfl, hmove .passed hscanning nofun nofun st.semaphore ?_⟩
    rw [htoken]
    rfl
  · next hphase =>
    split
    · exact ⟨st, rfl, h⟩
    · exact ⟨_, rfl, h.fetch hw hphase⟩
  · next hphase =>
    have htoken : w.tokens = 0 := by rw [Worker.tokens, hphase]
    split
    · next hframes =>
      -- `rscan` has returned
      rw [if_neg hstop]
      refine ⟨_, rfl, ?_⟩
      have hrun := h.setWorker { w with isdone := true, phase := .waiting } hw
        ⟨hworking.stop, hworking.terminated, nofun, ⟨nofun, nofun⟩, fun _ => hframes,
          hworking.nested⟩ [] st.semaphore (by rw [paths_nil, zero_add]; rfl)
        (by rw [htoken]; rfl) (fun _ => rfl)
      rw [List.append_nil] at hrun
      exact hrun
    · next f frames hframes =>
      split
      · next a frames' calls hmoved =>
        obtain ⟨hnested', hsame⟩ := nested_moved (t := t) hworking.nested hframes hmoved
        refine ⟨_, rfl, ?_⟩
        have hwaits : ({ w with arrays := a, frames := frames' } : Worker).Working :=
          ⟨hworking.stop, hworking.terminated, hworking.phase, hworking.isdone,
            fun hno => absurd hphase hno, hnested'⟩
        exact h.setWorker _ hw hwaits calls st.semaphore hsame rfl id
      · next address f' hdeeper => exact h.deeper hw hphase hframes hdeeper lengths tries
  · exact ⟨st, rfl, h⟩

/-! ## Steps of the controller -/

/-- The loop of `reversescan` was left before. -/
def ScanState.Ended (st : ScanState) : Prop :=
  match st.controller with
  | .ending _ | .joining _ | .over => True
  | _ => False

def ControllerPhase.InLoop : ControllerPhase → Prop
  | .starting | .started => False
  | _ => True

section

variable (h : Running s t automaticaddress st)
include h

/-- A step of `reversescan` that only goes on. -/
theorem Running.goTo {phase : ControllerPhase}
    (hphase : st.controller = phase) (hloop : phase.InLoop) (controller : ControllerPhase)
    (hloop' : controller.InLoop) (hfound : { st with controller := controller }.Found) :
    Running s t automaticaddress { st with controller := controller } where
  terminated := h.terminated
  outofdiskspace := h.outofdiskspace
  overflowqueue := h.overflowqueue
  workers := h.workers
  tokens := by
    have htotal := h.tokens
    rw [hphase, if_neg (by rintro rfl; exact hloop)] at htotal
    rw [if_neg (by rintro rfl; exact hloop')]
    exact htotal
  length := h.length
  conserved := by
    have htotal := h.conserved
    rw [hphase, if_neg (by rintro rfl; exact hloop)] at htotal
    rw [if_neg (by rintro rfl; exact hloop')]
    exact htotal
  found := hfound

theorem Running.eat :
    st.eatFromOverflowQueueIfNeeded = st := by
  rw [ScanState.eatFromOverflowQueueIfNeeded, if_neg]
  exact fun hne => hne.1 h.overflowqueue

theorem Running.start (hstarting : st.controller = .starting) :
    Running s t automaticaddress { st with
      pathqueue := st.pathqueue ++ [ScanState.firstElement automaticaddress]
      controller := .started } := by
  have hfound := h.found
  rw [ScanState.Found, hstarting] at hfound
  have htokens := h.tokens
  have hconserved := h.conserved
  rw [hstarting, hfound.1] at htokens
  rw [if_pos hstarting] at hconserved
  constructor
  · exact h.terminated
  · exact h.outofdiskspace
  · exact h.overflowqueue
  · exact h.workers
  · rw [if_pos rfl, hfound.1]
    show st.semaphore + (st.workers.map Worker.tokens).sum + 1 = 1
    rw [if_neg nofun] at htokens
    exact congrArg (· + 1) htokens
  · rw [hfound.1]
    exact (by decide : 1 < maxQueueSize)
  · rw [if_neg nofun, add_zero]
    refine Eq.trans ?_ hconserved
    show paths st.stored + (((st.pathqueue ++ [_]).map (elementPaths s t)).sum +
      (st.overflowqueue.map (elementPaths s t)).sum + (st.workers.map (workerPaths s t)).sum) = _
    rw [ScanState.pending, List.map_append, List.sum_append, List.map_singleton,
      List.sum_singleton]
    abel
  · trivial

/-- The token of the first element. -/
theorem Running.started (hstarted : st.controller = .started) :
    Running s t automaticaddress ({ st with controller := .looping }.release 1) := by
  have htokens := h.tokens
  have hlength := h.length
  have hconserved := h.conserved
  rw [if_pos hstarted] at htokens
  rw [hstarted, if_neg nofun] at hconserved
  have hroom : st.semaphore + 1 ≤ maxQueueSize := by omega
  rw [ScanState.release, if_pos hroom]
  constructor
  · exact h.terminated
  · exact h.outofdiskspace
  · exact h.overflowqueue
  · exact h.workers
  · rw [if_neg (fun h => by cases h)]
    show st.semaphore + 1 + (st.workers.map Worker.tokens).sum + 0 = st.pathqueue.length
    omega
  · exact hlength
  · rw [if_neg (fun h => by cases h)]
    exact hconserved
  · trivial

/-- Without a level there is nothing to find. -/
theorem Running.left_of_maxlevel
    (hstarting : st.controller = .starting) (hlevel : ¬ 0 < s.maxlevel) :
    Running s t automaticaddress { st with controller := .left } := by
  have hfound := h.found
  rw [ScanState.Found, hstarting] at hfound
  have htokens := h.tokens
  have hconserved := h.conserved
  have hfirst : elementPaths s t (ScanState.firstElement automaticaddress) = 0 := by
    have hle : s.maxlevel ≤ (ScanState.firstElement automaticaddress).startlevel :=
      Nat.not_lt.1 hlevel
    rw [elementPaths, callPaths_eq, enter, if_pos (.inl hle)]
  rw [hstarting, if_neg (fun h => by cases h)] at htokens
  rw [if_pos hstarting, hfirst] at hconserved
  constructor
  · exact h.terminated
  · exact h.outofdiskspace
  · exact h.overflowqueue
  · exact h.workers
  · rw [if_neg (fun h => by cases h)]
    exact htokens
  · exact h.length
  · rw [if_neg (fun h => by cases h), hfirst]
    exact hconserved
  · exact hfound

theorem Running.controllerStep :
    Running s t automaticaddress (st.controllerStep s automaticaddress) ∨
      (st.controllerStep s automaticaddress).Ended := by
  have hfound := h.found
  have hterminated : ¬ st.terminated = true := by
    rw [h.terminated]
    exact Bool.false_ne_true
  unfold ScanState.controllerStep
  unfold ScanState.Found at hfound
  generalize hphase : st.controller = phase at hfound ⊢
  cases phase with
  | starting =>
    left
    dsimp only
    split
    · exact h.start hphase
    · next hlevel => exact h.left_of_maxlevel hphase hlevel
  | started => exact .inl (h.started hphase)
  | looping =>
    dsimp only
    rw [if_neg hterminated]
    exact .inl (h.goTo hphase trivial .eating trivial trivial)
  | telling i =>
    exact hfound.elim
  | eating =>
    dsimp only
    rw [h.eat]
    exact .inl (h.goTo hphase trivial .resting trivial trivial)
  | resting =>
    dsimp only
    split
    · exact .inl (h.goTo hphase trivial .eatingAgain trivial trivial)
    · exact .inl (h.goTo hphase trivial .looping trivial trivial)
  | eatingAgain =>
    dsimp only
    rw [h.eat]
    exact .inl (h.goTo hphase trivial .entering trivial trivial)
  | entering =>
    dsimp only
    split
    · next hempty =>
      -- from here on the queue stays empty, since `reversescan` holds the lock
      have hqueue : st.pathqueue = [] :=
        List.length_eq_zero_iff.1 (hempty.resolve_left hterminated).1
      exact .inl (h.goTo hphase trivial (.checking 0) trivial
        ⟨hqueue, fun j hj => absurd hj (Nat.not_lt_zero j)⟩)
    · exact .inl (h.goTo hphase trivial (.decided false) trivial trivial)
  | checking i =>
    obtain ⟨hqueue, hdone⟩ := hfound
    dsimp only
    split
    · next w hw =>
      have hworker := (h.workers w (List.mem_of_getElem? hw)).phase
      split
      · next hyes =>
        refine .inl (h.goTo hphase trivial (.checking (i + 1)) trivial
          ⟨hqueue, fun j hj v hv => ?_⟩)
        rcases Nat.lt_succ_iff_lt_or_eq.1 hj with hlt | rfl
        · exact hdone j hlt v hv
        · rw [Option.some.inj (hv.symm.trans hw)]
          exact hyes.resolve_left hworker
      · exact .inl (h.goTo hphase trivial (.decided false) trivial trivial)
    · next hnone =>
      refine .inl (h.goTo hphase trivial (.decided true) trivial ⟨hqueue, fun w hw => ?_⟩)
      obtain ⟨j, hj⟩ := List.mem_iff_getElem?.1 hw
      have hlength : st.workers.length ≤ i := List.getElem?_eq_none_iff.1 hnone
      obtain ⟨hlt, -⟩ := List.getElem?_eq_some_iff.1 hj
      exact hdone j (Nat.lt_of_lt_of_le hlt hlength) w hj
  | decided alldone =>
    have hsave : ¬ (st.terminated && st.savestate) = true := by
      rw [h.terminated, Bool.false_and]
      exact Bool.false_ne_true
    dsimp only
    rw [if_neg hsave]
    cases alldone with
    | false =>
      exact .inl (h.goTo hphase trivial (.leaving false) trivial trivial)
    | true =>
      exact .inl (h.goTo hphase trivial (.leaving true) trivial hfound)
  | saved alldone =>
    exact hfound.elim
  | leaving alldone =>
    cases alldone with
    | false =>
      exact .inl (h.goTo hphase trivial .looping trivial trivial)
    | true =>
      exact .inl (h.goTo hphase trivial .left trivial hfound)
  | left => exact .inr trivial
  | ending i =>
    exact hfound.elim
  | joining i =>
    exact hfound.elim
  | «over» =>
    exact hfound.elim

end

/-! ## Whole runs -/

namespace ScanState

theorem release_controller (st : ScanState) (count : Nat) :
    (st.release count).controller = st.controller := by
  unfold release
  split <;> rfl

theorem push_controller (st : ScanState) (e : PathQueueElement) :
    (st.push e).controller = st.controller := release_controller _ _

theorem fetch_controller (st : ScanState) (i : Nat) (w : Worker) :
    (st.fetch s t i w).controller = st.controller := by
  unfold fetch
  dsimp only
  split <;> split <;> rfl

theorem deeper_controller {i : Nat} {w : Worker} {frames : List Frame} {address : UInt64}
    {f : Frame} {lengths : Nat → Nat} {tries : Nat → Bool}
    (h : st.deeper s t i w frames address f lengths tries = some st') :
    st'.controller = st.controller := by
  unfold deeper at h
  split at h
  · split at h
    · exact (Option.some.inj h) ▸ rfl
    · split at h
      · exact (Option.some.inj h) ▸ push_controller _ _
      · exact (Option.some.inj h) ▸ rfl
  · split at h
    · split at h
      · exact (Option.some.inj h) ▸ rfl
      · exact nomatch h
    · exact (Option.some.inj h) ▸ rfl

theorem workerStep_controller {i : Nat} {w : Worker} {lengths : Nat → Nat} {tries : Nat → Bool}
    (h : st.workerStep s t i w lengths tries = some st') : st'.controller = st.controller := by
  unfold workerStep at h
  split at h
  · split at h
    · exact (Option.some.inj h) ▸ rfl
    · split at h <;> exact (Option.some.inj h) ▸ rfl
  · split at h
    · exact (Option.some.inj h) ▸ release_controller _ _
    · split at h
      · exact (Option.some.inj h) ▸ release_controller _ _
      · exact (Option.some.inj h) ▸ rfl
  · split at h
    · exact (Option.some.inj h) ▸ rfl
    · exact (Option.some.inj h) ▸ fetch_controller _ _ _
  · split at h
    · exact (Option.some.inj h) ▸ rfl
    · split at h
      · exact (Option.some.inj h) ▸ rfl
      · exact deeper_controller h
  · exact (Option.some.inj h) ▸ rfl

/-- The loop is not entered again. -/
theorem Ended.step (hended : st.Ended) {input : ScanInput}
    (h : st.step s t automaticaddress input = some st') : st'.Ended := by
  have hsame : st'.controller = st.controller → st'.Ended := by
    intro heq
    unfold Ended at hended ⊢
    rw [heq]
    exact hended
  cases input with
  | worker i lengths tries =>
    unfold ScanState.step at h
    dsimp only at h
    split at h
    · exact hsame (workerStep_controller h)
    · exact hsame ((Option.some.inj h) ▸ rfl)
  | controller =>
    rw [← Option.some.inj h]
    unfold controllerStep
    unfold Ended at hended
    cases hcontroller : st.controller with
    | ending i => dsimp only; split <;> trivial
    | joining i =>
      dsimp only
      split
      · split
        · trivial
        · show st.Ended
          unfold Ended
          rw [hcontroller]
          trivial
      · split <;> trivial
    | «over» =>
      show st.Ended
      unfold Ended
      rw [hcontroller]
      trivial
    | _ =>
      rw [hcontroller] at hended
      exact hended.elim
  | terminate savestate => exact hsame ((Option.some.inj h) ▸ rfl)
  | diskspace outofdiskspace => exact hsame ((Option.some.inj h) ▸ rfl)

end ScanState

/-- The scan is not stopped, and there is enough disk space. -/
def ScanInput.Undisturbed : ScanInput → Prop
  | .worker _ _ _ | .controller | .diskspace false => True
  | .terminate _ | .diskspace true => False

theorem Running.step (h : Running s t automaticaddress st) {input : ScanInput}
    (hinput : input.Undisturbed) (hstep : st.step s t automaticaddress input = some st') :
    Running s t automaticaddress st' ∨ st'.Ended := by
  cases input with
  | worker i lengths tries =>
    unfold ScanState.step at hstep
    dsimp only at hstep
    split at hstep
    · next w hw =>
      obtain ⟨st₁, hst₁, hrun⟩ := h.workerStep hw lengths tries
      rw [Option.some.inj (hstep.symm.trans hst₁)]
      exact .inl hrun
    · rw [← Option.some.inj hstep]
      exact .inl h
  | controller =>
    rw [← Option.some.inj hstep]
    exact h.controllerStep
  | terminate savestate => exact hinput.elim
  | diskspace outofdiskspace =>
    cases outofdiskspace with
    | true => exact hinput.elim
    | false =>
      -- nothing changes
      have hsame : ({ st with outofdiskspace := false } : ScanState) = st := by
        rw [← h.outofdiskspace]
      rw [← Option.some.inj hstep, hsame]
      exact .inl h

theorem Running.pending_of_left (h : Running s t automaticaddress st)
    (hleft : st.controller = .left) :
    st.pathqueue = [] ∧ (∀ w ∈ st.workers, w.phase ≠ .scanning) ∧ st.pending s t = 0 := by
  have hfound := h.found
  rw [ScanState.Found, hleft] at hfound
  obtain ⟨hqueue, hdone⟩ := hfound
  have hphase : ∀ w ∈ st.workers, w.phase ≠ .scanning := by
    intro w hw hscanning
    have hnot := (h.workers w hw).isdone.2 hscanning
    exact Bool.false_ne_true (hnot.symm.trans (hdone w hw))
  have hworkers : (st.workers.map (workerPaths s t)).sum = 0 := by
    apply List.sum_eq_zero
    intro x hx
    obtain ⟨w, hw, rfl⟩ := List.mem_map.1 hx
    exact (h.workers w hw).paths_eq (hphase w hw)
  refine ⟨hqueue, hphase, ?_⟩
  rw [ScanState.pending, hqueue, h.overflowqueue, hworkers]
  rfl

/-- A pointer scan does not depend on its scheduling. -/
theorem scan_independent_of_scheduling (s : Settings) (t : Target) (automaticaddress : UInt64)
    (workers : List Arrays) (inputs : List ScanInput) (hinputs : ∀ i ∈ inputs, i.Undisturbed)
    (st : ScanState)
    (hrun : execM (ScanState.step s t automaticaddress) (ScanState.initial workers) inputs =
      some st)
    (hleft : st.controller = .left) :
    st.pathqueue = [] ∧ st.overflowqueue = [] ∧ (∀ w ∈ st.workers, w.phase ≠ .scanning) ∧
      paths st.stored =
        paths (rscan s t 0 (ScanState.firstElement automaticaddress).arrays automaticaddress).2 := by
  have hinv : Running s t automaticaddress st ∨ st.Ended := by
    apply execM_preserves_along
      (I := fun st => Running s t automaticaddress st ∨ st.Ended)
      (P := fun _ input => input.Undisturbed) ?_ (.inl (running_initial workers))
      (alongM_of_forall fun _ i hi => hinputs i hi) hrun
    intro st₁ input st₂ hI hinput hstep
    rcases hI with hI | hI
    · exact hI.step hinput hstep
    · exact .inr (hI.step hstep)
  have hrunning : Running s t automaticaddress st := by
    refine hinv.resolve_right fun hended => ?_
    rw [ScanState.Ended, hleft] at hended
    exact hended
  obtain ⟨hqueue, hphase, hpending⟩ := hrunning.pending_of_left hleft
  refine ⟨hqueue, hrunning.overflowqueue, hphase, ?_⟩
  have htotal := hrunning.conserved
  rw [hleft, if_neg nofun, hpending, add_zero, add_zero] at htotal
  exact htotal

def sampleSettings : Settings where
  maxlevel := 2
  structsize := 16
  mustEndWithSpecificOffset := false
  mustEndWithSpecificOffsetMaxDeviation := 0
  mustendwithoffsetlist := []
  useHeapData := false
  useOnlyHeapData := false
  onlyOneStaticInPath := false
  staticonly := true
  noLoop := true
  limitToMaxOffsetsPerNode := false
  maxOffsetsPerNode := 3
  negativeOffsets := false

/-- `0x2000` points below `0x1000`, and a static address points below `0x2000`. -/
def sampleTarget : Target where
  pointerlisthandler :=
    ⟨7, [⟨0x1ffc, [⟨0x400010, some ⟨0, 0x10⟩⟩]⟩, ⟨0xff8, [⟨0x2000, none⟩]⟩]⟩
  findAddress := none

/-- The first worker puts `0x2000` into the queue, and the second one follows it. -/
def sampleRun : List ScanInput :=
  let turn (i : Nat) := ScanInput.worker i (fun _ => 0) (fun _ => true)
  .replicate 2 .controller ++ .replicate 4 (turn 0) ++ .replicate 7 (turn 1) ++
    .replicate 3 (turn 0) ++ .replicate 10 .controller

theorem scan_independent_of_scheduling_sampleRun :
    ∃ st, execM (ScanState.step sampleSettings sampleTarget 0x1000)
        (ScanState.initial (.replicate 2 ⟨fun _ => 0, fun _ => 0⟩)) sampleRun = some st ∧
      st.controller = .left ∧ paths st.stored = {(1, 0, 0x10, [8, 4])} := by
  have hundisturbed : ∀ i ∈ sampleRun, i.Undisturbed := by
    intro i hi
    simp only [sampleRun, List.mem_append, List.mem_replicate] at hi
    rcases hi with (((⟨-, rfl⟩ | ⟨-, rfl⟩) | ⟨-, rfl⟩) | ⟨-, rfl⟩) | ⟨-, rfl⟩ <;> trivial
  have hleft : (execM (ScanState.step sampleSettings sampleTarget 0x1000)
      (ScanState.initial (.replicate 2 ⟨fun _ => 0, fun _ => 0⟩)) sampleRun).map
        ScanState.controller = some .left := by decide
  obtain ⟨st, hst, hcontroller⟩ := Option.map_eq_some_iff.1 hleft
  obtain ⟨-, -, -, hpaths⟩ :=
    scan_independent_of_scheduling _ _ _ _ _ hundisturbed st hst hcontroller
  refine ⟨st, hst, hcontroller, ?_⟩
  rw [hpaths]
  decide

end CheatEngine.PointerScan
