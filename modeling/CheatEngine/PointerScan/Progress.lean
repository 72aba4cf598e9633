/-
  CheatEngine.PointerScan.Progress

  A pointer scan that is not stopped comes to its end.  The lists of the map bound the
  steps that `rscan` can take, so after some time every worker waits for the semaphore;
  with a token for each element the queue is empty then, and `reversescan` finds all
  workers done.
-/
import Mathlib.Order.OrderIsoNat
import CheatEngine.PointerScan.PointerLookup
import CheatEngine.PointerScan.Scheduling

namespace CheatEngine.PointerScan

open CheatEngine.Lib

variable {s : Settings} {t : Target} {automaticaddress : UInt64} {st st' : ScanState}

/-! ## The steps of a call -/

/-- Two steps for each entry, and one to go on to the list before. -/
def listsTodo (lists : List PointerList) : Nat := (lists.map fun l => 2 * l.list.length + 1).sum

/-- What a call of `rscan` still has to do before it returns, without its inner calls. -/
def Frame.todo (f : Frame) : Nat :=
  2 * f.entries.length + (if f.storing.isSome then 1 else 0) + listsTodo f.previous

theorem nextList_todo {a : Arrays} {f f' : Frame} (h : (nextList s a f).2 = some f') :
    f'.level = f.level ∧ f'.todo < f.todo := by
  unfold nextList at h
  split at h
  · cases h
  · split at h
    · cases h
    · next plist previous hprevious =>
      split at h
      · cases h
      · obtain rfl := Option.some.inj h
        simp [Frame.todo, listsTodo, hprevious]
        omega

theorem advance_todo (a : Arrays) (f : Frame) (frames : List Frame) :
    (∃ a' calls, advance s a f frames = .moved a' frames calls) ∨
    ∃ f', ((∃ a' calls, advance s a f frames = .moved a' (f' :: frames) calls) ∨
        ∃ address, advance s a f frames = .deeper address f') ∧
      f'.level = f.level ∧ f'.todo < f.todo := by
  unfold advance
  cases hstoring : f.storing with
  | some _ => exact .inr ⟨_, .inl ⟨_, _, rfl⟩, rfl, by simp [Frame.todo, hstoring]⟩
  | none =>
    cases hentries : f.entries with
    | nil =>
      dsimp only
      split
      · exact .inl ⟨_, _, rfl⟩
      · next hnext => exact .inr ⟨_, .inl ⟨_, _, rfl⟩, nextList_todo (congrArg Prod.snd hnext)⟩
    | cons e entries =>
      dsimp only
      split
      · exact .inr ⟨_, .inl ⟨_, _, rfl⟩, rfl, by simp [Frame.todo, hstoring, hentries]⟩
      · split
        · exact .inr ⟨_, .inl ⟨_, _, rfl⟩, rfl, by simp [Frame.todo, hstoring, hentries]⟩
        · split
          · exact .inr ⟨_, .inr ⟨_, rfl⟩, rfl, by simp [Frame.todo, hstoring, hentries]; omega⟩
          · exact .inr ⟨_, .inl ⟨_, _, rfl⟩, rfl, by simp [Frame.todo, hstoring, hentries]; omega⟩

theorem findPointerValue_suffix (m : PointerMap) (startvalue stopvalue : UInt64) :
    m.findPointerValue startvalue stopvalue <:+ m.lists := by
  have hlast : ∀ (P : PointerList → Bool) xs, PointerMap.fromLast P xs <:+ xs := by
    intro P xs
    rcases PointerMap.fromLast_cases P xs with ⟨hnil, -⟩ | ⟨front, x, rest, hcons, -, hxs⟩
    · exact hnil ▸ List.nil_suffix
    · exact ⟨front, hcons ▸ hxs.symm⟩
  have habove : ∀ {lists}, lists <:+ m.lists → m.notAbove stopvalue lists <:+ m.lists := by
    intro lists hlists
    unfold PointerMap.notAbove
    split
    · exact List.drop_suffix _ _
    · next hfound => exact hfound ▸ (List.dropWhile_suffix _).trans hlists
  have hdescend : ∀ n level, m.descend stopvalue n level <:+ m.lists := by
    intro n
    induction n with
    | zero => exact fun _ => List.dropWhile_suffix _
    | succ n ih =>
      intro level
      rw [PointerMap.descend]
      split
      · exact ih _
      · unfold PointerMap.findClosestPointer
        dsimp only
        split
        · split
          · exact List.nil_suffix
          · next hbelow => exact habove (hbelow ▸ List.dropWhile_suffix _)
        · next hfound => exact habove (hfound ▸ hlast _ _)
  unfold PointerMap.findPointerValue
  split
  · exact List.nil_suffix
  · next hfound =>
    split
    · exact List.nil_suffix
    · exact hfound ▸ hdescend _ _

/-! ## A bound on what is left -/

/-- For a call with `n` levels left: 6 is more than an element in the queue costs. -/
def callBound (t : Target) : Nat → Nat
  | 0 => 0
  | n + 1 => 1 + listsTodo t.pointerlisthandler.lists * (callBound t n + 6)

section

variable (s : Settings) (t : Target)

def Frame.weight (f : Frame) : Nat :=
  1 + f.todo * (callBound t (s.maxlevel - (f.level + 1)) + 6)

def PathQueueElement.weight (e : PathQueueElement) : Nat :=
  callBound t (s.maxlevel - e.startlevel) + 5

def Worker.weight (w : Worker) : Nat :=
  match w.phase with
  | .waiting => 3
  | .token => 2
  | .passed => 1
  | .scanning => 4 + (w.frames.map (Frame.weight s t)).sum
  | .finished => 0

def ControllerPhase.weight : ControllerPhase → Nat
  | .starting => callBound t s.maxlevel + 7
  | .started => 1
  | _ => 0

/-- It bounds the steps that can still happen besides waiting and the loop of
    `reversescan`. -/
def ScanState.weight (st : ScanState) : Nat :=
  (st.pathqueue.map (PathQueueElement.weight s t)).sum + (st.workers.map (Worker.weight s t)).sum +
    st.controller.weight s t

/-- There is less to do, and the loop of `reversescan` is not behind. -/
structure Lighter (st st' : ScanState) : Prop where
  weight : st'.weight s t < st.weight s t
  workers : st'.workers.length = st.workers.length
  ended : st'.Ended → st.Ended

end

theorem Frame.weight_lt {f f' : Frame} (hlevel : f'.level = f.level) (htodo : f'.todo < f.todo) :
    f'.weight s t + callBound t (s.maxlevel - (f'.level + 1)) + 6 ≤ f.weight s t := by
  have hmul := Nat.mul_le_mul_right (callBound t (s.maxlevel - (f.level + 1)) + 6)
    (Nat.succ_le_of_lt htodo)
  rw [Nat.succ_mul] at hmul
  rw [Frame.weight, Frame.weight, hlevel]
  omega

theorem enter_weight {quit : Bool} {a : Arrays} {valuetofind : UInt64} {level : Nat} {f : Frame}
    (h : (enter s t quit a valuetofind level).2 = some f) :
    f.weight s t ≤ callBound t (s.maxlevel - level) := by
  unfold enter at h
  split at h
  · cases h
  next hnot =>
  split at h
  · cases h
  split at h
  · cases h
  dsimp only at h
  split at h
  · cases h
  split at h
  · cases h
  next plist previous hfound =>
  obtain rfl := Option.some.inj h
  obtain ⟨front, hlists⟩ := findPointerValue_suffix t.pointerlisthandler _ _
  have hlevels : s.maxlevel - level = s.maxlevel - (level + 1) + 1 := by
    have hlt := Nat.lt_of_not_le (not_or.1 hnot).1
    omega
  rw [hlevels, callBound, Frame.weight]
  refine Nat.add_le_add_left (Nat.mul_le_mul_right _ ?_) 1
  rw [← hlists, hfound]
  simp [Frame.todo, listsTodo]
  omega

theorem setWorker_lighter {i : Nat} {w : Worker} (hw : st.workers[i]? = some w) (w' : Worker)
    (queue : List PathQueueElement) (semaphore : Nat) (stored : List StoreCall)
    (hless : (queue.map (PathQueueElement.weight s t)).sum + w'.weight s t <
      (st.pathqueue.map (PathQueueElement.weight s t)).sum + w.weight s t) :
    Lighter s t st { st with
      workers := st.workers.set i w', pathqueue := queue, semaphore := semaphore
      stored := stored } := by
  refine ⟨?_, List.length_set, id⟩
  have htotal := sum_map_set (Worker.weight s t) hw w'
  simp only [ScanState.weight]
  omega

/-! ## Steps -/

/-- The worker cannot go on: it waits for the lock or for an element. -/
def ScanState.Waits (st : ScanState) (w : Worker) : Prop :=
  st.locked = true ∨ w.phase = .waiting ∧ st.semaphore = 0

section

variable (h : Running s t automaticaddress st) {i : Nat} {w : Worker} {lengths : Nat → Nat}
  {tries : Nat → Bool}
include h

theorem Running.deeper_lighter (hw : st.workers[i]? = some w) (hphase : w.phase = .scanning)
    {f f' : Frame} {frames : List Frame} (hframes : w.frames = f :: frames)
    (hlevel : f'.level = f.level) (htodo : f'.todo < f.todo) {address : UInt64}
    (hstep : st.deeper s t i w frames address f' lengths tries = some st') :
    Lighter s t st st' ∨ st' = st ∧ st.Waits w := by
  have hless := Frame.weight_lt (s := s) (t := t) hlevel htodo
  have hgo : (!w.terminated && !st.outofdiskspace) = true := by
    simp [(h.workers w (List.mem_of_getElem? hw)).terminated, h.outofdiskspace]
  rw [ScanState.deeper, if_pos hgo] at hstep
  split at hstep
  · next hwaits =>
    simp only [Bool.and_eq_true] at hwaits
    exact .inr ⟨(Option.some.inj hstep).symm, .inl hwaits.1.2⟩
  left
  split at hstep
  · rw [← Option.some.inj hstep, ScanState.push, ScanState.release]
    split <;>
    · refine setWorker_lighter hw _ _ _ _ ?_
      simp [ScanState.setWorker, Worker.weight, hphase, hframes, PathQueueElement.weight]
      omega
  · rw [← Option.some.inj hstep]
    refine setWorker_lighter hw _ _ _ _ (Nat.add_lt_add_left ?_ _)
    have hcall := @enter_weight s t (w.terminated && !w.savestate) w.arrays address (f'.level + 1)
    rw [ScanState.recurse]
    generalize enter s t _ w.arrays address (f'.level + 1) = entered at hcall
    obtain ⟨a, _ | g⟩ := entered
    · simp [Worker.weight, hphase, hframes]
      omega
    · have hg := hcall rfl
      simp [Worker.weight, hphase, hframes]
      omega

theorem Running.fetch_lighter (hw : st.workers[i]? = some w) (hphase : w.phase = .passed) :
    Lighter s t st (st.fetch s t i w) := by
  have hlength := h.tokens_le hw
  rw [Worker.tokens, hphase] at hlength
  obtain ⟨queue, e, hqueue⟩ := (List.eq_nil_or_concat' st.pathqueue).resolve_left
    fun hnil => by simp [hnil] at hlength
  have hcall := @enter_weight s t (w.terminated && !w.savestate)
    ⟨e.arrays.tempresults, if s.noLoop then e.arrays.valuelist else w.arrays.valuelist⟩
    e.valuetofind e.startlevel
  simp only [ScanState.fetch, hqueue, List.getLast?_concat, List.dropLast_concat]
  generalize enter s t _ _ e.valuetofind e.startlevel = entered at hcall
  obtain ⟨a, _ | f⟩ := entered
  · refine setWorker_lighter hw _ _ _ _ ?_
    simp only [Worker.weight, hphase, hqueue, List.map_nil, List.sum_nil, List.map_append,
      List.sum_append, List.map_cons, List.sum_cons, PathQueueElement.weight]
    omega
  · have hf := hcall rfl
    refine setWorker_lighter hw _ _ _ _ ?_
    simp [Worker.weight, hphase, hqueue, PathQueueElement.weight]
    omega

theorem Running.workerStep_lighter (hw : st.workers[i]? = some w)
    (hstep : st.workerStep s t i w lengths tries = some st') :
    Lighter s t st st' ∨ st' = st ∧ st.Waits w := by
  have hworking := h.workers w (List.mem_of_getElem? hw)
  have hstop : ¬ (w.stop || w.terminated) = true := by simp [hworking.stop, hworking.terminated]
  have hless : ∀ w' : Worker, w'.weight s t < w.weight s t → ∀ semaphore stored,
      Lighter s t st { st with
        workers := st.workers.set i w', semaphore := semaphore, stored := stored } :=
    fun w' hlt semaphore stored =>
      setWorker_lighter hw w' _ semaphore stored (Nat.add_lt_add_left hlt _)
  unfold ScanState.workerStep at hstep
  split at hstep
  · next hphase =>
    split at hstep
    · exact .inl (Option.some.inj hstep ▸ hless _ (by simp [Worker.weight, hphase]) _ _)
    · next hnone =>
      exact .inr ⟨(Option.some.inj hstep).symm, .inr ⟨hphase, Nat.eq_zero_of_not_pos hnone⟩⟩
  · next hphase =>
    rw [if_neg hstop, if_neg (by simp [h.outofdiskspace])] at hstep
    exact .inl (Option.some.inj hstep ▸ hless _ (by simp [Worker.weight, hphase]) _ _)
  · next hphase =>
    split at hstep
    · next hlocked => exact .inr ⟨(Option.some.inj hstep).symm, .inl hlocked⟩
    · exact .inl (Option.some.inj hstep ▸ h.fetch_lighter hw hphase)
  · next hphase =>
    split at hstep
    · next hframes =>
      rw [if_neg hstop] at hstep
      exact .inl (Option.some.inj hstep ▸ hless _ (by simp [Worker.weight, hphase, hframes]) _ _)
    · next f frames hframes =>
      rcases advance_todo (s := s) w.arrays f frames with ⟨a, calls, hmoved⟩ |
        ⟨f', ⟨a, calls, hmoved⟩ | ⟨address, hdeeper⟩, hlevel, htodo⟩
      · rw [hmoved] at hstep
        refine .inl (Option.some.inj hstep ▸ hless _ ?_ _ _)
        simp [Worker.weight, hphase, hframes, Frame.weight]
      · rw [hmoved] at hstep
        refine .inl (Option.some.inj hstep ▸ hless _ ?_ _ _)
        have hlt := Frame.weight_lt (s := s) (t := t) hlevel htodo
        simp [Worker.weight, hphase, hframes]
        omega
      · rw [hdeeper] at hstep
        exact h.deeper_lighter hw hphase hframes hlevel htodo hstep
  · next hphase => exact absurd hphase hworking.phase

end

/-! ## The controller -/

/-- In the loop of `reversescan`. -/
def ControllerPhase.Loops : ControllerPhase → Prop
  | .starting | .started | .ending _ | .joining _ | .over => False
  | _ => True

/-- How far it is from the end of the loop when it finds nothing more to do. -/
def ControllerPhase.rank (workers : Nat) : ControllerPhase → Nat
  | .left => 0
  | .leaving true => 1
  | .decided true => 2
  | .checking i => 3 + (workers - i)
  | .entering => workers + 4
  | .eatingAgain => workers + 5
  | .resting => workers + 6
  | .eating => workers + 7
  | .looping => workers + 8
  | .leaving false => workers + 9
  | _ => workers + 10

/-- A step in the loop, which brings `reversescan` nearer to the end when all is done. -/
structure Turns (st : ScanState) (phase : ControllerPhase) : Prop where
  loops : st.controller.Loops
  loops' : phase.Loops
  nearer : st.pathqueue = [] → (∀ w ∈ st.workers, w.isdone = true) →
    phase.rank st.workers.length < st.controller.rank st.workers.length

theorem Running.controllerStep_lighter (h : Running s t automaticaddress st)
    (hleft : st.controller ≠ .left) : Lighter s t st (st.controllerStep s automaticaddress) ∨
      ∃ phase, st.controllerStep s automaticaddress = { st with controller := phase } ∧
        Turns st phase := by
  have hfound := h.found
  unfold ScanState.Found at hfound
  unfold ScanState.controllerStep
  generalize hcontroller : st.controller = phase at hfound hleft ⊢
  have hturn : ∀ {phase'}, phase.Loops → phase'.Loops → (st.pathqueue = [] →
      (∀ w ∈ st.workers, w.isdone = true) → phase'.rank st.workers.length <
        phase.rank st.workers.length) → Turns st phase' := by
    subst hcontroller
    exact fun hloops hloops' hnearer => ⟨hloops, hloops', hnearer⟩
  simp only [h.eat, h.terminated, Bool.false_and, Bool.false_eq_true, if_false, false_or]
  cases phase with
  | starting =>
    left
    dsimp only
    split
    · refine ⟨?_, rfl, False.elim⟩
      simp [ScanState.weight, ControllerPhase.weight, hcontroller, PathQueueElement.weight,
        ScanState.firstElement]
      omega
    · exact ⟨by simp [ScanState.weight, ControllerPhase.weight, hcontroller], rfl, False.elim⟩
  | started =>
    left
    dsimp only [ScanState.release]
    split <;>
      exact ⟨by simp [ScanState.weight, ControllerPhase.weight, hcontroller], rfl, False.elim⟩
  | looping | eating | eatingAgain =>
    exact .inr ⟨_, rfl, hturn trivial trivial fun _ _ => by simp [ControllerPhase.rank]⟩
  | resting =>
    refine .inr ⟨_, rfl, hturn trivial (by split <;> trivial) fun hqueue _ => ?_⟩
    simp [hqueue, ControllerPhase.rank]
  | entering =>
    refine .inr ⟨_, rfl, hturn trivial (by split <;> trivial) fun hqueue _ => ?_⟩
    simp [hqueue, h.overflowqueue, ControllerPhase.rank]
    omega
  | checking i =>
    right
    dsimp only
    split
    · next w hw =>
      refine ⟨_, rfl, hturn trivial (by split <;> trivial) fun _ hdone => ?_⟩
      obtain ⟨hi, -⟩ := List.getElem?_eq_some_iff.1 hw
      rw [if_pos (.inr (hdone w (List.mem_of_getElem? hw)))]
      simp only [ControllerPhase.rank]
      omega
    · refine ⟨_, rfl, hturn trivial trivial fun _ _ => ?_⟩
      simp only [ControllerPhase.rank]
      omega
  | decided alldone | leaving alldone =>
    refine .inr ⟨_, rfl, hturn trivial (by cases alldone <;> trivial) fun _ _ => ?_⟩
    cases alldone <;> simp [ControllerPhase.rank]
  | left => exact absurd rfl hleft
  | _ => exact hfound.elim

/-! ## Whole runs -/

/-- A run up to the end of the loop of `reversescan`.  `reversescan` comes to step again and
    again, and each worker does while `pathqueueCS` is free. -/
structure FairRun (s : Settings) (t : Target) (automaticaddress : UInt64) (workers : List Arrays)
    (states : Nat → ScanState) (inputs : Nat → ScanInput) : Prop where
  initial : states 0 = ScanState.initial workers
  undisturbed : ∀ n, (inputs n).Undisturbed
  step : ∀ n, (states n).controller ≠ .left →
    (states n).step s t automaticaddress (inputs n) = some (states (n + 1))
  controller : ∀ n, ∃ m, n ≤ m ∧ inputs m = .controller
  worker : ∀ i < workers.length, ∀ n, ∃ m, n ≤ m ∧
    (∃ lengths tries, inputs m = .worker i lengths tries) ∧ (states m).locked = false

/-- What a step does when nothing gets less: a worker waits, or `reversescan` goes on. -/
def ScanState.Quiet (st st' : ScanState) : ScanInput → Prop
  | .worker i _ _ => st' = st ∧ ∀ w, st.workers[i]? = some w → st.Waits w
  | .controller => ∃ phase, st' = { st with controller := phase } ∧ Turns st phase
  | _ => st' = st

theorem ScanState.Quiet.keeps {input : ScanInput} (h : st.Quiet st' input) :
    st'.workers = st.workers ∧ st'.pathqueue = st.pathqueue ∧ st'.semaphore = st.semaphore ∧
      st'.controller.weight s t = st.controller.weight s t ∧ (st'.Ended → st.Ended) := by
  cases input with
  | controller =>
    obtain ⟨phase, rfl, hturns⟩ := h
    have hweight : ∀ {phase : ControllerPhase}, phase.Loops → phase.weight s t = 0 := by
      intro phase hloops
      cases phase <;> first | exact hloops.elim | rfl
    have hloops := hturns.loops'
    refine ⟨rfl, rfl, rfl, (hweight hloops).trans (hweight hturns.loops).symm, fun hended => ?_⟩
    cases phase <;> first | exact hloops.elim | exact False.elim hended
  | worker => exact h.1 ▸ ⟨rfl, rfl, rfl, rfl, id⟩
  | _ => exact (h : st' = st) ▸ ⟨rfl, rfl, rfl, rfl, id⟩

theorem Running.step_lighter (h : Running s t automaticaddress st) {input : ScanInput}
    (hinput : input.Undisturbed) (hleft : st.controller ≠ .left)
    (hstep : st.step s t automaticaddress input = some st') :
    Lighter s t st st' ∨ st.Quiet st' input := by
  cases input with
  | worker i lengths tries =>
    unfold ScanState.step at hstep
    dsimp only at hstep
    split at hstep
    · next w hw =>
      refine (h.workerStep_lighter hw hstep).imp_right fun ⟨hsame, hwaits⟩ => ⟨hsame, ?_⟩
      intro w' hw'
      rwa [← Option.some.inj (hw.symm.trans hw')]
    · next hnone =>
      exact .inr ⟨(Option.some.inj hstep).symm, fun w hw => nomatch hnone.symm.trans hw⟩
  | controller =>
    rw [← Option.some.inj hstep]
    exact h.controllerStep_lighter hleft
  | terminate savestate => exact hinput.elim
  | diskspace outofdiskspace =>
    cases outofdiskspace with
    | true => exact hinput.elim
    | false =>
      refine .inr (?_ : st' = st)
      rw [← Option.some.inj hstep, ← h.outofdiskspace]

/-! ## The end of a run -/

section

variable {workers : List Arrays} {states : Nat → ScanState} {inputs : Nat → ScanInput}
  (h : FairRun s t automaticaddress workers states inputs)
include h

theorem FairRun.running (n : Nat) (hnever : ∀ m < n, (states m).controller ≠ .left) :
    Running s t automaticaddress (states n) := by
  induction n with
  | zero => exact h.initial ▸ running_initial workers
  | succ n ih =>
    have hleft := hnever n (Nat.lt_succ_self n)
    have hrunning := ih fun m hm => hnever m (Nat.lt_succ_of_lt hm)
    have hstep := h.step n hleft
    refine (hrunning.step (h.undisturbed n) hstep).resolve_right fun hended => ?_
    have hended' : (states n).Ended := by
      rcases hrunning.step_lighter (h.undisturbed n) hleft hstep with hlighter | hquiet
      · exact hlighter.ended hended
      · exact (hquiet.keeps (s := s) (t := t)).2.2.2.2 hended
    have hfound := hrunning.found
    unfold ScanState.Found at hfound
    unfold ScanState.Ended at hended'
    generalize (states n).controller = phase at hfound hended'
    cases phase <;> first | exact hended' | exact hfound

variable (hnever : ∀ n, (states n).controller ≠ .left)
include hnever

theorem FairRun.quiet :
    (∀ n, (states n).workers.length = workers.length) ∧
      ∃ n, ∀ m, n ≤ m → (states m).Quiet (states (m + 1)) (inputs m) := by
  have hstep : ∀ n, Lighter s t (states n) (states (n + 1)) ∨
      (states n).Quiet (states (n + 1)) (inputs n) := fun n =>
    (h.running n fun m _ => hnever m).step_lighter (h.undisturbed n) (hnever n)
      (h.step n (hnever n))
  have hle : ∀ n, (states (n + 1)).weight s t ≤ (states n).weight s t := by
    intro n
    rcases hstep n with hlighter | hquiet
    · exact Nat.le_of_lt hlighter.weight
    · obtain ⟨hworkers, hqueue, -, hcontroller, -⟩ := hquiet.keeps (s := s) (t := t)
      rw [ScanState.weight, hworkers, hqueue, hcontroller]
      rfl
  refine ⟨fun n => ?_, ?_⟩
  · induction n with
    | zero => simp [h.initial, ScanState.initial]
    | succ n ih =>
      rcases hstep n with hlighter | hquiet
      · exact hlighter.workers.trans ih
      · rw [(hquiet.keeps (s := s) (t := t)).1, ih]
  · obtain ⟨n, hn⟩ := WellFoundedLT.antitone_chain_condition
      (antitone_nat_of_succ_le (f := fun n => (states n).weight s t) hle)
    refine ⟨n, fun m hm => (hstep m).resolve_left fun hlighter => ?_⟩
    have hsame := (hn m hm).symm.trans (hn (m + 1) (Nat.le_succ_of_le hm))
    exact Nat.ne_of_lt hlighter.weight hsame.symm

/-- After some time all workers wait for an element, and there is none. -/
theorem FairRun.idle (hworkers : workers ≠ []) : ∃ n, ∀ m, n ≤ m →
    (states m).Quiet (states (m + 1)) (inputs m) ∧ (states m).pathqueue = [] ∧
      (states m).workers = (states n).workers ∧ ∀ w ∈ (states m).workers, w.isdone = true := by
  obtain ⟨hlength, n, hquiet⟩ := h.quiet hnever
  have hrunning := fun m => h.running m fun m _ => hnever m
  have hsame : ∀ m, n ≤ m → (states m).workers = (states n).workers ∧
      (states m).pathqueue = (states n).pathqueue ∧
      (states m).semaphore = (states n).semaphore := by
    intro m hm
    induction m, hm using Nat.le_induction with
    | base => exact ⟨rfl, rfl, rfl⟩
    | succ m hm ih =>
      obtain ⟨hw, hq, hs, -⟩ := (hquiet m hm).keeps (s := s) (t := t)
      exact ⟨hw.trans ih.1, hq.trans ih.2.1, hs.trans ih.2.2⟩
  have hwaits : ∀ w ∈ (states n).workers, w.phase = .waiting ∧ (states n).semaphore = 0 := by
    intro w hmem
    obtain ⟨i, hw⟩ := List.mem_iff_getElem?.1 hmem
    obtain ⟨hi, -⟩ := List.getElem?_eq_some_iff.1 hw
    obtain ⟨m, hm, ⟨lengths, tries, hinput⟩, hfree⟩ := h.worker i (hlength n ▸ hi) n
    have hstep := hquiet m hm
    obtain ⟨hws, -, hsemaphore⟩ := hsame m hm
    rw [hinput] at hstep
    have hblocked := (hstep.2 w (by rw [hws, hw])).resolve_left (by simp [hfree])
    exact ⟨hblocked.1, hsemaphore ▸ hblocked.2⟩
  have hqueue : (states n).pathqueue = [] := by
    obtain ⟨m, hm, hinput⟩ := h.controller n
    have hstep := hquiet m hm
    obtain ⟨hws, hq, hsemaphore⟩ := hsame m hm
    rw [hinput] at hstep
    obtain ⟨phase, -, hturns⟩ := hstep
    have hstarted : (states m).controller ≠ .started := fun hstarted => by
      have hloops := hturns.loops
      rwa [hstarted] at hloops
    have hsome : (states n).workers ≠ [] := by
      rw [← List.length_pos_iff, hlength]
      exact List.length_pos_iff.2 hworkers
    have hnone : ((states n).workers.map Worker.tokens).sum = 0 := by
      apply List.sum_eq_zero
      intro x hx
      obtain ⟨w, hw, rfl⟩ := List.mem_map.1 hx
      rw [Worker.tokens, (hwaits w hw).1]
    have htokens := (hrunning m).tokens
    rw [if_neg hstarted, hws, hq, hsemaphore, hnone,
      (hwaits _ (List.head_mem hsome)).2] at htokens
    exact List.eq_nil_of_length_eq_zero htokens.symm
  refine ⟨n, fun m hm => ⟨hquiet m hm, (hsame m hm).2.1.trans hqueue, (hsame m hm).1, ?_⟩⟩
  intro w hw
  refine ((hrunning m).workers w hw).isdone_of_not_scanning fun hscanning => ?_
  rw [(hwaits w ((hsame m hm).1 ▸ hw)).1] at hscanning
  cases hscanning

end

theorem FairRun.leaves {workers : List Arrays} {states : Nat → ScanState} {inputs : Nat → ScanInput}
    (h : FairRun s t automaticaddress workers states inputs) (hworkers : workers ≠ []) :
    ∃ n, (states n).controller = .left := by
  by_contra hnone
  have hnever := not_exists.1 hnone
  obtain ⟨n, hidle⟩ := h.idle hnever hworkers
  let rank m := (states (n + m)).controller.rank (states n).workers.length
  have hfalls : ∀ m, inputs (n + m) = .controller → rank (m + 1) < rank m := by
    intro m hinput
    obtain ⟨hquiet, hqueue, hws, hdone⟩ := hidle (n + m) (Nat.le_add_right ..)
    rw [hinput] at hquiet
    obtain ⟨phase, hnext, hturns⟩ := hquiet
    have hnearer := hturns.nearer hqueue hdone
    rw [hws] at hnearer
    simpa only [rank, ← Nat.add_assoc, hnext] using hnearer
  have hle : ∀ m, rank (m + 1) ≤ rank m := by
    intro m
    have hquiet := (hidle (n + m) (Nat.le_add_right ..)).1
    have hstays : states (n + m + 1) = states (n + m) → rank (m + 1) ≤ rank m := fun hsame => by
      simp only [rank, ← Nat.add_assoc, hsame, le_refl]
    cases hinput : inputs (n + m) with
    | controller => exact Nat.le_of_lt (hfalls m hinput)
    | worker i lengths tries =>
      rw [hinput] at hquiet
      exact hstays hquiet.1
    | terminate savestate | diskspace outofdiskspace =>
      rw [hinput] at hquiet
      exact hstays hquiet
  obtain ⟨k, hk⟩ := WellFoundedLT.antitone_chain_condition (antitone_nat_of_succ_le hle)
  obtain ⟨m, hm, hinput⟩ := h.controller (n + k)
  obtain ⟨m, rfl⟩ := Nat.exists_eq_add_of_le (Nat.le_trans (Nat.le_add_right ..) hm)
  have hkm : k ≤ m := by omega
  exact Nat.ne_of_lt (hfalls m hinput) ((hk (m + 1) (Nat.le_succ_of_le hkm)).symm.trans (hk m hkm))

theorem Running.stored_of_left (h : Running s t automaticaddress st)
    (hleft : st.controller = .left) : paths st.stored =
      paths (rscan s t 0 (ScanState.firstElement automaticaddress).arrays automaticaddress).2 := by
  obtain ⟨-, -, hpending⟩ := h.pending_of_left hleft
  have htotal := h.conserved
  rw [hleft, if_neg nofun, hpending, add_zero, add_zero] at htotal
  exact htotal

/-- A pointer scan that is not stopped ends, if each worker and `reversescan` come to step
    again and again, and then the paths of a recursive `rscan` are stored. -/
theorem fair_scan_ends (s : Settings) (t : Target) (automaticaddress : UInt64)
    (workers : List Arrays) (hworkers : workers ≠ []) (states : Nat → ScanState)
    (inputs : Nat → ScanInput) (h : FairRun s t automaticaddress workers states inputs) :
    ∃ n, (states n).controller = .left ∧ paths (states n).stored =
      paths (rscan s t 0 (ScanState.firstElement automaticaddress).arrays automaticaddress).2 := by
  classical
  have hleaves := h.leaves hworkers
  have hleft := Nat.find_spec hleaves
  have hrunning := h.running (Nat.find hleaves) fun m hm => Nat.find_min hleaves hm
  exact ⟨_, hleft, hrunning.stored_of_left hleft⟩

/-- `reversescan` and one worker in turn. -/
def inTurn (n : Nat) : ScanInput :=
  if n % 2 = 0 then .controller else .worker 0 (fun _ => 0) fun _ => true

def statesInTurn : Nat → ScanState
  | 0 => .initial [⟨fun _ => 0, fun _ => 0⟩]
  | n + 1 =>
    if (statesInTurn n).controller = .left then statesInTurn n
    else ((statesInTurn n).step sampleSettings sampleTarget 0x1000 (inTurn n)).getD
      (statesInTurn n)

theorem fair_scan_ends_sample : ∃ n, (statesInTurn n).controller = .left ∧
    paths (statesInTurn n).stored = {(1, 0, 0x10, [8, 4])} := by
  have hsteps : ∀ n < 35, ((statesInTurn n).step sampleSettings sampleTarget 0x1000
      (inTurn n)).isSome = true := by decide +kernel
  have hend : (statesInTurn 35).controller = .left := by decide +kernel
  have hstays : ∀ k, statesInTurn (35 + k) = statesInTurn 35 := by
    intro k
    induction k with
    | zero => rfl
    | succ k ih => rw [← Nat.add_assoc, statesInTurn, ih, if_pos hend]
  have hfair : FairRun sampleSettings sampleTarget 0x1000 [⟨fun _ => 0, fun _ => 0⟩] statesInTurn
      inTurn := by
    refine ⟨rfl, fun n => ?_, fun n hleft => ?_, fun n => ⟨2 * n, by omega, ?_⟩, fun i hi n =>
      ⟨2 * (35 + n) + 1, by omega, ?_, ?_⟩⟩
    · unfold inTurn
      split <;> trivial
    · have hlt : n < 35 := by
        by_contra hge
        obtain ⟨k, rfl⟩ := Nat.exists_eq_add_of_le (Nat.not_lt.1 hge)
        exact hleft (by rw [hstays, hend])
      obtain ⟨st, hst⟩ := Option.isSome_iff_exists.1 (hsteps n hlt)
      rw [statesInTurn, if_neg hleft, hst]
      rfl
    · simp [inTurn]
    · obtain rfl : i = 0 := by simpa using hi
      exact ⟨fun _ => 0, fun _ => true, by simp [inTurn, Nat.add_mod]⟩
    · rw [show 2 * (35 + n) + 1 = 35 + (36 + 2 * n) by omega, hstays, ScanState.locked, hend]
  obtain ⟨n, hleft, hpaths⟩ := fair_scan_ends sampleSettings sampleTarget 0x1000 _
    (List.cons_ne_nil _ _) statesInTurn inTurn hfair
  refine ⟨n, hleft, ?_⟩
  rw [hpaths]
  decide

end CheatEngine.PointerScan
