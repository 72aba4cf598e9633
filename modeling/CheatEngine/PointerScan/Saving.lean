/-
  CheatEngine.PointerScan.Saving

  A pointer scan that is stopped with `savestate`.  The workers unwind their calls
  of `rscan` into the overflow queue, `reversescan` writes both queues to the
  `.resume.queue` file until all workers are done, and once more after they have
  ended.  What is stored, saved, queued and still to do by a worker together makes
  up the paths that the scan started with, as long as

    * no worker reads through the `nil` array that it has without `noLoop`;
    * no worker goes on with its last element because the queue was emptied after
      it had its token;
    * nothing is put into the overflow queue between the writing and the clearing
      of the queues;
    * nothing is in the overflow queue alone at the last save.
-/
import CheatEngine.PointerScan.Scheduling

namespace CheatEngine.PointerScan

open CheatEngine.Lib

def queuePaths (s : Settings) (t : Target) (queue : List PathQueueElement) : Multiset Path :=
  (queue.map (elementPaths s t)).sum

/-- The worker is at an entry for the next level that goes to the overflow queue. -/
def ScanState.Overflows (s : Settings) (st : ScanState) (w : Worker) : Prop :=
  w.phase = .scanning ∧
    (st.outofdiskspace = true ∨ w.terminated = true ∧ w.savestate = true) ∧
    ∃ f frames address f', w.frames = f :: frames ∧
      advance s w.arrays f frames = .deeper address f'

/-- The step loses nothing: see the list above. -/
def ScanState.Saves (s : Settings) (st : ScanState) : ScanInput → Prop
  | .worker i _ _ => ∀ w, st.workers[i]? = some w →
      (w.phase = .passed → st.locked = false → st.pathqueue ≠ []) ∧
      (st.Overflows s w → s.noLoop = true ∧
        ∀ alldone, st.controller = .saved alldone → st.pathqueue = [])
  | .controller => ∀ i, st.controller = .joining i → st.workers[i]? = none →
      st.pathqueue = [] → st.overflowqueue = []
  | .terminate savestate => savestate = true
  | .diskspace _ => True

instance (s : Settings) (st : ScanState) (w : Worker) : Decidable (st.Overflows s w) :=
  match hframes : w.frames with
  | [] => isFalse fun h => by
    obtain ⟨-, -, f, frames, -, -, hsome, -⟩ := h
    exact nomatch hframes.symm.trans hsome
  | f :: frames =>
    match hadvance : advance s w.arrays f frames with
    | .moved _ _ _ => isFalse fun h => by
      obtain ⟨-, -, g, frames', address, g', hsome, hdeeper⟩ := h
      obtain ⟨rfl, rfl⟩ := List.cons.inj (hframes.symm.trans hsome)
      exact nomatch hadvance.symm.trans hdeeper
    | .deeper address f' =>
      decidable_of_iff (w.phase = .scanning ∧
          (st.outofdiskspace = true ∨ w.terminated = true ∧ w.savestate = true))
        ⟨fun h => ⟨h.1, h.2, f, frames, address, f', hframes, hadvance⟩,
          fun h => ⟨h.1, h.2.1⟩⟩

instance (s : Settings) (st : ScanState) : (input : ScanInput) → Decidable (st.Saves s input)
  | .worker i _ _ =>
    match hw : st.workers[i]? with
    | none => isTrue fun w hsome => nomatch hw.symm.trans hsome
    | some w =>
      decidable_of_iff ((w.phase = .passed → st.locked = false → st.pathqueue ≠ []) ∧
          (st.Overflows s w → s.noLoop = true ∧
            ∀ alldone, st.controller = .saved alldone → st.pathqueue = []))
        ⟨fun h _ hsome => Option.some.inj (hw.symm.trans hsome) ▸ h, fun h => h w hw⟩
  | .controller =>
    match hcontroller : st.controller with
    | .joining i =>
      decidable_of_iff (st.workers[i]?.isNone = true → st.pathqueue = [] →
          st.overflowqueue = [])
        ⟨fun h j hj hnone => by
            obtain rfl := ControllerPhase.joining.inj (hcontroller.symm.trans hj)
            exact h (Option.isNone_iff_eq_none.2 hnone),
          fun h hnone => h i hcontroller (Option.isNone_iff_eq_none.1 hnone)⟩
    | .starting | .started | .looping | .telling _ | .eating | .resting | .eatingAgain
    | .entering | .checking _ | .decided _ | .saved _ | .leaving _ | .left | .ending _ | .over =>
      isTrue fun _ hj => nomatch hcontroller.symm.trans hj
  | .terminate savestate => inferInstanceAs (Decidable (savestate = true))
  | .diskspace _ => inferInstanceAs (Decidable True)

/-! ## Invariant -/

def unsaved (controller : ControllerPhase) (pathqueue overflowqueue : List PathQueueElement) :
    List PathQueueElement :=
  match controller, pathqueue with
  | .saved _, _ :: _ => []
  | _, _ => pathqueue ++ overflowqueue

/-- A worker that is stopped saves what it has to do. -/
def ScanState.Told (st : ScanState) : Prop :=
  ∀ w ∈ st.workers, w.terminated = true → w.savestate = true

def ScanState.Done (st : ScanState) : Prop := ∀ w ∈ st.workers, w.isdone = true

/-- What `reversescan` knows. -/
def ScanState.Known (st : ScanState) : Prop :=
  match st.controller with
  | .starting => st.pathqueue = [] ∧ st.Told ∧ st.Done
  | .telling _ => st.terminated = true ∧ st.Told
  | .checking i => (st.pathqueue = [] ∨ st.terminated = true) ∧ st.Told ∧
      ∀ j < i, ∀ w, st.workers[j]? = some w → w.isdone = true
  | .decided true => (st.pathqueue = [] ∨ st.terminated = true) ∧ st.Told ∧ st.Done
  | .saved true => st.Told ∧ st.Done
  | .leaving true | .left | .ending _ | .joining _ => st.pathqueue = [] ∧ st.Done
  | .over => st.pathqueue = [] ∧ st.overflowqueue = [] ∧ st.Done
  | _ => st.Told

/-- A worker is inside `rscan` exactly when it is not done. -/
structure Worker.Sound (w : Worker) : Prop where
  isdone : w.isdone = false ↔ w.phase = .scanning
  frames : w.phase ≠ .scanning → w.frames = []
  nested : Nested w.frames

/-- A scan that stores `total`, and may be stopped with `savestate`; `first` is
    what the first element stores. -/
structure Saving (s : Settings) (t : Target) (first total : Multiset Path) (st : ScanState) :
    Prop where
  savestate : st.terminated = true → st.savestate = true
  workers : ∀ w ∈ st.workers, w.Sound
  known : st.Known
  levels : ∀ e, e ∈ st.pathqueue ∨ e ∈ st.overflowqueue ∨ e ∈ st.savedqueue →
    e.startlevel < s.maxlevel
  saved : st.terminated = false → st.savedqueue = []
  conserved : paths st.stored + queuePaths s t st.savedqueue +
      queuePaths s t (unsaved st.controller st.pathqueue st.overflowqueue) +
      (st.workers.map (workerPaths s t)).sum + (if st.controller = .starting then first else 0) =
    total

variable {s : Settings} {t : Target} {first total : Multiset Path} {st st' : ScanState}

@[simp] theorem queuePaths_nil : queuePaths s t [] = 0 := rfl

@[simp] theorem queuePaths_append (queue queue' : List PathQueueElement) :
    queuePaths s t (queue ++ queue') = queuePaths s t queue + queuePaths s t queue' := by
  rw [queuePaths, List.map_append, List.sum_append]
  rfl

@[simp] theorem queuePaths_singleton (e : PathQueueElement) :
    queuePaths s t [e] = elementPaths s t e := by
  rw [queuePaths, List.map_singleton, List.sum_singleton]

theorem queuePaths_perm {queue queue' : List PathQueueElement} (h : queue.Perm queue') :
    queuePaths s t queue = queuePaths s t queue' := (h.map _).sum_eq

variable {controller phase : ControllerPhase}

theorem unsaved_eq {pathqueue : List PathQueueElement} (overflowqueue : List PathQueueElement)
    (h : ∀ alldone, controller = .saved alldone → pathqueue = []) :
    unsaved controller pathqueue overflowqueue = pathqueue ++ overflowqueue := by
  unfold unsaved
  split
  · next alldone e queue => exact absurd (h alldone rfl) (List.cons_ne_nil e queue)
  · rfl

theorem unsaved_saved (alldone : Bool) {pathqueue : List PathQueueElement}
    (overflowqueue : List PathQueueElement) (hqueue : pathqueue ≠ []) :
    unsaved (.saved alldone) pathqueue overflowqueue = [] := by
  cases pathqueue with
  | nil => exact absurd rfl hqueue
  | cons e queue => rfl

namespace Worker.Sound

variable {w : Worker}

theorem paths_eq (h : w.Sound) (hphase : w.phase ≠ .scanning) : workerPaths s t w = 0 := by
  rw [workerPaths, h.frames hphase, framesPaths_nil]

theorem isdone_iff (h : w.Sound) : w.isdone = true ↔ w.phase ≠ .scanning := by
  rw [Ne, ← h.isdone, Bool.not_eq_false]

end Worker.Sound

/-! ## Steps of the workers -/

variable {i : Nat}

section

variable (h : Saving s t first total st)
include h

theorem Saving.update {w : Worker} (w' : Worker)
    (hw : st.workers[i]? = some w) (hw' : w'.Sound) (calls : List StoreCall)
    (pathqueue overflowqueue : List PathQueueElement) (semaphore : Nat)
    (hpaths : paths calls + queuePaths s t (pathqueue ++ overflowqueue) + workerPaths s t w' =
      queuePaths s t (st.pathqueue ++ st.overflowqueue) + workerPaths s t w)
    (hlevels : ∀ e, e ∈ pathqueue ∨ e ∈ overflowqueue → e.startlevel < s.maxlevel)
    (htold : w'.terminated = w.terminated ∧ w'.savestate = w.savestate)
    (hlocked : st.locked = true ∨ st.pathqueue = [] ∧ w.isdone = true →
      pathqueue = st.pathqueue ∧ (w.isdone = true → w'.isdone = true))
    (hoverflow : w.isdone = true → overflowqueue = st.overflowqueue)
    (hsaved : ∀ alldone, st.controller = .saved alldone → st.pathqueue ≠ [] →
      overflowqueue = st.overflowqueue) :
    Saving s t first total { st with
      workers := st.workers.set i w', pathqueue := pathqueue, overflowqueue := overflowqueue,
      semaphore := semaphore, stored := st.stored ++ calls } where
  savestate := h.savestate
  workers v hv := by
    rcases List.mem_or_eq_of_mem_set hv with hold | rfl
    · exact h.workers v hold
    · exact hw'
  levels e he := by
    rcases he with hmem | hmem | hmem
    · exact hlevels e (.inl hmem)
    · exact hlevels e (.inr hmem)
    · exact h.levels e (.inr (.inr hmem))
  saved := h.saved
  known := by
    have hknown := h.known
    have hmem := List.mem_of_getElem? hw
    have htold' : st.Told → ({ st with
        workers := st.workers.set i w', pathqueue := pathqueue, overflowqueue := overflowqueue,
        semaphore := semaphore, stored := st.stored ++ calls } : ScanState).Told := by
      intro hold v hv
      rcases List.mem_or_eq_of_mem_set hv with hv | rfl
      · exact hold v hv
      · rw [htold.1, htold.2]
        exact hold w hmem
    have hdone' : (w.isdone = true → w'.isdone = true) → st.Done → ({ st with
        workers := st.workers.set i w', pathqueue := pathqueue, overflowqueue := overflowqueue,
        semaphore := semaphore, stored := st.stored ++ calls } : ScanState).Done := by
      intro hkeep hold v hv
      rcases List.mem_or_eq_of_mem_set hv with hv | rfl
      · exact hold v hv
      · exact hkeep (hold w hmem)
    unfold ScanState.Known at hknown ⊢
    dsimp only at hknown ⊢
    split at hknown
    · obtain ⟨hqueue, hold, hdone⟩ := hknown
      obtain ⟨hsame, hkeep⟩ := hlocked (.inr ⟨hqueue, hdone w hmem⟩)
      exact ⟨hsame.trans hqueue, htold' hold, hdone' hkeep hdone⟩
    · exact ⟨hknown.1, htold' hknown.2⟩
    · next j hcontroller =>
      obtain ⟨hqueue, hold, hdone⟩ := hknown
      obtain ⟨hsame, hkeep⟩ := hlocked (.inl (by rw [ScanState.locked, hcontroller]))
      refine ⟨hsame ▸ hqueue, htold' hold, fun k hk v hv => ?_⟩
      by_cases hik : i = k
      · subst hik
        have hlt := (List.getElem?_eq_some_iff.1 hw).1
        rw [List.getElem?_set_self hlt] at hv
        rw [← Option.some.inj hv]
        exact hkeep (hdone i hk w hw)
      · rw [List.getElem?_set_ne hik] at hv
        exact hdone k hk v hv
    · next hcontroller =>
      obtain ⟨hqueue, hold, hdone⟩ := hknown
      obtain ⟨hsame, hkeep⟩ := hlocked (.inl (by rw [ScanState.locked, hcontroller]))
      exact ⟨hsame ▸ hqueue, htold' hold, hdone' hkeep hdone⟩
    · next hcontroller =>
      obtain ⟨hsame, hkeep⟩ := hlocked (.inl (by rw [ScanState.locked, hcontroller]))
      exact ⟨htold' hknown.1, hdone' hkeep hknown.2⟩
    · obtain ⟨hqueue, hdone⟩ := hknown
      obtain ⟨hsame, hkeep⟩ := hlocked (.inr ⟨hqueue, hdone w hmem⟩)
      exact ⟨hsame.trans hqueue, hdone' hkeep hdone⟩
    · obtain ⟨hqueue, hdone⟩ := hknown
      obtain ⟨hsame, hkeep⟩ := hlocked (.inr ⟨hqueue, hdone w hmem⟩)
      exact ⟨hsame.trans hqueue, hdone' hkeep hdone⟩
    · obtain ⟨hqueue, hdone⟩ := hknown
      obtain ⟨hsame, hkeep⟩ := hlocked (.inr ⟨hqueue, hdone w hmem⟩)
      exact ⟨hsame.trans hqueue, hdone' hkeep hdone⟩
    · obtain ⟨hqueue, hdone⟩ := hknown
      obtain ⟨hsame, hkeep⟩ := hlocked (.inr ⟨hqueue, hdone w hmem⟩)
      exact ⟨hsame.trans hqueue, hdone' hkeep hdone⟩
    · obtain ⟨hqueue, hover, hdone⟩ := hknown
      have hwdone := hdone w hmem
      obtain ⟨hsame, hkeep⟩ := hlocked (.inr ⟨hqueue, hwdone⟩)
      exact ⟨hsame.trans hqueue, (hoverflow hwdone).trans hover, hdone' hkeep hdone⟩
    · exact htold' hknown
  conserved := by
    -- while the queues are written but not cleared, only the worker changes
    have hunsaved : paths calls + queuePaths s t (unsaved st.controller pathqueue overflowqueue) +
        workerPaths s t w' =
        queuePaths s t (unsaved st.controller st.pathqueue st.overflowqueue) +
          workerPaths s t w := by
      by_cases hsaving : ∃ alldone, st.controller = .saved alldone ∧ st.pathqueue ≠ []
      · obtain ⟨alldone, hcontroller, hqueue⟩ := hsaving
        have hsame := (hlocked (.inl (by rw [ScanState.locked, hcontroller]))).1
        rw [hsame, hsaved alldone hcontroller hqueue, add_right_comm, add_comm] at hpaths
        have hworker := add_left_cancel hpaths
        rw [hcontroller, hsame, unsaved_saved alldone _ hqueue, unsaved_saved alldone _ hqueue,
          queuePaths_nil, add_zero, zero_add]
        exact hworker
      · have hno : ∀ alldone, st.controller = .saved alldone → st.pathqueue = [] := by
          intro alldone hcontroller
          by_contra hqueue
          exact hsaving ⟨alldone, hcontroller, hqueue⟩
        have hno' : ∀ alldone, st.controller = .saved alldone → pathqueue = [] := by
          intro alldone hcontroller
          have hsame := (hlocked (.inl (by rw [ScanState.locked, hcontroller]))).1
          exact hsame.trans (hno alldone hcontroller)
        rw [unsaved_eq _ hno, unsaved_eq _ hno']
        exact hpaths
    have hmoved := exchange_paths hunsaved (sum_map_set (workerPaths s t) hw w')
    refine Eq.trans ?_ h.conserved
    dsimp only
    rw [paths_append]
    congr 1
    calc _ = paths st.stored + queuePaths s t st.savedqueue + (paths calls +
            queuePaths s t (unsaved st.controller pathqueue overflowqueue) +
            ((st.workers.set i w').map (workerPaths s t)).sum) := by abel
      _ = _ := by rw [hmoved, ← add_assoc]

theorem Saving.told {w : Worker} (hw : w ∈ st.workers)
    (hbusy : w.phase = .scanning ∨ st.pathqueue ≠ []) :
    (w.terminated && !w.savestate) = false := by
  have hnot : st.pathqueue = [] → ¬ st.Done := by
    intro hqueue hdone
    have hscanning := hbusy.resolve_right (not_not_intro hqueue)
    exact (h.workers w hw).isdone_iff.1 (hdone w hw) hscanning
  have htold : st.Told := by
    have hknown := h.known
    unfold ScanState.Known at hknown
    split at hknown
    · exact hknown.2.1
    · exact hknown.2
    · exact hknown.2.1
    · exact hknown.2.1
    · exact hknown.1
    · exact absurd hknown.2 (hnot hknown.1)
    · exact absurd hknown.2 (hnot hknown.1)
    · exact absurd hknown.2 (hnot hknown.1)
    · exact absurd hknown.2 (hnot hknown.1)
    · exact absurd hknown.2.2 (hnot hknown.1)
    · exact hknown
  have hsave := htold w hw
  cases hterminated : w.terminated with
  | false => rfl
  | true => rw [hsave hterminated]; rfl

theorem Saving.setWorker {w : Worker} (w' : Worker)
    (hw : st.workers[i]? = some w) (hw' : w'.Sound) (calls : List StoreCall) (semaphore : Nat)
    (hpaths : paths calls + workerPaths s t w' = workerPaths s t w)
    (htold : w'.terminated = w.terminated ∧ w'.savestate = w.savestate)
    (hdone : w.isdone = true → w'.isdone = true) :
    Saving s t first total { st with
      workers := st.workers.set i w', semaphore := semaphore, stored := st.stored ++ calls } := by
  apply h.update w' hw hw' calls st.pathqueue st.overflowqueue semaphore
  · rw [add_right_comm, hpaths, add_comm]
  · exact fun e he => h.levels e (he.imp_right .inl)
  · exact htold
  · exact fun _ => ⟨rfl, hdone⟩
  · exact fun _ => rfl
  · exact fun _ _ _ => rfl

theorem Saving.fetch {w : Worker}
    (hw : st.workers[i]? = some w) (hphase : w.phase = .passed) (hlocked : st.locked = false)
    (hne : st.pathqueue ≠ []) : Saving s t first total (st.fetch s t i w) := by
  have hmem := List.mem_of_getElem? hw
  have hsound := h.workers w hmem
  have hscanning : w.phase ≠ .scanning := by rw [hphase]; exact nofun
  obtain ⟨queue, e, hqueue⟩ : ∃ queue e, st.pathqueue = queue ++ [e] :=
    ⟨_, _, (List.dropLast_append_getLast hne).symm⟩
  obtain ⟨a, frames, heq, hnested, hpaths⟩ :=
    fetch_eq (s := s) (t := t) (i := i) (w := w) hqueue (h.told hmem (.inr hne))
  rw [heq, ← List.append_nil st.stored]
  apply h.update _ hw
  · exact ⟨⟨fun _ => rfl, fun _ => rfl⟩, fun hno => absurd rfl hno, hnested⟩
  · have hwork : workerPaths s t { w with
        phase := .scanning, isdone := false, arrays := a, valuetofind := e.valuetofind,
        startlevel := e.startlevel, frames := frames } = elementPaths s t e := hpaths
    rw [hwork, hqueue, hsound.paths_eq hscanning, paths_nil]
    simp only [queuePaths_append, queuePaths_singleton]
    abel
  · intro e' he'
    refine h.levels e' (he'.imp (fun hmem' => ?_) .inl)
    rw [hqueue]
    exact List.mem_append_left _ hmem'
  · exact ⟨rfl, rfl⟩
  · rintro (hyes | ⟨hnil, -⟩)
    · exact absurd (hlocked.symm.trans hyes) Bool.false_ne_true
    · exact absurd hnil hne
  · exact fun _ => rfl
  · exact fun _ _ _ => rfl

/-- Inside `rscan`, at an entry for the next level: it goes into a queue, or the
    worker follows it. -/
theorem Saving.deeper {w : Worker}
    (hw : st.workers[i]? = some w) (hphase : w.phase = .scanning) {f f' : Frame}
    {frames : List Frame} (hframes : w.frames = f :: frames) {address : UInt64}
    (hdeeper : advance s w.arrays f frames = .deeper address f')
    (hoverflow : st.Overflows s w → s.noLoop = true ∧
      ∀ alldone, st.controller = .saved alldone → st.pathqueue = [])
    (lengths : Nat → Nat) (tries : Nat → Bool) :
    ∃ st', st.deeper s t i w frames address f' lengths tries = some st' ∧
      Saving s t first total st' := by
  have hmem := List.mem_of_getElem? hw
  have hsound := h.workers w hmem
  have hquit := h.told hmem (.inl hphase)
  have hdone : ¬ w.isdone = true := fun hyes => hsound.isdone_iff.1 hyes hphase
  obtain ⟨hnested, hwork⟩ := nested_deeper (t := t) hsound.nested hframes hdeeper
  have hwaits : ∀ a frames', Nested frames' →
      ({ w with arrays := a, frames := frames' } : Worker).Sound := by
    intro a frames' hnested'
    exact ⟨hsound.isdone, fun hno => absurd hphase hno, hnested'⟩
  have hnew : (⟨w.arrays, address, f'.level + 1⟩ : PathQueueElement).startlevel < s.maxlevel := by
    obtain ⟨hlevel, hmax, -⟩ := advance_deeper (t := t) hdeeper
    show f'.level + 1 < s.maxlevel
    omega
  have hrest : workerPaths s t { w with frames := f' :: frames } =
      framesPaths s t (f' :: frames) w.arrays := rfl
  have helement : elementPaths s t ⟨w.arrays, address, f'.level + 1⟩ =
      callPaths s t (f'.level + 1) w.arrays address := rfl
  unfold ScanState.deeper
  dsimp only
  split
  · split
    · exact ⟨st, rfl, h⟩
    split
    · next hqueue =>
      -- into the queue
      simp only [Bool.and_eq_true, Bool.not_eq_true', decide_eq_true_eq] at hqueue
      obtain ⟨⟨⟨-, hlocked⟩, -⟩, -⟩ := hqueue
      obtain ⟨semaphore, hpush⟩ : ∃ semaphore,
          (st.setWorker i { w with frames := f' :: frames }).push
            ⟨w.arrays, address, f'.level + 1⟩ = { st with
              workers := st.workers.set i { w with frames := f' :: frames },
              pathqueue := st.pathqueue ++ [⟨w.arrays, address, f'.level + 1⟩],
              overflowqueue := st.overflowqueue, semaphore := semaphore,
              stored := st.stored ++ [] } := by
        rw [List.append_nil, ScanState.push, ScanState.release]
        split
        · exact ⟨_, rfl⟩
        · exact ⟨_, rfl⟩
      refine ⟨_, rfl, ?_⟩
      rw [hpush]
      apply h.update _ hw (hwaits w.arrays _ hnested)
      · rw [hrest, hwork, paths_nil]
        simp only [queuePaths_append, queuePaths_singleton, helement]
        abel
      · rintro e (he | he)
        · rcases List.mem_append.1 he with hold | hmem'
          · exact h.levels e (.inl hold)
          · exact List.mem_singleton.1 hmem' ▸ hnew
        · exact h.levels e (.inr (.inl he))
      · exact ⟨rfl, rfl⟩
      · rintro (hyes | ⟨-, hyes⟩)
        · exact absurd (hlocked.symm.trans hyes) Bool.false_ne_true
        · exact absurd hyes hdone
      · exact fun _ => rfl
      · exact fun _ _ _ => rfl
    · -- by the worker itself
      obtain ⟨hsame, hnested', a, frames', hrecurse⟩ :=
        recurse_spec (s := s) (t := t) hquit address hnested
      have hsame' : paths [] + workerPaths s t (ScanState.recurse s t w address f' frames) =
          workerPaths s t w := by rw [hsame, hwork, paths_nil, zero_add]
      rw [hrecurse] at hnested' hsame' ⊢
      refine ⟨_, rfl, ?_⟩
      have hrun := h.setWorker _ hw (hwaits a frames' hnested') [] st.semaphore hsame'
        ⟨rfl, rfl⟩ id
      rw [List.append_nil] at hrun
      exact hrun
  · next hstopped =>
    have hsave : st.outofdiskspace = true ∨ w.terminated = true ∧ w.savestate = true := by
      cases hdisk : st.outofdiskspace <;> cases hterminated : w.terminated <;>
        cases hstate : w.savestate <;> simp_all
    obtain ⟨hno, hclear⟩ := hoverflow ⟨hphase, hsave, f, frames, address, f', hframes, hdeeper⟩
    have hyes : (st.outofdiskspace || w.savestate) = true := by
      rcases hsave with hdisk | ⟨-, hstate⟩
      · rw [hdisk, Bool.true_or]
      · rw [hstate, Bool.or_true]
    -- into the overflow queue
    rw [if_pos hyes, if_pos hno, ScanState.setWorker, ← List.append_nil st.stored]
    refine ⟨_, rfl, ?_⟩
    apply h.update _ hw (hwaits w.arrays _ hnested) [] st.pathqueue _ st.semaphore
    · rw [hrest, hwork, paths_nil]
      simp only [queuePaths_append, queuePaths_singleton, helement]
      abel
    · rintro e (he | he)
      · exact h.levels e (.inl he)
      · rcases List.mem_append.1 he with hold | hmem'
        · exact h.levels e (.inr (.inl hold))
        · exact List.mem_singleton.1 hmem' ▸ hnew
    · exact ⟨rfl, rfl⟩
    · exact fun _ => ⟨rfl, fun hyes => absurd hyes hdone⟩
    · exact fun hyes => absurd hyes hdone
    · exact fun alldone hcontroller hne => absurd (hclear alldone hcontroller) hne

theorem Saving.workerStep {w : Worker}
    (hw : st.workers[i]? = some w) (lengths : Nat → Nat) (tries : Nat → Bool)
    (hsaves : st.Saves s (.worker i lengths tries)) :
    ∃ st', st.workerStep s t i w lengths tries = some st' ∧ Saving s t first total st' := by
  have hsound := h.workers w (List.mem_of_getElem? hw)
  obtain ⟨hfetch, hoverflow⟩ := hsaves w hw
  -- a worker that stays outside `rscan`
  have hmove : ∀ phase : Phase, w.phase ≠ .scanning → phase ≠ .scanning → ∀ semaphore,
      Saving s t first total { st with
        workers := st.workers.set i { w with phase := phase }, semaphore := semaphore } := by
    intro phase hphase hnew semaphore
    have hdone := hsound.isdone_iff.2 hphase
    have hrun := h.setWorker { w with phase := phase } hw
      ⟨⟨fun hno => absurd (hno.symm.trans hdone) Bool.false_ne_true, fun hno => absurd hno hnew⟩,
        fun _ => hsound.frames hphase, hsound.nested⟩ [] semaphore
      (by rw [paths_nil, zero_add]; rfl) ⟨rfl, rfl⟩ (fun _ => hdone)
    rw [List.append_nil] at hrun
    exact hrun
  have hrelease : ∀ phase : Phase, w.phase ≠ .scanning → phase ≠ .scanning →
      Saving s t first total ((st.setWorker i { w with phase := phase }).release 1) := by
    intro phase hphase hnew
    unfold ScanState.release
    split
    · exact hmove phase hphase hnew _
    · exact hmove phase hphase hnew _
  unfold ScanState.workerStep
  split
  · next hphase =>
    have hscanning : w.phase ≠ .scanning := by rw [hphase]; exact nofun
    split
    · exact ⟨_, rfl, hmove .token hscanning nofun _⟩
    · split
      · exact ⟨_, rfl, hmove .finished hscanning nofun _⟩
      · exact ⟨st, rfl, h⟩
  · next hphase =>
    have hscanning : w.phase ≠ .scanning := by rw [hphase]; exact nofun
    split
    · exact ⟨_, rfl, hrelease .finished hscanning nofun⟩
    · split
      · exact ⟨_, rfl, hrelease .waiting hscanning nofun⟩
      · exact ⟨_, rfl, hmove .passed hscanning nofun _⟩
  · next hphase =>
    split
    · exact ⟨st, rfl, h⟩
    · next hlocked =>
      have hlocked' : st.locked = false := Bool.eq_false_iff.2 hlocked
      exact ⟨_, rfl, h.fetch hw hphase hlocked' (hfetch hphase hlocked')⟩
  · next hphase =>
    split
    · next hframes =>
      -- `rscan` has returned
      have hnew : (if (w.stop || w.terminated) = true then Phase.finished else .waiting) ≠
          .scanning := by
        split
        · exact nofun
        · exact nofun
      refine ⟨_, rfl, ?_⟩
      have hrun := h.setWorker { w with
          isdone := true
          phase := if w.stop || w.terminated then .finished else .waiting } hw
        ⟨⟨nofun, fun hno => absurd hno hnew⟩, fun _ => hframes, hsound.nested⟩ [] st.semaphore
        (by rw [paths_nil, zero_add]; rfl) ⟨rfl, rfl⟩ (fun _ => rfl)
      rw [List.append_nil] at hrun
      exact hrun
    · next f frames hframes =>
      split
      · next a frames' calls hmoved =>
        obtain ⟨hnested', hsame⟩ := nested_moved (t := t) hsound.nested hframes hmoved
        have hwaits : ({ w with arrays := a, frames := frames' } : Worker).Sound :=
          ⟨hsound.isdone, fun hno => absurd hphase hno, hnested'⟩
        exact ⟨_, rfl, h.setWorker _ hw hwaits calls st.semaphore hsame ⟨rfl, rfl⟩ id⟩
      · next address f' hdeeper =>
        exact h.deeper hw hphase hframes hdeeper hoverflow lengths tries
  · exact ⟨st, rfl, h⟩

end

/-! ## Steps of the controller -/

/-- Before `starting` and after the writing of the queues `conserved` is about
    other things as well. -/
def ControllerPhase.Plain : ControllerPhase → Prop
  | .starting | .saved _ => False
  | _ => True

theorem ControllerPhase.Plain.unsaved_eq (h : controller.Plain)
    (pathqueue overflowqueue : List PathQueueElement) :
    unsaved controller pathqueue overflowqueue = pathqueue ++ overflowqueue := by
  apply PointerScan.unsaved_eq
  rintro alldone rfl
  exact h.elim

theorem ControllerPhase.Plain.ne_starting (h : controller.Plain) :
    controller ≠ .starting := by
  rintro rfl
  exact h

section

variable (h : Saving s t first total st)
include h

theorem Saving.replace (hphase : st.controller = phase) (hplain : phase.Plain)
    (workers : List Worker) (pathqueue overflowqueue : List PathQueueElement) (semaphore : Nat)
    (controller : ControllerPhase) (hplain' : controller.Plain)
    (hperm : (pathqueue ++ overflowqueue).Perm (st.pathqueue ++ st.overflowqueue))
    (hworkers : ∀ w ∈ workers, w.Sound)
    (hsame : workers.map (workerPaths s t) = st.workers.map (workerPaths s t))
    (hknown : { st with
      workers := workers, pathqueue := pathqueue, overflowqueue := overflowqueue,
      semaphore := semaphore, controller := controller }.Known) :
    Saving s t first total { st with
      workers := workers, pathqueue := pathqueue, overflowqueue := overflowqueue,
      semaphore := semaphore, controller := controller } where
  savestate := h.savestate
  workers := hworkers
  known := hknown
  levels e he := by
    rcases or_assoc.2 he with hqueue | hsaved
    · have hmem := hperm.mem_iff.1 (List.mem_append.2 hqueue)
      rcases List.mem_append.1 hmem with hmem | hmem
      · exact h.levels e (.inl hmem)
      · exact h.levels e (.inr (.inl hmem))
    · exact h.levels e (.inr (.inr hsaved))
  saved := h.saved
  conserved := by
    have htotal := h.conserved
    rw [hphase, hplain.unsaved_eq, if_neg hplain.ne_starting] at htotal
    dsimp only
    rw [hplain'.unsaved_eq, if_neg hplain'.ne_starting, hsame, queuePaths_perm hperm]
    exact htotal

/-- A step of `reversescan` that only goes on. -/
theorem Saving.goTo (hphase : st.controller = phase) (hplain : phase.Plain)
    (controller : ControllerPhase) (hplain' : controller.Plain)
    (hknown : { st with controller := controller }.Known) :
    Saving s t first total { st with controller := controller } :=
  h.replace hphase hplain st.workers st.pathqueue st.overflowqueue st.semaphore controller hplain'
    (.refl _) h.workers rfl hknown

theorem Saving.eat (hphase : st.controller = phase) (hplain : phase.Plain)
    (controller : ControllerPhase) (hplain' : controller.Plain)
    (hknown : ∀ pathqueue overflowqueue semaphore, { st with
      pathqueue := pathqueue, overflowqueue := overflowqueue, semaphore := semaphore,
      controller := controller }.Known) :
    Saving s t first total { st.eatFromOverflowQueueIfNeeded with controller := controller } := by
  unfold ScanState.eatFromOverflowQueueIfNeeded
  split
  · generalize hcount : min st.overflowqueue.length (maxQueueSize - st.pathqueue.length) = count
    have hreverse : st.overflowqueue.reverse.take count =
        (st.overflowqueue.drop (st.overflowqueue.length - count)).reverse :=
      List.take_reverse
    have hperm : (st.pathqueue ++ st.overflowqueue.reverse.take count ++
        st.overflowqueue.take (st.overflowqueue.length - count)).Perm
        (st.pathqueue ++ st.overflowqueue) := by
      rw [hreverse, List.append_assoc]
      apply List.Perm.append_left
      have hback := List.perm_append_comm.trans
        (List.Perm.of_eq (List.take_append_drop (st.overflowqueue.length - count) st.overflowqueue))
      exact ((List.reverse_perm _).append_right _).trans hback
    dsimp only
    unfold ScanState.release
    split
    · exact h.replace hphase hplain st.workers _ _ _ controller hplain' hperm h.workers rfl
        (hknown _ _ _)
    · exact h.replace hphase hplain st.workers _ _ _ controller hplain' hperm h.workers rfl
        (hknown _ _ _)
  · exact h.goTo hphase hplain controller hplain' (hknown _ _ _)

theorem Saving.tell
    (hphase : st.controller = phase) (hplain : phase.Plain) {w : Worker} (hw : st.workers[i]? = some w) (stop terminated savestate : Bool)
    (controller : ControllerPhase) (hplain' : controller.Plain)
    (hknown : { st with
      workers := st.workers.set i { w with
        stop := stop, terminated := terminated, savestate := savestate }
      controller := controller }.Known) :
    Saving s t first total { st with
      workers := st.workers.set i { w with
        stop := stop, terminated := terminated, savestate := savestate }
      controller := controller } := by
  have hsound := h.workers w (List.mem_of_getElem? hw)
  obtain ⟨hlt, hget⟩ := List.getElem?_eq_some_iff.1 hw
  apply h.replace hphase hplain _ st.pathqueue st.overflowqueue st.semaphore controller hplain'
    (.refl _) _ _ hknown
  · intro v hv
    rcases List.mem_or_eq_of_mem_set hv with hold | rfl
    · exact h.workers v hold
    · exact ⟨hsound.isdone, hsound.frames, hsound.nested⟩
  · rw [List.map_set]
    apply List.ext_getElem?
    intro j
    by_cases hij : i = j
    · subst hij
      rw [List.getElem?_set_self (by rwa [List.length_map]), List.getElem?_map, hw]
      rfl
    · rw [List.getElem?_set_ne hij]

end

theorem ScanState.Told.tell (h : st.Told) (i : Nat) {w : Worker} (hw : w.savestate = true) :
    ∀ v ∈ st.workers.set i w, v.terminated = true → v.savestate = true := by
  intro v hv
  rcases List.mem_or_eq_of_mem_set hv with hold | rfl
  · exact h v hold
  · exact fun _ => hw

theorem ScanState.Done.tell (h : st.Done) {w w' : Worker}
    (hw : st.workers[i]? = some w) (hw' : w'.isdone = w.isdone) :
    ∀ v ∈ st.workers.set i w', v.isdone = true := by
  intro v hv
  rcases List.mem_or_eq_of_mem_set hv with hold | rfl
  · exact h v hold
  · rw [hw']
    exact h w (List.mem_of_getElem? hw)

theorem Saving.saveQueue (h : Saving s t first total st) {alldone : Bool}
    (hcontroller : st.controller = .decided alldone) (hterminated : st.terminated = true) :
    Saving s t first total { st.saveQueue with controller := .saved alldone } := by
  have htotal := h.conserved
  have hplain : st.controller.Plain := by rw [hcontroller]; trivial
  rw [hplain.unsaved_eq, if_neg hplain.ne_starting] at htotal
  have hknown : ∀ savedqueue, { st with
      savedqueue := savedqueue, controller := .saved alldone }.Known := by
    intro savedqueue
    have hknown := h.known
    rw [ScanState.Known, hcontroller] at hknown
    cases alldone with
    | false => exact hknown
    | true => exact ⟨hknown.2.1, hknown.2.2⟩
  unfold ScanState.saveQueue
  split
  · next hpos =>
    have hne : st.pathqueue ≠ [] := List.ne_nil_of_length_pos hpos
    constructor
    · exact h.savestate
    · exact h.workers
    · exact hknown _
    · rintro e (he | he | he)
      · exact h.levels e (.inl he)
      · exact h.levels e (.inr (.inl he))
      · rcases List.mem_append.1 he with he | he
        · rcases List.mem_append.1 he with he | he
          · exact h.levels e (.inr (.inr he))
          · exact h.levels e (.inl he)
        · exact h.levels e (.inr (.inl he))
    · exact fun hno => absurd (hno.symm.trans hterminated) Bool.false_ne_true
    · dsimp only
      rw [unsaved_saved alldone _ hne, if_neg nofun, queuePaths_nil, ← htotal]
      simp only [queuePaths_append]
      abel
  · next hzero =>
    have hnil : st.pathqueue = [] := List.eq_nil_of_length_eq_zero (by omega)
    constructor
    · exact h.savestate
    · exact h.workers
    · exact hknown _
    · exact h.levels
    · exact h.saved
    · dsimp only
      rw [unsaved_eq _ (fun _ _ => hnil), if_neg nofun]
      exact htotal

theorem Saving.clearQueue (h : Saving s t first total st) {alldone : Bool}
    (hcontroller : st.controller = .saved alldone) :
    Saving s t first total { st.clearQueue with controller := .leaving alldone } := by
  have htotal := h.conserved
  have hknown := h.known
  rw [hcontroller, if_neg nofun] at htotal
  rw [ScanState.Known, hcontroller] at hknown
  have hleaving : ∀ overflowqueue semaphore, { st with
      pathqueue := [], overflowqueue := overflowqueue, semaphore := semaphore,
      controller := .leaving alldone }.Known := by
    intro overflowqueue semaphore
    cases alldone with
    | false => exact hknown
    | true => exact ⟨rfl, hknown.2⟩
  unfold ScanState.clearQueue
  split
  · next hpos =>
    have hne : st.pathqueue ≠ [] := List.ne_nil_of_length_pos hpos
    rw [unsaved_saved alldone _ hne] at htotal
    have hrun : ∀ semaphore, Saving s t first total { st with
        pathqueue := [], overflowqueue := [], semaphore := semaphore,
        controller := .leaving alldone } := by
      intro semaphore
      constructor
      · exact h.savestate
      · exact h.workers
      · exact hleaving _ _
      · rintro e (he | he | he)
        · exact absurd he List.not_mem_nil
        · exact absurd he List.not_mem_nil
        · exact h.levels e (.inr (.inr he))
      · exact h.saved
      · rw [if_neg nofun]
        exact htotal
    unfold ScanState.release
    split
    · exact hrun _
    · exact hrun _
  · next hzero =>
    have hnil : st.pathqueue = [] := List.eq_nil_of_length_eq_zero (by omega)
    rw [unsaved_eq _ (fun _ _ => hnil)] at htotal
    constructor
    · exact h.savestate
    · exact h.workers
    · have hsame := hleaving st.overflowqueue st.semaphore
      rw [← hnil] at hsame
      exact hsame
    · exact h.levels
    · exact h.saved
    · dsimp only
      rw [if_neg nofun]
      exact htotal

variable {automaticaddress : UInt64}

theorem Saving.start
    (h : Saving s t (elementPaths s t (ScanState.firstElement automaticaddress)) total st)
    (hcontroller : st.controller = .starting) :
    Saving s t (elementPaths s t (ScanState.firstElement automaticaddress)) total
      (st.controllerStep s automaticaddress) := by
  have htotal := h.conserved
  have hknown := h.known
  have hqueue : unsaved .starting st.pathqueue st.overflowqueue =
      st.pathqueue ++ st.overflowqueue := unsaved_eq _ fun alldone h => by cases h
  have hstarted : ControllerPhase.started.Plain := trivial
  have hleft : ControllerPhase.left.Plain := trivial
  rw [if_pos hcontroller, hcontroller, hqueue] at htotal
  rw [ScanState.Known, hcontroller] at hknown
  unfold ScanState.controllerStep
  rw [hcontroller]
  dsimp only
  split
  · next hlevel =>
    constructor
    · exact h.savestate
    · exact h.workers
    · exact hknown.2.1
    · rintro e (he | he)
      · rcases List.mem_append.1 he with hold | hnew
        · exact h.levels e (.inl hold)
        · exact List.mem_singleton.1 hnew ▸ hlevel
      · exact h.levels e (.inr he)
    · exact h.saved
    · dsimp only
      rw [hstarted.unsaved_eq, if_neg (fun h => by cases h), ← htotal]
      simp only [queuePaths_append, queuePaths_singleton]
      abel
  · next hlevel =>
    have hfirst : elementPaths s t (ScanState.firstElement automaticaddress) = 0 := by
      have hle : s.maxlevel ≤ (ScanState.firstElement automaticaddress).startlevel :=
        Nat.not_lt.1 hlevel
      rw [elementPaths, callPaths_eq, enter, if_pos (.inl hle)]
    constructor
    · exact h.savestate
    · exact h.workers
    · exact ⟨hknown.1, hknown.2.2⟩
    · exact h.levels
    · exact h.saved
    · dsimp only
      rw [hleft.unsaved_eq, if_neg (fun h => by cases h), ← htotal, hfirst]

theorem Saving.controllerStep
    (h : Saving s t (elementPaths s t (ScanState.firstElement automaticaddress)) total st)
    (hsaves : st.Saves s .controller) :
    Saving s t (elementPaths s t (ScanState.firstElement automaticaddress)) total
      (st.controllerStep s automaticaddress) := by
  have hknown := h.known
  unfold ScanState.Known at hknown
  unfold ScanState.controllerStep
  generalize hphase : st.controller = phase at hknown ⊢
  cases phase with
  | starting =>
    have hstart := h.start hphase
    unfold ScanState.controllerStep at hstart
    rw [hphase] at hstart
    exact hstart
  | saved alldone => exact h.clearQueue hphase
  | started =>
    dsimp only
    unfold ScanState.release
    split
    · exact h.replace hphase trivial st.workers st.pathqueue st.overflowqueue _ .looping trivial
        (.refl _) h.workers rfl hknown
    · exact h.goTo hphase trivial .looping trivial hknown
  | looping =>
    dsimp only
    split
    · next hterminated => exact h.goTo hphase trivial (.telling 0) trivial ⟨hterminated, hknown⟩
    · exact h.goTo hphase trivial .eating trivial hknown
  | telling i =>
    obtain ⟨hterminated, htold⟩ := hknown
    dsimp only
    split
    · next w hw =>
      have hsave := h.savestate hterminated
      exact h.tell hphase trivial hw true true st.savestate (.telling (i + 1)) trivial
        ⟨hterminated, htold.tell i hsave⟩
    · exact h.goTo hphase trivial .eating trivial htold
  | eating =>
    exact h.eat hphase trivial .resting trivial fun _ _ _ => hknown
  | resting =>
    dsimp only
    split
    · exact h.goTo hphase trivial .eatingAgain trivial hknown
    · exact h.goTo hphase trivial .looping trivial hknown
  | eatingAgain =>
    exact h.eat hphase trivial .entering trivial fun _ _ _ => hknown
  | entering =>
    dsimp only
    split
    · next hcheck =>
      have hqueue : st.pathqueue = [] ∨ st.terminated = true := by
        rcases hcheck with hterminated | ⟨hlength, -⟩
        · exact .inr hterminated
        · exact .inl (List.eq_nil_of_length_eq_zero hlength)
      exact h.goTo hphase trivial (.checking 0) trivial
        ⟨hqueue, hknown, fun j hj => absurd hj (Nat.not_lt_zero j)⟩
    · exact h.goTo hphase trivial (.decided false) trivial hknown
  | checking i =>
    obtain ⟨hqueue, htold, hdone⟩ := hknown
    dsimp only
    split
    · next w hw =>
      split
      · next hyes =>
        have hwdone : w.isdone = true := by
          rcases hyes with hphase | hyes
          · apply (h.workers w (List.mem_of_getElem? hw)).isdone_iff.2
            rw [hphase]
            exact nofun
          · exact hyes
        refine h.goTo hphase trivial (.checking (i + 1)) trivial ⟨hqueue, htold, fun j hj v hv => ?_⟩
        rcases Nat.lt_succ_iff_lt_or_eq.1 hj with hlt | rfl
        · exact hdone j hlt v hv
        · rw [Option.some.inj (hv.symm.trans hw)]
          exact hwdone
      · exact h.goTo hphase trivial (.decided false) trivial htold
    · next hnone =>
      refine h.goTo hphase trivial (.decided true) trivial ⟨hqueue, htold, fun w hw => ?_⟩
      obtain ⟨j, hj⟩ := List.mem_iff_getElem?.1 hw
      have hlength : st.workers.length ≤ i := List.getElem?_eq_none_iff.1 hnone
      obtain ⟨hlt, -⟩ := List.getElem?_eq_some_iff.1 hj
      exact hdone j (Nat.lt_of_lt_of_le hlt hlength) w hj
  | decided alldone =>
    dsimp only
    split
    · next hyes => exact h.saveQueue hphase (Bool.and_eq_true_iff.1 hyes).1
    · next hno =>
      -- the scan was not stopped, so that the queue was found empty
      have hterminated : ¬ st.terminated = true := by
        intro hyes
        rw [hyes, h.savestate hyes] at hno
        exact hno rfl
      cases alldone with
      | false => exact h.goTo hphase trivial (.leaving false) trivial hknown
      | true =>
        exact h.goTo hphase trivial (.leaving true) trivial
          ⟨hknown.1.resolve_right hterminated, hknown.2.2⟩
  | leaving alldone =>
    cases alldone with
    | false => exact h.goTo hphase trivial .looping trivial hknown
    | true => exact h.goTo hphase trivial .left trivial hknown
  | left =>
    exact h.goTo hphase trivial (.ending 0) trivial hknown
  | ending i =>
    dsimp only
    split
    · next w hw =>
      exact h.tell hphase trivial hw true true w.savestate (.ending (i + 1)) trivial
        ⟨hknown.1, hknown.2.tell hw rfl⟩
    · exact h.goTo hphase trivial (.joining 0) trivial hknown
  | joining i =>
    dsimp only
    split
    · split
      · exact h.goTo hphase trivial (.joining (i + 1)) trivial hknown
      · exact h
    · next hnone =>
      -- the last save finds the queue empty
      have hover : st.overflowqueue = [] := hsaves i hphase hnone hknown.1
      have hzero : ¬ 0 < st.pathqueue.length := by
        rw [hknown.1]
        exact Nat.lt_irrefl 0
      have hsave : st.saveQueue = st := by rw [ScanState.saveQueue, if_neg hzero]
      have hclear : st.clearQueue = st := by rw [ScanState.clearQueue, if_neg hzero]
      rw [hsave, hclear]
      have hrun := h.goTo hphase trivial .over trivial ⟨hknown.1, hover, hknown.2⟩
      split
      · exact hrun
      · exact hrun
  | «over» => exact h

theorem ScanState.Known.terminate (h : st.Known) (savestate : Bool) :
    { st with terminated := true, savestate := savestate }.Known := by
  unfold ScanState.Known at h ⊢
  cases hcontroller : st.controller with
  | telling i =>
    rw [hcontroller] at h
    exact ⟨rfl, h.2⟩
  | checking i =>
    rw [hcontroller] at h
    exact ⟨.inr rfl, h.2⟩
  | decided alldone =>
    rw [hcontroller] at h
    cases alldone with
    | false => exact h
    | true => exact ⟨.inr rfl, h.2⟩
  | saved alldone =>
    rw [hcontroller] at h
    cases alldone <;> exact h
  | leaving alldone =>
    rw [hcontroller] at h
    cases alldone <;> exact h
  | _ =>
    rw [hcontroller] at h
    exact h

theorem Saving.step
    (h : Saving s t (elementPaths s t (ScanState.firstElement automaticaddress)) total st)
    {input : ScanInput} (hsaves : st.Saves s input) :
    ∃ st', st.step s t automaticaddress input = some st' ∧
      Saving s t (elementPaths s t (ScanState.firstElement automaticaddress)) total st' := by
  cases input with
  | worker i lengths tries =>
    unfold ScanState.step
    dsimp only
    split
    · next w hw => exact h.workerStep hw lengths tries hsaves
    · exact ⟨st, rfl, h⟩
  | controller => exact ⟨_, rfl, h.controllerStep hsaves⟩
  | terminate savestate =>
    exact ⟨_, rfl, fun _ => hsaves, h.workers, h.known.terminate savestate, h.levels, nofun,
      h.conserved⟩
  | diskspace outofdiskspace =>
    refine ⟨_, rfl, ?_⟩
    exact ⟨h.savestate, h.workers, h.known, h.levels, h.saved, h.conserved⟩

theorem Saving.run
    (h : Saving s t (elementPaths s t (ScanState.firstElement automaticaddress)) total st)
    {inputs : List ScanInput}
    (hrun : AlongM (ScanState.step s t automaticaddress) (ScanState.Saves s) st inputs) :
    ∃ st', execM (ScanState.step s t automaticaddress) st inputs = some st' ∧
      Saving s t (elementPaths s t (ScanState.firstElement automaticaddress)) total st' :=
  execM_invariant (fun _ _ hsaving hsaves => hsaving.step hsaves) h hrun

theorem Saving.paths_of_over (h : Saving s t first total st) (hover : st.controller = .over) :
    paths st.stored + queuePaths s t st.savedqueue = total := by
  have htotal := h.conserved
  have hknown := h.known
  rw [ScanState.Known, hover] at hknown
  obtain ⟨hqueue, hoverflow, hdone⟩ := hknown
  have hplain : ControllerPhase.over.Plain := trivial
  have hworkers : (st.workers.map (workerPaths s t)).sum = 0 := by
    apply List.sum_eq_zero
    intro x hx
    obtain ⟨w, hw, rfl⟩ := List.mem_map.1 hx
    have hsound := h.workers w hw
    exact hsound.paths_eq (hsound.isdone_iff.1 (hdone w hw))
  rw [hover, hplain.unsaved_eq, hqueue, hoverflow, if_neg nofun, hworkers] at htotal
  simpa using htotal

theorem newWorkers_sound (workers : List Arrays) :
    (∀ w ∈ workers.map ScanState.newWorker, w.Sound ∧ w.isdone = true ∧ w.terminated = false) ∧
      ((workers.map ScanState.newWorker).map (workerPaths s t)).sum = 0 := by
  constructor
  · intro w hw
    obtain ⟨a, -, rfl⟩ := List.mem_map.1 hw
    exact ⟨⟨⟨nofun, nofun⟩, fun _ => rfl, List.Pairwise.nil⟩, rfl, rfl⟩
  · apply List.sum_eq_zero
    intro x hx
    obtain ⟨w, hw, rfl⟩ := List.mem_map.1 hx
    obtain ⟨a, -, rfl⟩ := List.mem_map.1 hw
    rfl

theorem saving_initial (workers : List Arrays) :
    Saving s t first first (ScanState.initial workers) := by
  obtain ⟨hworkers, hsum⟩ := newWorkers_sound (s := s) (t := t) workers
  constructor
  · exact nofun
  · exact fun w hw => (hworkers w hw).1
  · refine ⟨rfl, fun w hw hterminated => ?_, fun w hw => (hworkers w hw).2.1⟩
    exact absurd ((hworkers w hw).2.2.symm.trans hterminated) Bool.false_ne_true
  · rintro e (he | he | he) <;> exact absurd he List.not_mem_nil
  · exact fun _ => rfl
  · show paths [] + 0 + 0 + ((workers.map ScanState.newWorker).map (workerPaths s t)).sum + first =
      first
    rw [hsum, paths_nil, zero_add, zero_add, zero_add, zero_add]

end CheatEngine.PointerScan
