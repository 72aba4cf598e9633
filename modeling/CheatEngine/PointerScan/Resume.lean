/-
  CheatEngine.PointerScan.Resume

  A resumed pointer scan.  `SetupQueueForResume` reads the elements of the
  `.resume.queue` file into the overflow queue, sorts them by their level and moves
  as many as there is room for into the queue, those of the highest levels first.
  The two queues share the arrays of an element that is moved, and the first offset
  is then overwritten in the overflow queue: so it is in the queue as well, and all
  paths that are found from there on have a wrong first offset.
-/
import CheatEngine.PointerScan.Saving

namespace CheatEngine.PointerScan

open CheatEngine.Lib

/-- An element as it is read back: `maxlevel + 1` offsets, and as many values with
    `noLoop`. -/
def readElement (s : Settings) (e : PathQueueElement) : PathQueueElement :=
  { e with
    arrays.tempresults := fun i => if i ≤ s.maxlevel then e.arrays.tempresults i else 0
    arrays.valuelist := fun i => if s.noLoop ∧ i ≤ s.maxlevel then e.arrays.valuelist i else 0 }

/-- The inner loop of the sort: the element at `i` is exchanged with every later
    one of a lower level. -/
def sortPass (e : PathQueueElement) : List PathQueueElement → PathQueueElement × List PathQueueElement
  | [] => (e, [])
  | next :: rest =>
    if next.startlevel < e.startlevel then
      let (least, rest) := sortPass next rest
      (least, e :: rest)
    else
      let (least, rest) := sortPass e rest
      (least, next :: rest)

/-- The outer loop, for `n` elements. -/
def sortByLevel : Nat → List PathQueueElement → List PathQueueElement
  | n + 1, e :: rest =>
    let (least, rest) := sortPass e rest
    least :: sortByLevel n rest
  | _, queue => queue

def overwriteOffset (e : PathQueueElement) : PathQueueElement :=
  { e with arrays.tempresults := Function.update e.arrays.tempresults 0 0xcece }

def movedElements (s : Settings) (file : List PathQueueElement) : List PathQueueElement :=
  (sortByLevel file.length (file.map (readElement s))).reverse.take maxQueueSize

/-- `SetupQueueForResume`, with new workers.  `none` when a level is invalid. -/
def setupQueueForResume (s : Settings) (workers : List Arrays) (file : List PathQueueElement) :
    Option ScanState :=
  if ∃ e ∈ file, s.maxlevel < e.startlevel then none
  else
    let sorted := sortByLevel file.length (file.map (readElement s))
    let addedToQueue := (movedElements s file).length
    some {
      pathqueue := (movedElements s file).map overwriteOffset
      semaphore := addedToQueue
      overflowqueue := sorted.take (sorted.length - addedToQueue)
      outofdiskspace := false
      terminated := false
      savestate := false
      controller := .looping
      workers := workers.map ScanState.newWorker
      stored := []
      savedqueue := [] }

/-! ## What is read back -/

variable {s : Settings} {t : Target}

theorem sortPass_perm (e : PathQueueElement) (queue : List PathQueueElement) :
    ((sortPass e queue).1 :: (sortPass e queue).2).Perm (e :: queue) := by
  induction queue generalizing e with
  | nil => exact .refl _
  | cons next rest ih =>
    unfold sortPass
    split
    · -- the two are exchanged
      calc ((sortPass next rest).1 :: e :: (sortPass next rest).2).Perm
            (e :: (sortPass next rest).1 :: (sortPass next rest).2) := .swap ..
        List.Perm _ (e :: next :: rest) := (ih next).cons e
    · calc ((sortPass e rest).1 :: next :: (sortPass e rest).2).Perm
            (next :: (sortPass e rest).1 :: (sortPass e rest).2) := .swap ..
        List.Perm _ (next :: e :: rest) := (ih e).cons next
        List.Perm _ (e :: next :: rest) := .swap ..

theorem sortByLevel_perm (n : Nat) (queue : List PathQueueElement) :
    (sortByLevel n queue).Perm queue := by
  induction n generalizing queue with
  | zero => exact .refl _
  | succ n ih =>
    cases queue with
    | nil => exact .refl _
    | cons e rest => exact ((ih _).cons _).trans (sortPass_perm e rest)

theorem readElement_paths {e : PathQueueElement} (hlevel : e.startlevel < s.maxlevel) :
    elementPaths s t (readElement s e) = elementPaths s t e := by
  apply callPaths_agree
  intro i hi
  have hle : i ≤ s.maxlevel := by
    have hlt : i < e.startlevel := hi
    omega
  exact ⟨if_pos hle, fun hno => if_pos ⟨hno, hle⟩⟩

theorem overwriteOffset_paths {e : PathQueueElement}
    (h : e.startlevel = 0 ∨ e.arrays.tempresults 0 = 0xcece) :
    elementPaths s t (overwriteOffset e) = elementPaths s t e := by
  apply callPaths_agree
  intro i hi
  have hlt : i < e.startlevel := hi
  refine ⟨?_, fun _ => rfl⟩
  rcases h with hzero | hsame
  · omega
  · show Function.update e.arrays.tempresults 0 0xcece i = e.arrays.tempresults i
    rw [← hsame, Function.update_eq_self]

theorem queuePaths_map_eq {f : PathQueueElement → PathQueueElement} {queue : List PathQueueElement}
    (h : ∀ e ∈ queue, elementPaths s t (f e) = elementPaths s t e) :
    queuePaths s t (queue.map f) = queuePaths s t queue := by
  rw [queuePaths, queuePaths, List.map_map]
  exact congrArg List.sum (List.map_congr_left h)

/-- The offset that is overwritten is not needed. -/
def Intact (s : Settings) (file : List PathQueueElement) : Prop :=
  ∀ e ∈ movedElements s file, e.startlevel = 0 ∨ e.arrays.tempresults 0 = 0xcece

instance (s : Settings) (file : List PathQueueElement) : Decidable (Intact s file) :=
  inferInstanceAs (Decidable (∀ e ∈ movedElements s file,
    e.startlevel = 0 ∨ e.arrays.tempresults 0 = 0xcece))

theorem saving_resume {first : Multiset Path} (workers : List Arrays)
    {file : List PathQueueElement} (hlevels : ∀ e ∈ file, e.startlevel < s.maxlevel) :
    ∃ st, setupQueueForResume s workers file = some st ∧
      (Intact s file → Saving s t first (queuePaths s t file) st) := by
  have hvalid : ¬ ∃ e ∈ file, s.maxlevel < e.startlevel := by
    rintro ⟨e, he, hlt⟩
    have hle := hlevels e he
    omega
  rw [setupQueueForResume, if_neg hvalid]
  refine ⟨_, rfl, fun hintact => ?_⟩
  obtain ⟨hworkers, hsum⟩ := newWorkers_sound (s := s) (t := t) workers
  have hmoved : movedElements s file =
      (sortByLevel file.length (file.map (readElement s))).reverse.take maxQueueSize := rfl
  have hperm := sortByLevel_perm file.length (file.map (readElement s))
  generalize sortByLevel file.length (file.map (readElement s)) = sorted at hmoved hperm
  have hlength : sorted.length - (movedElements s file).length = sorted.length - maxQueueSize := by
    rw [hmoved, List.length_take, List.length_reverse]
    omega
  -- the two parts of the file
  have hparts : (movedElements s file ++ sorted.take (sorted.length - maxQueueSize)).Perm
      (file.map (readElement s)) := by
    rw [hmoved, List.take_reverse]
    have hback := List.perm_append_comm.trans
      (List.Perm.of_eq (List.take_append_drop (sorted.length - maxQueueSize) sorted))
    exact (((List.reverse_perm _).append_right _).trans hback).trans hperm
  have hlevel : ∀ e ∈ file.map (readElement s), e.startlevel < s.maxlevel := by
    intro e he
    obtain ⟨e', he', rfl⟩ := List.mem_map.1 he
    exact hlevels e' he'
  have hplain : ControllerPhase.looping.Plain := trivial
  constructor
  · exact nofun
  · exact fun w hw => (hworkers w hw).1
  · intro w hw hterminated
    exact absurd ((hworkers w hw).2.2.symm.trans hterminated) Bool.false_ne_true
  · rintro e (he | he | he)
    · obtain ⟨e', he', rfl⟩ := List.mem_map.1 he
      exact hlevel e' (hparts.mem_iff.1 (List.mem_append_left _ he'))
    · dsimp only at he
      rw [hlength] at he
      exact hlevel e (hparts.mem_iff.1 (List.mem_append_right _ he))
    · exact absurd he List.not_mem_nil
  · exact fun _ => rfl
  · dsimp only
    rw [hplain.unsaved_eq, hsum, hlength, if_neg nofun, queuePaths_append,
      queuePaths_map_eq fun e he => overwriteOffset_paths (hintact e he), ← queuePaths_append,
      queuePaths_perm hparts, queuePaths_map_eq fun e he => readElement_paths (hlevels e he)]
    simp

/-! ## The stopped and the resumed scan -/

/-- A scan that is stopped with `savestate` without losing anything can be resumed;
    when no offset that is needed is overwritten, the two store what one scan
    stores. -/
theorem resumed_scan_stores_rest (s : Settings) (t : Target) (automaticaddress : UInt64)
    (workers workers' : List Arrays) (inputs inputs' : List ScanInput)
    (hsaves : AlongM (ScanState.step s t automaticaddress) (ScanState.Saves s)
      (ScanState.initial workers) inputs) :
    ∃ st, execM (ScanState.step s t automaticaddress) (ScanState.initial workers) inputs =
        some st ∧
      (st.controller = .over →
        ∃ st₀, setupQueueForResume s workers' st.savedqueue = some st₀ ∧
          (Intact s st.savedqueue →
            AlongM (ScanState.step s t automaticaddress) (ScanState.Saves s) st₀ inputs' →
            ∃ st', execM (ScanState.step s t automaticaddress) st₀ inputs' = some st' ∧
              (st'.controller = .over → st'.terminated = false →
                paths st.stored + paths st'.stored =
                  paths (rscan s t 0 (ScanState.firstElement automaticaddress).arrays
                    automaticaddress).2))) := by
  obtain ⟨st, hst, hsaving⟩ := Saving.run (saving_initial workers) hsaves
  refine ⟨st, hst, fun hover => ?_⟩
  have htotal := hsaving.paths_of_over hover
  obtain ⟨st₀, hst₀, hresume⟩ := saving_resume (s := s) (t := t) workers'
    fun e he => hsaving.levels e (.inr (.inr he))
  refine ⟨st₀, hst₀, fun hintact hsaves' => ?_⟩
  obtain ⟨st', hst', hsaving'⟩ := Saving.run (hresume hintact) hsaves'
  refine ⟨st', hst', fun hover' hterminated => ?_⟩
  have hrest := hsaving'.paths_of_over hover'
  -- the resumed scan was not stopped, so that it saved nothing
  rw [hsaving'.saved hterminated, queuePaths_nil, add_zero] at hrest
  rw [hrest, htotal]
  rfl

def sampleTurns (i n : Nat) : List ScanInput :=
  .replicate n (.worker i (fun _ => 0) (fun _ => true))

def sampleWorkers : List Arrays := .replicate 2 ⟨fun _ => 0, fun _ => 0⟩

/-- The scan is stopped before a worker takes the first element. -/
def stoppedEarly : List ScanInput :=
  .replicate 2 .controller ++ [.terminate true] ++ .replicate 17 .controller ++
    sampleTurns 0 2 ++ sampleTurns 1 2 ++ .replicate 5 .controller

def resumedFromStart : List ScanInput :=
  sampleTurns 0 4 ++ sampleTurns 1 7 ++ sampleTurns 0 3 ++ .replicate 15 .controller ++
    sampleTurns 0 1 ++ sampleTurns 1 1 ++ .replicate 3 .controller

/-- Both runs lose nothing. -/
theorem resumed_scan_stores_rest_stoppedEarly :
    ∃ st st₀ st',
      execM (ScanState.step sampleSettings sampleTarget 0x1000) (ScanState.initial sampleWorkers)
        stoppedEarly = some st ∧
      setupQueueForResume sampleSettings sampleWorkers st.savedqueue = some st₀ ∧
      execM (ScanState.step sampleSettings sampleTarget 0x1000) st₀ resumedFromStart = some st' ∧
      paths st.stored + paths st'.stored = {(1, 0, 0x10, [8, 4])} := by
  have hruns : ((execM (ScanState.step sampleSettings sampleTarget 0x1000)
      (ScanState.initial sampleWorkers) stoppedEarly).bind fun st =>
        (setupQueueForResume sampleSettings sampleWorkers st.savedqueue).bind fun st₀ =>
          (execM (ScanState.step sampleSettings sampleTarget 0x1000) st₀ resumedFromStart).map
            fun st' => decide (st.controller = .over ∧ Intact sampleSettings st.savedqueue ∧
              AlongM (ScanState.step sampleSettings sampleTarget 0x1000)
                (ScanState.Saves sampleSettings) st₀ resumedFromStart ∧
              st'.controller = .over ∧ st'.terminated = false)) = some true := by
    decide
  obtain ⟨st, hst, hrest⟩ := Option.bind_eq_some_iff.1 hruns
  obtain ⟨st₀, hst₀, hrest⟩ := Option.bind_eq_some_iff.1 hrest
  obtain ⟨st', hst', hall⟩ := Option.map_eq_some_iff.1 hrest
  obtain ⟨hover, hintact, hsaves', hover', hterminated⟩ := of_decide_eq_true hall
  refine ⟨st, st₀, st', hst, hst₀, hst', ?_⟩
  obtain ⟨st₁, hst₁, hresume⟩ := resumed_scan_stores_rest sampleSettings sampleTarget 0x1000
    sampleWorkers sampleWorkers stoppedEarly resumedFromStart (by decide)
  obtain rfl := Option.some.inj (hst.symm.trans hst₁)
  obtain ⟨st₂, hst₂, hresume⟩ := hresume hover
  obtain rfl := Option.some.inj (hst₀.symm.trans hst₂)
  obtain ⟨st₃, hst₃, hpaths⟩ := hresume hintact hsaves'
  obtain rfl := Option.some.inj (hst'.symm.trans hst₃)
  rw [hpaths hover' hterminated]
  decide

/-- The scan is stopped when the entry for the next level is in the queue. -/
def stoppedLate : List ScanInput :=
  .replicate 2 .controller ++ sampleTurns 0 4 ++ [.terminate true] ++ .replicate 4 .controller ++
    sampleTurns 0 4 ++ .replicate 12 .controller ++ sampleTurns 1 2 ++ .replicate 6 .controller

def resumedFromEntry : List ScanInput :=
  sampleTurns 0 7 ++ .replicate 15 .controller ++ sampleTurns 0 1 ++ sampleTurns 1 1 ++
    .replicate 3 .controller

/-- The first offset of the path is `0xcece` instead of 8. -/
theorem resumed_scan_changes_offset :
    ∃ st st₀ st',
      execM (ScanState.step sampleSettings sampleTarget 0x1000) (ScanState.initial sampleWorkers)
        stoppedLate = some st ∧ st.controller = .over ∧
      setupQueueForResume sampleSettings sampleWorkers st.savedqueue = some st₀ ∧
      execM (ScanState.step sampleSettings sampleTarget 0x1000) st₀ resumedFromEntry = some st' ∧
      st'.controller = .over ∧ st'.terminated = false ∧
      paths st.stored + paths st'.stored = {(1, 0, 0x10, [0xcece, 4])} ∧
      paths st.stored + paths st'.stored ≠
        paths (rscan sampleSettings sampleTarget 0 (ScanState.firstElement 0x1000).arrays
          0x1000).2 := by
  have hruns : ((execM (ScanState.step sampleSettings sampleTarget 0x1000)
      (ScanState.initial sampleWorkers) stoppedLate).bind fun st =>
        (setupQueueForResume sampleSettings sampleWorkers st.savedqueue).bind fun st₀ =>
          (execM (ScanState.step sampleSettings sampleTarget 0x1000) st₀ resumedFromEntry).map
            fun st' => decide (st.controller = .over ∧ st'.controller = .over ∧
              st'.terminated = false ∧
              paths st.stored + paths st'.stored = {(1, 0, 0x10, [0xcece, 4])})) = some true := by
    decide
  obtain ⟨st, hst, hrest⟩ := Option.bind_eq_some_iff.1 hruns
  obtain ⟨st₀, hst₀, hrest⟩ := Option.bind_eq_some_iff.1 hrest
  obtain ⟨st', hst', hall⟩ := Option.map_eq_some_iff.1 hrest
  obtain ⟨hover, hover', hterminated, hpaths⟩ := of_decide_eq_true hall
  refine ⟨st, st₀, st', hst, hover, hst₀, hst', hover', hterminated, hpaths, ?_⟩
  rw [hpaths]
  decide

end CheatEngine.PointerScan
