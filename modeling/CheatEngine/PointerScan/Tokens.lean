/-
  CheatEngine.PointerScan.Tokens

  `pathqueueSemaphore` and `pathqueuelength` (pointerscanworker.pas,
  pointerscancontroller.pas).  A worker takes a token before it looks at the queue, and
  without an element there it passes on what it evaluated last; so there must never be
  more tokens than elements.  Two procedures break this: `SaveAndClearQueue` empties the
  queue and releases as many tokens as there were elements instead of taking them, and
  `InitializeEmptyPathQueue` empties it and leaves the tokens.  A resume whose file is
  refused releases as many as a variable says that was never set.

  A controller runs any number of scans.  What a worker does inside `rscan` is only what it
  does to the queues there: it may put any element in.
-/
import CheatEngine.PointerScan.HandOver
import CheatEngine.PointerScan.Resume

namespace CheatEngine.PointerScan

open CheatEngine.Lib

/-! ## Workers and their controller -/

/-- A worker, with the variables of `execute`. -/
structure TokenWorker where
  phase : Phase
  isdone : Bool
  stop : Bool
  terminated : Bool
  settings : Settings
  arrays : Arrays
  valuetofind : UInt64
  startlevel : Nat

/-- What `execute` passed to `rscan`, and the element it took for that. -/
structure Evaluation where
  settings : Settings
  removed : Option PathQueueElement
  arrays : Arrays
  valuetofind : UInt64
  startlevel : Nat

/-- How far the controller has come with the next scan. -/
inductive SetUp
  /-- A controller that waits for a scan; a child also while one runs. -/
  | ready
  /-- DoNewScan has found that all is done. -/
  | downloading
  /-- The queue of an initializer is empty, and its workers start. -/
  | prepared
  /-- The first element is in the queue, without its token. -/
  | started
  | running
  deriving DecidableEq, Repr

/-- The last loop of BuildPathListForTransmission, which holds `pathqueueCS`: the entries
    below `i` are still to do. -/
structure Building where
  i : Nat
  count : Nat
  paths : List PathQueueElement

/-- The controller.  `handedOver` is what was taken for other controllers, and
    `evaluations` are the calls of `rscan` from `execute`. -/
structure TokenController where
  initializer : Bool
  settings : Settings
  setUp : SetUp
  pathqueue : Nat → PathQueueElement
  pathqueuelength : Nat
  semaphore : Nat
  overflowqueue : List PathQueueElement
  outofdiskspace : Bool
  workers : List TokenWorker
  building : Option Building
  savedqueue : List PathQueueElement
  handedOver : List PathQueueElement
  evaluations : List Evaluation

/-- What a worker does next. -/
inductive WorkerAct
  /-- WaitForSingleObject, with what follows when it times out. -/
  | wait
  /-- The tests behind it. -/
  | test
  /-- `pathqueueCS`, and the call of `rscan`. -/
  | fetch
  /-- Inside `rscan`: an element for the queue, with the arrays at that moment. -/
  | push (arrays : Arrays) (address : UInt64) (level : Nat)
  | overflow (e : PathQueueElement)
  /-- `rscan` has returned. -/
  | finish (arrays : Arrays)
  /-- An exception. -/
  | fail

/-- The stream of `SaveAndClearQueue`. -/
inductive SaveStream
  | nil
  | devnull
  | savedqueue
  deriving DecidableEq, Repr

inductive TokenInput
  | worker (i : Nat) (act : WorkerAct)
  | tell (i : Nat) (stop terminated : Bool)
  /-- addworkerThread; what the variables of `execute` hold at first. -/
  | addWorker (arrays : Arrays) (valuetofind : UInt64) (startlevel : Nat)
  | freeWorker (i : Nat)
  | diskspace (outofdiskspace : Bool)
  | receive (paths : List PathQueueElement)
  /-- EatFromOverflowQueueIfNeeded; the length it read before it entered the section. -/
  | eat (seen : Nat)
  /-- DoNewScan, up to the download; whether the children are idle and without threads. -/
  | newScan (settings : Settings) (childrendone : Bool)
  | downloadFails
  | initializeEmptyPathQueue
  | firstElement (automaticaddress : UInt64)
  | releaseFirst
  | resume (file : List PathQueueElement) (addedToQueue : Int)
  | findValue (currentaddress : UInt64)
  | saveAndClearQueue (stream : SaveStream)
  /-- BuildPathListForTransmission: the good path, the overflow queue, and the two ends and
      a turn of the last loop. -/
  | takeGoodPath (count : Nat)
  | takeOverflow (count : Nat)
  | enterLoop (count : Nat)
  | turn

/-! ## Steps -/

/-- `CopyMemory` of `n` offsets, and of as many values with `noLoop`. -/
def copyArrays (s : Settings) (n : Nat) (src dst : Arrays) : Arrays where
  tempresults k := if k < n then src.tempresults k else dst.tempresults k
  valuelist k := if s.noLoop ∧ k < n then src.valuelist k else dst.valuelist k

namespace TokenWorker

/-- It has a token, and has not looked at the queue yet. -/
def holds (w : TokenWorker) : Bool :=
  match w.phase with
  | .token | .passed => true
  | _ => false

def tokens (w : TokenWorker) : Nat := if w.holds then 1 else 0

end TokenWorker

namespace TokenController

def create (initializer : Bool) (settings : Settings) (slot : PathQueueElement) :
    TokenController where
  initializer := initializer
  settings := settings
  setUp := .ready
  pathqueue := fun _ => slot
  pathqueuelength := 0
  semaphore := 0
  overflowqueue := []
  outofdiskspace := false
  workers := []
  building := none
  savedqueue := []
  handedOver := []
  evaluations := []

section

variable (s : TokenController)

def release (count : Nat) : TokenController :=
  { s with semaphore := Node.released s.semaphore count }

def setWorker (i : Nat) (w : TokenWorker) : TokenController :=
  { s with workers := s.workers.set i w }

def setElement (k : Nat) (e : PathQueueElement) : TokenController :=
  { s with pathqueue := Function.update s.pathqueue k e }

def held : Nat := s.workers.countP TokenWorker.holds

def elements : List PathQueueElement :=
  (List.range s.pathqueuelength).map s.pathqueue

/-- An element, with its token, in the slot behind the last one. -/
def push (e : PathQueueElement) : TokenController :=
  { s.setElement s.pathqueuelength e with pathqueuelength := s.pathqueuelength + 1 }.release 1

/-- What `execute` does after it has entered `pathqueueCS`. -/
def fetch (i : Nat) (w : TokenWorker) : TokenController :=
  let w := { w with phase := Phase.scanning, isdone := false }
  if 0 < s.pathqueuelength then
    let e := s.pathqueue (s.pathqueuelength - 1)
    let arrays := copyArrays w.settings w.settings.maxlevel e.arrays w.arrays
    { s.setWorker i
        { w with arrays := arrays, valuetofind := e.valuetofind, startlevel := e.startlevel } with
      pathqueuelength := s.pathqueuelength - 1
      evaluations := s.evaluations ++
        [⟨w.settings, some e, arrays, e.valuetofind, e.startlevel⟩] }
  else
    { s.setWorker i w with
      evaluations := s.evaluations ++
        [⟨w.settings, none, w.arrays, w.valuetofind, w.startlevel⟩] }

def workerAct (i : Nat) (w : TokenWorker) : WorkerAct → TokenController
  | .wait =>
    if w.phase = .waiting then
      if 0 < s.semaphore then
        { s.setWorker i { w with phase := .token } with semaphore := s.semaphore - 1 }
      else if w.stop || w.terminated then s.setWorker i { w with phase := .finished, isdone := true }
      else s
    else s
  | .test =>
    if w.phase = .token then
      if w.stop || w.terminated then
        (s.setWorker i { w with phase := .finished, isdone := true }).release 1
      else if s.outofdiskspace then (s.setWorker i { w with phase := .waiting }).release 1
      else s.setWorker i { w with phase := .passed }
    else s
  | .fetch => if w.phase = .passed ∧ s.building.isNone then s.fetch i w else s
  | .push arrays address level =>
    if w.phase = .scanning ∧ s.building.isNone ∧ s.pathqueuelength < maxQueueSize - 1 then
      let slot := (s.pathqueue s.pathqueuelength).arrays
      s.push ⟨copyArrays w.settings w.settings.maxlevel arrays slot, address, level + 1⟩
    else s
  | .overflow e =>
    if w.phase = .scanning then { s with overflowqueue := s.overflowqueue ++ [e] } else s
  | .finish arrays =>
    if w.phase = .scanning then
      s.setWorker i { w with
        phase := if w.stop || w.terminated then .finished else .waiting
        isdone := true
        arrays := arrays }
    else s
  | .fail =>
    if w.phase = .scanning then
      s.setWorker i { w with phase := .finished, isdone := true, terminated := true }
    else s

/-- The thread of an initializer sets the scan up, and does nothing else meanwhile. -/
def settingUp : Bool :=
  match s.setUp with
  | .prepared | .started => true
  | _ => false

/-- `EatFromOverflowQueueIfNeeded`: the last elements of the overflow queue, into the slots
    from `pathqueuelength` on. -/
def eatFromOverflowQueueIfNeeded (seen : Nat) : TokenController :=
  if s.overflowqueue ≠ [] ∧ seen < maxQueueSize - 1 then
    let pathstocopy := min s.overflowqueue.length (maxQueueSize - s.pathqueuelength)
    { s with
      pathqueue := fun k =>
        if s.pathqueuelength ≤ k ∧ k < s.pathqueuelength + pathstocopy then
          match s.overflowqueue.reverse[k - s.pathqueuelength]? with
          | some e =>
            { e with arrays :=
                copyArrays s.settings (s.settings.maxlevel + 1) e.arrays (s.pathqueue k).arrays }
          | none => s.pathqueue k
        else s.pathqueue k
      pathqueuelength := s.pathqueuelength + pathstocopy
      overflowqueue := s.overflowqueue.take (s.overflowqueue.length - pathstocopy) }.release
      pathstocopy
  else s

def isDone (childrendone : Bool) : Bool :=
  childrendone && s.pathqueuelength = 0 && s.overflowqueue.length = 0 && s.workers.length = 0

def initializeEmptyPathQueue : TokenController :=
  { s with
    pathqueue := fun k =>
      { s.pathqueue k with arrays := ⟨fun _ => 0xcececece, fun _ => 0xcececececececece⟩ }
    pathqueuelength := 0
    overflowqueue := [] }

/-- `SetupQueueForResume`.  An element of a level that is too high raises; `addedToQueue` is
    set after that, but used in any case. -/
def setupQueueForResume (file : List PathQueueElement) (addedToQueue : Int) : TokenController :=
  match file.findIdx? fun e => s.settings.maxlevel < e.startlevel with
  | some bad =>
    let loaded := s.overflowqueue ++ (file.take (bad + 1)).map (readElement s.settings)
    { s with
      overflowqueue := loaded.take ((loaded.length : Int) - addedToQueue).toNat }.release
      addedToQueue.toNat
  | none =>
    let loaded := s.overflowqueue ++ file.map (readElement s.settings)
    let sorted := sortByLevel loaded.length loaded
    let addedToQueue := min loaded.length (maxQueueSize - s.pathqueuelength)
    { s with
      pathqueue := fun k =>
        if s.pathqueuelength ≤ k ∧ k < s.pathqueuelength + addedToQueue then
          match sorted.reverse[k - s.pathqueuelength]? with
          | some e => overwriteOffset e
          | none => s.pathqueue k
        else s.pathqueue k
      pathqueuelength := s.pathqueuelength + addedToQueue
      overflowqueue := sorted.take (sorted.length - addedToQueue) }.release addedToQueue

def saveAndClearQueue (stream : SaveStream) : TokenController :=
  if stream ≠ .nil ∧ 0 < s.pathqueuelength then
    { s with
      savedqueue := if stream = SaveStream.savedqueue then s.savedqueue ++ s.elements ++ s.overflowqueue
        else s.savedqueue
      overflowqueue := []
      -- the tokens of the elements that are cleared are still there
      pathqueuelength := 0 }.release s.pathqueuelength
  else s

/-- The good path of BuildPathListForTransmission.  Without room in `paths` the assignment
    raises, after the token was taken. -/
def takeGoodPath (count : Nat) : TokenController :=
  if 0 < s.pathqueuelength ∧ 0 < s.semaphore then
    if count = 0 then { s with semaphore := s.semaphore - 1 }
    else
      { s with
        semaphore := s.semaphore - 1
        pathqueue := fun k =>
          if k < s.pathqueuelength - 1 then s.pathqueue (k + 1) else s.pathqueue k
        pathqueuelength := s.pathqueuelength - 1
        handedOver := s.handedOver ++ [s.pathqueue 0] }
  else s

def takeOverflow (count : Nat) : TokenController :=
  let c := min count s.overflowqueue.length
  { s with
    overflowqueue := s.overflowqueue.take (s.overflowqueue.length - c)
    handedOver := s.handedOver ++ s.overflowqueue.reverse.take c }

/-- A turn of the last loop: the next entry is taken if there is a token, and the queue gets
    shorter by its last one. -/
def turn (b : Building) : TokenController :=
  match b.i with
  | 0 => { s with building := none, handedOver := s.handedOver ++ b.paths }
  | i + 1 =>
    let (s, paths) :=
      if 0 < s.semaphore then
        ({ s with semaphore := s.semaphore - 1, pathqueuelength := s.pathqueuelength - 1 },
          b.paths ++ [s.pathqueue i])
      else (s, b.paths)
    if b.count ≤ paths.length then
      { s with building := none, handedOver := s.handedOver ++ paths }
    else { s with building := some ⟨i, b.count, paths⟩ }

/-- One step.  While the last loop holds `pathqueueCS`, whoever needs it waits. -/
def step : TokenInput → TokenController
  | .worker i act =>
    match s.workers[i]? with
    | some w => s.workerAct i w act
    | none => s
  | .tell i stop terminated =>
    match s.workers[i]? with
    | some w =>
      s.setWorker i { w with stop := w.stop || stop, terminated := w.terminated || terminated }
    | none => s
  | .addWorker arrays valuetofind startlevel =>
    if s.initializer ∧ s.setUp = .ready then s
    else
      { s with workers := s.workers ++
          [⟨.waiting, true, false, false, s.settings, arrays, valuetofind, startlevel⟩] }
  | .freeWorker i =>
    match s.workers[i]? with
    | some w => if w.phase = .finished then { s with workers := s.workers.eraseIdx i } else s
    | none => s
  | .diskspace outofdiskspace => { s with outofdiskspace := outofdiskspace }
  | .receive paths =>
    if s.settingUp then s else { s with overflowqueue := s.overflowqueue ++ paths }
  | .eat seen =>
    if s.settingUp || s.building.isSome then s else s.eatFromOverflowQueueIfNeeded seen
  | .newScan settings childrendone =>
    if !s.initializer && s.setUp = .ready && s.isDone childrendone then
      { s with settings := settings, setUp := .downloading }
    else s
  | .downloadFails => if s.setUp = .downloading then { s with setUp := .ready } else s
  | .initializeEmptyPathQueue =>
    if s.building.isSome then s
    else if s.initializer then
      if s.setUp = .ready then { s.initializeEmptyPathQueue with setUp := .prepared } else s
    else if s.setUp = .downloading then { s.initializeEmptyPathQueue with setUp := .ready }
    else s
  | .firstElement automaticaddress =>
    if s.setUp = .prepared ∧ s.building.isNone ∧ 0 < s.settings.maxlevel then
      { s.setElement s.pathqueuelength { s.pathqueue s.pathqueuelength with
          startlevel := 0, valuetofind := automaticaddress } with
        pathqueuelength := s.pathqueuelength + 1
        setUp := .started }
    else s
  | .releaseFirst => if s.setUp = .started then { s.release 1 with setUp := .running } else s
  | .resume file addedToQueue =>
    if s.setUp = .prepared ∧ s.building.isNone ∧ 0 < s.settings.maxlevel then
      { s.setupQueueForResume file addedToQueue with setUp := .running }
    else s
  | .findValue currentaddress =>
    if (s.setUp = .prepared ∨ s.setUp = .running) ∧ s.building.isNone ∧
        0 < s.settings.maxlevel then
      -- without room it goes to a buffer, and later to the overflow queue
      if s.pathqueuelength < maxQueueSize - 1 then
        { s.push { s.pathqueue s.pathqueuelength with
            startlevel := 0, valuetofind := currentaddress } with setUp := .running }
      else { s with setUp := .running }
    else s
  | .saveAndClearQueue stream => if s.building.isSome then s else s.saveAndClearQueue stream
  | .takeGoodPath count => if s.building.isSome then s else s.takeGoodPath count
  | .takeOverflow count => s.takeOverflow count
  | .enterLoop count =>
    if s.building.isSome then s
    else { s with building := some ⟨s.pathqueuelength, count, []⟩ }
  | .turn =>
    match s.building with
    | some b => s.turn b
    | none => s

end

end TokenController

/-! ## The claim on a state, and the condition on a step -/

/-- `rscan` gets the value, the level and the offsets of the element that was taken. -/
def Evaluation.OfRemoved (v : Evaluation) : Prop :=
  ∃ e, v.removed = some e ∧ v.valuetofind = e.valuetofind ∧ v.startlevel = e.startlevel ∧
    (∀ k < v.settings.maxlevel, v.arrays.tempresults k = e.arrays.tempresults k) ∧
    (v.settings.noLoop → ∀ k < v.settings.maxlevel, v.arrays.valuelist k = e.arrays.valuelist k)

namespace TokenController

/-- No more tokens than elements, so that a worker with a token finds one, and has evaluated
    nothing else. -/
structure Fed (s : TokenController) : Prop where
  tokens : s.semaphore + s.held ≤ s.pathqueuelength
  bound : s.pathqueuelength ≤ maxQueueSize
  found : ∀ w ∈ s.workers, w.holds → 0 < s.pathqueuelength
  taken : ∀ v ∈ s.evaluations, v.OfRemoved

/-- The condition on one step: nothing to clear when the queue is cleared, no token when it is
    initialized, and no file that is refused with a count that can be released. -/
def KeepsTokens (s : TokenController) : TokenInput → Prop
  | .saveAndClearQueue stream =>
    s.building.isSome ∨ stream = .nil ∨ s.pathqueuelength = 0
  | .initializeEmptyPathQueue => s.semaphore = 0 ∧ s.held = 0
  | .resume file addedToQueue =>
    (∀ e ∈ file, e.startlevel ≤ s.settings.maxlevel) ∨ addedToQueue ≤ 0 ∨
      (maxQueueSize : Int) < s.semaphore + addedToQueue
  | _ => True

/-- The first element, between the queue and its token. -/
def pending (s : TokenController) : Nat := if s.setUp = .started then 1 else 0

/-- What a run keeps. -/
structure Counted (s : TokenController) : Prop where
  tokens : s.semaphore + s.held + s.pending ≤ s.pathqueuelength
  bound : s.pathqueuelength ≤ maxQueueSize
  prepared : s.setUp = .prepared →
    s.pathqueuelength = 0 ∧ ∀ w ∈ s.workers, w.phase ≠ .scanning
  unstaffed : s.initializer → s.setUp = .ready → s.workers = []
  child : s.setUp = .downloading → s.initializer = false
  taken : ∀ v ∈ s.evaluations, v.OfRemoved

section Steps

variable {s : TokenController}

theorem released_le (semaphore count : Nat) : Node.released semaphore count ≤ semaphore + count := by
  unfold Node.released
  split
  · exact Nat.le_refl _
  · exact Nat.le_add_right _ _

theorem counted_create (initializer : Bool) (settings : Settings) (slot : PathQueueElement) :
    Counted (create initializer settings slot) where
  tokens := Nat.le_refl 0
  bound := Nat.zero_le _
  prepared := by intro h; cases h
  unstaffed := fun _ _ => rfl
  child := by intro h; cases h
  taken := by simp [create]

variable {w : TokenWorker}

theorem held_pos (hmem : w ∈ s.workers) (hw : w.holds = true) : 0 < s.held :=
  List.countP_pos_iff.2 ⟨w, hmem, hw⟩

theorem Counted.fed (h : Counted s) : Fed s where
  tokens := by
    have := h.tokens
    omega
  bound := h.bound
  found := by
    intro w hmem hw
    have := held_pos hmem hw
    have := h.tokens
    omega
  taken := h.taken

variable {i : Nat}

theorem held_set (hi : s.workers[i]? = some w) (w' : TokenWorker) :
    (s.workers.set i w').countP TokenWorker.holds + w.tokens = s.held + w'.tokens := by
  obtain ⟨hlt, hget⟩ := List.getElem?_eq_some_iff.1 hi
  rw [List.countP_set hlt, hget, held, TokenWorker.tokens, TokenWorker.tokens]
  by_cases hw : w.holds = true
  · have hpos := held_pos (List.mem_of_getElem? hi) hw
    rw [held] at hpos
    rw [if_pos hw]
    omega
  · rw [if_neg hw]
    omega

variable {s' : TokenController}

theorem Counted.worker (h : Counted s) {w' : TokenWorker}
    (hi : s.workers[i]? = some w) (hworkers : s'.workers = s.workers.set i w')
    (hsetUp : s'.setUp = s.setUp) (hinitializer : s'.initializer = s.initializer)
    (htokens : s'.semaphore + w'.tokens + s.pathqueuelength ≤
      s.semaphore + w.tokens + s'.pathqueuelength)
    (hbound : s'.pathqueuelength ≤ maxQueueSize)
    (hprepared : s.setUp = .prepared → s'.pathqueuelength = 0 ∧ w'.phase ≠ .scanning)
    (htaken : ∀ v ∈ s'.evaluations, v.OfRemoved) : Counted s' where
  tokens := by
    have hheld := held_set hi w'
    have hold := h.tokens
    have hpending : s'.pending = s.pending := by rw [pending, hsetUp, pending]
    rw [← hworkers] at hheld
    rw [hpending]
    simp only [held] at hheld hold ⊢
    omega
  bound := hbound
  prepared := by
    intro hset
    rw [hsetUp] at hset
    obtain ⟨hempty, hw'⟩ := hprepared hset
    refine ⟨hempty, ?_⟩
    rw [hworkers]
    intro v hv
    rcases List.mem_or_eq_of_mem_set hv with hold | rfl
    · exact (h.prepared hset).2 v hold
    · exact hw'
  unstaffed := by
    intro hinit hset
    rw [hsetUp] at hset
    rw [hinitializer] at hinit
    have hnone := h.unstaffed hinit hset
    simp [hnone] at hi
  child := by rw [hsetUp, hinitializer]; exact h.child
  taken := htaken

theorem Counted.queue (h : Counted s) (hworkers : s'.workers = s.workers)
    (hinitializer : s'.initializer = s.initializer) (hsetUp : s'.setUp = s.setUp)
    (hevaluations : s'.evaluations = s.evaluations)
    (htokens : s'.semaphore + s.pathqueuelength ≤ s.semaphore + s'.pathqueuelength)
    (hbound : s'.pathqueuelength ≤ maxQueueSize)
    (hprepared : s.setUp = .prepared → s'.pathqueuelength = 0) : Counted s' where
  tokens := by
    have hold := h.tokens
    have hpending : s'.pending = s.pending := by rw [pending, hsetUp, pending]
    have hheld : s'.held = s.held := by rw [held, hworkers, held]
    omega
  bound := hbound
  prepared := by
    rw [hsetUp, hworkers]
    exact fun hset => ⟨hprepared hset, (h.prepared hset).2⟩
  unstaffed := by rw [hinitializer, hsetUp, hworkers]; exact h.unstaffed
  child := by rw [hinitializer, hsetUp]; exact h.child
  taken := by rw [hevaluations]; exact h.taken

theorem copyArrays_agree (settings : Settings) (src dst : Arrays) :
    (∀ k < settings.maxlevel, (copyArrays settings settings.maxlevel src dst).tempresults k =
      src.tempresults k) ∧
    (settings.noLoop → ∀ k < settings.maxlevel,
      (copyArrays settings settings.maxlevel src dst).valuelist k = src.valuelist k) :=
  ⟨fun _ hk => if_pos hk, fun hno _ hk => if_pos ⟨hno, hk⟩⟩

/-- With a token the queue is not empty, and `rscan` gets what is taken. -/
theorem fetch_counted (h : Counted s) (hi : s.workers[i]? = some w)
    (hphase : w.phase = .passed) : Counted (s.fetch i w) := by
  have hholds : w.holds = true := by simp [TokenWorker.holds, hphase]
  have hpos := h.fed.found w (List.mem_of_getElem? hi) hholds
  have hone : w.tokens = 1 := if_pos hholds
  simp only [fetch, if_pos hpos]
  refine h.worker hi rfl rfl rfl ?_ ?_ ?_ ?_
  · -- its token goes with the element
    rw [hone]
    simp only [setWorker, TokenWorker.tokens, TokenWorker.holds]
    simp only [Bool.false_eq_true, if_false]
    omega
  · have := h.bound
    simp only
    omega
  · intro hset
    have := (h.prepared hset).1
    omega
  · intro v hv
    rw [List.mem_append, List.mem_singleton] at hv
    rcases hv with hv | rfl
    · exact h.taken v hv
    · exact ⟨_, rfl, rfl, rfl, copyArrays_agree _ _ _⟩

theorem release_counted (count : Nat)
    (h : ∀ semaphore ≤ s'.semaphore + count, Counted { s' with semaphore := semaphore }) :
    Counted (s'.release count) :=
  h _ (released_le s'.semaphore count)

section

variable (h : Counted s)
include h

theorem giveBack_counted {w' : TokenWorker}
    (hi : s.workers[i]? = some w) (hone : w.tokens = 1) (hnone : w'.tokens = 0)
    (hphase : w'.phase ≠ .scanning) : Counted ((s.setWorker i w').release 1) := by
  refine release_counted 1 fun semaphore hle => ?_
  have hle' : semaphore ≤ s.semaphore + 1 := hle
  refine h.worker hi rfl rfl rfl ?_ h.bound ?_ h.taken
  · simp only [setWorker, hone, hnone]
    omega
  · exact fun hset => ⟨(h.prepared hset).1, hphase⟩

theorem workerAct_counted
    (hi : s.workers[i]? = some w) (act : WorkerAct) : Counted (s.workerAct i w act) := by
  have hbound := h.bound
  -- a worker in this phase has one token, or none
  have htokens : ∀ phase, w.phase = phase → w.tokens =
      match phase with
      | .token | .passed => 1
      | _ => 0 := by
    intro phase hphase
    cases phase <;> simp [TokenWorker.tokens, TokenWorker.holds, hphase]
  -- while nothing is in the queue nobody is inside `rscan`
  have hidle : w.phase = .scanning → s.setUp ≠ .prepared := fun hphase hset =>
    (h.prepared hset).2 w (List.mem_of_getElem? hi) hphase
  cases act with
  | wait =>
    simp only [workerAct]
    split
    case isFalse => exact h
    case isTrue hphase =>
      have hnone := htokens _ hphase
      split
      case isTrue hpos =>
        refine h.worker hi rfl rfl rfl ?_ hbound ?_ h.taken
        · simp only [TokenWorker.tokens, TokenWorker.holds, setWorker, if_true] at hnone ⊢
          omega
        · exact fun hset => ⟨(h.prepared hset).1, by simp⟩
      case isFalse =>
        split
        · refine h.worker hi rfl rfl rfl ?_ hbound ?_ h.taken
          · simp [TokenWorker.tokens, TokenWorker.holds, setWorker]
          · exact fun hset => ⟨(h.prepared hset).1, by simp⟩
        · exact h
  | test =>
    simp only [workerAct]
    split
    case isFalse => exact h
    case isTrue hphase =>
      have hone := htokens _ hphase
      split
      · exact giveBack_counted h hi hone (by simp [TokenWorker.tokens, TokenWorker.holds])
          (by simp)
      · split
        · exact giveBack_counted h hi hone (by simp [TokenWorker.tokens, TokenWorker.holds])
            (by simp)
        · refine h.worker hi rfl rfl rfl ?_ hbound ?_ h.taken
          · simp only [TokenWorker.tokens, TokenWorker.holds, setWorker, if_true] at hone ⊢
            omega
          · exact fun hset => ⟨(h.prepared hset).1, by simp⟩
  | fetch =>
    simp only [workerAct]
    split
    case isTrue hphase => exact fetch_counted h hi hphase.1
    case isFalse => exact h
  | push arrays address level =>
    simp only [workerAct]
    split
    case isFalse => exact h
    case isTrue hphase =>
      refine release_counted 1 fun semaphore hle => h.queue rfl rfl rfl rfl ?_ ?_ ?_
      · simp only [setElement] at hle ⊢
        omega
      · simp only
        omega
      · exact fun hset => absurd hset (hidle hphase.1)
  | overflow e =>
    simp only [workerAct]
    split
    · exact h.queue rfl rfl rfl rfl (Nat.le_refl _) hbound fun hset => (h.prepared hset).1
    · exact h
  | finish arrays =>
    simp only [workerAct]
    split
    case isFalse => exact h
    case isTrue hphase =>
      have hnone := htokens _ hphase
      refine h.worker hi rfl rfl rfl ?_ hbound ?_ h.taken
      · simp only [TokenWorker.tokens, TokenWorker.holds, setWorker] at hnone ⊢
        split <;> simp
      · exact fun hset => absurd hset (hidle hphase)
  | fail =>
    simp only [workerAct]
    split
    case isFalse => exact h
    case isTrue hphase =>
      refine h.worker hi rfl rfl rfl ?_ hbound ?_ h.taken
      · simp [TokenWorker.tokens, TokenWorker.holds, setWorker]
      · exact fun hset => absurd hset (hidle hphase)

theorem tell_counted (hi : s.workers[i]? = some w) (stop terminated : Bool) :
    Counted (s.setWorker i { w with
      stop := w.stop || stop, terminated := w.terminated || terminated }) := by
  refine h.worker hi rfl rfl rfl ?_ h.bound ?_ h.taken
  · exact Nat.le_refl _
  · exact fun hset => ⟨(h.prepared hset).1, (h.prepared hset).2 w (List.mem_of_getElem? hi)⟩

theorem Counted.staff {workers : List TokenWorker}
    (hheld : workers.countP TokenWorker.holds ≤ s.held)
    (hphase : ∀ w ∈ workers, w ∈ s.workers ∨ w.phase ≠ .scanning)
    (hstaffed : s.initializer → s.setUp = .ready → workers = []) :
    Counted { s with workers := workers } where
  tokens := by
    have := h.tokens
    simp only [held, pending] at this hheld ⊢
    omega
  bound := h.bound
  prepared := by
    intro hset
    refine ⟨(h.prepared hset).1, fun w hw => ?_⟩
    rcases hphase w hw with hold | hnew
    · exact (h.prepared hset).2 w hold
    · exact hnew
  unstaffed := hstaffed
  child := h.child
  taken := h.taken

theorem addWorker_counted (hstaff : ¬ (s.initializer ∧ s.setUp = .ready))
    (w : TokenWorker) (hw : w.phase = .waiting) :
    Counted { s with workers := s.workers ++ [w] } := by
  refine h.staff ?_ ?_ ?_
  · simp [List.countP_append, TokenWorker.holds, hw, held]
  · intro v hv
    rw [List.mem_append, List.mem_singleton] at hv
    rcases hv with hv | rfl
    · exact Or.inl hv
    · exact Or.inr (by simp [hw])
  · exact fun hinit hset => absurd ⟨hinit, hset⟩ hstaff

theorem freeWorker_counted (i : Nat) :
    Counted { s with workers := s.workers.eraseIdx i } := by
  refine h.staff ?_ ?_ ?_
  · exact (List.eraseIdx_sublist s.workers i).countP_le
  · exact fun w hw => Or.inl (List.mem_of_mem_eraseIdx hw)
  · intro hinit hset
    rw [h.unstaffed hinit hset]
    rfl

theorem eat_counted (hset : s.settingUp = false) (seen : Nat) :
    Counted (s.eatFromOverflowQueueIfNeeded seen) := by
  have hbound := h.bound
  unfold eatFromOverflowQueueIfNeeded
  split
  case isFalse => exact h
  case isTrue =>
    refine release_counted _ fun semaphore hle => h.queue rfl rfl rfl rfl ?_ ?_ ?_
    · simp only at hle ⊢
      omega
    · simp only
      omega
    · intro hprepared
      simp [settingUp, hprepared] at hset

theorem initialize_counted (hnone : s.semaphore = 0 ∧ s.held = 0) {setUp : SetUp}
    (hsetUp : setUp = .prepared ∧ s.workers = [] ∨ setUp = .ready ∧ s.initializer = false) :
    Counted { s.initializeEmptyPathQueue with setUp := setUp } := by
  have hheld : s.workers.countP TokenWorker.holds = 0 := hnone.2
  refine ⟨?_, Nat.zero_le _, ?_, ?_, ?_, h.taken⟩
  · rcases hsetUp with ⟨rfl, -⟩ | ⟨rfl, -⟩ <;>
      simp [initializeEmptyPathQueue, pending, held, hheld, hnone.1]
  · rcases hsetUp with ⟨rfl, hworkers⟩ | ⟨rfl, -⟩
    · simp [initializeEmptyPathQueue, hworkers]
    · intro h; cases h
  · rcases hsetUp with ⟨rfl, -⟩ | ⟨rfl, hchild⟩
    · intro _ h; cases h
    · simp [initializeEmptyPathQueue, hchild]
  · rcases hsetUp with ⟨rfl, -⟩ | ⟨rfl, -⟩ <;> (intro h; cases h)

theorem prepared_tokens (hset : s.setUp = .prepared) :
    s.semaphore = 0 ∧ s.held = 0 ∧ s.pathqueuelength = 0 := by
  have hempty := (h.prepared hset).1
  have := h.tokens
  omega

theorem start_counted (hset' : s'.setUp = .running)
    (hworkers : s'.workers = s.workers) (hevaluations : s'.evaluations = s.evaluations)
    (htokens : s'.semaphore + s.held ≤ s'.pathqueuelength)
    (hbound : s'.pathqueuelength ≤ maxQueueSize) : Counted s' where
  tokens := by
    have hheld : s'.held = s.held := by rw [held, hworkers, held]
    simp only [hheld, pending, hset']
    simpa using htokens
  bound := hbound
  prepared := by rw [hset']; intro h; cases h
  unstaffed := by rw [hset']; intro _ h; cases h
  child := by rw [hset']; intro h; cases h
  taken := by rw [hevaluations]; exact h.taken

theorem firstElement_counted (automaticaddress : UInt64) :
    Counted (s.step (.firstElement automaticaddress)) := by
  simp only [step]
  split
  case isFalse => exact h
  case isTrue hset =>
    obtain ⟨hsemaphore, hheld, hempty⟩ := prepared_tokens h hset.1
    refine ⟨?_, ?_, (by intro h; cases h), (by intro _ h; cases h), (by intro h; cases h), h.taken⟩
    · -- its token comes later
      have hheld' : s.workers.countP TokenWorker.holds = 0 := hheld
      simp [pending, held, setElement, hheld', hsemaphore]
    · simp [hempty, maxQueueSize]

theorem releaseFirst_counted (hset : s.setUp = .started) :
    Counted { s.release 1 with setUp := .running } := by
  have htokens := h.tokens
  have hone : s.pending = 1 := if_pos hset
  have hle := released_le s.semaphore 1
  refine start_counted h rfl rfl rfl ?_ h.bound
  simp only [release]
  omega

theorem resume_counted (hset : s.setUp = .prepared)
    (file : List PathQueueElement) (addedToQueue : Int)
    (hgood : KeepsTokens s (.resume file addedToQueue)) :
    Counted { s.setupQueueForResume file addedToQueue with setUp := .running } := by
  obtain ⟨hsemaphore, hheld, hempty⟩ := prepared_tokens h hset
  unfold setupQueueForResume
  split
  case h_1 bad hbad =>
    -- the count that is released is not one of the queue
    have hno : Node.released s.semaphore addedToQueue.toNat = s.semaphore := by
      rcases hgood with hfile | hneg | hlarge
      · obtain ⟨hlt, hgt, -⟩ := List.findIdx?_eq_some_iff_getElem.1 hbad
        have hle := hfile _ (List.getElem_mem hlt)
        have hlt' := of_decide_eq_true hgt
        omega
      · have hzero : addedToQueue.toNat = 0 := Int.toNat_of_nonpos hneg
        simp [Node.released, hzero]
      · rw [Node.released, if_neg (by omega)]
    refine start_counted h rfl rfl rfl ?_ ?_
    · simp only [release]
      omega
    · simp only [release, hempty]
      omega
  case h_2 =>
    refine start_counted h rfl rfl rfl ?_ ?_
    · simp only [release, hempty, hsemaphore, hheld]
      exact Nat.le_trans (released_le _ _) (by omega)
    · simp only [release, hempty]
      omega

theorem findValue_counted (currentaddress : UInt64) :
    Counted (s.step (.findValue currentaddress)) := by
  have htokens := h.tokens
  have hbound := h.bound
  simp only [step]
  split
  case isFalse => exact h
  case isTrue =>
    split
    · have hle := released_le s.semaphore 1
      refine start_counted h rfl rfl rfl ?_ ?_
      · simp only [push, release, setElement]
        omega
      · simp only [push, release, setElement]
        omega
    · exact start_counted h rfl rfl rfl (by simp only; omega) hbound

theorem saveAndClearQueue_counted {stream : SaveStream}
    (hgood : stream = .nil ∨ s.pathqueuelength = 0) : Counted (s.saveAndClearQueue stream) := by
  have hskip : ¬ (stream ≠ .nil ∧ 0 < s.pathqueuelength) := by
    rintro ⟨hstream, hpos⟩
    rcases hgood with hnil | hempty
    · exact hstream hnil
    · omega
  rw [saveAndClearQueue, if_neg hskip]
  exact h

theorem takeGoodPath_counted (count : Nat) : Counted (s.takeGoodPath count) := by
  have hbound := h.bound
  unfold takeGoodPath
  split
  case isFalse => exact h
  case isTrue hpos =>
    split
    · refine h.queue rfl rfl rfl rfl ?_ hbound fun hset => (h.prepared hset).1
      simp only
      omega
    · refine h.queue rfl rfl rfl rfl ?_ ?_ ?_
      · simp only
        omega
      · simp only
        omega
      · intro hset
        have := (h.prepared hset).1
        omega

theorem turn_counted (b : Building) : Counted (s.turn b) := by
  have hbound := h.bound
  unfold turn
  split
  case h_1 => exact h.queue rfl rfl rfl rfl (Nat.le_refl _) hbound fun hset => (h.prepared hset).1
  case h_2 i hi =>
    by_cases hpos : 0 < s.semaphore
    · have htokens := h.tokens
      rw [if_pos hpos]
      -- a token and an element
      have htake : Counted
          { s with semaphore := s.semaphore - 1, pathqueuelength := s.pathqueuelength - 1 } := by
        refine h.queue rfl rfl rfl rfl ?_ ?_ ?_
        · simp only
          omega
        · simp only
          omega
        · intro hset
          have := (h.prepared hset).1
          simp only
          omega
      dsimp only
      split
      · exact htake.queue rfl rfl rfl rfl (Nat.le_refl _) htake.bound
          fun hset => (htake.prepared hset).1
      · exact htake.queue rfl rfl rfl rfl (Nat.le_refl _) htake.bound
          fun hset => (htake.prepared hset).1
    · rw [if_neg hpos]
      dsimp only
      split
      · exact h.queue rfl rfl rfl rfl (Nat.le_refl _) hbound fun hset => (h.prepared hset).1
      · exact h.queue rfl rfl rfl rfl (Nat.le_refl _) hbound fun hset => (h.prepared hset).1

end

theorem step_counted (s : TokenController) (i : TokenInput) (h : Counted s)
    (hgood : KeepsTokens s i) : Counted (s.step i) := by
  have hbound := h.bound
  cases i with
  | worker i act =>
    simp only [step]
    split
    case h_1 w hi => exact workerAct_counted h hi act
    case h_2 => exact h
  | tell i stop terminated =>
    simp only [step]
    split
    case h_1 w hi => exact tell_counted h hi stop terminated
    case h_2 => exact h
  | addWorker arrays valuetofind startlevel =>
    simp only [step]
    split
    · exact h
    case isFalse hstaff => exact addWorker_counted h hstaff _ rfl
  | freeWorker i =>
    simp only [step]
    split
    · split
      · exact freeWorker_counted h i
      · exact h
    · exact h
  | diskspace outofdiskspace =>
    exact h.queue rfl rfl rfl rfl (Nat.le_refl _) hbound fun hset => (h.prepared hset).1
  | receive paths =>
    simp only [step]
    split
    · exact h
    · exact h.queue rfl rfl rfl rfl (Nat.le_refl _) hbound fun hset => (h.prepared hset).1
  | eat seen =>
    simp only [step]
    split
    · exact h
    case isFalse hfree =>
      rw [Bool.or_eq_true, not_or, Bool.not_eq_true] at hfree
      exact eat_counted h hfree.1 seen
  | newScan settings childrendone =>
    simp only [step]
    split
    case isTrue hnew =>
      simp only [Bool.and_eq_true, decide_eq_true_eq, Bool.not_eq_true'] at hnew
      obtain ⟨⟨hchild, hready⟩, -⟩ := hnew
      refine ⟨?_, hbound, (by intro h; cases h), (by intro _ h; cases h), fun _ => hchild, h.taken⟩
      have htokens := h.tokens
      simpa [pending, held, hready] using htokens
    case isFalse => exact h
  | downloadFails =>
    simp only [step]
    split
    case isTrue hset =>
      have hchild := h.child hset
      refine ⟨?_, hbound, (by intro h; cases h), ?_, (by intro h; cases h), h.taken⟩
      · have htokens := h.tokens
        simpa [pending, held, hset] using htokens
      · simp [hchild]
    case isFalse => exact h
  | initializeEmptyPathQueue =>
    simp only [step]
    split
    · exact h
    · split
      case isTrue hinit =>
        split
        case isTrue hready =>
          exact initialize_counted h hgood (Or.inl ⟨rfl, h.unstaffed hinit hready⟩)
        case isFalse => exact h
      case isFalse hinit =>
        split
        · exact initialize_counted h hgood (Or.inr ⟨rfl, Bool.eq_false_iff.2 hinit⟩)
        · exact h
  | firstElement automaticaddress => exact firstElement_counted h automaticaddress
  | releaseFirst =>
    simp only [step]
    split
    case isTrue hset => exact releaseFirst_counted h hset
    case isFalse => exact h
  | resume file addedToQueue =>
    simp only [step]
    split
    case isTrue hset => exact resume_counted h hset.1 file addedToQueue hgood
    case isFalse => exact h
  | findValue currentaddress => exact findValue_counted h currentaddress
  | saveAndClearQueue stream =>
    simp only [step]
    split
    · exact h
    case isFalse hfree => exact saveAndClearQueue_counted h (hgood.resolve_left hfree)
  | takeGoodPath count =>
    simp only [step]
    split
    · exact h
    · exact takeGoodPath_counted h count
  | takeOverflow count =>
    exact h.queue rfl rfl rfl rfl (Nat.le_refl _) hbound fun hset => (h.prepared hset).1
  | enterLoop count =>
    simp only [step]
    split
    · exact h
    · exact h.queue rfl rfl rfl rfl (Nat.le_refl _) hbound fun hset => (h.prepared hset).1
  | turn =>
    simp only [step]
    split
    case h_1 b hb => exact turn_counted h b
    case h_2 => exact h

end Steps

/-- In every run, of any number of scans, that never clears a queue with elements, never
    initializes one with tokens, and never refuses a file with a count that can be released,
    each worker evaluates the element it took. -/
theorem workers_fed (initializer : Bool) (settings : Settings) (slot : PathQueueElement)
    (is : List TokenInput) (h : Along step KeepsTokens (create initializer settings slot) is) :
    Fed (exec step (create initializer settings slot) is) :=
  (exec_invariant step_counted (counted_create initializer settings slot) h).fed

def sampleElement (valuetofind : UInt64) : PathQueueElement :=
  ⟨⟨fun _ => 0, fun _ => 0⟩, valuetofind, 0⟩

/-- A child gets a scan and two elements, and its worker evaluates one of them. -/
def sampleScan : List TokenInput :=
  [.newScan sampleSettings true, .initializeEmptyPathQueue, .addWorker ⟨fun _ => 0, fun _ => 0⟩ 0 0,
    .receive [sampleElement 0x1000, sampleElement 0x2000], .eat 0,
    .worker 0 .wait, .worker 0 .test, .worker 0 .fetch, .worker 0 (.finish ⟨fun _ => 0, fun _ => 0⟩)]

theorem workers_fed_sampleScan :
    Fed (exec step (create false sampleSettings (sampleElement 0)) sampleScan) :=
  workers_fed false sampleSettings (sampleElement 0) sampleScan
    ⟨trivial, ⟨rfl, rfl⟩, trivial, trivial, trivial, trivial, trivial, trivial, trivial, trivial⟩

/-- The scan ends without saving: the worker finds a token, and nothing in the queue. -/
theorem workers_not_fed :
    ¬ ∀ (initializer : Bool) (settings : Settings) (slot : PathQueueElement)
      (is : List TokenInput), Fed (exec step (create initializer settings slot) is) := by
  intro h
  have hfed := h false sampleSettings (sampleElement 0) (sampleScan ++
    [.saveAndClearQueue .devnull, .worker 0 .wait, .worker 0 .test, .worker 0 .fetch])
  have hremoved : (exec step (create false sampleSettings (sampleElement 0)) (sampleScan ++
      [.saveAndClearQueue .devnull, .worker 0 .wait, .worker 0 .test,
        .worker 0 .fetch])).evaluations.map (·.removed.isSome) = [true, false] := by
    decide
  have hall : ∀ b ∈ [true, false], b = true := by
    rw [← hremoved]
    intro b hb
    obtain ⟨v, hv, rfl⟩ := List.mem_map.1 hb
    obtain ⟨e, he, -⟩ := hfed.taken v hv
    rw [he]
    rfl
  exact absurd (hall false (by simp)) (by decide)

end TokenController

end CheatEngine.PointerScan
