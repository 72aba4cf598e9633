/-
  CheatEngine.PointerScan.Workers

  The workers of a pointer scan and their controller (pointerscanworker.pas,
  pointerscancontroller.pas).  Elements of the search wait in `pathqueue`, one
  semaphore token for each; a worker takes an element, runs `rscan` on it, and may
  put what it finds on the way back into the queue.  The controller starts the
  scan, looks whether all is done, and saves the queues when the scan is stopped.

  A step is one step of one worker or of the controller, between two of which any
  other may come; what `pathqueueCS` protects is one step.  What a worker reads of
  the length of the queue, and what `tryEnter` answers, is part of the input.
-/
import CheatEngine.Lib.Run
import CheatEngine.PointerScan.Rscan

namespace CheatEngine.PointerScan

open CheatEngine.Lib

/-- `MAXQUEUESIZE`. -/
def maxQueueSize : Nat := 64

/-- `TPathQueueElement`. -/
structure PathQueueElement where
  arrays : Arrays
  valuetofind : UInt64
  startlevel : Nat

/-- Where `execute` of a worker is: before the semaphore, with a token, past the
    test of `stop`, inside `rscan`, or at its end. -/
inductive Phase
  | waiting
  | token
  | passed
  | scanning
  | finished
  deriving DecidableEq, Repr

/-- `TPointerscanWorker`; `frames` are its calls of `rscan`, the innermost first. -/
structure Worker where
  phase : Phase
  isdone : Bool
  stop : Bool
  terminated : Bool
  savestate : Bool
  arrays : Arrays
  valuetofind : UInt64
  startlevel : Nat
  frames : List Frame

/-- Where `reversescan` is.  From `checking` to `leaving` it holds `pathqueueCS`. -/
inductive ControllerPhase
  /-- Before the first element. -/
  | starting
  /-- The first element is in the queue, without its token. -/
  | started
  | looping
  /-- The workers below `i` were told to stop. -/
  | telling (i : Nat)
  /-- Before the first `EatFromOverflowQueueIfNeeded`, after it, and before the
      second one. -/
  | eating
  | resting
  | eatingAgain
  /-- Before `pathqueueCS.Enter`. -/
  | entering
  /-- The workers below `i` were found done. -/
  | checking (i : Nat)
  | decided (alldone : Bool)
  /-- The queues were written to the file. -/
  | saved (alldone : Bool)
  /-- Before `pathqueueCS.Leave`. -/
  | leaving (alldone : Bool)
  /-- Out of the loop. -/
  | left
  /-- The workers below `i` were told to end. -/
  | ending (i : Nat)
  /-- The workers below `i` have ended. -/
  | joining (i : Nat)
  /-- After the last `saveAndClearQueue`. -/
  | over
  deriving DecidableEq, Repr

/-- The scan.  `savedqueue` is what was written to the `.resume.queue` file, and
    `stored` the calls of `StorePath` of all workers. -/
structure ScanState where
  pathqueue : List PathQueueElement
  semaphore : Nat
  overflowqueue : List PathQueueElement
  outofdiskspace : Bool
  terminated : Bool
  savestate : Bool
  controller : ControllerPhase
  workers : List Worker
  stored : List StoreCall
  savedqueue : List PathQueueElement

/-- One step.  `lengths` are the lengths of the queue that a worker reads, and
    `tries` the answers of `tryEnter`. -/
inductive ScanInput
  | worker (i : Nat) (lengths : Nat → Nat) (tries : Nat → Bool)
  | controller
  /-- The user stops the scan. -/
  | terminate (savestate : Bool)
  /-- The free disk space that `reversescan` finds. -/
  | diskspace (outofdiskspace : Bool)

/-! ## One step of rscan -/

/-- What a worker inside `rscan` does next: something of its own, or an entry at
    `address` for the next level, after which it goes on with `f`. -/
inductive Deed
  | moved (arrays : Arrays) (frames : List Frame) (calls : List StoreCall)
  | deeper (address : UInt64) (f : Frame)

def advance (s : Settings) (a : Arrays) (f : Frame) (frames : List Frame) : Deed :=
  match f.storing with
  | some _ => .moved a ({ f with storing := none } :: frames) (f.stores s a)
  | none =>
    match f.entries with
    | [] =>
      match nextList s a f with
      | (a, none) => .moved a frames []
      | (a, some f) => .moved a (f :: frames) []
    | e :: entries =>
      match e.staticdata with
      | some static =>
        .moved a ({ f with
            entries := entries,
            dontGoDeeper := f.dontGoDeeper || s.onlyOneStaticInPath } :: frames)
          [⟨f.level, static.moduleindex, static.offset, a.tempresults⟩]
      | none =>
        if f.dontGoDeeper then .moved a ({ f with entries := entries } :: frames) []
        else if f.level + 1 < s.maxlevel then
          .deeper e.address { f with entries := entries, storing := some e.address }
        else .moved a ({ f with entries := entries, storing := some e.address } :: frames) []

/-- There is room for an element of this level, or the queue is empty. -/
def wantsQueue (s : Settings) (level : Nat) (lengths : Nat → Nat) : Bool :=
  (level + 3 < s.maxlevel &&
    (lengths 0 < maxQueueSize - maxQueueSize / 3 ||
      level ≤ 2 && lengths 1 < maxQueueSize - maxQueueSize / 8 ||
      level ≤ 1 && lengths 2 < maxQueueSize - maxQueueSize / 16 ||
      level = 0 && lengths 3 < maxQueueSize - 1)) ||
    lengths 4 = 0

/-- The lower levels try again, and level 0 waits for the lock. -/
def getsLock (level : Nat) (tries : Nat → Bool) : Bool :=
  tries 0 || level ≤ 2 && tries 1 || level ≤ 1 && (tries 2 || tries 3) || level = 0

namespace ScanState

/-- `reversescan` holds `pathqueueCS`. -/
def locked (st : ScanState) : Bool :=
  match st.controller with
  | .checking _ | .decided _ | .saved _ | .leaving _ => true
  | _ => false

/-- `ReleaseSemaphore`, which fails above the maximum. -/
def release (st : ScanState) (count : Nat) : ScanState :=
  if st.semaphore + count ≤ maxQueueSize then { st with semaphore := st.semaphore + count } else st

def setWorker (st : ScanState) (i : Nat) (w : Worker) : ScanState :=
  { st with workers := st.workers.set i w }

/-- Put an element into the queue, with its token. -/
def push (st : ScanState) (e : PathQueueElement) : ScanState :=
  { st with pathqueue := st.pathqueue ++ [e] }.release 1

section

variable (s : Settings) (t : Target)

/-- The worker calls `rscan` for the next level itself. -/
def recurse (w : Worker) (address : UInt64) (f : Frame) (frames : List Frame) : Worker :=
  match enter s t (w.terminated && !w.savestate) w.arrays address (f.level + 1) with
  | (a, none) => { w with arrays := a, frames := f :: frames }
  | (a, some g) => { w with arrays := a, frames := g :: f :: frames }

/-- An entry for the next level: into the queue, or by the worker itself; after a
    stop into the overflow queue.  That copies `valuelist` also without `noLoop`,
    when the array is `nil`. -/
def deeper (st : ScanState) (i : Nat) (w : Worker)
    (frames : List Frame) (address : UInt64) (f : Frame) (lengths : Nat → Nat)
    (tries : Nat → Bool) : Option ScanState :=
  let e : PathQueueElement := ⟨w.arrays, address, f.level + 1⟩
  if !w.terminated && !st.outofdiskspace then
    if wantsQueue s f.level lengths && st.locked && f.level = 0 then some st
    else if wantsQueue s f.level lengths && !st.locked && getsLock f.level tries &&
        st.pathqueue.length < maxQueueSize - 1 then
      some ((st.setWorker i { w with frames := f :: frames }).push e)
    else some (st.setWorker i (recurse s t w address f frames))
  else if st.outofdiskspace || w.savestate then
    if s.noLoop then
      some { st.setWorker i { w with frames := f :: frames } with
        overflowqueue := st.overflowqueue ++ [e] }
    else none
  else some (st.setWorker i { w with frames := frames })

/-- Take an element, or go on with the last one if there is none. -/
def fetch (st : ScanState) (i : Nat) (w : Worker) : ScanState :=
  let w := { w with phase := Phase.scanning, isdone := false }
  let (st, w) := match st.pathqueue.getLast? with
    | some e =>
      ({ st with pathqueue := st.pathqueue.dropLast },
        { w with
          arrays := ⟨e.arrays.tempresults, if s.noLoop then e.arrays.valuelist
            else w.arrays.valuelist⟩
          valuetofind := e.valuetofind, startlevel := e.startlevel })
    | none => (st, w)
  match enter s t (w.terminated && !w.savestate) w.arrays w.valuetofind w.startlevel with
  | (a, none) => st.setWorker i { w with arrays := a, frames := [] }
  | (a, some f) => st.setWorker i { w with arrays := a, frames := [f] }

def workerStep (st : ScanState) (i : Nat) (w : Worker)
    (lengths : Nat → Nat) (tries : Nat → Bool) : Option ScanState :=
  match w.phase with
  | .waiting =>
    if 0 < st.semaphore then
      some ({ st with semaphore := st.semaphore - 1 }.setWorker i { w with phase := .token })
    else if w.stop || w.terminated then some (st.setWorker i { w with phase := .finished })
    else some st
  | .token =>
    if w.stop || w.terminated then
      some ((st.setWorker i { w with phase := .finished }).release 1)
    else if st.outofdiskspace then
      some ((st.setWorker i { w with phase := .waiting }).release 1)
    else some (st.setWorker i { w with phase := .passed })
  | .passed => if st.locked then some st else some (st.fetch s t i w)
  | .scanning =>
    match w.frames with
    | [] =>
      some (st.setWorker i { w with
        isdone := true
        phase := if w.stop || w.terminated then .finished else .waiting })
    | f :: frames =>
      match advance s w.arrays f frames with
      | .moved a frames calls =>
        some { st.setWorker i { w with arrays := a, frames := frames } with
          stored := st.stored ++ calls }
      | .deeper address f => st.deeper s t i w frames address f lengths tries
  | .finished => some st

end

/-! ## The controller -/

/-- `EatFromOverflowQueueIfNeeded`: the last elements of the overflow queue. -/
def eatFromOverflowQueueIfNeeded (st : ScanState) : ScanState :=
  if st.overflowqueue ≠ [] ∧ st.pathqueue.length < maxQueueSize - 1 then
    let count := min st.overflowqueue.length (maxQueueSize - st.pathqueue.length)
    { st with
      pathqueue := st.pathqueue ++ st.overflowqueue.reverse.take count
      overflowqueue := st.overflowqueue.take (st.overflowqueue.length - count) }.release count
  else st

/-- The first half of `SaveAndClearQueue`: with an empty queue nothing is saved. -/
def saveQueue (st : ScanState) : ScanState :=
  if 0 < st.pathqueue.length then
    { st with savedqueue := st.savedqueue ++ st.pathqueue ++ st.overflowqueue }
  else st

/-- The second half. -/
def clearQueue (st : ScanState) : ScanState :=
  if 0 < st.pathqueue.length then
    { st with overflowqueue := [], pathqueue := [] }.release st.pathqueue.length
  else st

/-- The first element, with the arrays of `InitializeEmptyPathQueue`. -/
def firstElement (automaticaddress : UInt64) : PathQueueElement :=
  ⟨⟨fun _ => 0xcececece, fun _ => 0xcececececececece⟩, automaticaddress, 0⟩

/-- One step of `reversescan` on the initializer, for the address to find. -/
def controllerStep (s : Settings) (automaticaddress : UInt64) (st : ScanState) : ScanState :=
  match st.controller with
  | .starting =>
    if 0 < s.maxlevel then
      { st with
        pathqueue := st.pathqueue ++ [firstElement automaticaddress], controller := .started }
    else { st with controller := .left }
  | .started => { st with controller := .looping }.release 1
  | .looping => { st with controller := if st.terminated then .telling 0 else .eating }
  | .telling i =>
    match st.workers[i]? with
    | some w =>
      { st.setWorker i { w with savestate := st.savestate, stop := true, terminated := true } with
        controller := .telling (i + 1) }
    | none => { st with controller := .eating }
  | .eating => { st.eatFromOverflowQueueIfNeeded with controller := .resting }
  | .resting =>
    { st with
      controller := if st.pathqueue.length = 0 ∨ st.terminated then .eatingAgain else .looping }
  | .eatingAgain => { st.eatFromOverflowQueueIfNeeded with controller := .entering }
  | .entering =>
    { st with controller :=
        if st.terminated ∨ st.pathqueue.length = 0 ∧ st.overflowqueue.length = 0 then .checking 0
        else .decided false }
  | .checking i =>
    match st.workers[i]? with
    | some w =>
      { st with controller :=
          if w.phase = .finished ∨ w.isdone then .checking (i + 1) else .decided false }
    | none => { st with controller := .decided true }
  | .decided alldone =>
    if st.terminated && st.savestate then { st.saveQueue with controller := .saved alldone }
    else { st with controller := .leaving alldone }
  | .saved alldone => { st.clearQueue with controller := .leaving alldone }
  | .leaving alldone => { st with controller := if alldone then .left else .looping }
  | .left => { st with controller := .ending 0 }
  | .ending i =>
    match st.workers[i]? with
    | some w =>
      { st.setWorker i { w with stop := true, terminated := true } with
        controller := .ending (i + 1) }
    | none => { st with controller := .joining 0 }
  | .joining i =>
    match st.workers[i]? with
    | some w => if w.phase = .finished then { st with controller := .joining (i + 1) } else st
    | none =>
      if st.terminated && st.savestate then { st.saveQueue.clearQueue with controller := .over }
      else { st with controller := .over }
  | .over => st

/-- One step.  `none` when a worker reads through `nil`. -/
def step (s : Settings) (t : Target) (automaticaddress : UInt64) (st : ScanState) :
    ScanInput → Option ScanState
  | .worker i lengths tries =>
    match st.workers[i]? with
    | some w => st.workerStep s t i w lengths tries
    | none => some st
  | .controller => some (st.controllerStep s automaticaddress)
  | .terminate savestate => some { st with terminated := true, savestate := savestate }
  | .diskspace outofdiskspace => some { st with outofdiskspace := outofdiskspace }

def newWorker (a : Arrays) : Worker :=
  ⟨.waiting, true, false, false, false, a, 0, 0, []⟩

def initial (workers : List Arrays) : ScanState :=
  ⟨[], 0, [], false, false, false, .starting, workers.map newWorker, [], []⟩

end ScanState

end CheatEngine.PointerScan
