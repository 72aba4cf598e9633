/-
  CheatEngine.PointerScan.ParentQueue

  The queue of waiting parents (pointerscancontroller.pas): parents that are accepted by
  ConnectorConnect, taken by UpdateStatus when there is no parent, and dropped by
  handleParentQueueException when their connection fails.

  All three places that take an element out shift the array from the element behind it,
  so that they remove that one instead, unless there is none behind it.
-/
import CheatEngine.Lib.Run

namespace CheatEngine.PointerScan

open CheatEngine.Lib

/-- What is kept to reconnect to a parent. -/
structure ConnectData where
  ip : String
  port : UInt16
  password : String

/-- `TPointerscanControllerParent`: the connection it was accepted with, whether `socket`
    is not nil, and `connectdata` when `iConnectedTo`. -/
structure Parent where
  connection : Nat
  socket : Bool
  scanid : UInt32
  trustsme : Bool
  connecttime : Nat
  connectdata : Option ConnectData

/-- What happened to the queue. -/
inductive QueueEvent
  | accepted (connection : Nat)
  /-- Taken as the new parent. -/
  | promoted (connection : Nat)
  /-- The previous parent came back. -/
  | returned (connection : Nat)
  | failed (connection : Nat)

/-- The part of the controller around its parents. -/
structure ParentController where
  parent : Parent
  parentqueue : List Parent
  currentscanid : UInt32
  orphanedSince : Nat
  fTerminatedScan : Bool
  currentscanhasended : Bool
  savestate : Bool
  /-- What BecomeChildOfNode handed to the connector. -/
  connector : List ConnectData
  connections : Nat
  log : List QueueEvent

namespace ParentController

def start : ParentController where
  parent := ⟨0, false, 0, false, 0, none⟩
  parentqueue := []
  currentscanid := 0
  orphanedSince := 0
  fTerminatedScan := false
  currentscanhasended := false
  savestate := false
  connector := []
  connections := 0
  log := []

end ParentController

/-- `for j:=first to ..: parentqueue[j]:=parentqueue[j+1]`, for `count` rounds. -/
def shiftLoop {α : Type} : Nat → Nat → List α → List α
  | 0, _, queue => queue
  | count + 1, j, queue =>
    match queue[j + 1]? with
    | some next => shiftLoop count (j + 1) (queue.set j next)
    | none => queue

/-- The loop from `index+1` to `length-2`, and the `setlength` behind it. -/
def removeAfter {α : Type} (queue : List α) (index : Nat) : List α :=
  (shiftLoop (queue.length - 2 - index) (index + 1) queue).take (queue.length - 1)

section RemoveAfter

variable {α : Type}

theorem removeAfter_concat (xs : List α) (a : α) : removeAfter (xs ++ [a]) xs.length = xs := by
  simp [removeAfter, shiftLoop]

end RemoveAfter

/-! ## Steps -/

/-- The other end, and the clock, during UpdateStatus. -/
structure UpdateInput where
  /-- GetTickCount64 -/
  now : Nat
  /-- The exchange with the parent raises an exception; then, whether a worker has results
      pending. -/
  raises : Option Bool
  /-- What the exchange leaves behind. -/
  currentscanid : UInt32
  currentscanhasended : Bool
  fTerminatedScan : Bool
  savestate : Bool
  trustsme : Bool
  /-- Whether the `k`-th write to a queued parent succeeds. -/
  writes : Nat → Bool

inductive ParentInput
  /-- ConnectorConnect for a parent; without an answer to the hello it raises. -/
  | connect (connectdata : Option ConnectData) (hello : Option UInt32) (u : UpdateInput)
  | updateStatus (u : UpdateInput)
  /-- handleParentException elsewhere. -/
  | parentError (now : Nat) (hasResultsPending : Bool)
  /-- Whatever the rest of the controller does to the scan. -/
  | scan (currentscanid : UInt32) (currentscanhasended fTerminatedScan savestate : Bool)

namespace ParentController

section

variable (s : ParentController)

/-- BecomeChildOfNode, when there is something to connect to. -/
def reconnect (connectdata : Option ConnectData) : ParentController :=
  { s with connector := s.connector ++ connectdata.toList }

def handleParentQueueException (index : Nat) : ParentController :=
  match s.parentqueue[index]? with
  | none => s
  | some p =>
    reconnect
      { s with
        parentqueue := removeAfter (s.parentqueue.set index { p with socket := false }) index
        log := s.log ++ [.failed p.connection] }
      p.connectdata

def handleParentException (now : Nat) (hasResultsPending : Bool) : ParentController :=
  let s := reconnect { s with parent := { s.parent with socket := false } } s.parent.connectdata
  let abandonparent := s.currentscanhasended && !hasResultsPending
  { s with orphanedSince := if abandonparent then 0 else now }

/-- The place of the parent that came back. -/
def returning : Option Nat :=
  s.parentqueue.findIdx? fun p => p.scanid = s.currentscanid

def takeReturned (i : Nat) : ParentController :=
  match s.parentqueue[i]? with
  | none => s
  | some p =>
    { s with
      parent := p
      parentqueue := removeAfter s.parentqueue i
      orphanedSince := 0
      log := s.log ++ [.returned p.connection] }

def promote (now : Nat) : ParentController :=
  match s.parentqueue with
  | [] => s
  | p :: _ =>
    { s with
      parent := { p with connecttime := now }
      parentqueue := removeAfter s.parentqueue 0
      log := s.log ++ [.promoted p.connection] }

/-- A parent that is missed for half an hour, or for an hour when it trusted this child, is
    given up, and the scan with it. -/
def giveUp (now : Nat) : ParentController :=
  let limit := if s.parent.trustsme then 60 * 60 * 1000 else 30 * 60 * 1000
  if s.orphanedSince + limit < now then
    { s with
      orphanedSince := 0
      savestate := false
      fTerminatedScan := s.fTerminatedScan || !s.currentscanhasended
      currentscanhasended := true }
  else s

/-- The first part of UpdateStatus: a parent for a controller that has none. -/
def findParent (now : Nat) : ParentController :=
  if s.parent.socket then s
  else
    let s := match s.returning with
      | some i => s.takeReturned i
      | none => s
    if ¬ s.fTerminatedScan ∧ ¬ s.parent.socket then
      if s.currentscanid = 0 ∨ s.orphanedSince = 0 then s.promote now else s.giveUp now
    else s

def exchange (u : UpdateInput) : ParentController :=
  if s.parent.socket then
    let s := { s with
      parent := { s.parent with trustsme := u.trustsme }
      currentscanid := u.currentscanid
      currentscanhasended := u.currentscanhasended
      fTerminatedScan := u.fTerminatedScan
      savestate := u.savestate }
    match u.raises with
    | some hasResultsPending => s.handleParentException u.now hasResultsPending
    | none => s
  else s

end

/-- The loop that tells the queued parents their place: the last one is not told, and one
    that fails is dealt with before the next round at the same place. -/
def tellQueue (writes : Nat → Bool) : Nat → Nat → Nat → ParentController → ParentController
  | 0, _, _, s => s
  | fuel + 1, k, i, s =>
    match s.parentqueue[i]? with
    | none => s
    | some p =>
      if i + 1 < s.parentqueue.length then
        if p.socket ∧ writes k then tellQueue writes fuel (k + 1) (i + 1) s
        else tellQueue writes fuel (k + 1) i (s.handleParentQueueException i)
      else s

section

variable (s : ParentController)

def updateStatus (u : UpdateInput) : ParentController :=
  let s := (s.findParent u.now).exchange u
  tellQueue u.writes s.parentqueue.length 0 0 s

/-- The element that ConnectorConnect adds, which the exception takes off again. -/
def accept (connectdata : Option ConnectData) (hello : Option UInt32) : ParentController :=
  match hello with
  | some scanid =>
    { s with
      parentqueue := s.parentqueue ++ [⟨s.connections, true, scanid, false, 0, connectdata⟩]
      connections := s.connections + 1
      log := s.log ++ [.accepted s.connections] }
  | none => { s with connections := s.connections + 1 }

/-- `ConnectorConnect`, for a connection to a parent. -/
def connectorConnect (connectdata : Option ConnectData)
    (hello : Option UInt32) (u : UpdateInput) : ParentController :=
  let s := s.accept connectdata hello
  -- "make a new parent if possible"
  if s.parent.socket then s else s.updateStatus u

def step : ParentInput → ParentController
  | .connect connectdata hello u => s.connectorConnect connectdata hello u
  | .updateStatus u => s.updateStatus u
  | .parentError now hasResultsPending => s.handleParentException now hasResultsPending
  | .scan currentscanid currentscanhasended fTerminatedScan savestate =>
    { s with currentscanid, currentscanhasended, fTerminatedScan, savestate }

end

end ParentController

/-! ## The queue and its history -/

def arrivals (log : List QueueEvent) : List Nat :=
  log.filterMap fun
    | .accepted c => some c
    | _ => none

def departures (log : List QueueEvent) : List Nat :=
  log.filterMap fun
    | .accepted _ => none
    | .promoted c | .returned c | .failed c => some c

/-- What a first in, first out queue holds after `log`. -/
def waiting (log : List QueueEvent) : List Nat :=
  (arrivals log).filter (· ∉ departures log)

section History

variable {log log₁ log₂ : List QueueEvent} {c : Nat}

theorem arrivals_append : arrivals (log₁ ++ log₂) = arrivals log₁ ++ arrivals log₂ :=
  List.filterMap_append

theorem departures_append : departures (log₁ ++ log₂) = departures log₁ ++ departures log₂ :=
  List.filterMap_append

theorem waiting_accepted (ha : c ∉ departures log) :
    waiting (log ++ [.accepted c]) = waiting log ++ [c] := by
  have harr : arrivals (log ++ [.accepted c]) = arrivals log ++ [c] := arrivals_append
  have hdep : departures (log ++ [.accepted c]) = departures log := by
    rw [departures_append]; exact List.append_nil _
  rw [waiting, harr, hdep, List.filter_append]
  simp [waiting, ha]

/-- Whoever leaves, leaves alone. -/
theorem waiting_left {e : QueueEvent} (harr : arrivals [e] = []) (hdep : departures [e] = [c]) :
    waiting (log ++ [e]) = (waiting log).filter (· ≠ c) := by
  rw [waiting, arrivals_append, departures_append, harr, hdep, List.append_nil, waiting,
    List.filter_filter]
  congr 1
  funext d
  simp [and_comm]

theorem waiting_subset : ∀ d ∈ waiting log, d ∈ arrivals log := fun _ => List.mem_of_mem_filter

end History

namespace ParentController

/-- First in, first out: the queue holds whoever is waiting, once and in order of arrival, and
    each promotion took the oldest. -/
structure Fifo (s : ParentController) : Prop where
  order : s.parentqueue.map Parent.connection = waiting s.log
  once : (waiting s.log).Nodup
  oldest : ∀ log₁ c log₂, s.log = log₁ ++ .promoted c :: log₂ → (waiting log₁).head? = some c

/-- The place of the element that leaves the queue in the first part of UpdateStatus. -/
def leaving (s : ParentController) : Option Nat :=
  if s.parent.socket then none
  else match s.returning with
    | some i => some i
    | none =>
      if ¬ s.fTerminatedScan ∧ (s.currentscanid = 0 ∨ s.orphanedSince = 0) ∧ s.parentqueue ≠ []
      then some 0 else none

/-- Only the newest element leaves the queue, and the parents that are told their place can be
    reached. -/
def NewestLeaves (s : ParentController) (u : UpdateInput) : Prop :=
  match s.leaving with
  | some i => i + 1 = s.parentqueue.length ∧ ∀ k, k + 2 < s.parentqueue.length → u.writes k
  | none => ∀ k, k + 1 < s.parentqueue.length → u.writes k

/-- The condition on one step. -/
def KeepsOrder (s : ParentController) : ParentInput → Prop
  | .connect connectdata hello u =>
    s.parent.socket = false → NewestLeaves (s.accept connectdata hello) u
  | .updateStatus u => NewestLeaves s u
  | .parentError _ _ | .scan _ _ _ _ => True

/-- What is kept beside the order: every queued parent has its connection, and a new
    connection is not one that was used before. -/
structure Ordered (s : ParentController) : Prop extends Fifo s where
  alive : ∀ p ∈ s.parentqueue, p.socket = true
  arrived : ∀ c ∈ arrivals s.log, c < s.connections
  left : ∀ c ∈ departures s.log, c < s.connections

theorem ordered_start : Ordered start where
  order := rfl
  once := List.nodup_nil
  oldest := by intro log₁ c log₂ h; simp [start] at h
  alive := by simp [start]
  arrived := by simp [start, arrivals]
  left := by simp [start, departures]

section Steps

variable {s : ParentController}

theorem Ordered.congr {s' : ParentController} (h : Ordered s)
    (hqueue : s'.parentqueue = s.parentqueue) (hconns : s'.connections = s.connections)
    (hlog : s'.log = s.log) : Ordered s' where
  order := by rw [hqueue, hlog]; exact h.order
  once := by rw [hlog]; exact h.once
  oldest := by rw [hlog]; exact h.oldest
  alive := by rw [hqueue]; exact h.alive
  arrived := by rw [hlog, hconns]; exact h.arrived
  left := by rw [hlog, hconns]; exact h.left

theorem oldest_append {log : List QueueEvent} {e : QueueEvent}
    (h : ∀ log₁ c log₂, log = log₁ ++ .promoted c :: log₂ → (waiting log₁).head? = some c)
    (he : ∀ c, e = .promoted c → (waiting log).head? = some c) :
    ∀ log₁ c log₂, log ++ [e] = log₁ ++ .promoted c :: log₂ → (waiting log₁).head? = some c := by
  intro log₁ c log₂ heq
  rcases List.eq_nil_or_concat log₂ with rfl | ⟨log₃, d, rfl⟩
  · obtain ⟨rfl, hcons⟩ := List.append_inj' heq rfl
    exact he c (List.cons.inj hcons).1
  · have hinit : log = log₁ ++ .promoted c :: log₃ := by
      have hassoc : log ++ [e] = (log₁ ++ .promoted c :: log₃) ++ [d] := by simpa using heq
      exact (List.append_inj' hassoc rfl).1
    exact h log₁ c log₃ hinit

theorem accept_ordered (h : Ordered s) (connectdata : Option ConnectData)
    (hello : Option UInt32) : Ordered (s.accept connectdata hello) := by
  cases hello with
  | none =>
    -- the connection has been used, but the queue is as before
    exact { h with
      arrived := fun c hc => Nat.lt_succ_of_lt (h.arrived c hc)
      left := fun c hc => Nat.lt_succ_of_lt (h.left c hc) }
  | some scanid =>
    have hnew : s.connections ∉ departures s.log := fun hc => Nat.lt_irrefl _ (h.left _ hc)
    have hfresh : s.connections ∉ waiting s.log := fun hc =>
      Nat.lt_irrefl _ (h.arrived _ (waiting_subset _ hc))
    have hwaiting := waiting_accepted hnew
    exact {
      order := by
        simp only [accept, List.map_append, List.map_cons, List.map_nil, h.order]
        exact hwaiting.symm
      once := by
        simp only [accept, hwaiting]
        exact List.nodup_append.2 ⟨h.once, by simp, by
          intro c hc d hd
          have hd' : d = s.connections := by simpa using hd
          rintro rfl
          exact hfresh (hd' ▸ hc)⟩
      oldest := oldest_append h.oldest (by intro c hc; cases hc)
      alive := by
        intro p hp
        simp only [accept, List.mem_append, List.mem_singleton] at hp
        rcases hp with hp | rfl
        · exact h.alive p hp
        · rfl
      arrived := by
        intro c hc
        have harr : arrivals (s.log ++ [.accepted s.connections]) =
            arrivals s.log ++ [s.connections] := arrivals_append
        simp only [accept, harr, List.mem_append, List.mem_singleton] at hc
        simp only [accept]
        rcases hc with hc | rfl
        · have := h.arrived c hc
          omega
        · omega
      left := by
        intro c hc
        have hdep : departures (s.log ++ [.accepted s.connections]) = departures s.log := by
          rw [departures_append]; exact List.append_nil _
        simp only [accept, hdep] at hc
        exact Nat.lt_succ_of_lt (h.left c hc) }

theorem Ordered.leave {s' : ParentController} {queue : List Parent} {p : Parent} {e : QueueEvent}
    (h : Ordered s) (hqueue : s.parentqueue = queue ++ [p])
    (harr : arrivals [e] = []) (hdep : departures [e] = [p.connection])
    (hoff : ∀ c, e = .promoted c → (waiting s.log).head? = some c)
    (hqueue' : s'.parentqueue = queue) (hconns : s'.connections = s.connections)
    (hlog : s'.log = s.log ++ [e]) : Ordered s' := by
  have hwaiting : waiting s.log = queue.map Parent.connection ++ [p.connection] := by
    rw [← h.order, hqueue]; simp
  have hp : p.connection ∉ queue.map Parent.connection := by
    have hnodup := h.once
    rw [hwaiting, List.nodup_append] at hnodup
    intro hmem
    exact hnodup.2.2 _ hmem _ (List.mem_singleton.2 rfl) rfl
  have hrest : waiting s'.log = queue.map Parent.connection := by
    rw [hlog, waiting_left harr hdep, hwaiting, List.filter_append]
    have hkept : (queue.map Parent.connection).filter (· ≠ p.connection) =
        queue.map Parent.connection := by
      rw [List.filter_eq_self]
      intro c hc
      have : c ≠ p.connection := by rintro rfl; exact hp hc
      simpa using this
    rw [hkept]
    simp
  have hmem : p.connection ∈ waiting s.log := by simp [hwaiting]
  exact {
    order := by rw [hrest, hqueue']
    once := by
      rw [hrest]
      have hnodup := h.once
      rw [hwaiting] at hnodup
      exact (List.nodup_append.1 hnodup).1
    oldest := by rw [hlog]; exact oldest_append h.oldest hoff
    alive := by
      intro q hq
      rw [hqueue'] at hq
      exact h.alive q (by rw [hqueue]; exact List.mem_append_left _ hq)
    arrived := by
      intro c hc
      rw [hlog, arrivals_append, harr, List.append_nil] at hc
      rw [hconns]
      exact h.arrived c hc
    left := by
      intro c hc
      rw [hlog, departures_append, hdep, List.mem_append, List.mem_singleton] at hc
      rw [hconns]
      rcases hc with hc | rfl
      · exact h.left c hc
      · exact h.arrived _ (waiting_subset _ hmem) }

theorem takeReturned_ordered (h : Ordered s) {i : Nat} (hi : i + 1 = s.parentqueue.length) :
    Ordered (s.takeReturned i) ∧ (s.takeReturned i).parent.socket = true ∧
      (s.takeReturned i).parentqueue.length = i := by
  rcases List.eq_nil_or_concat s.parentqueue with hnil | ⟨queue, p, hqueue⟩
  · simp [hnil] at hi
  · rw [List.concat_eq_append] at hqueue
    have hlen : queue.length = i := by simpa [hqueue] using hi.symm
    have hp : s.parentqueue[i]? = some p := by simp [hqueue, ← hlen]
    have hremoved : removeAfter s.parentqueue i = queue := by
      rw [hqueue, ← hlen]; exact removeAfter_concat queue p
    simp only [takeReturned, hp]
    refine ⟨h.leave hqueue rfl rfl (by intro c hc; cases hc) hremoved rfl rfl, ?_, ?_⟩
    · exact h.alive p (by simp [hqueue])
    · simp [hremoved, hlen]

theorem promote_ordered (h : Ordered s) (now : Nat) (hone : s.parentqueue.length ≤ 1) :
    Ordered (s.promote now) ∧ (s.promote now).parentqueue.length = 0 := by
  rcases hqueue : s.parentqueue with _ | ⟨p, rest⟩
  · simp [promote, hqueue, h]
  · have hrest : rest = [] := by simpa [hqueue] using hone
    subst hrest
    have hremoved : removeAfter [p] 0 = [] := removeAfter_concat [] p
    have hoff : (waiting s.log).head? = some p.connection := by
      rw [← h.order, hqueue]; rfl
    simp only [promote, hqueue, hremoved]
    refine ⟨h.leave hqueue rfl rfl ?_ rfl rfl rfl, rfl⟩
    intro c hc
    cases hc
    exact hoff

theorem giveUp_ordered (h : Ordered s) (now : Nat) :
    Ordered (s.giveUp now) ∧ (s.giveUp now).parentqueue = s.parentqueue := by
  unfold giveUp
  extract_lets limit
  split
  · exact ⟨h.congr rfl rfl rfl, rfl⟩
  · exact ⟨h, rfl⟩

theorem findParent_ordered (h : Ordered s) {u : UpdateInput} (hu : NewestLeaves s u) :
    Ordered (s.findParent u.now) ∧
      ∀ k, k + 1 < (s.findParent u.now).parentqueue.length → u.writes k := by
  rw [NewestLeaves, leaving] at hu
  rw [findParent]
  by_cases hsocket : s.parent.socket = true
  · rw [if_pos hsocket] at hu ⊢
    exact ⟨h, hu⟩
  · rw [if_neg hsocket] at hu ⊢
    cases hreturning : s.returning with
    | some i =>
      rw [hreturning] at hu
      obtain ⟨htaken, hparent, hlen⟩ := takeReturned_ordered h hu.1
      -- the parent that came back has its connection, so that there is no promotion
      simp only [hparent, not_true_eq_false, and_false, if_false]
      exact ⟨htaken, fun k hk => hu.2 k (by omega)⟩
    | none =>
      simp only [hreturning] at hu
      by_cases hscan : ¬ s.fTerminatedScan = true
      · rw [if_pos ⟨hscan, hsocket⟩]
        by_cases hfree : s.currentscanid = 0 ∨ s.orphanedSince = 0
        · rw [if_pos hfree]
          have hone : s.parentqueue.length ≤ 1 := by
            by_cases hnil : s.parentqueue = []
            · simp [hnil]
            · rw [if_pos ⟨hscan, hfree, hnil⟩] at hu
              have := hu.1
              omega
          obtain ⟨hpromoted, hlen⟩ := promote_ordered h u.now hone
          refine ⟨hpromoted, fun k hk => ?_⟩
          have hk' : k + 1 < (s.promote u.now).parentqueue.length := hk
          omega
        · rw [if_neg hfree]
          rw [if_neg (fun hall => hfree hall.2.1)] at hu
          obtain ⟨hgiven, hqueue⟩ := giveUp_ordered h u.now
          exact ⟨hgiven, fun k hk => hu k (by rwa [hqueue] at hk)⟩
      · rw [if_neg (fun hall => hscan hall.1)]
        rw [if_neg (fun hall => hscan hall.1)] at hu
        exact ⟨h, hu⟩

theorem handleParentException_ordered (h : Ordered s) (now : Nat) (hasResultsPending : Bool) :
    Ordered (s.handleParentException now hasResultsPending) :=
  h.congr rfl rfl rfl

theorem exchange_ordered (h : Ordered s) (u : UpdateInput) :
    Ordered (s.exchange u) ∧ (s.exchange u).parentqueue = s.parentqueue := by
  simp only [exchange]
  split
  · cases u.raises with
    | none => exact ⟨h.congr rfl rfl rfl, rfl⟩
    | some hasResultsPending => exact ⟨h.congr rfl rfl rfl, rfl⟩
  · exact ⟨h, rfl⟩

theorem tellQueue_of_writes {writes : Nat → Bool} (halive : ∀ p ∈ s.parentqueue, p.socket = true)
    (hwrites : ∀ k, k + 1 < s.parentqueue.length → writes k) (fuel : Nat) :
    ∀ k, tellQueue writes fuel k k s = s := by
  induction fuel with
  | zero => intro k; rfl
  | succ fuel ih =>
    intro k
    rw [tellQueue]
    split
    case h_1 => rfl
    case h_2 p hp =>
      by_cases hlast : k + 1 < s.parentqueue.length
      · have hsocket := halive p (List.mem_of_getElem? hp)
        rw [if_pos hlast, if_pos ⟨hsocket, hwrites k hlast⟩]
        exact ih (k + 1)
      · rw [if_neg hlast]

theorem updateStatus_ordered (h : Ordered s) {u : UpdateInput} (hu : NewestLeaves s u) :
    Ordered (s.updateStatus u) := by
  obtain ⟨hfound, hwrites⟩ := findParent_ordered h hu
  obtain ⟨hexchanged, hqueue⟩ := exchange_ordered hfound u
  rw [updateStatus]
  rw [tellQueue_of_writes hexchanged.alive (by rw [hqueue]; exact hwrites)]
  exact hexchanged

theorem step_ordered (s : ParentController) (i : ParentInput) (h : Ordered s)
    (hi : KeepsOrder s i) : Ordered (s.step i) := by
  cases i with
  | connect connectdata hello u =>
    have haccepted := accept_ordered h connectdata hello
    simp only [step, connectorConnect]
    split
    · exact haccepted
    case isFalse hsocket =>
      have hparent : (s.accept connectdata hello).parent = s.parent := by
        cases hello <;> rfl
      rw [hparent, Bool.not_eq_true] at hsocket
      exact updateStatus_ordered haccepted (hi hsocket)
  | updateStatus u => exact updateStatus_ordered h hi
  | parentError now hasResultsPending => exact handleParentException_ordered h now hasResultsPending
  | scan currentscanid currentscanhasended fTerminatedScan savestate => exact h.congr rfl rfl rfl

end Steps

/-- In every run in which only the newest element leaves the queue, the queue is first in,
    first out. -/
theorem parentqueue_fifo (is : List ParentInput) (h : Along step KeepsOrder start is) :
    Fifo (exec step start is) :=
  (exec_invariant step_ordered ordered_start h).toFifo

/-- An exchange with the parent that has a scan for this node. -/
def scanning (currentscanid : UInt32) : UpdateInput :=
  ⟨0, none, currentscanid, false, false, false, true, fun _ => true⟩

theorem parentqueue_fifo_two :
    Fifo (exec step start
      [.connect none (some 5) (scanning 5), .connect none (some 6) (scanning 5)]) :=
  parentqueue_fifo _ (by
    refine ⟨fun _ => ?_, ?_, trivial⟩
    · exact ⟨rfl, by intro k hk; rfl⟩
    · intro h; cases h)

/-- Two parents wait behind the first one, which fails when its scan has ended: the promotion
    of the older leaves it in the queue, and the younger one is lost. -/
theorem parentqueue_not_fifo :
    ¬ ∀ is : List ParentInput, Fifo (exec step start is) := by
  intro h
  have horder := (h [.connect none (some 5) (scanning 5), .connect none (some 6) (scanning 5),
    .connect none (some 7) (scanning 5), .scan 5 true false false, .parentError 9 false,
    .updateStatus (scanning 6)]).order
  exact absurd horder (by decide)

end ParentController

end CheatEngine.PointerScan
