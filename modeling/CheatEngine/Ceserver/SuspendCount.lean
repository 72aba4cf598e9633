/-
  CheatEngine.Ceserver.SuspendCount

  Suspend counts of the debugger thread: a thread that is suspended stays
  paused, and its count is what the suspend and resume calls on it add up to.
  Both follow from one invariant of the debugger thread's steps.  It only
  speaks of the threads through `ProcessData.counts`, their numbers and counts,
  so a command that leaves those alone and unpauses no suspended thread keeps
  all of it.
-/
import CheatEngine.Lib.Run
import CheatEngine.Ceserver.DebuggerThread

namespace CheatEngine.Ceserver

open CheatEngine.Lib

/-! ## Replaying results -/

/-- The thread that a result is about. -/
def CountResult.tid : CountResult → Int32
  | suspended tid _ => tid
  | resumed tid _ => tid

/-- The suspend count of a thread after the results, if each result is the one
    that the count before it calls for. -/
def replay (tid : Int32) : Nat → List CountResult → Option Nat
  | c, [] => some c
  | c, .suspended t r :: rest =>
    if t ≠ tid then replay tid c rest
    else if r = c + 1 then replay tid (c + 1) rest
    else none
  | c, .resumed t r :: rest =>
    if t ≠ tid then replay tid c rest
    else if 0 < c ∧ r = c - 1 then replay tid (c - 1) rest
    else if c = 0 ∧ r = -1 then replay tid c rest
    else none

section Replay

variable {tid : Int32} {c n : Nat} {xs : List CountResult}

theorem replay_append (ys : List CountResult) :
    replay tid c (xs ++ ys) = (replay tid c xs).bind fun c => replay tid c ys := by
  induction xs generalizing c with
  | nil => rfl
  | cons x xs ih =>
    cases x with
    | suspended t r =>
      rw [List.cons_append, replay, replay]
      split
      · exact ih
      · split
        · exact ih
        · rfl
    | resumed t r =>
      rw [List.cons_append, replay, replay]
      split
      · exact ih
      · split
        · exact ih
        · split
          · exact ih
          · rfl

theorem replay_other {x : CountResult} (hx : x.tid ≠ tid) (h : replay tid 0 xs = some c) :
    replay tid 0 (xs ++ [x]) = some c := by
  rw [replay_append, h]
  cases x with
  | suspended t r => simp [replay, show t ≠ tid from hx]
  | resumed t r => simp [replay, show t ≠ tid from hx]

theorem replay_suspended (h : replay tid 0 xs = some c) :
    replay tid 0 (xs ++ [.suspended tid (c + 1)]) = some (c + 1) := by
  rw [replay_append, h]
  simp [replay]

theorem replay_resumed (hc : 0 < c) (h : replay tid 0 xs = some c) :
    replay tid 0 (xs ++ [.resumed tid (c - 1)]) = some (c - 1) := by
  rw [replay_append, h]
  simp [replay, hc]

theorem replay_not_resumed (h : replay tid 0 xs = some 0) :
    replay tid 0 (xs ++ [.resumed tid (-1)]) = some 0 := by
  rw [replay_append, h]
  simp [replay]

/-- Only the results about the thread matter. -/
theorem replay_filter : replay tid c (xs.filter (·.tid = tid)) = replay tid c xs := by
  induction xs generalizing c with
  | nil => rfl
  | cons x xs ih =>
    by_cases hx : x.tid = tid
    · rw [List.filter_cons_of_pos (by simpa using hx)]
      cases x with
      | suspended t r =>
        have ht : ¬ t ≠ tid := not_not.2 hx
        simp only [replay, if_neg ht, ih]
      | resumed t r =>
        have ht : ¬ t ≠ tid := not_not.2 hx
        simp only [replay, if_neg ht, ih]
    · rw [List.filter_cons_of_neg (by simpa using hx), ih]
      cases x with
      | suspended t r => rw [replay, if_pos (show t ≠ tid from hx)]
      | resumed t r => rw [replay, if_pos (show t ≠ tid from hx)]

/-- Suspend calls in a row add up. -/
theorem replay_suspends {rs : List Int} {ys : List CountResult}
    (h : replay tid c (rs.map (.suspended tid) ++ ys) = some n) :
    replay tid (c + rs.length) ys = some n := by
  induction rs generalizing c with
  | nil => exact h
  | cons r rs ih =>
    rw [List.map_cons, List.cons_append, replay, if_neg (not_not.2 rfl)] at h
    split at h
    · have hnext := ih h
      rwa [Nat.add_right_comm] at hnext
    · cases h

theorem replay_resumes {rs : List Int} (hle : rs.length ≤ c)
    (h : replay tid c (rs.map (.resumed tid)) = some n) :
    rs = (List.range rs.length).map fun j => ((c - 1 - j : Nat) : Int) := by
  induction rs generalizing c with
  | nil => rfl
  | cons r rs ih =>
    have hc : 0 < c := by
      rw [List.length_cons] at hle
      omega
    rw [List.map_cons, replay, if_neg (not_not.2 rfl)] at h
    split at h
    · next hr =>
      have htail := ih (by rw [List.length_cons] at hle; omega) h
      rw [List.length_cons, List.range_succ_eq_map, List.map_cons, List.map_map]
      have hhead : r = ((c - 1 - 0 : Nat) : Int) := by omega
      have hstep : ((fun j => ((c - 1 - j : Nat) : Int)) ∘ Nat.succ) =
          fun j => ((c - 1 - 1 - j : Nat) : Int) := by
        funext j
        simp only [Function.comp_apply]
        omega
      rw [hstep, ← htail, ← hhead]
    · rw [if_neg (by omega)] at h
      cases h

end Replay

/-! ## Threads and counts -/

namespace ProcessData

/-- The numbers and suspend counts of the threads. -/
def counts (p : ProcessData) : List (Int32 × Nat) :=
  p.threadlist.map fun t => (t.tid, t.suspendCount)

/-- A suspended thread is paused. -/
def Held (p : ProcessData) : Prop :=
  ∀ t ∈ p.threadlist, 0 < t.suspendCount → t.isPaused = true

variable {p : ProcessData} {i : Nat} {f : ThreadData → ThreadData}

theorem slot_eq (p : ProcessData) (tid : Int32) :
    p.slot tid = p.counts.findIdx? (·.1 = tid) := by
  rw [slot, counts, List.findIdx?_map]
  rfl

theorem suspendCount_eq (p : ProcessData) (i : Nat) :
    p.suspendCount i = (p.counts[i]?).elim 0 Prod.snd := by
  rw [suspendCount, thread, counts, List.getElem?_map]
  cases p.threadlist[i]? <;> rfl

theorem thread_of_slot {tid : Int32} (h : p.slot tid = some i) :
    ∃ t, p.thread i = some t ∧ t.tid = tid := by
  obtain ⟨hi, htid, -⟩ := List.findIdx?_eq_some_iff_getElem.1 h
  exact ⟨p.threadlist[i], List.getElem?_eq_getElem hi, by simpa using htid⟩

theorem counts_of_slot {tid : Int32} (h : p.slot tid = some i) :
    p.counts[i]? = some (tid, p.suspendCount i) := by
  obtain ⟨t, ht, rfl⟩ := thread_of_slot h
  rw [suspendCount, ht, counts, List.getElem?_map]
  rw [thread] at ht
  rw [ht]
  rfl

theorem counts_modify (hf : ∀ t, (f t).tid = t.tid ∧ (f t).suspendCount = t.suspendCount) :
    (p.modifyThread i f).counts = p.counts := by
  refine List.ext_getElem? fun j => ?_
  simp only [counts, modifyThread, List.getElem?_map, List.getElem?_modify]
  cases p.threadlist[j]? with
  | none => rfl
  | some t =>
    by_cases hij : i = j
    · simp [hij, hf t]
    · simp [hij]

theorem held_modify (h : p.Held)
    (hf : ∀ t, p.thread i = some t → 0 < (f t).suspendCount → (f t).isPaused = true) :
    (p.modifyThread i f).Held := by
  intro t ht
  obtain ⟨j, hj⟩ := List.mem_iff_getElem?.1 ht
  rw [modifyThread, List.getElem?_modify] at hj
  cases ht' : p.threadlist[j]? with
  | none => simp [ht'] at hj
  | some t' =>
    by_cases hij : i = j
    · subst hij
      simp only [ht', Option.map_eq_map, Option.map_some, if_true, Option.some.injEq] at hj
      subst hj
      exact hf t' ht'
    · simp only [ht', Option.map_eq_map, Option.map_some, if_neg hij, Option.some.injEq] at hj
      subst hj
      exact h t' (List.mem_of_getElem? ht')

@[simp] theorem counts_setPaused (paused : Bool) : (p.setPaused i paused).counts = p.counts :=
  counts_modify fun _ => ⟨rfl, rfl⟩

@[simp] theorem counts_setSuspendedDevent (de : DebugEvent) :
    (p.setSuspendedDevent i de).counts = p.counts :=
  counts_modify fun _ => ⟨rfl, rfl⟩

@[simp] theorem counts_unpauseAll : p.unpauseAll.counts = p.counts := by
  simp [counts, unpauseAll]

@[simp] theorem counts_markPaused (tid : Int32) : (p.markPaused tid).counts = p.counts := by
  unfold markPaused
  split <;> simp

theorem held_pause (h : p.Held) : (p.setPaused i true).Held := held_modify h fun _ _ _ => rfl

/-- A thread that is not suspended may be let go. -/
theorem held_unpause (h : p.Held) (hcount : p.suspendCount i = 0) : (p.setPaused i false).Held := by
  refine held_modify h fun t ht hpos => ?_
  rw [suspendCount, ht] at hcount
  have hzero : t.suspendCount = 0 := hcount
  simp only at hpos
  omega

theorem held_markPaused (h : p.Held) (tid : Int32) : (p.markPaused tid).Held := by
  unfold markPaused
  split
  · exact held_pause h
  · exact h

theorem held_setSuspendedDevent (h : p.Held) (de : DebugEvent) :
    (p.setSuspendedDevent i de).Held := by
  refine held_modify h fun t ht hpos => ?_
  exact h t (List.mem_of_getElem? ht) hpos

theorem held_raise (h : p.Held) (hpaused : p.paused i = true) : (p.raiseCount i).Held := by
  refine held_modify h fun t ht _ => ?_
  rw [paused, ht] at hpaused
  exact hpaused

theorem held_lower (h : p.Held) : (p.lowerCount i).Held := by
  refine held_modify h fun t ht hpos => ?_
  have hbefore : 0 < t.suspendCount := by
    simp only at hpos
    omega
  exact h t (List.mem_of_getElem? ht) hbefore

theorem held_unpauseAll (h : ∀ t ∈ p.threadlist, t.suspendCount = 0) : p.unpauseAll.Held := by
  intro t ht hpos
  rw [unpauseAll, List.mem_map] at ht
  obtain ⟨t', ht', rfl⟩ := ht
  have hzero := h t' ht'
  simp only at hpos
  omega

theorem held_remove (h : p.Held) (tid : Int32) : (p.removeThread tid).Held :=
  fun t ht => h t (List.mem_of_mem_eraseP ht)

theorem paused_setPaused {tid : Int32} (h : p.slot tid = some i) (paused : Bool) :
    (p.setPaused i paused).paused i = paused := by
  obtain ⟨t, ht, -⟩ := thread_of_slot h
  rw [thread] at ht
  simp [ProcessData.paused, thread, setPaused, modifyThread, ht]

theorem paused_setSuspendedDevent (de : DebugEvent) :
    (p.setSuspendedDevent i de).paused i = p.paused i := by
  simp only [ProcessData.paused, thread, setSuspendedDevent, modifyThread,
    List.getElem?_modify_eq]
  cases p.threadlist[i]? <;> rfl

/-- Change the count at a place of a list of counts. -/
def changeCount (sh : List (Int32 × Nat)) (i : Nat) (g : Nat → Nat) : List (Int32 × Nat) :=
  sh.modify i fun x => (x.1, g x.2)

theorem counts_changeCount {g : Nat → Nat}
    (hf : ∀ t, (f t).tid = t.tid ∧ (f t).suspendCount = g t.suspendCount) :
    (p.modifyThread i f).counts = changeCount p.counts i g := by
  refine List.ext_getElem? fun j => ?_
  simp only [counts, modifyThread, changeCount, List.getElem?_map, List.getElem?_modify]
  cases p.threadlist[j]? with
  | none => rfl
  | some t =>
    by_cases hij : i = j
    · simp [hij, hf t]
    · simp [hij]

theorem counts_raise : (p.raiseCount i).counts = changeCount p.counts i (· + 1) :=
  counts_changeCount fun _ => ⟨rfl, rfl⟩

theorem counts_lower : (p.lowerCount i).counts = changeCount p.counts i (· - 1) :=
  counts_changeCount fun _ => ⟨rfl, rfl⟩

theorem counts_remove (tid : Int32) :
    (p.removeThread tid).counts = p.counts.eraseP (·.1 = tid) := by
  rw [counts, counts, removeThread, List.eraseP_map]
  rfl

end ProcessData

/-! ## The invariant -/

/-- The frame pauses the thread at a place. -/
def Frame.Pauses (i : Nat) : Frame → Prop
  | .pause _ _ j _ _ _ => j = i
  | _ => False

/-- The pointer of a frame is that of its thread; a thread that is only paused
    for a command is not suspended. -/
def Frame.Ok (sh : List (Int32 × Nat)) : Frame → Prop
  | .suspend tid i => sh.findIdx? (·.1 = tid) = some i
  | .wait _ => True
  | .pause _ tid i _ _ _ => sh.findIdx? (·.1 = tid) = some i ∧ (sh[i]?).elim 0 Prod.snd = 0

/-- No thread is being suspended inside a command that pauses it. -/
def Frame.Apart (rest : List Frame) : Frame → Prop
  | .suspend _ i => ∀ f ∈ rest, ¬ f.Pauses i
  | _ => True

/-- Every frame is in order over the frames below it. -/
def FramesOk (sh : List (Int32 × Nat)) : List Frame → Prop
  | [] => True
  | f :: rest => f.Ok sh ∧ f.Apart rest ∧ FramesOk sh rest

/-- The counts are what the results add up to, and the frames fit them. -/
structure Counted (sh : List (Int32 × Nat)) (stack : List Frame) (results : List CountResult) :
    Prop where
  nodup : (sh.map Prod.fst).Nodup
  /-- -1 stands for any thread. -/
  named : ∀ x ∈ sh, x.1 ≠ -1
  frames : FramesOk sh stack
  counts : ∀ x ∈ sh, replay x.1 0 results = some x.2

section Counted

variable {sh : List (Int32 × Nat)} {stack : List Frame} {results : List CountResult} {i : Nat}
  {tid : Int32} {c : Nat} {g : Nat → Nat}

open ProcessData (changeCount)

theorem map_fst_changeCount : (changeCount sh i g).map Prod.fst = sh.map Prod.fst := by
  refine List.ext_getElem? fun j => ?_
  simp only [changeCount, List.getElem?_map, List.getElem?_modify]
  cases sh[j]? with
  | none => rfl
  | some x => by_cases hij : i = j <;> simp [hij]

theorem findIdx_changeCount :
    (changeCount sh i g).findIdx? (·.1 = tid) = sh.findIdx? (·.1 = tid) := by
  have hfst : ∀ l : List (Int32 × Nat),
      l.findIdx? (·.1 = tid) = (l.map Prod.fst).findIdx? (· = tid) := by
    intro l
    rw [List.findIdx?_map]
    rfl
  rw [hfst, hfst, map_fst_changeCount]

theorem framesOk_changeCount (h : FramesOk sh stack) (hapart : ∀ f ∈ stack, ¬ f.Pauses i) :
    FramesOk (changeCount sh i g) stack := by
  induction stack with
  | nil => trivial
  | cons f rest ih =>
    obtain ⟨hok, hf, hrest⟩ := h
    refine ⟨?_, hf, ih hrest fun f' hf' => hapart f' (List.mem_cons_of_mem _ hf')⟩
    cases f with
    | suspend t j => exact findIdx_changeCount.trans hok
    | wait _ => trivial
    | pause kind t j tries de next =>
      have hne : i ≠ j := fun hij => hapart _ (List.mem_cons_self ..) hij.symm
      refine ⟨findIdx_changeCount.trans hok.1, ?_⟩
      rw [changeCount, List.getElem?_modify_ne _ _ hne]
      exact hok.2

theorem Counted.change (h : Counted sh stack results) (hi : sh[i]? = some (tid, c))
    {x : CountResult} (hx : x.tid = tid)
    (hreplay : replay tid 0 results = some c → replay tid 0 (results ++ [x]) = some (g c))
    (hapart : ∀ f ∈ stack, ¬ f.Pauses i) :
    Counted (changeCount sh i g) stack (results ++ [x]) := by
  refine ⟨?_, fun y hy => ?_, framesOk_changeCount h.frames hapart, fun y hy => ?_⟩
  · rw [map_fst_changeCount]
    exact h.nodup
  · have hfst : y.1 ∈ sh.map Prod.fst := by
      rw [← map_fst_changeCount]
      exact List.mem_map_of_mem hy
    obtain ⟨x, hx, hxy⟩ := List.mem_map.1 hfst
    rw [← hxy]
    exact h.named x hx
  · obtain ⟨j, hj⟩ := List.mem_iff_getElem?.1 hy
    rw [changeCount, List.getElem?_modify] at hj
    by_cases hij : i = j
    · subst hij
      simp only [hi, Option.map_eq_map, Option.map_some, if_true, Option.some.injEq] at hj
      subst hj
      exact hreplay (h.counts _ (List.mem_of_getElem? hi))
    · cases hy' : sh[j]? with
      | none => simp [hy'] at hj
      | some y' =>
        simp only [hy', Option.map_eq_map, Option.map_some, if_neg hij, Option.some.injEq] at hj
        subst hj
        -- another place has another thread
        have hne : x.tid ≠ y'.1 := by
          intro heq
          have hfst : (sh.map Prod.fst)[i]? = (sh.map Prod.fst)[j]? := by
            rw [List.getElem?_map, List.getElem?_map, hi, hy', Option.map_some, Option.map_some,
              ← heq, hx]
          have hlt : i < (sh.map Prod.fst).length := by
            rw [List.length_map]
            exact (List.getElem?_eq_some_iff.1 hi).1
          exact hij ((List.getElem?_inj hlt h.nodup).1 hfst)
        exact replay_other hne (h.counts y' (List.mem_of_getElem? hy'))

theorem Counted.keep (h : Counted sh stack results) {x : CountResult}
    (hreplay : ∀ c, (x.tid, c) ∈ sh → replay x.tid 0 results = some c →
      replay x.tid 0 (results ++ [x]) = some c) : Counted sh stack (results ++ [x]) := by
  refine ⟨h.nodup, h.named, h.frames, fun y hy => ?_⟩
  by_cases heq : x.tid = y.1
  · have hy' : (x.tid, y.2) ∈ sh := by rwa [heq]
    have hkeep := hreplay y.2 hy' (heq ▸ h.counts y hy)
    rwa [heq] at hkeep
  · exact replay_other heq (h.counts y hy)

theorem Counted.tail {f : Frame} (h : Counted sh (f :: stack) results) :
    Counted sh stack results :=
  ⟨h.nodup, h.named, h.frames.2.2, h.counts⟩

theorem Counted.push (h : Counted sh stack results) {f : Frame} (hok : f.Ok sh)
    (hapart : f.Apart stack) : Counted sh (f :: stack) results :=
  ⟨h.nodup, h.named, ⟨hok, hapart, h.frames⟩, h.counts⟩

end Counted

/-! ## Commands keep the invariant -/

/-- A command or frame made progress over the frames `rest`, and the invariant
    holds where it got to. -/
def Progressed (rest : List Frame) (results : List CountResult) (r : Progress) : Prop :=
  ∃ p f counted, r = some (p, f, counted) ∧ p.Held ∧
    Counted p.counts (f.toList ++ rest) (results ++ counted)

section Commands

variable {p : ProcessData} {rest : List Frame} {results : List CountResult} {i : Nat}
  {tid : Int32} {k : Kernel} {garbage : DebugEvent}

/-- A command that ends without a result. -/
theorem progressed_done (hheld : p.Held) (hcounted : Counted p.counts rest results) :
    Progressed rest results (some (p, none, [])) :=
  ⟨p, none, [], rfl, hheld, by rwa [List.append_nil]⟩

theorem progressed_suspended (hheld : p.Held) (hcounted : Counted p.counts rest results)
    (hslot : p.slot tid = some i) (hpaused : p.paused i = true)
    (hapart : ∀ f ∈ rest, ¬ f.Pauses i) : Progressed rest results (suspended p tid i) := by
  refine ⟨_, none, _, rfl, ProcessData.held_raise hheld hpaused, ?_⟩
  rw [ProcessData.counts_raise]
  exact hcounted.change (ProcessData.counts_of_slot hslot) rfl replay_suspended hapart

theorem slot_congr {p p' : ProcessData} (h : p'.counts = p.counts) (tid : Int32) :
    p'.slot tid = p.slot tid := by
  rw [ProcessData.slot_eq, ProcessData.slot_eq, h]

theorem progressed_suspendThread (hheld : p.Held) (hcounted : Counted p.counts rest results)
    (hapart : ∀ i, p.slot tid = some i → ∀ f ∈ rest, ¬ f.Pauses i)
    (hevent : ∀ i, p.slot tid = some i → p.paused i = true → p.suspendCount i = 0 →
      p.debuggedThreadEvent.threadid = tid.toInt64 ∨ p.findThreadDebugEventInQueue tid ≠ none) :
    Progressed rest results (suspendThread p tid) := by
  unfold suspendThread
  cases hslot : p.slot tid with
  | none =>
    refine ⟨p, none, _, rfl, hheld, hcounted.keep fun c hmem _ => ?_⟩
    have hidx : p.counts.findIdx? (·.1 = tid) = none := by rw [← ProcessData.slot_eq, hslot]
    have hno := List.findIdx?_eq_none_iff.1 hidx _ hmem
    simp [CountResult.tid] at hno
  | some i =>
    by_cases hpaused : p.paused i = true
    · have hdevent : ∀ de queue, Progressed rest results
          (suspended { p.setSuspendedDevent i de with debugEventQueue := queue } tid i) := by
        intro de queue
        have hsame : (p.setSuspendedDevent i de).counts = p.counts := by simp
        have hslot' : (p.setSuspendedDevent i de).slot tid = some i := by
          rw [slot_congr hsame, hslot]
        have hpaused' : (p.setSuspendedDevent i de).paused i = true := by
          rw [ProcessData.paused_setSuspendedDevent, hpaused]
        exact progressed_suspended (ProcessData.held_setSuspendedDevent hheld de)
          (hsame.symm ▸ hcounted) hslot' hpaused' (hapart i hslot)
      simp only [if_pos hpaused]
      by_cases hzero : p.suspendCount i = 0
      · rw [if_pos hzero]
        by_cases hcurrent : p.debuggedThreadEvent.threadid = tid.toInt64
        · rw [if_pos hcurrent]
          exact hdevent _ p.debugEventQueue
        · rw [if_neg hcurrent]
          cases hfind : p.findThreadDebugEventInQueue tid with
          | none =>
            rcases hevent i hslot hpaused hzero with h | h
            · exact absurd h hcurrent
            · exact absurd hfind h
          | some de => exact hdevent de _
      · rw [if_neg hzero]
        exact progressed_suspended hheld hcounted hslot hpaused (hapart i hslot)
    · simp only [if_neg hpaused]
      refine ⟨p, _, [], rfl, hheld, ?_⟩
      rw [List.append_nil]
      refine hcounted.push ?_ (hapart i hslot)
      show p.counts.findIdx? (·.1 = tid) = some i
      rw [← ProcessData.slot_eq, hslot]

theorem pauses_suspendCount (hframes : FramesOk p.counts rest) {f : Frame} (hf : f ∈ rest)
    (hpauses : f.Pauses i) : p.suspendCount i = 0 := by
  induction rest with
  | nil => exact nomatch hf
  | cons f' rest ih =>
    rcases List.mem_cons.1 hf with rfl | hf
    · cases f with
      | suspend _ _ => exact hpauses.elim
      | wait _ => exact hpauses.elim
      | pause kind t j tries de next =>
        have hj : j = i := hpauses
        subst hj
        rw [ProcessData.suspendCount_eq]
        exact hframes.1.2
    · exact ih hframes.2.2 hf

theorem progressed_resumeThread (hheld : p.Held) (hcounted : Counted p.counts rest results) :
    Progressed rest results (resumeThread p tid) := by
  unfold resumeThread
  cases hslot : p.slot tid with
  | none =>
    refine ⟨p, none, _, rfl, hheld, hcounted.keep fun c hmem _ => ?_⟩
    have hidx : p.counts.findIdx? (·.1 = tid) = none := by rw [← ProcessData.slot_eq, hslot]
    have hno := List.findIdx?_eq_none_iff.1 hidx _ hmem
    simp [CountResult.tid] at hno
  | some i =>
    have hcounts := ProcessData.counts_of_slot hslot
    by_cases hsuspended : p.paused i = true ∧ 0 < p.suspendCount i
    · simp only [if_pos hsuspended]
      have hlower : Counted (p.lowerCount i).counts rest
          (results ++ [.resumed tid (p.suspendCount i - 1)]) := by
        rw [ProcessData.counts_lower]
        refine hcounted.change hcounts rfl (replay_resumed hsuspended.2) fun f hf hpauses => ?_
        have hzero := pauses_suspendCount hcounted.frames hf hpauses
        omega
      have hheld' : (p.lowerCount i).Held := ProcessData.held_lower hheld
      by_cases hlast : (p.lowerCount i).suspendCount i = 0
      · rw [if_pos hlast]
        have hslot' : (p.lowerCount i).slot tid = some i := by
          rw [ProcessData.slot_eq, ProcessData.counts_lower, findIdx_changeCount,
            ← ProcessData.slot_eq, hslot]
        obtain ⟨t, ht, -⟩ := ProcessData.thread_of_slot hslot'
        simp only [ht]
        by_cases hstop : t.suspendedDevent.debugevent = SIGSTOP
        · rw [if_pos hstop]
          refine ⟨_, none, _, rfl, ProcessData.held_unpause hheld' hlast, ?_⟩
          rw [ProcessData.counts_setPaused]
          exact hlower
        · rw [if_neg hstop]
          refine ⟨_, none, _, rfl, ProcessData.held_pause hheld', ?_⟩
          have hsame : (((p.lowerCount i).setPaused i true).addDebugEventToQueue
              t.suspendedDevent).counts = (p.lowerCount i).counts :=
            ProcessData.counts_setPaused true
          rw [hsame]
          exact hlower
      · rw [if_neg hlast]
        exact ⟨_, none, _, rfl, hheld', hlower⟩
    · simp only [if_neg hsuspended]
      refine ⟨p, none, _, rfl, hheld, hcounted.keep fun c hmem hreplay => ?_⟩
      -- a suspended thread would be paused
      have hzero : p.suspendCount i = 0 := by
        by_contra hpos
        obtain ⟨t, ht, -⟩ := ProcessData.thread_of_slot hslot
        have hcount : p.suspendCount i = t.suspendCount := by rw [ProcessData.suspendCount, ht]; rfl
        have hpaused : p.paused i = t.isPaused := by rw [ProcessData.paused, ht]; rfl
        refine hsuspended ⟨?_, by omega⟩
        rw [hpaused]
        exact hheld t (List.mem_of_getElem? ht) (by omega)
      have hcount := hcounted.counts _ (List.mem_of_getElem? hcounts)
      have hc : c = 0 := by
        have := hreplay.symm.trans hcount
        simp only [Option.some.injEq] at this
        omega
      subst hc
      exact replay_not_resumed hreplay

theorem progressed_waitForDebugEvent (hheld : p.Held) (hcounted : Counted p.counts rest results)
    (hnone : p.debuggedThreadEvent.threadid = 0 → ∀ t ∈ p.threadlist, t.suspendCount = 0)
    (timeout : Int32) : Progressed rest results (waitForDebugEvent p timeout) := by
  unfold waitForDebugEvent
  by_cases hcurrent : p.debuggedThreadEvent.threadid = 0
  · rw [if_pos hcurrent]
    have hheld' : (if p.findPausedThread ≠ 0 then p.unpauseAll else p).Held := by
      split
      · exact ProcessData.held_unpauseAll (hnone hcurrent)
      · exact hheld
    have hcounts : (if p.findPausedThread ≠ 0 then p.unpauseAll else p).counts = p.counts := by
      split
      · exact ProcessData.counts_unpauseAll
      · rfl
    generalize (if p.findPausedThread ≠ 0 then p.unpauseAll else p) = p' at hheld' hcounts
    rw [← hcounts] at hcounted
    cases hqueue : p'.debugEventQueue with
    | nil =>
      simp only [hqueue]
      refine ⟨p', _, [], rfl, hheld', ?_⟩
      rw [List.append_nil]
      exact hcounted.push trivial trivial
    | cons de queue =>
      simp only [hqueue]
      exact progressed_done hheld' hcounted
  · rw [if_neg hcurrent]
    exact progressed_done hheld hcounted

theorem continueFromDebugEvent_cases (k : Kernel) (p : ProcessData) (tid ignoresignal : Int32) :
    (∃ p', (continueFromDebugEvent k p tid ignoresignal).2.1 = p' ∧
      p'.threadlist = p.threadlist) ∨
    ∃ i, p.slot tid = some i ∧ p.suspendCount i = 0 ∧
      ((continueFromDebugEvent k p tid ignoresignal).2.1.threadlist =
          (p.setPaused i false).threadlist ∨
        (∃ signal, (k.cont tid signal).toInt < 0) ∧
          (continueFromDebugEvent k p tid ignoresignal).2.1.threadlist =
            ((p.setPaused i false).removeThread tid).threadlist) := by
  unfold continueFromDebugEvent
  by_cases hvirtual : p.debuggedThreadEvent.debugevent.toInt < 0
  · rw [if_pos hvirtual]
    exact .inl ⟨_, rfl, rfl⟩
  rw [if_neg hvirtual]
  cases hslot : p.slot tid with
  | none => exact .inl ⟨_, rfl, rfl⟩
  | some i =>
    by_cases hcount : (p.thread i).elim 0 ThreadData.suspendCount > 0
    · simp only [if_pos hcount]
      exact .inl ⟨_, rfl, rfl⟩
    · simp only [if_neg hcount]
      cases hsi : k.getSigInfo tid with
      | none => exact .inl ⟨_, rfl, rfl⟩
      | some si =>
        refine .inr ⟨i, rfl, Nat.eq_zero_of_not_pos hcount, ?_⟩
        simp only
        by_cases hfail : (resumeThreadWith k tid ignoresignal
            (passedSignal ignoresignal si)).2.toInt < 0
        · simp only [if_pos hfail]
          refine .inr ⟨?_, rfl⟩
          unfold resumeThreadWith at hfail
          split at hfail
          · split at hfail
            · exact ⟨_, hfail⟩
            · next hzero =>
              rw [not_not.1 hzero] at hfail
              exact absurd hfail (show ¬ (0 : Int32).toInt < 0 by decide)
          · exact ⟨_, hfail⟩
        · simp only [if_neg hfail]
          exact .inl rfl

theorem progressed_of_threadlist {p' : ProcessData} (hlist : p'.threadlist = p.threadlist)
    (hheld : p.Held) (hcounted : Counted p.counts rest results) :
    Progressed rest results (some (p', none, [])) := by
  refine progressed_done ?_ ?_
  · unfold ProcessData.Held
    rw [hlist]
    exact hheld
  · unfold ProcessData.counts
    rw [hlist]
    exact hcounted

theorem progressed_continueFromDebugEvent (hheld : p.Held)
    (hcounted : Counted p.counts rest results) (ignoresignal : Int32)
    (hremove : rest = [] ∨ ∀ signal, 0 ≤ (k.cont tid signal).toInt) :
    Progressed rest results (some ((continueFromDebugEvent k p tid ignoresignal).2.1, none, [])) := by
  rcases continueFromDebugEvent_cases k p tid ignoresignal with
    ⟨p', rfl, hlist⟩ | ⟨i, hslot, hzero, hlist | ⟨⟨signal, hfail⟩, hlist⟩⟩
  · exact progressed_of_threadlist hlist hheld hcounted
  · refine progressed_of_threadlist hlist (ProcessData.held_unpause hheld hzero) ?_
    rwa [ProcessData.counts_setPaused]
  · rcases hremove with rfl | hok
    · refine progressed_of_threadlist hlist
        (ProcessData.held_remove (ProcessData.held_unpause hheld hzero) tid) ?_
      rw [ProcessData.counts_remove, ProcessData.counts_setPaused]
      refine ⟨?_, fun x hx => hcounted.named x (List.mem_of_mem_eraseP hx), trivial,
        fun x hx => hcounted.counts x (List.mem_of_mem_eraseP hx)⟩
      exact hcounted.nodup.sublist (List.eraseP_sublist.map _)
    · have := hok signal
      omega

theorem suspendCount_of_not_paused (hheld : p.Held) (hpaused : ¬ p.paused i = true) :
    p.suspendCount i = 0 := by
  unfold ProcessData.suspendCount
  unfold ProcessData.paused at hpaused
  cases ht : p.thread i with
  | none => rfl
  | some t =>
    rw [ht] at hpaused
    by_contra hpos
    exact hpaused (hheld t (List.mem_of_getElem? ht) (Nat.pos_of_ne_zero hpos))

theorem ok_pause (hheld : p.Held) (hslot : p.slot tid = some i) (hpaused : ¬ p.paused i = true)
    (kind : PauseCommand) (tries : Nat) (de : DebugEvent) (next : Option Nat) :
    (Frame.pause kind tid i tries de next).Ok p.counts := by
  refine ⟨?_, ?_⟩
  · rw [← ProcessData.slot_eq, hslot]
  · rw [← ProcessData.suspendCount_eq]
    exact suspendCount_of_not_paused hheld hpaused

theorem ok_pauseAll (hheld : p.Held) (kind : PauseCommand) (fuel j : Nat) {f : Frame}
    (hf : pauseAll kind garbage p fuel j = some f) : f.Ok p.counts ∧ ∀ rest, f.Apart rest := by
  induction fuel generalizing j with
  | zero => exact nomatch hf
  | succ fuel ih =>
    rw [pauseAll] at hf
    cases hnext : (p.thread j).bind fun t => (p.slot t.tid).map fun i => (t.tid, i) with
    | none => simp [hnext] at hf
    | some ti =>
      obtain ⟨tid, i⟩ := ti
      simp only [hnext] at hf
      by_cases hpaused : p.paused i = true
      · rw [if_pos hpaused] at hf
        exact ih (j + 1) hf
      · rw [if_neg hpaused] at hf
        cases hf
        obtain ⟨t, -, ht⟩ := Option.bind_eq_some_iff.1 hnext
        obtain ⟨i', hslot, hpair⟩ := Option.map_eq_some_iff.1 ht
        cases hpair
        exact ⟨ok_pause hheld hslot hpaused kind 0 garbage _, fun _ => trivial⟩

/-- The loop over all threads, wherever it has to wait next. -/
theorem progressed_pauseAll (hheld : p.Held) (hcounted : Counted p.counts rest results)
    (kind : PauseCommand) (fuel j : Nat) :
    Progressed rest results (some (p, pauseAll kind garbage p fuel j, [])) := by
  refine ⟨p, _, [], rfl, hheld, ?_⟩
  rw [List.append_nil]
  cases hf : pauseAll kind garbage p fuel j with
  | none => exact hcounted
  | some f =>
    obtain ⟨hok, hapart⟩ := ok_pauseAll hheld kind fuel j hf
    exact hcounted.push hok (hapart rest)

theorem progressed_pauseThread (hheld : p.Held) (hcounted : Counted p.counts rest results)
    (kind : PauseCommand) (hknown : kind = .removeBreakpoint → tid = -1 ∨ p.slot tid ≠ none) :
    Progressed rest results (pauseThread p kind tid garbage) := by
  unfold pauseThread
  by_cases hinvalid : (kind = .getThreadContext ∨ kind = .setThreadContext) ∧ tid.toInt ≤ 0
  · rw [if_pos hinvalid]
    exact progressed_done hheld hcounted
  rw [if_neg hinvalid]
  by_cases hall : (kind = .setBreakpoint ∨ kind = .removeBreakpoint) ∧ tid = -1
  · rw [if_pos hall]
    exact progressed_pauseAll hheld hcounted kind _ 0
  rw [if_neg hall]
  cases hslot : p.slot tid with
  | none =>
    simp only
    by_cases hremove : kind = .removeBreakpoint
    · rcases hknown hremove with h | h
      · exact absurd ⟨.inr hremove, h⟩ hall
      · exact absurd hslot h
    · rw [if_neg hremove]
      exact progressed_done hheld hcounted
  | some i =>
    simp only
    by_cases hpaused : p.paused i = true
    · rw [if_pos hpaused]
      exact progressed_done hheld hcounted
    · rw [if_neg hpaused]
      refine ⟨p, _, [], rfl, hheld, ?_⟩
      rw [List.append_nil]
      exact hcounted.push (ok_pause hheld hslot hpaused kind 0 garbage none) trivial

end Commands

/-! ## Frames keep the invariant -/

section Frames

variable {p : ProcessData} {rest : List Frame} {results : List CountResult} {k : Kernel}
  {garbage : DebugEvent}

theorem progressed_returned {f : Frame} (hheld : p.Held)
    (hcounted : Counted p.counts (f :: rest) results) (event : Option DebugEvent)
    (hpaused : ∀ tid i, f = .suspend tid i → event ≠ none → p.paused i = true) :
    Progressed rest results (f.returned garbage p event) := by
  have hrest := hcounted.tail
  obtain ⟨hok, hapart, -⟩ := hcounted.frames
  cases f with
  | suspend tid i =>
    have hslot : p.slot tid = some i := by
      rw [ProcessData.slot_eq]
      exact hok
    cases event with
    | some de =>
      have hsame : (p.setSuspendedDevent i de).counts = p.counts := by simp
      have hslot' : (p.setSuspendedDevent i de).slot tid = some i := by
        rw [slot_congr hsame, hslot]
      have hpaused' : (p.setSuspendedDevent i de).paused i = true := by
        rw [ProcessData.paused_setSuspendedDevent]
        exact hpaused tid i rfl (Option.some_ne_none de)
      exact progressed_suspended (ProcessData.held_setSuspendedDevent hheld de)
        (hsame.symm ▸ hrest) hslot' hpaused' hapart
    | none =>
      simp only [Frame.returned]
      by_cases hp : p.paused i = true
      · rw [if_pos hp]
        exact progressed_suspended hheld hrest hslot hp hapart
      · rw [if_neg hp]
        refine ⟨p, _, [], rfl, hheld, ?_⟩
        rw [List.append_nil]
        exact hcounted
  | wait timeout =>
    cases event with
    | some de => exact progressed_done hheld hrest
    | none => exact progressed_done hheld hrest
  | pause kind tid i tries de next =>
    have hslot : p.slot tid = some i := by
      rw [ProcessData.slot_eq]
      exact hok.1
    have hzero : p.suspendCount i = 0 := by
      rw [ProcessData.suspendCount_eq]
      exact hok.2
    simp only [Frame.returned]
    by_cases hwait : event = none ∧ ¬ p.paused i = true ∧ tries + 1 < 10
    · rw [if_pos hwait]
      refine ⟨p, _, [], rfl, hheld, ?_⟩
      rw [List.append_nil]
      exact hrest.push hok trivial
    · rw [if_neg hwait]
      have hplace : (if kind = .setBreakpoint then some i else p.slot tid) = some i := by
        split
        · rfl
        · exact hslot
      unfold release
      rw [hplace]
      by_cases hstop : (event.getD de).debugevent ≠ SIGSTOP
      · simp only [Option.map_some, if_pos hstop]
        have hsame : ((p.setPaused i true).addDebugEventToQueue (event.getD de)).counts =
            p.counts := ProcessData.counts_setPaused true
        have hheld' : ((p.setPaused i true).addDebugEventToQueue (event.getD de)).Held :=
          ProcessData.held_pause hheld
        cases next with
        | none => exact progressed_done hheld' (hsame.symm ▸ hrest)
        | some j => exact progressed_pauseAll hheld' (hsame.symm ▸ hrest) kind _ j
      · simp only [Option.map_some, if_neg hstop]
        have hsame : (p.setPaused i false).counts = p.counts := ProcessData.counts_setPaused false
        have hheld' : (p.setPaused i false).Held := ProcessData.held_unpause hheld hzero
        cases next with
        | none => exact progressed_done hheld' (hsame.symm ▸ hrest)
        | some j => exact progressed_pauseAll hheld' (hsame.symm ▸ hrest) kind _ j

theorem paused_markPaused {tid : Int32} {i : Nat} (hslot : p.slot tid = some i) :
    (p.markPaused tid).paused i = true := by
  unfold ProcessData.markPaused
  rw [hslot]
  exact ProcessData.paused_setPaused hslot true

theorem thread_of_find {tid : Int32} {e : DebugEvent}
    (h : p.findThreadDebugEventInQueue tid = some e) : tid = -1 ∨ e.threadid = tid.toInt64 := by
  have htrue := List.find?_some h
  simpa using htrue

theorem tid_toInt64 (tid : Int32) : tid.toInt64.toUInt64.toUInt32.toInt32 = tid := by
  rw [Int32.eq_iff_toBitVec_eq]
  simp only [UInt32.toBitVec_toInt32, UInt64.toBitVec_toUInt32, Int64.toBitVec_toUInt64,
    Int32.toBitVec_toInt64]
  apply BitVec.eq_of_getLsbD_eq
  intro i hi
  have hlt : i < 64 := by omega
  rw [BitVec.getLsbD_setWidth, BitVec.getLsbD_signExtend, if_pos hi]
  simp only [hi, hlt, decide_true, Bool.true_and]

/-- A thread that a frame of the stack waits for has a number of its own. -/
theorem named_of_slot {tid : Int32} {i : Nat} (hcounted : Counted p.counts rest results)
    (hslot : p.slot tid = some i) : tid ≠ -1 :=
  hcounted.named _ (List.mem_of_getElem? (ProcessData.counts_of_slot hslot))

/-- The invariant of a session. -/
def DebugSession.Inv (s : DebugSession) : Prop :=
  s.process.Held ∧ Counted s.process.counts s.stack s.results

theorem inv_checkQueue (hheld : p.Held) (hcounted : Counted p.counts rest results) :
    ∃ s, checkQueue k garbage p rest results = some s ∧ s.Inv := by
  induction rest generalizing p results with
  | nil => exact ⟨_, rfl, hheld, hcounted⟩
  | cons f rest ih =>
    rw [checkQueue]
    cases hfind : p.findThreadDebugEventInQueue f.wanted with
    | none => exact ⟨_, rfl, hheld, hcounted⟩
    | some e =>
      simp only
      by_cases hpos : e.tid.toInt ≤ 0
      · rw [if_pos hpos]
        exact ⟨_, rfl, hheld, hcounted⟩
      rw [if_neg hpos]
      have hpaused : ∀ (de : DebugEvent) (tid : Int32) (i : Nat), f = .suspend tid i →
          some de ≠ none →
          ((p.removeThreadDebugEventFromQueue e.threadid).markPaused e.tid).paused i = true := by
        rintro de tid i rfl -
        have hslot : p.slot tid = some i := by
          rw [ProcessData.slot_eq]
          exact hcounted.frames.1
        rcases thread_of_find hfind with hany | hthread
        · exact absurd hany (named_of_slot hcounted hslot)
        · have htid : e.tid = tid := by
            rw [DebugEvent.tid, hthread, tid_toInt64]
            rfl
          rw [htid]
          exact paused_markPaused (p := p.removeThreadDebugEventFromQueue e.threadid) hslot
      have hqueue : (p.removeThreadDebugEventFromQueue e.threadid).Held := hheld
      have hcounted' : Counted
          ((p.removeThreadDebugEventFromQueue e.threadid).markPaused e.tid).counts
          (f :: rest) results := by
        rw [ProcessData.counts_markPaused]
        exact hcounted
      obtain ⟨p', f', counted, hr, hheld', hcounted''⟩ :=
        progressed_returned (ProcessData.held_markPaused hqueue e.tid) hcounted' _ (hpaused _)
      rw [hr]
      cases f' with
      | none => exact ih hheld' hcounted''
      | some f' => exact ⟨_, rfl, hheld', hcounted''⟩

theorem inv_proceed {r : Progress} (h : Progressed rest results r) :
    ∃ s, proceed k garbage rest results r = some s ∧ s.Inv := by
  obtain ⟨p, f, counted, rfl, hheld, hcounted⟩ := h
  cases f with
  | none => exact inv_checkQueue hheld hcounted
  | some f => exact ⟨_, rfl, hheld, hcounted⟩

end Frames

/-! ## Steps and runs -/

/-- What a step has to respect: a thread is not suspended inside a command that
    pauses it, and a paused one only when its event is known; no event is
    waited for without a current event while a thread is suspended; no thread
    is lost while a command waits; and no breakpoint is removed from a thread
    that does not exist. -/
def Careful (k : Kernel) (s : DebugSession) : DebugInput → Prop
  | .command (.suspendThread tid) => ∀ i, s.process.slot tid = some i →
      (∀ f ∈ s.stack, ¬ f.Pauses i) ∧
        (s.process.paused i = true → s.process.suspendCount i = 0 →
          s.process.debuggedThreadEvent.threadid = tid.toInt64 ∨
            s.process.findThreadDebugEventInQueue tid ≠ none)
  | .command (.waitForDebugEvent _) => s.process.debuggedThreadEvent.threadid = 0 →
      ∀ t ∈ s.process.threadlist, t.suspendCount = 0
  | .command (.continueFromDebugEvent tid _) =>
    s.stack = [] ∨ ∀ signal, 0 ≤ (k.cont tid signal).toInt
  | .command (.pause .removeBreakpoint tid) => tid = -1 ∨ s.process.slot tid ≠ none
  | _ => True

section Steps

variable {s : DebugSession} {k : Kernel} {garbage : DebugEvent}

theorem progressed_beginCommand (hs : s.Inv) {c : DebugCommand} (hc : Careful k s (.command c)) :
    Progressed s.stack s.results (beginCommand k garbage s.process c) := by
  obtain ⟨hheld, hcounted⟩ := hs
  cases c with
  | suspendThread tid =>
    exact progressed_suspendThread hheld hcounted (fun i hi => (hc i hi).1)
      fun i hi => (hc i hi).2
  | resumeThread tid => exact progressed_resumeThread hheld hcounted
  | waitForDebugEvent timeout => exact progressed_waitForDebugEvent hheld hcounted hc timeout
  | continueFromDebugEvent tid ignoresignal =>
    exact progressed_continueFromDebugEvent hheld hcounted ignoresignal hc
  | pause kind tid =>
    refine progressed_pauseThread hheld hcounted kind ?_
    rintro rfl
    exact hc

theorem inv_unexpected {p : ProcessData} {f : Frame} {rest : List Frame}
    {results : List CountResult} (hheld : p.Held) (hcounted : Counted p.counts (f :: rest) results)
    (de : DebugEvent) :
    (f.unexpected p de).1.Held ∧
      Counted (f.unexpected p de).1.counts ((f.unexpected p de).2 :: rest) results := by
  cases f with
  | suspend tid i =>
    refine ⟨ProcessData.held_setSuspendedDevent hheld de, ?_⟩
    have hsame : ((p.setSuspendedDevent i de).addDebugEventToQueue de).counts = p.counts :=
      ProcessData.counts_setSuspendedDevent de
    show Counted ((p.setSuspendedDevent i de).addDebugEventToQueue de).counts _ _
    rw [hsame]
    exact hcounted
  | wait timeout => exact ⟨hheld, hcounted⟩
  | pause kind tid i tries _ next =>
    -- the frame still waits for the thread at its place
    obtain ⟨hok, -, -⟩ := hcounted.frames
    exact ⟨hheld, hcounted.tail.push hok trivial⟩

theorem inv_step (hs : s.Inv) {input : DebugInput} (hc : Careful k s input) :
    ∃ s', s.step k garbage input = some s' ∧ s'.Inv := by
  cases input with
  | command c =>
    rw [DebugSession.step]
    by_cases htimed : s.stack.all Frame.timed = true
    · rw [if_pos htimed]
      exact inv_proceed (progressed_beginCommand hs hc)
    · rw [if_neg htimed]
      exact ⟨s, rfl, hs⟩
  | stop tid signal =>
    rw [DebugSession.step]
    cases hstack : s.stack with
    | nil => exact ⟨s, rfl, hs⟩
    | cons f rest =>
      have hheld : (s.process.markPaused tid).Held := ProcessData.held_markPaused hs.1 tid
      have hcounted : Counted (s.process.markPaused tid).counts (f :: rest) s.results := by
        rw [ProcessData.counts_markPaused, ← hstack]
        exact hs.2
      simp only
      by_cases hwanted : f.wanted = -1 ∨ tid = f.wanted
      · rw [if_pos hwanted]
        refine inv_proceed (progressed_returned hheld hcounted _ ?_)
        rintro tid' i rfl -
        have hslot : s.process.slot tid' = some i := by
          have hok := hs.2.frames
          rw [hstack] at hok
          rw [ProcessData.slot_eq]
          exact hok.1
        rcases hwanted with hany | rfl
        · exact absurd hany (named_of_slot hs.2 hslot)
        · exact paused_markPaused hslot
      · rw [if_neg hwanted]
        exact ⟨_, rfl, inv_unexpected hheld hcounted _⟩
  | wake =>
    rw [DebugSession.step]
    by_cases htimed : s.stack.all Frame.timed = true
    · rw [if_pos htimed]
      exact inv_checkQueue hs.1 hs.2
    · rw [if_neg htimed]
      exact ⟨s, rfl, hs⟩
  | timeout =>
    rw [DebugSession.step]
    cases hstack : s.stack with
    | nil => exact ⟨s, rfl, hs⟩
    | cons f rest =>
      have hcounted : Counted s.process.counts (f :: rest) s.results := by
        rw [← hstack]
        exact hs.2
      exact inv_proceed (progressed_returned hs.1 hcounted none fun _ _ _ h => absurd rfl h)

end Steps

/-- One input with the kernel's answers and the content of unwritten events;
    `none` once the server is down. -/
def sessionStep (s : Option DebugSession) (input : Kernel × DebugEvent × DebugInput) :
    Option DebugSession :=
  s.bind fun s => s.step input.1 input.2.1 input.2.2

def CarefulStep (s : Option DebugSession) (input : Kernel × DebugEvent × DebugInput) : Prop :=
  ∀ s', s = some s' → Careful input.1 s' input.2.2

/-- A session that has just begun: nothing waits, no thread is suspended, and
    the threads have numbers of their own. -/
structure DebugSession.Fresh (s : DebugSession) : Prop where
  stack : s.stack = []
  results : s.results = []
  running : ∀ t ∈ s.process.threadlist, t.suspendCount = 0
  named : ∀ t ∈ s.process.threadlist, t.tid ≠ -1
  nodup : (s.process.threadlist.map ThreadData.tid).Nodup

theorem inv_fresh {s : DebugSession} (h : s.Fresh) : s.Inv := by
  refine ⟨fun t ht hpos => ?_, ?_, ?_, ?_, ?_⟩
  · have := h.running t ht
    omega
  · have hfst : s.process.counts.map Prod.fst = s.process.threadlist.map ThreadData.tid := by
      simp [ProcessData.counts, Function.comp_def]
    rw [hfst]
    exact h.nodup
  · intro x hx
    obtain ⟨t, ht, rfl⟩ := List.mem_map.1 hx
    exact h.named t ht
  · rw [h.stack]
    trivial
  · intro x hx
    obtain ⟨t, ht, rfl⟩ := List.mem_map.1 hx
    rw [h.results, h.running t ht]
    rfl

theorem inv_run {s : DebugSession} (h : s.Fresh) {inputs : List (Kernel × DebugEvent × DebugInput)}
    (hrun : Along sessionStep CarefulStep (some s) inputs) :
    ∃ s', exec sessionStep (some s) inputs = some s' ∧ s'.Inv := by
  refine exec_invariant (I := fun s => ∃ s', s = some s' ∧ s'.Inv) ?_ ⟨s, rfl, inv_fresh h⟩ hrun
  rintro _ input ⟨s, rfl, hs⟩ hcareful
  exact inv_step hs (hcareful s rfl)

theorem resumeThread_last {p : ProcessData} (hheld : p.Held) {tid : Int32} {i : Nat}
    (hslot : p.slot tid = some i) (hone : p.suspendCount i = 1) :
    ∃ p', resumeThread p tid = some (p', none, [.resumed tid 0]) ∧ p'.suspendCount i = 0 ∧
      (p'.paused i = false ∨
        ∃ t, p.thread i = some t ∧ t.suspendedDevent ∈ p'.debugEventQueue) := by
  obtain ⟨t, ht, -⟩ := ProcessData.thread_of_slot hslot
  have hcount : t.suspendCount = 1 := by
    rw [ProcessData.suspendCount, ht] at hone
    exact hone
  have hpaused : p.paused i = true := by
    rw [ProcessData.paused, ht]
    exact hheld t (List.mem_of_getElem? ht) (by omega)
  have ht' : (p.lowerCount i).thread i = some { t with suspendCount := 0 } := by
    rw [ProcessData.thread] at ht
    simp [ProcessData.thread, ProcessData.lowerCount, ProcessData.modifyThread, ht, hcount]
  have hzero : (p.lowerCount i).suspendCount i = 0 := by
    rw [ProcessData.suspendCount, ht']
    rfl
  have hslot' : (p.lowerCount i).slot tid = some i := by
    rw [ProcessData.slot_eq, ProcessData.counts_lower, findIdx_changeCount, ← ProcessData.slot_eq,
      hslot]
  have hsame : ∀ paused, ((p.lowerCount i).setPaused i paused).suspendCount i = 0 := by
    intro paused
    rw [ProcessData.suspendCount_eq, ProcessData.counts_setPaused, ← ProcessData.suspendCount_eq,
      hzero]
  unfold resumeThread
  rw [hslot]
  have hsuspended : p.paused i = true ∧ 0 < p.suspendCount i := ⟨hpaused, by omega⟩
  have hresult : (p.suspendCount i : Int) - 1 = 0 := by omega
  simp only [if_pos hsuspended, if_pos hzero, ht', hresult]
  by_cases hstop : t.suspendedDevent.debugevent = SIGSTOP
  · rw [if_pos hstop]
    exact ⟨_, rfl, hsame false, .inl (ProcessData.paused_setPaused hslot' false)⟩
  · rw [if_neg hstop]
    refine ⟨((p.lowerCount i).setPaused i true).addDebugEventToQueue t.suspendedDevent, rfl,
      hsame true, .inr ⟨t, ht, ?_⟩⟩
    simp [ProcessData.addDebugEventToQueue]

/-- A session on a process with one running thread. -/
def oneRunning : DebugSession :=
  ⟨⟨1, true, [⟨1, false, 0, ⟨0, 0, 0⟩⟩], ⟨0, 0, 0⟩, []⟩, [], []⟩

theorem oneRunning_fresh : oneRunning.Fresh := by
  refine ⟨rfl, rfl, ?_, ?_, by decide⟩ <;> intro t ht <;> cases ht with
    | head => decide
    | tail _ h => exact nomatch h

/-- A kernel where every thread stopped with `SIGSTOP` and every request
    succeeds. -/
def calmKernel : Kernel := ⟨fun _ => some SIGSTOP, fun _ => 0, fun _ _ => 0⟩

def calmly (inputs : List DebugInput) : List (Kernel × DebugEvent × DebugInput) :=
  inputs.map fun input => (calmKernel, ⟨0, 0, 0⟩, input)

end CheatEngine.Ceserver
