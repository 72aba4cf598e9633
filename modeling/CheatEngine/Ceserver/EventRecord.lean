/-
  CheatEngine.Ceserver.EventRecord

  Where the debugger thread has the event of a paused thread: it is the current
  event, or it is in the queue.

  Every command takes an event from the kernel or the queue, has it in hand for
  a while and puts it somewhere.  So the invariant `Recorded` has the thread
  whose event is in hand as an argument: taking an event turns `Recorded none`
  into `Recorded (some tid)`, and each way of putting it turns this back.
-/
import CheatEngine.Ceserver.Connections
import CheatEngine.Ceserver.SuspendCount

namespace CheatEngine.Ceserver

open CheatEngine.Lib

/-! ## Events on record -/

namespace ProcessData

/-- The numbers of the threads. -/
def tids (p : ProcessData) : List Int32 := p.threadlist.map ThreadData.tid

def Queued (p : ProcessData) (tid : Int32) : Prop :=
  ∃ e ∈ p.debugEventQueue, e.threadid = tid.toInt64

/-- The event of the thread is the current one or queued. -/
def OnRecord (p : ProcessData) (tid : Int32) : Prop :=
  p.debuggedThreadEvent.threadid = tid.toInt64 ∨ p.Queued tid

/-- What the commands rely on: the event of every paused thread that is not
    suspended is on record, so `SuspendThread` finds it, and every queued event
    is that of a thread of the process. -/
structure EventsRecorded (p : ProcessData) : Prop where
  paused : ∀ t ∈ p.threadlist, t.isPaused = true → t.suspendCount = 0 → p.OnRecord t.tid
  listed : ∀ e ∈ p.debugEventQueue, ∃ t ∈ p.threadlist, e.threadid = t.tid.toInt64
  found : ∀ tid, suspendThread p tid ≠ none

instance (p : ProcessData) (tid : Int32) : Decidable (p.Queued tid) :=
  inferInstanceAs (Decidable (∃ e ∈ p.debugEventQueue, e.threadid = tid.toInt64))

variable {p : ProcessData} {tid : Int32} {i : Nat} {f : ThreadData → ThreadData}

theorem slot_eq_tids (p : ProcessData) (tid : Int32) :
    p.slot tid = p.tids.findIdx? (· = tid) := by
  rw [slot, tids, List.findIdx?_map]
  rfl

theorem tids_modify (hf : ∀ t, (f t).tid = t.tid) : (p.modifyThread i f).tids = p.tids := by
  apply List.ext_getElem?
  intro j
  simp only [tids, modifyThread, List.getElem?_map, List.getElem?_modify]
  cases p.threadlist[j]? with
  | none => rfl
  | some t =>
    by_cases hij : i = j
    · simp [hij, hf t]
    · simp [hij]

theorem slot_congr_tids {p p' : ProcessData} (h : p'.tids = p.tids) (tid : Int32) :
    p'.slot tid = p.slot tid := by
  rw [slot_eq_tids, slot_eq_tids, h]

theorem tid_mem_tids {t : ThreadData} (ht : t ∈ p.threadlist) : t.tid ∈ p.tids :=
  List.mem_map_of_mem ht

theorem slot_ne_none (h : tid ∈ p.tids) : p.slot tid ≠ none := by
  rw [slot_eq_tids]
  intro hnone
  have hno := List.findIdx?_eq_none_iff.1 hnone tid h
  simp at hno

theorem mem_modify (hnodup : p.tids.Nodup) {t₀ t : ThreadData} (ht₀ : p.thread i = some t₀)
    (ht : t ∈ (p.modifyThread i f).threadlist) :
    t = f t₀ ∨ t ∈ p.threadlist ∧ t.tid ≠ t₀.tid := by
  obtain ⟨j, hj⟩ := List.mem_iff_getElem?.1 ht
  rw [modifyThread, List.getElem?_modify] at hj
  rw [thread] at ht₀
  by_cases hij : i = j
  · subst hij
    simp only [ht₀, Option.map_eq_map, Option.map_some, if_true, Option.some.injEq] at hj
    exact .inl hj.symm
  · simp only [if_neg hij, Option.map_eq_map, Option.map_id'] at hj
    refine .inr ⟨List.mem_of_getElem? hj, fun heq => hij ?_⟩
    -- one number has one place
    have hti : p.tids[i]? = some t₀.tid := by rw [tids, List.getElem?_map, ht₀, Option.map_some]
    have htj : p.tids[j]? = some t₀.tid := by
      rw [tids, List.getElem?_map, hj, Option.map_some, heq]
    have hlt : i < p.tids.length := (List.getElem?_eq_some_iff.1 hti).1
    exact (List.getElem?_inj hlt hnodup).1 (hti.trans htj.symm)

theorem toInt64_inj {x y : Int32} : x.toInt64 = y.toInt64 ↔ x = y := by
  constructor
  · intro h
    rw [← tid_toInt64 x, ← tid_toInt64 y, h]
  · rintro rfl
    rfl

/-- No thread has the number 0 of no event. -/
theorem toInt64_ne_zero {x : Int32} (h : 0 < x.toInt) : x.toInt64 ≠ 0 := by
  intro hzero
  have hx : x = 0 := toInt64_inj.1 (hzero.trans rfl)
  subst hx
  exact absurd h (by decide)

end ProcessData

/-! ## The invariant -/

/-- The frame waits for any event. -/
def Frame.isWait : Frame → Bool
  | .wait _ => true
  | _ => false

/-- The pointer of a frame is that of its thread. -/
def Frame.Points (p : ProcessData) : Frame → Prop
  | .suspend tid i => p.slot tid = some i
  | .wait _ => True
  | .pause _ tid i _ _ _ => p.slot tid = some i

/-- Every event is where it belongs, but for the one that is in hand. -/
structure Recorded (held : Option Int32) (p : ProcessData) (stack : List Frame) : Prop where
  paused : ∀ t ∈ p.threadlist, t.isPaused = true → t.suspendCount = 0 →
    held = some t.tid ∨ p.OnRecord t.tid
  listed : ∀ e ∈ p.debugEventQueue, ∃ tid ∈ p.tids, e.threadid = tid.toInt64
  /-- A suspended thread keeps an event of its own. -/
  stored : ∀ t ∈ p.threadlist, 0 < t.suspendCount → t.suspendedDevent.threadid = t.tid.toInt64
  positive : ∀ tid ∈ p.tids, 0 < tid.toInt
  nodup : p.tids.Nodup
  points : ∀ f ∈ stack, f.Points p
  waiting : ∀ f ∈ stack, f.isWait = true → p.debuggedThreadEvent.threadid = 0
  single : stack.countP Frame.isWait ≤ 1

namespace Recorded

open ProcessData

variable {held held' : Option Int32} {p : ProcessData} {stack : List Frame} {tid : Int32}
  {i : Nat} {f : ThreadData → ThreadData} {de : DebugEvent}

theorem weaken (h : Recorded none p stack) : Recorded held p stack :=
  { h with paused := fun t ht hp hc => (h.paused t ht hp hc).elim nofun .inr }

theorem tail {f : Frame} (h : Recorded held p (f :: stack)) : Recorded held p stack :=
  { h with
    points := fun f hf => h.points f (List.mem_cons_of_mem _ hf)
    waiting := fun f hf => h.waiting f (List.mem_cons_of_mem _ hf)
    single := by
      have hle := h.single
      rw [List.countP_cons] at hle
      omega }

theorem push {f : Frame} (h : Recorded held p stack) (hf : f.Points p) (hwait : f.isWait = false) :
    Recorded held p (f :: stack) :=
  { h with
    points := List.forall_mem_cons.2 ⟨hf, h.points⟩
    waiting := List.forall_mem_cons.2 ⟨fun ht => absurd ht (by simp [hwait]), h.waiting⟩
    single := by
      rw [List.countP_cons_of_neg (by simp [hwait])]
      exact h.single }

theorem eq_of_tid (h : Recorded held p stack) {t t' : ThreadData} (ht : t ∈ p.threadlist)
    (ht' : t' ∈ p.threadlist) (heq : t.tid = t'.tid) : t = t' :=
  List.inj_on_of_nodup_map h.nodup ht ht' heq

theorem modify (h : Recorded held p stack) (hslot : p.slot tid = some i)
    (htid : ∀ t, (f t).tid = t.tid)
    (hstored : ∀ t, p.thread i = some t → 0 < (f t).suspendCount →
      (f t).suspendedDevent.threadid = tid.toInt64)
    (hself : ∀ t, p.thread i = some t → (f t).isPaused = true → (f t).suspendCount = 0 →
      held' = some tid ∨ p.OnRecord tid)
    (hothers : ∀ tid', tid' ≠ tid → held = some tid' → held' = some tid') :
    Recorded held' (p.modifyThread i f) stack := by
  have htids : (p.modifyThread i f).tids = p.tids := tids_modify htid
  obtain ⟨t₀, ht₀, rfl⟩ := thread_of_slot hslot
  have hcases : ∀ t ∈ (p.modifyThread i f).threadlist,
      t = f t₀ ∨ t ∈ p.threadlist ∧ t.tid ≠ t₀.tid := fun t => mem_modify h.nodup ht₀
  constructor
  · intro t ht hpaused hcount
    rcases hcases t ht with rfl | ⟨ht, hne⟩
    · rw [htid]
      exact hself t₀ ht₀ hpaused hcount
    · exact (h.paused t ht hpaused hcount).imp_left (hothers _ hne)
  · rw [htids]
    exact h.listed
  · intro t ht hcount
    rcases hcases t ht with rfl | ⟨ht, -⟩
    · rw [htid]
      exact hstored t₀ ht₀ hcount
    · exact h.stored t ht hcount
  · rw [htids]
    exact h.positive
  · rw [htids]
    exact h.nodup
  · intro g hg
    have hpoints := h.points g hg
    cases g with
    | suspend _ _ => exact (slot_congr_tids htids _).trans hpoints
    | wait _ => trivial
    | pause _ _ _ _ _ _ => exact (slot_congr_tids htids _).trans hpoints
  · exact h.waiting
  · exact h.single

theorem stored_thread (h : Recorded held p stack) (hslot : p.slot tid = some i) {t : ThreadData}
    (ht : p.thread i = some t) (hcount : 0 < t.suspendCount) :
    t.suspendedDevent.threadid = tid.toInt64 := by
  obtain ⟨t', ht', rfl⟩ := thread_of_slot hslot
  cases ht.symm.trans ht'
  exact h.stored t (List.mem_of_getElem? ht) hcount

theorem take (h : Recorded (some tid) p stack) : Recorded (some tid) (p.markPaused tid) stack := by
  unfold markPaused
  cases hslot : p.slot tid with
  | none => exact h
  | some i =>
    apply h.modify hslot
    · exact fun _ => rfl
    · exact fun t ht => h.stored_thread (t := t) hslot ht
    · exact fun _ _ _ _ => .inl rfl
    · exact fun _ _ heq => heq

theorem dequeue (h : Recorded none p stack) (tid : Int32) :
    Recorded (some tid) (p.removeThreadDebugEventFromQueue tid.toInt64) stack := by
  refine { h with paused := ?_, listed := ?_ }
  · intro t ht hpaused hcount
    by_cases htid : t.tid = tid
    · exact .inl (congrArg some htid.symm)
    · rcases h.paused t ht hpaused hcount with hnone | hcurrent | ⟨e, he, hthread⟩
      · exact nomatch hnone
      · exact .inr (.inl hcurrent)
      · -- the event of another thread stays
        have hne : ¬ e.threadid = tid.toInt64 := by
          rw [hthread, toInt64_inj]
          exact htid
        exact .inr (.inr ⟨e, (List.mem_eraseP_of_neg (by simpa using hne)).2 he, hthread⟩)
  · exact fun e he => h.listed e (List.mem_of_mem_eraseP he)

section

variable (h : Recorded (some tid) p stack)
include h

theorem drop (hslot : p.slot tid = some i) :
    Recorded none (p.setPaused i false) stack := by
  apply h.modify hslot
  · exact fun _ => rfl
  · exact fun t ht => h.stored_thread (t := t) hslot ht
  · exact fun _ _ hpaused _ => nomatch hpaused
  · intro tid' hne heq
    exact absurd (Option.some.inj heq).symm hne

/-! ### Putting an event -/

theorem enqueue (hlisted : tid ∈ p.tids)
    (hde : de.threadid = tid.toInt64) : Recorded none (p.addDebugEventToQueue de) stack := by
  refine { h with paused := ?_, listed := ?_ }
  · intro t ht hpaused hcount
    rcases h.paused t ht hpaused hcount with heq | hcurrent | ⟨e, he, hthread⟩
    · cases heq
      exact .inr (.inr ⟨de, List.mem_append_right _ (List.mem_singleton.2 rfl), hde⟩)
    · exact .inr (.inl hcurrent)
    · exact .inr (.inr ⟨e, List.mem_append_left _ he, hthread⟩)
  · intro e he
    rcases List.mem_append.1 he with he | he
    · exact h.listed e he
    · rw [List.mem_singleton.1 he]
      exact ⟨tid, hlisted, hde⟩

theorem requeue (hslot : p.slot tid = some i) (hde : de.threadid = tid.toInt64) :
    Recorded none ((p.setPaused i true).addDebugEventToQueue de) stack := by
  have hset : Recorded (some tid) (p.setPaused i true) stack := by
    apply h.modify hslot
    · exact fun _ => rfl
    · exact fun t ht => h.stored_thread (t := t) hslot ht
    · exact fun _ _ _ _ => .inl rfl
    · exact fun _ _ heq => heq
  refine hset.enqueue ?_ hde
  obtain ⟨t, ht, rfl⟩ := thread_of_slot hslot
  have hsame : (p.setPaused i true).tids = p.tids := tids_modify fun _ => rfl
  rw [hsame]
  exact tid_mem_tids (List.mem_of_getElem? ht)

theorem report (hnone : p.debuggedThreadEvent.threadid = 0)
    (hde : de.threadid = tid.toInt64) (hstack : stack.countP Frame.isWait = 0) :
    Recorded none { p with debuggedThreadEvent := de } stack := by
  refine { h with paused := ?_, waiting := ?_ }
  · intro t ht hpaused hcount
    rcases h.paused t ht hpaused hcount with heq | hcurrent | hqueued
    · cases heq
      exact .inr (.inl hde)
    · -- no thread has the number of no event
      exact absurd (hcurrent.symm.trans hnone)
        (toInt64_ne_zero (h.positive _ (tid_mem_tids ht)))
    · exact .inr (.inr hqueued)
  · intro f hf hwait
    exact absurd hwait (List.countP_eq_zero.1 hstack f hf)

end

theorem store (h : Recorded held p stack) (hslot : p.slot tid = some i)
    (hde : 0 < p.suspendCount i → de.threadid = tid.toInt64) :
    Recorded held (p.setSuspendedDevent i de) stack := by
  apply h.modify hslot
  · exact fun _ => rfl
  · intro t ht hcount
    refine hde ?_
    rw [suspendCount, ht]
    exact hcount
  · intro t ht hpaused hcount
    obtain ⟨t', ht', rfl⟩ := thread_of_slot hslot
    cases ht.symm.trans ht'
    exact h.paused t (List.mem_of_getElem? ht) hpaused hcount
  · exact fun _ _ heq => heq

theorem raise (h : Recorded (some tid) p stack) (hslot : p.slot tid = some i)
    (hde : ∀ t, p.thread i = some t → t.suspendedDevent.threadid = tid.toInt64) :
    Recorded none (p.raiseCount i) stack := by
  apply h.modify hslot
  · exact fun _ => rfl
  · exact fun t ht _ => hde t ht
  · exact fun t _ _ hcount => absurd hcount (Nat.succ_ne_zero _)
  · intro tid' hne heq
    exact absurd (Option.some.inj heq).symm hne

/-- A suspended thread is suspended once less: its event is in hand again. -/
theorem lower (h : Recorded none p stack) (hslot : p.slot tid = some i) :
    Recorded (some tid) (p.lowerCount i) stack := by
  apply h.modify hslot
  · exact fun _ => rfl
  · intro t ht hcount
    refine h.stored_thread (t := t) hslot ht ?_
    simp only at hcount
    omega
  · exact fun _ _ _ _ => .inl rfl
  · exact fun _ _ hnone => nomatch hnone

theorem still (h : Recorded (some tid) p stack) (hslot : p.slot tid = some i)
    (hcount : 0 < p.suspendCount i) : Recorded none p stack := by
  refine { h with paused := ?_ }
  intro t ht hpaused hzero
  rcases h.paused t ht hpaused hzero with heq | hrecord
  · cases heq
    obtain ⟨t', ht', heq⟩ := thread_of_slot hslot
    have hsame := h.eq_of_tid (List.mem_of_getElem? ht') ht heq
    subst hsame
    rw [suspendCount, ht'] at hcount
    exact absurd hcount (by simp [hzero])
  · exact .inr hrecord

/-- The invariant gives what the commands rely on. -/
theorem eventsRecorded (h : Recorded none p stack) : p.EventsRecorded := by
  have hpaused : ∀ t ∈ p.threadlist, t.isPaused = true → t.suspendCount = 0 → p.OnRecord t.tid :=
    fun t ht hp hc => (h.paused t ht hp hc).elim nofun id
  refine ⟨hpaused, ?_, ?_⟩
  · intro e he
    obtain ⟨tid, htid, hthread⟩ := h.listed e he
    obtain ⟨t, ht, rfl⟩ := List.mem_map.1 htid
    exact ⟨t, ht, hthread⟩
  · intro tid
    unfold suspendThread
    cases hslot : p.slot tid with
    | none => exact Option.some_ne_none _
    | some i =>
      obtain ⟨t, ht, rfl⟩ := thread_of_slot hslot
      simp only
      by_cases hp : p.paused i = true
      · rw [if_pos hp]
        by_cases hzero : p.suspendCount i = 0
        · rw [if_pos hzero]
          rw [ProcessData.paused, ht] at hp
          rw [suspendCount, ht] at hzero
          rcases hpaused t (List.mem_of_getElem? ht) hp hzero with hcurrent | ⟨e, he, hthread⟩
          · rw [if_pos hcurrent]
            exact Option.some_ne_none _
          · split
            · exact Option.some_ne_none _
            · -- the event that is queued is found
              cases hfind : p.findThreadDebugEventInQueue t.tid with
              | none =>
                have hno := List.find?_eq_none.1 hfind e he
                simp [hthread] at hno
              | some de => exact Option.some_ne_none _
        · rw [if_neg hzero]
          exact Option.some_ne_none _
      · rw [if_neg hp]
        exact Option.some_ne_none _

end Recorded

/-! ## Commands -/

/-- Wherever a command or frame got to over the frames `rest`, every event is
    where it belongs. -/
def KeepsRecorded (rest : List Frame) (r : Progress) : Prop :=
  ∀ p f counted, r = some (p, f, counted) → Recorded none p (f.toList ++ rest)

section Commands

open ProcessData

variable {p : ProcessData} {rest : List Frame} {tid : Int32} {i : Nat} {counted : List CountResult}
  {garbage de : DebugEvent} {k : Kernel}

theorem records_done (h : Recorded none p rest) : KeepsRecorded rest (some (p, none, counted)) := by
  rintro _ _ _ ⟨⟩
  exact h

theorem records_frame {f : Frame} (h : Recorded none p (f :: rest)) :
    KeepsRecorded rest (some (p, some f, counted)) := by
  rintro _ _ _ ⟨⟩
  exact h

theorem records_suspended (h : Recorded (some tid) p rest) (hslot : p.slot tid = some i)
    (hde : ∀ t, p.thread i = some t → t.suspendedDevent.threadid = tid.toInt64) :
    KeepsRecorded rest (suspended p tid i) :=
  records_done (h.raise hslot hde)

theorem suspendedDevent_set {t : ThreadData} (ht : (p.setSuspendedDevent i de).thread i = some t) :
    t.suspendedDevent = de := by
  rw [thread, setSuspendedDevent, modifyThread, List.getElem?_modify_eq] at ht
  obtain ⟨t', -, rfl⟩ := Option.map_eq_some_iff.1 ht
  rfl

theorem tids_setSuspendedDevent : (p.setSuspendedDevent i de).tids = p.tids :=
  tids_modify fun _ => rfl

theorem records_stored (h : Recorded (some tid) p rest) (hslot : p.slot tid = some i)
    (hde : de.threadid = tid.toInt64) : KeepsRecorded rest (suspended (p.setSuspendedDevent i de) tid i) := by
  have hslot' : (p.setSuspendedDevent i de).slot tid = some i :=
    (slot_congr_tids tids_setSuspendedDevent tid).trans hslot
  apply records_suspended (h.store hslot fun _ => hde) hslot'
  intro t ht
  rw [suspendedDevent_set ht, hde]

theorem listed_of_slot (hslot : p.slot tid = some i) : tid ∈ p.tids := by
  obtain ⟨t, ht, rfl⟩ := thread_of_slot hslot
  exact tid_mem_tids (List.mem_of_getElem? ht)

/-- A thread of the process is none of the numbers with a meaning of their own. -/
theorem Recorded.ne_any {held : Option Int32} (h : Recorded held p rest)
    (hslot : p.slot tid = some i) : tid ≠ -1 := by
  rintro rfl
  exact absurd (h.positive _ (listed_of_slot hslot)) (by decide)

theorem records_suspendThread (h : Recorded none p rest) : KeepsRecorded rest (suspendThread p tid) := by
  unfold suspendThread
  cases hslot : p.slot tid with
  | none => exact records_done h
  | some i =>
    simp only
    by_cases hpaused : p.paused i = true
    · rw [if_pos hpaused]
      by_cases hzero : p.suspendCount i = 0
      · rw [if_pos hzero]
        by_cases hcurrent : p.debuggedThreadEvent.threadid = tid.toInt64
        · rw [if_pos hcurrent]
          exact records_stored h.weaken hslot hcurrent
        · rw [if_neg hcurrent]
          cases hfind : p.findThreadDebugEventInQueue tid with
          | none => exact nofun
          | some de =>
            have hde : de.threadid = tid.toInt64 :=
              (thread_of_find hfind).resolve_left (h.ne_any hslot)
            -- the stored event is taken off the queue
            exact records_stored (h.dequeue tid) hslot hde
      · rw [if_neg hzero]
        refine records_suspended h.weaken hslot fun t ht => h.stored_thread hslot ht ?_
        rw [suspendCount, ht] at hzero
        exact Nat.pos_of_ne_zero hzero
    · rw [if_neg hpaused]
      exact records_frame (h.push hslot rfl)

theorem tids_lowerCount : (p.lowerCount i).tids = p.tids := tids_modify fun _ => rfl

theorem records_resumeThread (h : Recorded none p rest) : KeepsRecorded rest (resumeThread p tid) := by
  unfold resumeThread
  cases hslot : p.slot tid with
  | none => exact records_done h
  | some i =>
    simp only
    by_cases hsuspended : p.paused i = true ∧ 0 < p.suspendCount i
    · rw [if_pos hsuspended]
      have hlower := h.lower hslot
      have hslot' : (p.lowerCount i).slot tid = some i :=
        (slot_congr_tids tids_lowerCount tid).trans hslot
      by_cases hlast : (p.lowerCount i).suspendCount i = 0
      · rw [if_pos hlast]
        cases ht : (p.lowerCount i).thread i with
        | none => exact nofun
        | some t =>
          have hde : t.suspendedDevent.threadid = tid.toInt64 := by
            rw [thread, lowerCount, modifyThread, List.getElem?_modify_eq] at ht
            obtain ⟨t', ht', rfl⟩ := Option.map_eq_some_iff.1 ht
            have hpos := hsuspended.2
            rw [suspendCount, thread, ht'] at hpos
            exact h.stored_thread (t := t') hslot ht' hpos
          simp only
          by_cases hstop : t.suspendedDevent.debugevent = SIGSTOP
          · rw [if_pos hstop]
            exact records_done (hlower.drop hslot')
          · rw [if_neg hstop]
            exact records_done (hlower.requeue hslot' hde)
      · rw [if_neg hlast]
        exact records_done (hlower.still hslot' (Nat.pos_of_ne_zero hlast))
    · rw [if_neg hsuspended]
      exact records_done h

theorem Recorded.of_running {held : Option Int32} (h : Recorded held p rest)
    (hrun : ∀ t ∈ p.threadlist, t.isPaused = false) (hwaits : rest.countP Frame.isWait = 0)
    {queue : List DebugEvent} (hqueue : queue ⊆ p.debugEventQueue) :
    Recorded none { p with debugEventQueue := queue, debuggedThreadEvent := de } rest :=
  { h with
    paused := fun t ht hpaused => absurd hpaused (by simp [hrun t ht])
    listed := fun e he => h.listed e (hqueue he)
    waiting := fun f hf hwait => absurd hwait (List.countP_eq_zero.1 hwaits f hf) }

theorem tids_unpauseAll : p.unpauseAll.tids = p.tids := by
  simp only [tids, unpauseAll, List.map_map]
  rfl

theorem Recorded.unpauseAll {held : Option Int32} (h : Recorded held p rest) :
    Recorded none p.unpauseAll rest := by
  constructor
  · intro t ht hpaused
    obtain ⟨t', -, rfl⟩ := List.mem_map.1 ht
    exact nomatch hpaused
  · rw [tids_unpauseAll]
    exact h.listed
  · intro t ht hcount
    obtain ⟨t', ht', rfl⟩ := List.mem_map.1 ht
    exact h.stored t' ht' hcount
  · rw [tids_unpauseAll]
    exact h.positive
  · rw [tids_unpauseAll]
    exact h.nodup
  · intro f hf
    have hpoints := h.points f hf
    cases f with
    | suspend _ _ => exact (slot_congr_tids tids_unpauseAll _).trans hpoints
    | wait _ => trivial
    | pause _ _ _ _ _ _ => exact (slot_congr_tids tids_unpauseAll _).trans hpoints
  · exact h.waiting
  · exact h.single

theorem recorded_waitForDebugEvent (h : Recorded none p rest) (timeout : Int32)
    (hwaits : p.debuggedThreadEvent.threadid = 0 → rest.countP Frame.isWait = 0) :
    KeepsRecorded rest (waitForDebugEvent p timeout) := by
  unfold waitForDebugEvent
  by_cases hcurrent : p.debuggedThreadEvent.threadid = 0
  · rw [if_pos hcurrent]
    have hwaits := hwaits hcurrent
    have hrecorded : Recorded none (if p.findPausedThread ≠ 0 then p.unpauseAll else p) rest := by
      split
      · exact h.unpauseAll
      · exact h
    have hrun : ∀ t ∈ (if p.findPausedThread ≠ 0 then p.unpauseAll else p).threadlist,
        t.isPaused = false := by
      intro t ht
      split at ht
      · obtain ⟨t', -, rfl⟩ := List.mem_map.1 ht
        rfl
      · next hnone =>
        -- a paused thread would have been found, by a number that is not 0
        cases hfind : p.threadlist.find? (·.isPaused) with
        | none => simpa using List.find?_eq_none.1 hfind t ht
        | some t' =>
          rw [findPausedThread, hfind] at hnone
          have hpos := h.positive _ (tid_mem_tids (List.mem_of_find?_eq_some hfind))
          have hzero : t'.tid = 0 := not_not.1 hnone
          rw [hzero] at hpos
          exact absurd hpos (by decide)
    have hcurrent' : (if p.findPausedThread ≠ 0 then p.unpauseAll else
        p).debuggedThreadEvent.threadid = 0 := by
      split <;> exact hcurrent
    generalize (if p.findPausedThread ≠ 0 then p.unpauseAll else p) = p' at hrecorded hrun hcurrent'
    simp only
    cases hqueue : p'.debugEventQueue with
    | nil =>
      refine records_frame { hrecorded with points := ?_, waiting := ?_, single := ?_ }
      · exact List.forall_mem_cons.2 ⟨trivial, hrecorded.points⟩
      · exact fun _ _ _ => hcurrent'
      · rw [List.countP_cons_of_pos rfl, hwaits]
    | cons de queue =>
      refine records_done (hrecorded.of_running hrun hwaits ?_)
      rw [hqueue]
      exact List.subset_cons_self de queue
  · rw [if_neg hcurrent]
    exact records_done h

theorem points_pauseAll (kind : PauseCommand) (fuel j : Nat) {f : Frame}
    (hf : pauseAll kind garbage p fuel j = some f) : f.Points p ∧ f.isWait = false := by
  induction fuel generalizing j with
  | zero => exact nomatch hf
  | succ fuel ih =>
    rw [pauseAll] at hf
    cases hnext : (p.thread j).bind fun t => (p.slot t.tid).map fun i => (t.tid, i) with
    | none => simp [hnext] at hf
    | some ti =>
      obtain ⟨tid, i⟩ := ti
      simp only [hnext] at hf
      by_cases hpaused : p.paused i = true
      · rw [if_pos hpaused] at hf
        exact ih (j + 1) hf
      · rw [if_neg hpaused] at hf
        cases hf
        obtain ⟨t, -, ht⟩ := Option.bind_eq_some_iff.1 hnext
        obtain ⟨i', hslot, hpair⟩ := Option.map_eq_some_iff.1 ht
        cases hpair
        exact ⟨hslot, rfl⟩

theorem records_pauseAll (h : Recorded none p rest) (kind : PauseCommand) (fuel j : Nat) :
    KeepsRecorded rest (some (p, pauseAll kind garbage p fuel j, counted)) := by
  cases hf : pauseAll kind garbage p fuel j with
  | none => exact records_done h
  | some f =>
    obtain ⟨hpoints, hwait⟩ := points_pauseAll kind fuel j hf
    exact records_frame (h.push hpoints hwait)

theorem records_pauseThread (h : Recorded none p rest) (kind : PauseCommand) :
    KeepsRecorded rest (pauseThread p kind tid garbage) := by
  unfold pauseThread
  by_cases hinvalid : (kind = .getThreadContext ∨ kind = .setThreadContext) ∧ tid.toInt ≤ 0
  · rw [if_pos hinvalid]
    exact records_done h
  rw [if_neg hinvalid]
  by_cases hall : (kind = .setBreakpoint ∨ kind = .removeBreakpoint) ∧ tid = -1
  · rw [if_pos hall]
    exact records_pauseAll h kind _ 0
  rw [if_neg hall]
  cases hslot : p.slot tid with
  | none =>
    simp only
    by_cases hremove : kind = .removeBreakpoint
    · rw [if_pos hremove]
      exact nofun
    · rw [if_neg hremove]
      exact records_done h
  | some i =>
    simp only
    by_cases hpaused : p.paused i = true
    · rw [if_pos hpaused]
      exact records_done h
    · rw [if_neg hpaused]
      exact records_frame (h.push hslot rfl)

end Commands

end CheatEngine.Ceserver
