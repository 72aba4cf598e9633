/-
  CheatEngine.Ceserver.MemoryLock

  What `ReadProcessMemory` and `WriteProcessMemory` do to memorymutex and to the threads
  they attach to, for every answer of the system calls.

  `WriteProcessMemory` unlocks the mutex behind process_vm_writev without having locked
  it, and `ReadProcessMemory` detaches behind process_vm_readv also when the attach
  failed.  Apart from that the two are balanced whenever the stop that is waited for
  is the one of the attached thread.
-/
import CheatEngine.Ceserver.MemoryAccess

namespace CheatEngine.Ceserver

open CheatEngine.Lib

/-! ## The record of a call -/

/-- What the system calls so far amount to. -/
structure CallRecord where
  /-- The calling thread holds memorymutex. -/
  held : Bool
  attached : List Int
  /-- Each unlock was made by the holder, and each detach for an attached thread. -/
  orderly : Bool
  /-- Each attach that succeeded was followed by a SIGSTOP of that thread. -/
  stopped : Bool
  /-- An attach failed. -/
  refused : Bool

namespace CallRecord

def start : CallRecord := ⟨false, [], true, true, false⟩

def after (s : CallRecord) : (o : MemOp) → MemSig.Res o → CallRecord
  | .lock, taken => if taken then { s with held := true } else s
  | .unlock, _ => { s with held := false, orderly := s.orderly && s.held }
  | .attach pid, done =>
    if done then { s with attached := pid :: s.attached } else { s with refused := true }
  | .detach pid, _ =>
    { s with
      attached := s.attached.erase pid
      orderly := s.orderly && decide (pid ∈ s.attached) }
  | .waitpid, (pid, status) =>
    match status with
    | .stopped signal =>
      if signal = stopSignal then { s with stopped := s.stopped && decide (pid ∈ s.attached) }
      else s
    | .continued => s
    | _ => { s with stopped := false }
  | _, _ => s

/-- The mutex and the attached threads are as before the call, and were handled in order. -/
def Balanced (s : CallRecord) : Prop := s.orderly = true ∧ s.held = false ∧ s.attached = []

instance (s : CallRecord) : Decidable s.Balanced :=
  inferInstanceAs (Decidable (s.orderly = true ∧ s.held = false ∧ s.attached = []))

end CallRecord

/-- Any answer to a system call, and its record. -/
def CallStep (o : MemOp) (s : CallRecord) (r : MemSig.Res o) (s' : CallRecord) : Prop := s' = s.after o r

/-- Whatever the system calls answer, the run ends with `Q`. -/
abbrev Yields {α : Type} (m : Prog MemSig α) (s : CallRecord) (Q : α → CallRecord → Prop) : Prop :=
  Prog.Always CallStep Q m s

section Rules

variable {α β : Type} {s : CallRecord}

theorem yields_call {o : MemOp} {Q : MemSig.Res o → CallRecord → Prop} (h : ∀ r, Q r (s.after o r)) :
    Yields (call o) s Q := by
  rintro r s' rfl
  exact h r

theorem yields_disorderly (m : Prog MemSig α) (h : s.orderly = false) :
    Yields m s fun _ s' => s'.orderly = false := by
  induction m generalizing s with
  | pure a => exact h
  | op o k ih =>
    rintro r s' rfl
    refine ih r ?_
    cases o with
    | lock => cases r <;> exact h
    | unlock => simp [CallRecord.after, h]
    | attach pid => cases r <;> exact h
    | detach pid => simp [CallRecord.after, h]
    | waitpid =>
      obtain ⟨pid, status⟩ := r
      cases status with
      | stopped signal =>
        simp only [CallRecord.after]
        split <;> exact h
      | _ => exact h
    | _ => exact h

theorem yields_pokeLoop (pid : Int) (address : UInt64) (buffer : List UInt8)
    (fuel offset written : Nat) :
    Yields (pokeLoop pid address buffer fuel offset written) s fun _ s' => s' = s := by
  induction fuel generalizing offset written with
  | zero => exact rfl
  | succ fuel ih =>
    rw [pokeLoop]
    split
    · exact Prog.Always.bind (yields_call fun _ => ih _ _)
    · exact rfl

theorem yields_pokeWords (pid : Int) (address : UInt64) (buffer : List UInt8) (written : Nat) :
    Yields (pokeWords pid address buffer written) s fun _ s' => s' = s := by
  refine Prog.Always.bind (Prog.Always.imp (yields_pokeLoop pid address buffer _ _ _) ?_)
  rintro ⟨offset, written⟩ s' rfl
  dsimp only
  split
  · exact Prog.Always.bind (yields_call fun _ => Prog.Always.bind (yields_call fun _ => rfl))
  · exact rfl

theorem yields_peekLoop (pid : Int) (address : UInt64) (size fuel : Nat) (data : List UInt8) :
    Yields (peekLoop pid address size fuel data) s fun _ s' => s' = s := by
  induction fuel generalizing data with
  | zero => exact rfl
  | succ fuel ih =>
    rw [peekLoop]
    split
    · refine Prog.Always.bind (yields_call fun value => ?_)
      cases value with
      | some value => exact ih _
      | none => exact rfl
    · exact rfl

theorem yields_peekWords (pid : Int) (address : UInt64) (size : Nat) :
    Yields (peekWords pid address size) s fun _ s' => s' = s := by
  refine Prog.Always.bind (Prog.Always.imp (yields_peekLoop pid address size _ _) ?_)
  rintro ⟨data, readable⟩ s' rfl
  dsimp only
  split
  · refine Prog.Always.bind (yields_call fun value => ?_)
    cases value <;> exact rfl
  · exact rfl

theorem yields_readBackEnd (settings : MemorySettings) (p : MemoryTarget) (pid : Int)
    (address : UInt64) (size : Nat) :
    Yields (readBackEnd settings p pid address size) s fun _ s' => s' = s := by
  unfold readBackEnd
  split
  · split
    · exact Prog.Always.bind (yields_call fun _ => rfl)
    · exact rfl
  · exact yields_peekWords pid address size

theorem yields_writeBackEnd (settings : MemorySettings) (p : MemoryTarget) (pid : Int)
    (address : UInt64) (buffer : List UInt8) :
    Yields (writeBackEnd settings p pid address buffer) s fun _ s' => s' = s := by
  unfold writeBackEnd
  split
  · exact Prog.Always.bind (yields_call fun _ => rfl)
  · exact yields_pokeWords pid address buffer 0

end Rules

section Attach

variable {s : CallRecord}

/-- What `ptrace_attach_andwait` leaves behind: nothing, the thread whose stop it returns,
    or a thread that did not stop. -/
inductive Attached (pid : Int) (s : CallRecord) : Int → CallRecord → Prop
  | refused : Attached pid s (-1) { s with refused := true }
  | stop (tid : Int) : Attached pid s tid
      { s with attached := [pid], stopped := s.stopped && decide (tid = pid) }
  | lost (code : Int) (h : code < 0) : Attached pid s code
      { s with attached := [pid], stopped := false }

theorem yields_waitLoop {pid : Int} (reports : Nat) (h : s.attached = [pid]) :
    Yields (waitLoop reports) s fun tid s' =>
      s' = { s with stopped := s.stopped && decide (tid = pid) } ∨
        tid < 0 ∧ s' = { s with stopped := false } := by
  induction reports with
  | zero => exact Prog.Always.bind (yields_call fun never => never.elim)
  | succ reports ih =>
    refine Prog.Always.bind (yields_call ?_)
    rintro ⟨tid, status⟩
    cases status with
    | stopped signal =>
      dsimp only [CallRecord.after]
      split
      · refine Or.inl ?_
        simp only [h, List.mem_singleton]
      · exact Prog.Always.bind (yields_call fun _ => ih)
    | continued => exact ih
    | exited => exact Or.inr ⟨by decide, rfl⟩
    | signaled => exact Or.inr ⟨by decide, rfl⟩
    | other => exact Or.inr ⟨by decide, rfl⟩

theorem yields_attach (reports : Nat) (pid : Int) (h : s.attached = []) :
    Yields (ptraceAttachAndWait reports pid) s (Attached pid s) := by
  refine Prog.Always.bind (yields_call fun done => ?_)
  cases done with
  | false => exact Attached.refused
  | true =>
    have hattached : ({ s with attached := pid :: s.attached } : CallRecord) =
        { s with attached := [pid] } := by rw [h]
    dsimp only [CallRecord.after]
    simp only [if_true]
    rw [hattached]
    refine Prog.Always.imp (yields_waitLoop reports rfl) ?_
    rintro tid s' (rfl | ⟨hneg, rfl⟩)
    · exact Attached.stop tid
    · exact Attached.lost tid hneg

theorem yields_not_attached (reports : Nat) (pid otherwise : Int) :
    Yields (attachIf reports false pid otherwise) s fun tid s' => tid = otherwise ∧ s' = s :=
  ⟨rfl, rfl⟩

theorem yields_attached (reports : Nat) (pid otherwise : Int) (h : s.attached = []) :
    Yields (attachIf reports true pid otherwise) s (Attached pid s) :=
  yields_attach reports pid h

theorem yields_detached {tid : Int} {Q : Unit → CallRecord → Prop}
    (h : Q () (s.after (.detach tid) ())) : Yields (detachIf true tid) s Q := by
  rintro r s' rfl
  exact h

end Attach

/-! ## `ReadProcessMemory` -/

section ReadProcessMemory

variable {settings : MemorySettings} {p : MemoryTarget} {address : UInt64} {size : Nat}

theorem yields_callVmReadv {s : CallRecord} (canreadnow : Bool) :
    Yields (callVmReadv canreadnow p address size) s fun _ s' => s' = s := by
  unfold callVmReadv
  split
  · exact Prog.Always.bind (yields_call fun _ => rfl)
  · exact rfl

variable {pid tid : Int}

theorem after_detach {s : CallRecord} (h : s.attached = [pid]) :
    s.after (.detach tid) () =
      { s with
        attached := if tid = pid then [] else [pid]
        orderly := s.orderly && decide (tid = pid) } := by
  by_cases htid : tid = pid
  · subst htid
    simp [CallRecord.after, h]
  · have hne : ¬ (pid == tid) = true := by simpa using fun h => htid h.symm
    simp [CallRecord.after, h, htid, hne]

theorem yields_readVm (reports : Nat) :
    Yields (readVm reports settings p address size) .start fun _ s' =>
      s'.Balanced ↔ s'.stopped = true ∧ s'.refused = false := by
  unfold readVm
  cases settings.attachToAccess with
  | false =>
    refine Prog.Always.bind (Prog.Always.imp (yields_not_attached reports _ _) ?_)
    rintro tid s' ⟨rfl, rfl⟩
    refine Prog.Always.bind (Prog.Always.imp (yields_callVmReadv _) ?_)
    rintro data s' rfl
    show CallRecord.Balanced .start ↔ _
    decide
  | true =>
    refine Prog.Always.bind (Prog.Always.imp (yields_attached reports p.pid _ rfl) ?_)
    intro tid s' hattached
    refine Prog.Always.bind (Prog.Always.imp (yields_callVmReadv _) ?_)
    rintro data s'' rfl
    refine Prog.Always.bind (yields_detached ?_)
    show CallRecord.Balanced _ ↔ _
    cases hattached with
    | refused => decide
    | stop =>
      rw [after_detach rfl]
      by_cases htid : tid = p.pid <;> simp [htid, CallRecord.Balanced, CallRecord.start]
    | lost code hneg =>
      -- the code is no thread
      have hpid := p.pid_pos
      have htid : tid ≠ p.pid := by omega
      rw [after_detach rfl]
      simp [htid, CallRecord.Balanced, CallRecord.start]

/-- The record of a call that has just taken the mutex. -/
def CallRecord.locked : CallRecord := ⟨true, [], true, true, false⟩

/-- A part that holds the mutex: it leaves a thread attached only when that did not
    stop. -/
def HeldPost (s : CallRecord) : Prop :=
  s.held = true ∧ (s.orderly = true ∧ s.attached = [] ↔ s.stopped = true)

theorem heldPost_locked : HeldPost .locked := by
  refine ⟨rfl, ?_⟩
  decide

theorem heldPost_detach {s : CallRecord} (hpos : 0 < tid)
    (h : Attached pid .locked tid s) : HeldPost (s.after (.detach tid) ()) := by
  cases h with
  | refused => exact absurd hpos (by decide)
  | stop =>
    rw [after_detach rfl]
    by_cases htid : tid = pid <;> simp [htid, HeldPost, CallRecord.locked]
  | lost code hneg => omega

theorem heldPost_left {s : CallRecord} (hpid : 0 < pid) (hpos : ¬ 0 < tid)
    (h : Attached pid .locked tid s) : HeldPost s := by
  cases h with
  | refused => simp [HeldPost, CallRecord.locked]
  | stop =>
    have htid : tid ≠ pid := by omega
    simp [htid, HeldPost, CallRecord.locked]
  | lost code hneg => simp [HeldPost, CallRecord.locked]

/-- The part of both functions that holds the mutex; `m` is the back end. -/
theorem yields_locked {α : Type} {m : Int → Prog MemSig α} (none : α) (attach : Bool)
    (reports : Nat) (p : MemoryTarget) (hm : ∀ pid s, Yields (m pid) s fun _ s' => s' = s) :
    Yields (do
      let pid ← attachIf reports attach p.pid p.pid
      if ¬ attach ∨ 0 < pid then do
        let data ← m pid
        detachIf attach pid
        return data
      else return none) .locked fun _ s => HeldPost s := by
  cases attach with
  | false =>
    refine Prog.Always.bind (Prog.Always.imp (yields_not_attached reports _ _) ?_)
    rintro tid s' ⟨rfl, rfl⟩
    refine Prog.Always.bind (Prog.Always.imp (hm _ _) ?_)
    rintro data s' rfl
    exact heldPost_locked
  | true =>
    refine Prog.Always.bind (Prog.Always.imp (yields_attached reports p.pid _ rfl) ?_)
    intro tid s' hattached
    split
    · next hpos =>
      refine Prog.Always.bind (Prog.Always.imp (hm _ _) ?_)
      rintro data s'' rfl
      exact Prog.Always.bind (yields_detached
        (heldPost_detach (hpos.resolve_left (not_not.2 rfl)) hattached))
    · next hpos => exact heldPost_left p.pid_pos (not_or.1 hpos).2 hattached

theorem yields_readLocked (reports : Nat) :
    Yields (readLocked reports settings p address size) .locked fun _ s => HeldPost s :=
  yields_locked [] settings.attachToAccess reports p fun _ _ => yields_readBackEnd _ _ _ _ _

theorem balanced_unlock {s : CallRecord} (h : HeldPost s) :
    (s.after .unlock ()).Balanced ↔ (s.after .unlock ()).stopped = true := by
  obtain ⟨hheld, hiff⟩ := h
  simp only [CallRecord.after, CallRecord.Balanced, hheld, Bool.and_true, true_and]
  exact hiff

theorem yields_readOther (reports : Nat) (hdebug : p.isDebugged = false) :
    Yields (readOther reports settings p address size) .start fun _ s =>
      s.Balanced ↔ s.stopped = true := by
  unfold readOther
  rw [hdebug]
  refine Prog.Always.bind (yields_call fun taken => ?_)
  cases taken with
  | false =>
    show CallRecord.Balanced .start ↔ _
    decide
  | true =>
    refine Prog.Always.bind (Prog.Always.imp (yields_readLocked reports) ?_)
    intro data s' hpost
    exact Prog.Always.bind (yields_call fun _ => balanced_unlock hpost)

end ReadProcessMemory

/-! ## `WriteProcessMemory` -/

section WriteProcessMemory

variable {settings : MemorySettings} {p : MemoryTarget} {address : UInt64} {buffer : List UInt8}

theorem yields_writeVm (reports : Nat) :
    Yields (writeVm reports settings p address buffer) .start fun _ s => s.orderly = false := by
  have hrest : ∀ (tid : Int) (s : CallRecord), s.held = false →
      Yields (do
        let written ← call (.vmWritev p.pid address buffer)
        detachIf (0 ≤ tid) tid
        call .unlock
        return written.getD 0) s fun _ s' => s'.orderly = false := by
    intro tid s hheld
    refine Prog.Always.bind (yields_call fun written => ?_)
    have hunlock : ∀ s' : CallRecord, s'.held = false →
        Yields (do call .unlock; return written.getD 0) s' fun _ s'' => s''.orderly = false := by
      intro s' hheld'
      refine Prog.Always.bind (yields_call fun _ => ?_)
      show (s'.orderly && s'.held) = false
      rw [hheld', Bool.and_false]
    by_cases hpos : 0 ≤ tid
    · rw [decide_eq_true hpos]
      exact Prog.Always.bind (yields_detached (hunlock _ hheld))
    · rw [decide_eq_false hpos]
      exact hunlock s hheld
  unfold writeVm
  cases settings.attachToWrite with
  | false =>
    refine Prog.Always.bind (Prog.Always.imp (yields_not_attached reports _ _) ?_)
    rintro tid s' ⟨-, rfl⟩
    exact hrest tid _ rfl
  | true =>
    refine Prog.Always.bind (Prog.Always.imp (yields_attached reports p.pid _ rfl) ?_)
    intro tid s' hattached
    cases hattached with
    | refused => exact hrest _ _ rfl
    | stop => exact hrest _ _ rfl
    | lost code hneg => exact hrest _ _ rfl

theorem yields_writeOther (reports : Nat) :
    Yields (writeOther reports settings p address buffer) .start fun _ s =>
      s.Balanced ↔ s.stopped = true := by
  unfold writeOther
  refine Prog.Always.bind (yields_call fun taken => ?_)
  cases taken with
  | false =>
    show CallRecord.Balanced .start ↔ _
    decide
  | true =>
    refine Prog.Always.bind (Prog.Always.imp (yields_locked 0 _ reports p
      fun _ _ => yields_writeBackEnd _ _ _ _ _) ?_)
    intro written s' hpost
    exact Prog.Always.bind (yields_call fun _ => balanced_unlock hpost)

end WriteProcessMemory

theorem yields_readProcessMemory (reports : Nat) (settings : MemorySettings)
    (p : Option MemoryTarget) (address : UInt64) (size : Nat)
    (hdebug : ∀ q, p = some q → q.isDebugged = false) :
    Yields (readProcessMemory reports settings p address size) .start fun _ s =>
      s.Balanced ↔ s.stopped = true ∧ (settings.readsVm = true → s.refused = false) := by
  have hnothing : CallRecord.start.Balanced ↔ CallRecord.start.stopped = true ∧
      (settings.readsVm = true → CallRecord.start.refused = false) :=
    ⟨fun _ => ⟨rfl, fun _ => rfl⟩, fun _ => ⟨rfl, rfl, rfl⟩⟩
  unfold readProcessMemory
  split
  · exact hnothing
  · cases p with
    | none => exact hnothing
    | some p =>
      dsimp only
      by_cases hvm : settings.readsVm = true
      · rw [if_pos hvm]
        refine Prog.Always.bind (Prog.Always.imp (yields_readVm reports) fun data s h => ?_)
        exact h.trans (and_congr_right fun _ => ⟨fun h _ => h, fun h => h hvm⟩)
      · rw [if_neg hvm]
        refine Prog.Always.bind (Prog.Always.imp
          (yields_readOther reports (hdebug p rfl)) fun data s h => ?_)
        exact h.trans (and_iff_left fun hyes => absurd hyes hvm).symm

theorem yields_writeProcessMemory (reports : Nat) (settings : MemorySettings)
    (p : Option MemoryTarget) (address : UInt64) (buffer : List UInt8)
    (hdebug : ∀ q, p = some q → q.isDebugged = false) :
    Yields (writeProcessMemory reports settings p address buffer) .start fun _ s =>
      s.Balanced ↔ s.stopped = true ∧ (p.isSome = true → settings.writesVm = false) := by
  unfold writeProcessMemory
  cases p with
  | none => exact ⟨fun _ => ⟨rfl, fun h => nomatch h⟩, fun _ => ⟨rfl, rfl, rfl⟩⟩
  | some p =>
    dsimp only
    rw [hdebug p rfl, if_neg Bool.false_ne_true]
    by_cases hvm : settings.writesVm = true
    · -- an unlock out of order stays one, whatever is tried next
      have hbad : ∀ s : CallRecord, s.orderly = false → (s.Balanced ↔ s.stopped = true ∧
          ((some p).isSome = true → settings.writesVm = false)) := by
        intro s h
        simp [CallRecord.Balanced, h, hvm]
      rw [if_pos hvm]
      refine Prog.Always.bind (Prog.Always.imp (yields_writeVm reports) fun written s h => ?_)
      exact Prog.Always.imp (yields_disorderly _ h) fun _ s' h' => hbad s' h'
    · rw [if_neg hvm]
      refine Prog.Always.imp (yields_writeOther reports) fun written s h => h.trans ?_
      exact (and_iff_left fun _ => by simpa using hvm).symm

/-- When the mutex and the attached threads are balanced, for both functions. -/
theorem lock_and_attach_iff (reports : Nat) (settings : MemorySettings) (p : Option MemoryTarget)
    (address : UInt64) (size : Nat) (buffer : List UInt8)
    (hdebug : ∀ q, p = some q → q.isDebugged = false) :
    Yields (readProcessMemory reports settings p address size) .start (fun _ s =>
        s.Balanced ↔ s.stopped = true ∧ (settings.readsVm = true → s.refused = false)) ∧
      Yields (writeProcessMemory reports settings p address buffer) .start (fun _ s =>
        s.Balanced ↔ s.stopped = true ∧ (p.isSome = true → settings.writesVm = false)) :=
  ⟨yields_readProcessMemory reports settings p address size hdebug,
    yields_writeProcessMemory reports settings p address buffer hdebug⟩

/-- The default settings: process_vm_readv and process_vm_writev, and an attach before a
    write. -/
def defaultSettings : MemorySettings := ⟨2, false, true, true, true⟩

def runningTarget : MemoryTarget := ⟨7, false, false, false, by decide⟩

theorem lock_and_attach_default :
    Yields (readProcessMemory 1 defaultSettings (some runningTarget) 0x1000 4) .start (fun _ s =>
        s.Balanced ↔ s.stopped = true ∧ (defaultSettings.readsVm = true → s.refused = false)) ∧
      Yields (writeProcessMemory 1 defaultSettings (some runningTarget) 0x1000 [1]) .start
        (fun _ s => s.Balanced ↔
          s.stopped = true ∧ ((some runningTarget).isSome = true → defaultSettings.writesVm = false)) :=
  lock_and_attach_iff 1 defaultSettings (some runningTarget) 0x1000 4 [1] fun q h => by
    cases h
    rfl

/-- A write with the default settings: the attach, its stop, the write, the detach, and an
    unlock of a mutex that was not locked. -/
theorem not_balanced_default :
    ¬ Yields (writeProcessMemory 1 defaultSettings (some runningTarget) 0x1000 [1]) .start
        (fun _ s => s.Balanced) := by
  intro h
  have hrun : CallRecord.Balanced _ := h true _ rfl (7, .stopped 19) _ rfl (some 1) _ rfl () _ rfl () _ rfl
  exact absurd hrun (by decide)

end CheatEngine.Ceserver
