/-
  CheatEngine.LocalBridge.Ledger

  What becomes of the processes that the backend opened for a connection.  The ledger is a
  conservation law: a process that was opened is closed or has a handle.
-/
import Mathlib.Data.Set.Card
import CheatEngine.LocalBridge.Handles

namespace CheatEngine.LocalBridge

open CheatEngine.Lib

variable {M : Type}

/-! ## The ledger -/

section Ledger

variable [DecidableEq M] {s s' : ConnectionState M} {log calls : List (BackendEvent M)}
  {ev : BackendEvent M}

def opens (m : M) (log : List (BackendEvent M)) : Nat := log.countP fun ev => ev.opened? = some m

def closes (m : M) (log : List (BackendEvent M)) : Nat := log.countP fun ev => ev.closed? = some m

/-- A process is asked only while it is open. -/
def OnlyOpen (log : List (BackendEvent M)) : Prop :=
  ∀ before ev after, log = before ++ ev :: after → ∀ m, ev.process? = some m →
    closes m before < opens m before

/-- The handles that stand for `m`. -/
def ConnectionState.handlesOf (s : ConnectionState M) (m : M) : Set UInt32 :=
  {handle | s.handles handle = some (.process m)}

structure Ledger (s : ConnectionState M) (log : List (BackendEvent M)) : Prop where
  balance : ∀ m, opens m log = closes m log + (s.handlesOf m).ncard
  onlyOpen : OnlyOpen log

instance instFiniteHandle : Finite UInt32 :=
  Finite.of_injective UInt32.toFin fun _ _ => UInt32.toFin_inj.1

variable {handle : UInt32}

omit [DecidableEq M] in
theorem ncard_pos_of_process {m : M}
    (h : s.handles handle = some (.process m)) : 0 < (s.handlesOf m).ncard :=
  (Set.ncard_pos (Set.toFinite _)).2 ⟨handle, h⟩

theorem OnlyOpen.concat (hlog : OnlyOpen log)
    (hev : ∀ m, ev.process? = some m → closes m log < opens m log) : OnlyOpen (log ++ [ev]) := by
  intro before ev' after heq m hm
  rcases List.eq_nil_or_concat after with rfl | ⟨after', last, rfl⟩
  · -- the new call
    obtain ⟨rfl, hlast⟩ := List.append_inj' heq rfl
    obtain rfl := List.cons.inj hlast |>.1
    exact hev m hm
  · have heq' : log ++ [ev] = (before ++ ev' :: after') ++ [last] := by simpa using heq
    exact hlog before ev' after' (List.append_inj' heq' rfl).1 m hm

theorem opens_append (m : M) (log calls : List (BackendEvent M)) :
    opens m (log ++ calls) = opens m log + opens m calls := List.countP_append

theorem closes_append (m : M) (log calls : List (BackendEvent M)) :
    closes m (log ++ calls) = closes m log + closes m calls := List.countP_append

theorem Ledger.initial : Ledger (.initial : ConnectionState M) [] where
  balance m := by
    have hnone : (ConnectionState.initial : ConnectionState M).handlesOf m = ∅ := by
      ext handle
      simp [ConnectionState.handlesOf, ConnectionState.initial]
    rw [hnone, Set.ncard_empty]
    rfl
  onlyOpen := by
    intro before ev after h
    exact absurd h (by simp)

section

variable (h : Ledger s log)
include h

theorem Ledger.concat (hopened : ev.opened? = none) (hclosed : ev.closed? = none)
    (hprocess : ∀ m, ev.process? = some m → closes m log < opens m log) :
    Ledger s (log ++ [ev]) where
  balance m := by
    have hopens : opens m [ev] = 0 := by simp [opens, hopened]
    have hcloses : closes m [ev] = 0 := by simp [closes, hclosed]
    rw [opens_append, closes_append, hopens, hcloses]
    exact h.balance m
  onlyOpen := h.onlyOpen.concat hprocess

theorem Ledger.quiet (hquiet : ∀ ev ∈ calls, ev.Quiet) :
    Ledger s (log ++ calls) := by
  induction calls generalizing log with
  | nil => simpa using h
  | cons ev rest ih =>
    have hev : ev.Quiet := hquiet ev (by simp)
    have hone : Ledger s (log ++ [ev]) :=
      h.concat (BackendEvent.opened?_of_not_creates hev.2) (BackendEvent.closed?_of_process?_none hev.1) fun m hm => absurd (hev.1.symm.trans hm) (by simp)
    rw [List.append_cons]
    exact ih hone fun ev' hev' => hquiet ev' (by simp [hev'])

theorem Ledger.open_lt {m : M}
    (hm : s.handles handle = some (.process m)) : closes m log < opens m log := by
  have hpos := ncard_pos_of_process hm
  have hbalance := h.balance m
  omega

theorem Ledger.close (handle : UInt32) :
    Ledger (s.set handle none) (log ++ closeCalls (s.handles handle)) where
  balance m := by
    have hrest : (s.set handle none).handlesOf m = s.handlesOf m \ {handle} := by
      ext handle'
      by_cases heq : handle' = handle <;> simp [ConnectionState.handlesOf, ConnectionState.set, heq]
    have hbalance := h.balance m
    rw [opens_append, closes_append, hrest]
    by_cases hm : s.handles handle = some (.process m)
    · -- one handle less, one close more
      have hmem : handle ∈ s.handlesOf m := hm
      have hcard := Set.ncard_sdiff_singleton_add_one hmem (Set.toFinite _)
      have hcloses : closes m (closeCalls (s.handles handle)) = 1 := by
        rw [hm]
        simp [closes, closeCalls, BackendEvent.closed?, BackendCall.closed?]
      have hopens : opens m (closeCalls (s.handles handle)) = 0 := by
        rw [hm]
        rfl
      omega
    · have hnot : handle ∉ s.handlesOf m := hm
      rw [Set.sdiff_singleton_eq_self hnot]
      have hnone : opens m (closeCalls (s.handles handle)) = 0 ∧
          closes m (closeCalls (s.handles handle)) = 0 := by
        cases hentry : s.handles handle with
        | none => exact ⟨rfl, rfl⟩
        | some value =>
          cases value with
          | process m' =>
            have hne : m' ≠ m := fun heq => hm (by rw [hentry, heq])
            simp [opens, closes, closeCalls, BackendEvent.closed?, BackendCall.closed?,
              BackendEvent.opened?, BackendCall.opened?, hne]
          | _ => exact ⟨rfl, rfl⟩
      omega
  onlyOpen := by
    cases hentry : s.handles handle with
    | none => simpa [closeCalls] using h.onlyOpen
    | some value =>
      cases value with
      | process m =>
        refine h.onlyOpen.concat fun m' hm' => ?_
        obtain rfl := Option.some.inj hm'
        exact h.open_lt hentry
      | snapshot processes index => simpa [closeCalls] using h.onlyOpen
      | null => simpa [closeCalls] using h.onlyOpen

theorem Ledger.addHandle {value : Entry M}
    (hfresh : s.handles s.nextHandle = none) (hprocess : ev.process? = none)
    (hvalue : ∀ m, value = .process m ↔ ev.opened? = some m) :
    Ledger (s.addHandle value).2 (log ++ [ev]) where
  balance m := by
    have hclosed : closes m [ev] = 0 := by
      have hnone : ev.closed? = none := BackendEvent.closed?_of_process?_none hprocess
      simp [closes, hnone]
    have hbalance := h.balance m
    rw [opens_append, closes_append, hclosed]
    by_cases hm : value = .process m
    · have hrest : (s.addHandle value).2.handlesOf m = insert s.nextHandle (s.handlesOf m) := by
        ext handle
        by_cases heq : handle = s.nextHandle <;>
          simp [ConnectionState.handlesOf, ConnectionState.addHandle, ConnectionState.set, heq, hm]
      have hnot : s.nextHandle ∉ s.handlesOf m := by
        simp [ConnectionState.handlesOf, hfresh]
      have hopens : opens m [ev] = 1 := by simp [opens, (hvalue m).1 hm]
      rw [hrest, Set.ncard_insert_of_notMem hnot (Set.toFinite _), hopens]
      omega
    · have hrest : (s.addHandle value).2.handlesOf m = s.handlesOf m := by
        ext handle
        by_cases heq : handle = s.nextHandle <;>
          simp [ConnectionState.handlesOf, ConnectionState.addHandle, ConnectionState.set, heq, hm,
            hfresh]
      have hopens : opens m [ev] = 0 := by
        have hne : ev.opened? ≠ some m := fun heq => hm ((hvalue m).2 heq)
        simp [opens, hne]
      rw [hrest, hopens]
      omega
  onlyOpen := h.onlyOpen.concat fun m hm => absurd (hprocess.symm.trans hm) (by simp)

theorem Ledger.move {processes : List Process}
    {index index' : Int} (hentry : s.handles handle = some (.snapshot processes index)) :
    Ledger (s.set handle (some (.snapshot processes index'))) log where
  balance m := by
    have hsame : (s.set handle (some (.snapshot processes index'))).handlesOf m = s.handlesOf m := by
      ext handle'
      by_cases heq : handle' = handle <;>
        simp [ConnectionState.handlesOf, ConnectionState.set, heq, hentry]
    rw [hsame]
    exact h.balance m
  onlyOpen := h.onlyOpen

end

theorem Ledger.step {r : CommandRun M} (h : Ledger r.before log) (heffect : CommandEffect r)
    (hfresh : r.Creates → r.before.handles r.before.nextHandle = none) :
    Ledger r.after (log ++ r.calls) := by
  cases heffect with
  | unchanged hafter hquiet hclose =>
    rw [hafter]
    exact h.quiet hquiet
  | used hafter hhandle hm hcalls hev hopen hcreates hclose =>
    rw [hafter, hcalls]
    refine h.concat ?_ hopen fun m' hm' => ?_
    · exact BackendEvent.opened?_of_not_creates hcreates
    · obtain rfl := Option.some.inj (hev.symm.trans hm')
      exact h.open_lt hm
  | created hafter hcalls hcreates hev hvalue hclose =>
    rw [hafter, hcalls]
    exact h.addHandle (hfresh ⟨_, by rw [hcalls]; exact List.mem_singleton_self _, hcreates⟩) hev hvalue
  | moved hafter hhandle hbefore hcalls hclose =>
    rw [hafter, hcalls, List.append_nil]
    exact h.move hbefore
  | closed hafter hcloses hcalls =>
    rw [hafter, hcalls]
    exact h.close _

end Ledger

section Runs

variable {server : Server} {s s' : ConnectionState M} {done steps : List (CommandRun M)}
  {r : CommandRun M}

theorem Served.ledger [DecidableEq M] (h : Served server s steps s') (ht : Tracks s done)
    (hl : Ledger s (callsOf done)) (hfew : created (callsOf (done ++ steps)) < handleCount) :
    Ledger s' (callsOf (done ++ steps)) := by
  have hstep : ∀ (r : CommandRun M) (done : List (CommandRun M)), CommandEffect r →
      Tracks r.before done → Ledger r.before (callsOf done) →
      created (callsOf done) < handleCount → Ledger r.after (callsOf (done ++ [r])) := by
    intro r done heffect ht hl hlt
    rw [callsOf_append, callsOf_singleton]
    exact hl.step heffect fun _ => ht.fresh hlt
  induction h generalizing done with
  | ended s => simpa using hl
  | last r hr =>
    rw [callsOf_append, created_append] at hfew
    exact hstep r done (commandEffect_of_attempt r hr) ht hl (by omega)
  | next r hr hrest ih =>
    have heffect := commandEffect_of_attempt r hr
    rw [List.append_cons] at hfew ⊢
    refine ih (ht.step heffect) (hstep r done heffect ht hl ?_) hfew
    rw [callsOf_append, callsOf_append, created_append, created_append] at hfew
    omega

theorem closeHandle_bind_process {α : Type} {handle : UInt32} {m : M}
    (hm : s.handles handle = some (.process m))
    (k : Int32 × ConnectionState M → Command (BackendApi M) α) :
    (closeHandle s handle >>= k) = backend (.close m) >>= fun _ => k (1, s.set handle none) := by
  rw [closeHandle, hm]
  rfl

theorem closeHandle_bind_other {α : Type} {handle : UInt32}
    (hnot : ∀ m, s.handles handle ≠ some (.process m))
    (k : Int32 × ConnectionState M → Command (BackendApi M) α) :
    ∃ result, (closeHandle s handle >>= k) = k (result, s.set handle none) := by
  rw [closeHandle]
  cases hentry : s.handles handle with
  | none => exact ⟨0, by rw [ConnectionState.set_none hentry]; rfl⟩
  | some value =>
    cases value with
    | process m => exact absurd hentry (hnot m)
    | snapshot processes index => exact ⟨1, rfl⟩
    | null => exact ⟨1, rfl⟩

theorem Ledger.closeHandles [DecidableEq M] {order : List UInt32} {log calls : List (BackendEvent M)}
    {t : ConnectionState M} {ok : Bool}
    (h : Attempt t (closeHandles order s).run [] [] calls ok s') (hl : Ledger s log) :
    Ledger s' (log ++ calls) ∧
      ∀ handle, s'.handles handle = if handle ∈ order then none else s.handles handle := by
  induction order generalizing s log calls with
  | nil =>
    obtain ⟨-, -, rfl, -, rfl⟩ := Attempt.of_pure h
    exact ⟨by simpa using hl, fun handle => by simp⟩
  | cons first order ih =>
    rw [LocalBridge.closeHandles] at h
    have hclosed := hl.close first
    -- the handle is closed, and the others by induction
    have hrest : ∃ calls', calls = closeCalls (s.handles first) ++ calls' ∧
        Attempt t (LocalBridge.closeHandles order (s.set first none)).run [] [] calls' ok s' := by
      by_cases hm : ∃ m, s.handles first = some (.process m)
      · obtain ⟨m, hm⟩ := hm
        rw [closeHandle_bind_process hm] at h
        obtain ⟨result, calls', rfl, hrest⟩ := h.of_call
        exact ⟨calls', by rw [hm]; rfl, hrest⟩
      · rw [not_exists] at hm
        obtain ⟨result, hbind⟩ := closeHandle_bind_other hm _
        rw [hbind] at h
        refine ⟨calls, ?_, h⟩
        cases hentry : s.handles first with
        | none => rfl
        | some value =>
          cases value with
          | process m => exact absurd hentry (hm m)
          | _ => rfl
    obtain ⟨calls', rfl, hrest⟩ := hrest
    obtain ⟨hledger, hhandles⟩ := ih hrest hclosed
    rw [← List.append_assoc]
    refine ⟨hledger, fun handle => ?_⟩
    rw [hhandles, ConnectionState.set]
    dsimp only
    rw [Function.update_apply]
    by_cases heq : handle = first <;> simp [heq]

end Runs

/-! ## Kinds of handles -/

/-- Two values of the handle map that stand for the same process or snapshot. -/
def Entry.Same : Entry M → Entry M → Prop
  | .process m, .process m' => m = m'
  | .snapshot processes _, .snapshot processes' _ => processes = processes'
  | .null, .null => True
  | _, _ => False

theorem Entry.Same.refl (value : Entry M) : value.Same value := by
  cases value <;> simp [Entry.Same]

/-- What `Process32First` and `Process32Next` send where there is no entry. -/
def noEntry : List UInt8 := i32 0 ++ i32 0 ++ i32 0

/-- A command takes a handle for what it is. -/
structure CommandRun.RespectsKinds (r : CommandRun M) : Prop where
  /-- A process is asked by a handle that names it. -/
  process : ∀ ev ∈ r.calls, ∀ m, ev.process? = some m →
    ∃ handle, r.handle? = some handle ∧ r.before.handles handle = some (.process m)
  /-- Without a snapshot at the handle there is no entry of one to send. -/
  snapshot : r.command = commandProcess32First ∨ r.command = commandProcess32Next →
    ∀ handle, r.handle? = some handle →
      (∀ processes index, r.before.handles handle ≠ some (.snapshot processes index)) →
      r.sent = [noEntry]
  /-- A handle that stays in use stands for the same. -/
  same : ∀ handle value value', r.before.handles handle = some value →
    r.after.handles handle = some value' → value.Same value'

theorem sent_process32 (first : Bool) {s s' : ConnectionState M} {ok : Bool} {inp out : List (List UInt8)}
    {calls : List (BackendEvent M)} (h : Attempt s (cmdProcess32 s first).run inp out calls ok s')
    {bytes : List UInt8} (hhandle : inp.head? = some bytes)
    (hnot : ∀ processes index, s.handles (u32At bytes 0) ≠ some (.snapshot processes index)) :
    out = [noEntry] := by
  obtain ⟨rfl, -⟩ | ⟨handle, rest, rfl, hbody⟩ := h.of_receive
  · cases hhandle
  obtain rfl := Option.some.inj hhandle
  split at hbody
  next processes index hentry => exact absurd hentry (hnot processes index)
  next => exact hbody.of_reply.2.1

theorem CommandRun.respectsKinds {server : Server} {r : CommandRun M} {ok : Bool}
    (h : Attempt r.before (handleCommand server r.command r.before).run r.received r.sent r.calls
      ok r.after)
    (hfresh : r.Creates → r.before.handles r.before.nextHandle = none) : r.RespectsKinds where
  process := by
    intro ev hev m hm
    cases commandEffect_of_attempt r h with
    | unchanged hafter hquiet hclose => exact absurd ((hquiet ev hev).1.symm.trans hm) (by simp)
    | used hafter hhandle hbefore hcalls hprocess =>
      rw [hcalls] at hev
      obtain rfl := List.mem_singleton.1 hev
      obtain rfl := Option.some.inj (hprocess.symm.trans hm)
      exact ⟨_, hhandle, hbefore⟩
    | created hafter hcalls hcreates hnone =>
      rw [hcalls] at hev
      obtain rfl := List.mem_singleton.1 hev
      exact absurd (hnone.symm.trans hm) (by simp)
    | moved hafter hhandle hbefore hcalls =>
      rw [hcalls] at hev
      cases hev
    | closed hafter hcloses hcalls =>
      rename_i handle
      rw [hcalls] at hev
      refine ⟨handle, hcloses.2, ?_⟩
      cases hentry : r.before.handles handle with
      | none => rw [hentry] at hev; cases hev
      | some value =>
        rw [hentry] at hev
        cases value with
        | process m' =>
          obtain rfl := List.mem_singleton.1 hev
          obtain rfl := Option.some.inj hm
          rfl
        | _ => cases hev
  snapshot := by
    rintro hcommand handle hhandle hnot
    obtain ⟨bytes, hbytes, rfl⟩ := Option.map_eq_some_iff.1 hhandle
    rcases hcommand with hcommand | hcommand
    · rw [hcommand] at h
      exact sent_process32 true h hbytes hnot
    · rw [hcommand] at h
      exact sent_process32 false h hbytes hnot
  same := by
    intro handle value value' hbefore hafter'
    cases commandEffect_of_attempt r h with
    | unchanged hafter =>
      rw [hafter, hbefore] at hafter'
      exact Option.some.inj hafter' ▸ .refl value
    | used hafter =>
      rw [hafter, hbefore] at hafter'
      exact Option.some.inj hafter' ▸ .refl value
    | created hafter hcalls hcreates =>
      have hnone := hfresh ⟨_, by rw [hcalls]; exact List.mem_singleton_self _, hcreates⟩
      have hne : handle ≠ r.before.nextHandle := by
        rintro rfl
        exact absurd (hnone.symm.trans hbefore) (by simp)
      rw [hafter] at hafter'
      have hsame : r.before.handles handle = some value' :=
        (Function.update_of_ne hne _ _).symm.trans hafter'
      exact Option.some.inj (hbefore.symm.trans hsame) ▸ .refl value
    | moved hafter hhandle hsnapshot =>
      rw [hafter, ConnectionState.set] at hafter'
      dsimp only at hafter'
      rw [Function.update_apply] at hafter'
      split at hafter'
      next heq =>
        -- the snapshot at another position
        rw [heq, hsnapshot] at hbefore
        obtain rfl := Option.some.inj hbefore
        obtain rfl := Option.some.inj hafter'
        rfl
      next => exact Option.some.inj (hbefore.symm.trans hafter') ▸ .refl value
    | closed hafter =>
      rw [hafter, ConnectionState.set] at hafter'
      dsimp only at hafter'
      rw [Function.update_apply] at hafter'
      split at hafter'
      next => cases hafter'
      next => exact Option.some.inj (hbefore.symm.trans hafter') ▸ .refl value

/-- With fewer creations than there are handles, every process that the backend opened for a
    connection is closed as often as it was opened, is asked nothing while it is closed, and no
    handle of a snapshot is taken for one of a process or the reverse. -/
theorem handle_lifetimes [DecidableEq M] (server : Server) {steps : List (CommandRun M)}
    {closing : List (BackendEvent M)} (h : ServeConnection server steps closing)
    (hfew : created (callsOf steps) < 2 ^ 32 - 1) :
    (∀ m, opens m (callsOf steps ++ closing) = closes m (callsOf steps ++ closing)) ∧
      OnlyOpen (callsOf steps ++ closing) ∧ ∀ r ∈ steps, r.RespectsKinds := by
  obtain ⟨s, order, s', hserved, horder, hclosing⟩ := h
  have hledger : Ledger s (callsOf steps) := hserved.ledger .initial .initial hfew
  obtain ⟨hend, hhandles⟩ := Ledger.closeHandles hclosing hledger
  refine ⟨fun m => ?_, hend.onlyOpen, fun r hr => ?_⟩
  · -- nothing has a handle any more
    have hempty : s'.handlesOf m = ∅ := by
      ext handle
      have hnone : s'.handles handle = none := by
        rw [hhandles]
        split
        · rfl
        · next hnot => exact not_not.1 fun hlive => hnot ((horder.mem_iff handle).2 hlive)
      simp [ConnectionState.handlesOf, hnone]
    have hbalance := hend.balance m
    rw [hempty, Set.ncard_empty] at hbalance
    exact hbalance
  · obtain ⟨pre, post, rfl⟩ := List.append_of_mem hr
    obtain ⟨hpre, ok, hattempt⟩ := hserved.split
    refine CommandRun.respectsKinds hattempt fun _ => (hpre.tracks .initial).fresh ?_
    rw [List.nil_append]
    rw [callsOf_append, created_append] at hfew
    show created (callsOf pre) < 2 ^ 32 - 1
    omega

/-- A process that is opened and left to `closeHandles`. -/
theorem handle_lifetimes_open :
    (∀ m, opens m (callsOf (openRuns 1 .initial) ++ [⟨.close (), ()⟩]) =
        closes m (callsOf (openRuns 1 .initial) ++ [⟨.close (), ()⟩])) ∧
      OnlyOpen (callsOf (openRuns 1 .initial) ++ [⟨.close (), ()⟩]) ∧
      ∀ r ∈ openRuns 1 .initial, r.RespectsKinds := by
  have hprocess : (openRun .initial).after.handles 1 = some (.process ()) := rfl
  have hclosing : Attempt (openRun .initial).after
      (closeHandles [1] (openRun .initial).after).run [] [] [⟨.close (), ()⟩] true
      ((openRun .initial).after.set 1 none) := by
    rw [closeHandles, closeHandle_bind_process hprocess]
    exact backend_bind (c := .close ()) () (.goesOn _)
  have horder : RangeOrder (openRun .initial).after [1] := by
    refine ⟨List.nodup_singleton 1, fun handle => ?_⟩
    by_cases heq : handle = 1 <;>
      simp [heq, openRun, ConnectionState.addHandle, ConnectionState.set, ConnectionState.initial]
  exact handle_lifetimes ⟨[], id⟩ ⟨_, [1], _,
    .next (openRun .initial) (attempt_openRun _ _) (.ended _), horder, hclosing⟩ (by decide)

end CheatEngine.LocalBridge
