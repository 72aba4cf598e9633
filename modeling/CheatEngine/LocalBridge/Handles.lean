/-
  CheatEngine.LocalBridge.Handles

  Which handles of a connection are live, in terms of its commands alone: a handle is live
  when it was created and no command closed it since.  The handles are numbered from 1 and
  the numbers start over after the last of them.
-/
import Mathlib.Data.Nat.ModEq
import CheatEngine.LocalBridge.Session

namespace CheatEngine.LocalBridge

open CheatEngine.Lib

variable {M : Type}

def handleCount : Nat := 2 ^ 32 - 1

/-- The handle that the `n`th creation of a connection gives out, counted from 0. -/
def handleNumber (n : Nat) : UInt32 := UInt32.ofNat (1 + n % handleCount)

theorem handleNumber_toNat (n : Nat) : (handleNumber n).toNat = 1 + n % handleCount := by
  have hlt : n % handleCount < handleCount := Nat.mod_lt _ (by decide)
  have hcount : handleCount = 2 ^ 32 - 1 := rfl
  rw [handleNumber, UInt32.toNat_ofNat', Nat.mod_eq_of_lt (by omega)]

theorem handleNumber_eq_iff {m n : Nat} :
    handleNumber m = handleNumber n ↔ m % handleCount = n % handleCount := by
  rw [← UInt32.toNat_inj, handleNumber_toNat, handleNumber_toNat]
  omega

theorem advance_handleNumber (n : Nat) :
    ConnectionState.advance (handleNumber n) = handleNumber (n + 1) := by
  have hcount : handleCount = 2 ^ 32 - 1 := rfl
  have hlt : n % handleCount < handleCount := Nat.mod_lt _ (by decide)
  have hn := handleNumber_toNat n
  have hmod : (n + 1) % handleCount = if n % handleCount = handleCount - 1 then 0
      else n % handleCount + 1 := by
    rw [hcount]
    split <;> omega
  have hsucc : (handleNumber n + 1).toNat = (2 + n % handleCount) % 2 ^ 32 := by
    rw [UInt32.toNat_add, hn]
    show (1 + n % handleCount + 1) % 2 ^ 32 = _
    congr 1
    omega
  rw [ConnectionState.advance, ← UInt32.toNat_inj, handleNumber_toNat, hmod]
  by_cases hlast : n % handleCount = handleCount - 1
  · -- the counter wraps around, and 0 is skipped
    have hzero : handleNumber n + 1 = 0 := by
      rw [← UInt32.toNat_inj, hsucc, hlast, hcount]
      rfl
    rw [if_pos hzero, if_pos hlast]
    rfl
  · have hne : handleNumber n + 1 ≠ 0 := by
      intro h
      rw [h] at hsucc
      simp at hsucc
      omega
    rw [if_neg hne, if_neg hlast, hsucc]
    omega

/-! ## Which handles are live -/

section Track

variable {s : ConnectionState M} {steps : List (CommandRun M)} {handle : UInt32}

def Live (steps : List (CommandRun M)) (handle : UInt32) : Prop :=
  ∃ pre first mid, steps = pre ++ first :: mid ∧ first.Creates ∧
    handleNumber (created (callsOf pre)) = handle ∧ ∀ r ∈ mid, ¬ r.Closes handle

theorem live_concat_iff {r : CommandRun M} : Live (steps ++ [r]) handle ↔
    (r.Creates ∧ handleNumber (created (callsOf steps)) = handle) ∨
      (Live steps handle ∧ ¬ r.Closes handle) := by
  constructor
  · rintro ⟨pre, first, mid, heq, hfirst, hnumber, hmid⟩
    rcases List.eq_nil_or_concat mid with rfl | ⟨mid', last, rfl⟩
    · obtain ⟨rfl, hlast⟩ := List.append_inj' heq rfl
      obtain rfl := (List.cons.inj hlast).1
      exact .inl ⟨hfirst, hnumber⟩
    · have heq' : steps ++ [r] = (pre ++ first :: mid') ++ [last] := by simpa using heq
      obtain ⟨hsteps, hlast⟩ := List.append_inj' heq' rfl
      obtain rfl := (List.cons.inj hlast).1
      exact .inr ⟨⟨pre, first, mid', hsteps, hfirst, hnumber, fun r' hr' => hmid r' (by simp [hr'])⟩,
        hmid r (by simp)⟩
  · rintro (⟨hcreates, hnumber⟩ | ⟨⟨pre, first, mid, rfl, hfirst, hnumber, hmid⟩, hlast⟩)
    · exact ⟨steps, r, [], rfl, hcreates, hnumber, by simp⟩
    · refine ⟨pre, first, mid ++ [r], by simp, hfirst, hnumber, fun r' hr' => ?_⟩
      rcases List.mem_append.1 hr' with hmem | hmem
      · exact hmid r' hmem
      · obtain rfl := List.mem_singleton.1 hmem
        exact hlast

/-- The map and the counter after some commands. -/
structure Tracks (s : ConnectionState M) (steps : List (CommandRun M)) : Prop where
  next : s.nextHandle = handleNumber (created (callsOf steps))
  live : ∀ handle, s.handles handle ≠ none ↔ Live steps handle

theorem Tracks.initial : Tracks (.initial : ConnectionState M) [] where
  next := rfl
  live handle := by
    constructor
    · intro h
      exact absurd rfl h
    · rintro ⟨pre, first, mid, heq, -⟩
      exact absurd heq (by simp)

theorem Tracks.keep (h : Tracks s steps) {r : CommandRun M} (hnext : r.after.nextHandle = s.nextHandle)
    (hhandles : ∀ handle, r.after.handles handle = none ↔ s.handles handle = none)
    (hcreates : created r.calls = 0) (hcloses : ∀ handle, ¬ r.Closes handle) :
    Tracks r.after (steps ++ [r]) where
  next := by
    rw [callsOf_append, callsOf_singleton, created_append, hcreates, hnext]
    exact h.next
  live handle := by
    have hnot : ¬ r.Creates := by
      rintro ⟨ev, hev, hyes⟩
      exact List.countP_eq_zero.1 hcreates ev hev hyes
    rw [live_concat_iff, ← h.live handle]
    simp [hhandles handle, hcloses handle, hnot]

theorem Tracks.step {r : CommandRun M} (h : Tracks r.before steps) (heffect : CommandEffect r) :
    Tracks r.after (steps ++ [r]) := by
  cases heffect with
  | unchanged hafter hquiet hclose =>
    refine h.keep (by rw [hafter]) (fun handle => by rw [hafter]) ?_ ?_
    · exact List.countP_eq_zero.2 fun ev hev => by simp [(hquiet ev hev).2]
    · -- a request that names no handle closes none
      rintro handle ⟨hcommand, hhandle⟩
      rw [CommandRun.handle?, hclose hcommand] at hhandle
      cases hhandle
  | used hafter hhandle hm hcalls hev hopen hcreates hclose =>
    refine h.keep (by rw [hafter]) (fun handle => by rw [hafter]) ?_
      fun handle hcloses => hclose hcloses.1
    rw [hcalls, created, List.countP_singleton, hcreates]
    rfl
  | moved hafter hhandle hbefore hcalls hclose =>
    refine h.keep (by rw [hafter]; rfl) (fun handle => ?_) (by rw [hcalls]; rfl)
      fun handle hcloses => hclose hcloses.1
    rw [hafter, ConnectionState.set]
    dsimp only
    rw [Function.update_apply]
    split
    next heq => simp [heq, hbefore]
    next => rfl
  | created hafter hcalls hcreates hev hvalue hclose =>
    have hyes : r.Creates := ⟨_, by rw [hcalls]; exact List.mem_singleton_self _, hcreates⟩
    constructor
    · have hone : LocalBridge.created r.calls = 1 := by
        rw [hcalls, LocalBridge.created, List.countP_singleton, hcreates]
        rfl
      rw [hafter, callsOf_append, callsOf_singleton, created_append, hone]
      show ConnectionState.advance r.before.nextHandle = _
      rw [h.next, advance_handleNumber]
    · intro handle
      rw [live_concat_iff, ← h.live handle, ← h.next, hafter, ConnectionState.addHandle,
        ConnectionState.set]
      dsimp only
      rw [Function.update_apply]
      have hnot : ¬ r.Closes handle := fun hcloses => hclose hcloses.1
      by_cases heq : handle = r.before.nextHandle
      · simp [heq, hyes]
      · have hne : ¬ r.before.nextHandle = handle := fun h' => heq h'.symm
        simp [heq, hne, hnot]
  | closed hafter hcloses hcalls =>
    rename_i closing
    have hzero : LocalBridge.created r.calls = 0 := by
      rw [hcalls]
      cases hentry : r.before.handles closing with
      | none => rfl
      | some value => cases value <;> rfl
    constructor
    · rw [callsOf_append, callsOf_singleton, created_append, hzero, hafter]
      exact h.next
    · intro handle
      have hnot : ¬ r.Creates := by
        rintro ⟨ev, hev, hyes⟩
        exact List.countP_eq_zero.1 hzero ev hev hyes
      have hiff : r.Closes handle ↔ handle = closing := by
        constructor
        · rintro ⟨-, hhandle⟩
          exact Option.some.inj (hhandle.symm.trans hcloses.2)
        · rintro rfl
          exact hcloses
      rw [live_concat_iff, ← h.live handle, hiff, hafter, ConnectionState.set]
      dsimp only
      rw [Function.update_apply]
      by_cases heq : handle = closing <;> simp [heq, hnot]

end Track

section Runs

variable {server : Server} {s s' : ConnectionState M} {done steps : List (CommandRun M)}
  {r : CommandRun M}

theorem Served.tracks (h : Served server s steps s') (ht : Tracks s done) :
    Tracks s' (done ++ steps) := by
  induction h generalizing done with
  | ended s => simpa using ht
  | last r hr => exact ht.step (commandEffect_of_attempt r hr)
  | next r hr hrest ih =>
    rw [List.append_cons]
    exact ih (ht.step (commandEffect_of_attempt r hr))

theorem CommandRun.Creates.pos (h : r.Creates) : 0 < created r.calls := by
  obtain ⟨ev, hev, hyes⟩ := h
  exact List.countP_pos_iff.2 ⟨ev, hev, hyes⟩

theorem Tracks.fresh (ht : Tracks s done) (hfew : created (callsOf done) < handleCount) :
    s.handles s.nextHandle = none := by
  by_contra hne
  obtain ⟨pre, first, mid, rfl, hfirst, hnumber, -⟩ := (ht.live _).1 hne
  rw [ht.next, handleNumber_eq_iff] at hnumber
  have hlt : created (callsOf pre) < created (callsOf (pre ++ first :: mid)) := by
    rw [callsOf_append, callsOf_cons, created_append, created_append]
    have hpos := hfirst.pos
    omega
  rw [Nat.mod_eq_of_lt (hlt.trans hfew), Nat.mod_eq_of_lt hfew] at hnumber
  omega

/-- The creating commands of a run each get a handle that is not 0 and not in use. -/
def FreshHandles (steps : List (CommandRun M)) : Prop :=
  ∀ pre r post, steps = pre ++ r :: post → r.Creates → ∀ value : Entry M,
    (r.before.addHandle value).1 ≠ 0 ∧ r.before.handles (r.before.addHandle value).1 = none

/-- A handle whose number comes round again was closed in between. -/
def ClosedInTime (steps : List (CommandRun M)) : Prop :=
  ∀ pre first mid second post, steps = pre ++ first :: (mid ++ second :: post) →
    first.Creates → second.Creates → handleCount ∣ created (callsOf (first :: mid)) →
    ∃ r ∈ mid, r.Closes (handleNumber (created (callsOf pre)))

theorem handleNumber_eq_iff_dvd (pre mid : List (CommandRun M)) :
    handleNumber (created (callsOf pre)) = handleNumber (created (callsOf (pre ++ mid))) ↔
      handleCount ∣ created (callsOf mid) := by
  rw [handleNumber_eq_iff, callsOf_append, created_append]
  constructor
  · intro h
    have hsub := (Nat.modEq_iff_dvd' (Nat.le_add_right _ (created (callsOf mid)))).1 h
    rwa [Nat.add_sub_cancel_left] at hsub
  · intro h
    exact (Nat.modEq_iff_dvd' (Nat.le_add_right _ _)).2 (by rwa [Nat.add_sub_cancel_left])

theorem Tracks.not_fresh (ht : Tracks s done) (hlive : Live done (handleNumber (created (callsOf done))))
    (value : Entry M) : s.handles (s.addHandle value).1 ≠ none := by
  show s.handles s.nextHandle ≠ none
  rw [ht.live, ht.next]
  exact hlive

/-- The handles of a connection are fresh exactly when each handle is closed before its number
    comes round again. -/
theorem freshHandles_iff {server : Server} (h : Served server .initial steps s) :
    FreshHandles steps ↔ ClosedInTime steps := by
  constructor
  · intro hfresh pre first mid second post heq hfirst hsecond hdvd
    by_contra hopen
    rw [not_exists] at hopen
    have heq' : steps = (pre ++ first :: mid) ++ second :: post := by simp [heq]
    -- the first handle is still live where the second is created
    have ht : Tracks second.before (pre ++ first :: mid) :=
      (heq' ▸ h).split.1.tracks .initial
    have hlive : Live (pre ++ first :: mid) (handleNumber (created (callsOf pre))) :=
      ⟨pre, first, mid, rfl, hfirst, rfl, fun r hr hcloses => hopen r ⟨hr, hcloses⟩⟩
    rw [(handleNumber_eq_iff_dvd pre (first :: mid)).2 hdvd] at hlive
    exact ht.not_fresh hlive .null (hfresh _ _ _ heq' hsecond .null).2
  · intro hclosed done second post heq hsecond value
    have ht : Tracks second.before done := (heq ▸ h).split.1.tracks .initial
    refine ⟨second.before.nextHandle_ne, ?_⟩
    by_contra hlive
    obtain ⟨pre, first, mid, rfl, hfirst, hnumber, hopen⟩ := (ht.live _).1 hlive
    -- the handle that is in use has the number of the next one
    have hsame : handleNumber (created (callsOf pre)) =
        handleNumber (created (callsOf (pre ++ first :: mid))) := hnumber.trans ht.next
    have hdvd := (handleNumber_eq_iff_dvd pre (first :: mid)).1 hsame
    obtain ⟨r, hr, hcloses⟩ := hclosed pre first mid second post (by simp [heq]) hfirst hsecond hdvd
    exact hopen r hr (hnumber ▸ hcloses)

end Runs

def openRun (s : ConnectionState Unit) : CommandRun Unit where
  before := s
  command := commandOpenProcess
  received := [[0, 0, 0, 0]]
  sent := [u32 s.nextHandle]
  calls := [⟨.openProcess (i32At [0, 0, 0, 0] 0), .ok (some ())⟩]
  after := (s.addHandle (.process ())).2

def openRuns : Nat → ConnectionState Unit → List (CommandRun Unit)
  | 0, _ => []
  | n + 1, s => openRun s :: openRuns n (openRun s).after

theorem attempt_openRun (server : Server) (s : ConnectionState Unit) :
    Attempt s (handleCommand server commandOpenProcess s).run (openRun s).received (openRun s).sent
      (openRun s).calls true (openRun s).after := by
  show Attempt s (cmdOpenProcess s).run _ _ _ _ _
  refine .receive_bind [0, 0, 0, 0] rfl ?_
  refine backend_bind (c := .openProcess (i32At [0, 0, 0, 0] 0)) (.ok (some ())) ?_
  exact .reply_pure _ _

theorem served_openRuns (server : Server) (n : Nat) (s : ConnectionState Unit) :
    ∃ s', Served server s (openRuns n s) s' := by
  induction n generalizing s with
  | zero => exact ⟨s, .ended s⟩
  | succ n ih =>
    obtain ⟨s', hrest⟩ := ih (openRun s).after
    exact ⟨s', .next (openRun s) (attempt_openRun server s) hrest⟩

theorem openRun_creates (s : ConnectionState Unit) : (openRun s).Creates :=
  ⟨_, List.mem_singleton_self _, rfl⟩

theorem created_openRuns (n : Nat) (s : ConnectionState Unit) :
    created (callsOf (openRuns n s)) = n := by
  induction n generalizing s with
  | zero => rfl
  | succ n ih =>
    have hone : created (openRun s).calls = 1 := rfl
    rw [openRuns, callsOf_cons, created_append, ih, hone, Nat.add_comm]

theorem not_closes_of_mem_openRuns {n : Nat} {s : ConnectionState Unit} {r : CommandRun Unit}
    (hr : r ∈ openRuns n s) (handle : UInt32) : ¬ r.Closes handle := by
  induction n generalizing s with
  | zero => cases hr
  | succ n ih =>
    rcases List.mem_cons.1 hr with rfl | hr
    · intro hcloses
      have hne : commandOpenProcess ≠ commandCloseHandle := by decide
      exact hne hcloses.1
    · exact ih hr

theorem openRuns_succ (n : Nat) (s : ConnectionState Unit) :
    ∃ s', openRuns (n + 1) s = openRuns n s ++ [openRun s'] := by
  induction n generalizing s with
  | zero => exact ⟨s, rfl⟩
  | succ n ih =>
    obtain ⟨s', hrest⟩ := ih (openRun s).after
    refine ⟨s', ?_⟩
    rw [openRuns, hrest]
    rfl

theorem freshHandles_iff_open : FreshHandles (openRuns 1 .initial) ↔ ClosedInTime (openRuns 1 .initial) := by
  obtain ⟨s, h⟩ := served_openRuns ⟨[], id⟩ 1 .initial
  exact freshHandles_iff h

/-- The first handle is given out again when all numbers are used up. -/
theorem not_freshHandles : ¬ ∀ (server : Server) (steps : List (CommandRun Unit))
    (s : ConnectionState Unit), Served server .initial steps s → FreshHandles steps := by
  intro hall
  obtain ⟨n, hn⟩ : ∃ n, handleCount = n + 1 := ⟨2 ^ 32 - 2, rfl⟩
  obtain ⟨s, h⟩ := served_openRuns ⟨[], id⟩ (n + 2) .initial
  obtain ⟨second, heq⟩ := openRuns_succ (n + 1) .initial
  have ht : Tracks second (openRuns (n + 1) .initial) := (heq ▸ h).split.1.tracks .initial
  have hlive : Live (openRuns (n + 1) .initial) (handleNumber 0) :=
    ⟨[], openRun .initial, openRuns n (openRun .initial).after, rfl, openRun_creates _, rfl,
      fun r hr => not_closes_of_mem_openRuns hr _⟩
  have hsame : handleNumber 0 =
      handleNumber (created (callsOf (openRuns (n + 1) (.initial : ConnectionState Unit)))) := by
    rw [created_openRuns, handleNumber_eq_iff, hn, Nat.mod_self, Nat.zero_mod]
  have hfresh := hall _ _ _ h _ _ _ heq (openRun_creates _) .null
  exact ht.not_fresh (hsame ▸ hlive) .null hfresh.2

end CheatEngine.LocalBridge
