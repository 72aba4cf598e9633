/-
  CheatEngine.Dbvm.BrokenThreads

  Threads that a watch of DBVM parks (epthandler.c).  A hit of an `EPTO_DBVMBP`
  watch saves the thread in an entry of `BrokenThreadList`, puts the number of the
  entry into RAX and lets the thread run an int3 loop.  There it is resumed or
  takes a step, after which it is parked in the same entry again.

  The list is made for eight threads.  When it grows, `realloc` is given
  `BrokenThreadListSize` bytes and 32 entries, where it should be given
  `BrokenThreadListSize + 32` entries.
-/
import CheatEngine.Lib.Run
import CheatEngine.Lib.Slots
import Mathlib.Logic.Function.Basic

namespace CheatEngine.Dbvm

open CheatEngine.Lib

/-- The registers of a thread; `rest` are those that the list only stores. -/
structure ThreadState (ρ : Type) where
  cr3 : Nat
  rip : Nat
  rax : Nat
  rest : ρ
  deriving DecidableEq

/-- `inuse`: 0, 1 and 2. -/
inductive EntryUse
  | free
  | inUse
  | lost
  deriving DecidableEq, Repr

/-- `BrokenThreadEntry`; `count` is the heartbeat in its state. -/
structure BrokenThreadEntry (ρ : Type) where
  inuse : EntryUse
  continueMethod : Int32
  watchid : Int32
  userModeLoop : Nat
  kernelModeLoop : Nat
  state : ThreadState ρ
  count : UInt32

/-- `sizeof(BrokenThreadEntry)`: three `int`s, two loops, 256 bytes of registers and
    512 of the FPU. -/
def sizeofEntry : Nat := 800

/-- What a thread of the guest does.  A parked thread has the registers of the loop;
    `saved` is the state it was parked with, or that was set for it since. -/
inductive Guest (ρ : Type)
  | running
  | parked (regs saved : ThreadState ρ)
  | stepping (brokenthreadid : Nat)
  deriving DecidableEq

/-- `BrokenThreadList` with the bytes allocated for it (`none` is `NULL`),
    `BrokenThreadListSize`, the entries up to `BrokenThreadListPos`, and the
    threads. -/
structure BrokenThreads (τ ρ : Type) where
  allocated : Option Nat
  size : Nat
  entries : List (BrokenThreadEntry ρ)
  guest : τ → Guest ρ

/-- A watch that parks: its number and loops. -/
structure ParkingWatch where
  id : Int32
  loopUserMode : Nat
  loopKernelMode : Nat

/-- What happens.  `garbage` is what `realloc` finds behind what it copies. -/
inductive BrokenThreadInput (τ ρ : Type)
  | watchHit (t : τ) (regs : ThreadState ρ) (watch : ParkingWatch) (canBreak kernelmode : Bool)
      (garbage : Nat → BrokenThreadEntry ρ)
  /-- The int3 of a parked thread. -/
  | keepAlive (t : τ)
  | stepAndBreak (t : τ) (regs : ThreadState ρ) (canBreak kernelmode : Bool)
  | resumeBrokenThread (id continueMethod : Int32)
  | setBrokenThreadEntryFull (id : Int32) (state : ThreadState ρ) (count : UInt32)

/-- A parked thread with this number has another saved state. -/
def Guest.setSaved {ρ : Type} (id : Nat) (state : ThreadState ρ) : Guest ρ → Guest ρ
  | .parked regs saved => .parked regs (if regs.rax = id then state else saved)
  | g => g

namespace BrokenThreads

variable {τ ρ : Type} [DecidableEq τ]

def initial : BrokenThreads τ ρ := ⟨none, 0, [], fun _ => .running⟩

def isFree (e : BrokenThreadEntry ρ) : Bool := e.inuse = .free

/-- Entry `i` lies in the first `bytes` bytes of the list. -/
def Fits (bytes i : Nat) : Prop := (i + 1) * sizeofEntry ≤ bytes

instance (bytes i : Nat) : Decidable (Fits bytes i) := inferInstanceAs (Decidable (_ ≤ _))

section

variable (s : BrokenThreads τ ρ)

/-- Make the list, or more room for it; `realloc` copies what fits both. -/
def allocate (garbage : Nat → BrokenThreadEntry ρ) : BrokenThreads τ ρ :=
  match s.allocated with
  | none => { s with allocated := some (sizeofEntry * 8), size := 8, entries := [] }
  | some old =>
    if s.size ≤ s.entries.length then
      let new := s.size + sizeofEntry * 32
      { s with
        allocated := some new
        size := s.size + 32
        entries := s.entries.mapIdx fun i e => if Fits (min old new) i then e else garbage i }
    else s

/-- The part of `ept_handleWatchEvent` that parks a thread. -/
def park (t : τ) (regs : ThreadState ρ) (watch : ParkingWatch)
    (newRIP : Nat) (garbage : Nat → BrokenThreadEntry ρ) : BrokenThreads τ ρ :=
  let e : BrokenThreadEntry ρ :=
    ⟨.inUse, 0, watch.id, watch.loopUserMode, watch.loopKernelMode, regs, 0⟩
  let s := s.allocate garbage
  { s with
    entries := putFree isFree s.entries e
    guest := Function.update s.guest t
      (.parked { regs with rip := newRIP, rax := freeSlot isFree s.entries } regs) }

/-- Entry `i` is the one that `ept_handleSoftwareBreakpoint` looks for. -/
def IsFrozen (regs : ThreadState ρ) (i : Nat) : Bool :=
  match s.entries[i]? with
  | none => false
  | some e => e.inuse ≠ .free ∧ regs.cr3 = e.state.cr3 ∧
      (regs.rip = e.kernelModeLoop ∨ regs.rip = e.userModeLoop) ∧ regs.rax = i

def modifyEntry (i : Nat) (f : BrokenThreadEntry ρ → BrokenThreadEntry ρ) : BrokenThreads τ ρ :=
  { s with entries := s.entries.modify i f }

def setGuest (t : τ) (g : Guest ρ) : BrokenThreads τ ρ :=
  { s with guest := Function.update s.guest t g }

/-- `ept_handleFrozenThread`: the thread stays parked, takes a step or goes on. -/
def handleFrozenThread (t : τ) (id : Nat) : BrokenThreads τ ρ :=
  let s := s.modifyEntry id fun e => { e with count := e.count + 1 }
  match s.entries[id]? with
  | none => s
  | some e =>
    if e.continueMethod = 0 then s
    else if e.continueMethod = 1 then
      (s.modifyEntry id fun e => { e with watchid := -1 }).setGuest t (.stepping id)
    else
      (s.modifyEntry id fun e => { e with inuse := .free, continueMethod := 0 }).setGuest t .running

/-- `ept_handleSoftwareBreakpoint` for a parked thread. -/
def handleSoftwareBreakpoint (t : τ) (regs : ThreadState ρ) : BrokenThreads τ ρ :=
  match (List.range s.entries.length).find? (s.IsFrozen regs) with
  | none => s
  | some i => s.handleFrozenThread t i

end

/-- The loop that `ept_handleStepAndBreak` goes to, 0 if there is none. -/
def stepRIP (e : BrokenThreadEntry ρ) (kernelmode : Bool) : Nat :=
  if e.continueMethod = 1 then if kernelmode then e.kernelModeLoop else e.userModeLoop else 0

def handleStepAndBreak (s : BrokenThreads τ ρ) (t : τ) (id : Nat) (regs : ThreadState ρ)
    (canBreak kernelmode : Bool) : BrokenThreads τ ρ :=
  match s.entries[id]? with
  | none => s
  | some e =>
    if canBreak = true ∧ stepRIP e kernelmode ≠ 0 then
      (s.modifyEntry id fun e => { e with state := regs, count := 0, continueMethod := 0 }).setGuest t
        (.parked { regs with rip := stepRIP e kernelmode, rax := id } regs)
    else
      (s.modifyEntry id fun e => { e with inuse := .lost, continueMethod := 0 }).setGuest t .running

/-- `ept_resumeBrokenThread` of an entry. -/
def resumeEntry (continueMethod : Int32) (e : BrokenThreadEntry ρ) : BrokenThreadEntry ρ :=
  match e.inuse with
  | .free => e
  | .lost => { e with inuse := .free }
  | .inUse => if e.continueMethod = 0 then { e with continueMethod, watchid := -1 } else e

def resumeBrokenThread (s : BrokenThreads τ ρ) (id continueMethod : Int32) : BrokenThreads τ ρ :=
  if 0 ≤ id.toInt then s.modifyEntry id.toInt.toNat (resumeEntry continueMethod) else s

def setBrokenThreadEntryFull (s : BrokenThreads τ ρ) (id : Int32) (state : ThreadState ρ)
    (count : UInt32) : BrokenThreads τ ρ :=
  if 0 ≤ id.toInt then
    match s.entries[id.toInt.toNat]? with
    | none => s
    | some e =>
      if e.inuse ≠ .free then
        { s.modifyEntry id.toInt.toNat fun e => { e with state, count } with
          guest := fun t => (s.guest t).setSaved id.toInt.toNat state }
      else s
  else s

/-- One event. -/
def step (s : BrokenThreads τ ρ) : BrokenThreadInput τ ρ → BrokenThreads τ ρ
  | .watchHit t regs watch canBreak kernelmode garbage =>
    let newRIP := if kernelmode then watch.loopKernelMode else watch.loopUserMode
    match s.guest t with
    | .running => if canBreak = true ∧ newRIP ≠ 0 then s.park t regs watch newRIP garbage else s
    -- the interrupt state of a step, and the loop, keep it from breaking
    | _ => s
  | .keepAlive t =>
    match s.guest t with
    | .parked regs _ => s.handleSoftwareBreakpoint t regs
    | _ => s
  | .stepAndBreak t regs canBreak kernelmode =>
    match s.guest t with
    | .stepping id => s.handleStepAndBreak t id regs canBreak kernelmode
    | _ => s
  | .resumeBrokenThread id continueMethod => s.resumeBrokenThread id continueMethod
  | .setBrokenThreadEntryFull id state count => s.setBrokenThreadEntryFull id state count

/-- Every parked thread has an entry of its own, inside the list, with its state. -/
structure Correct (s : BrokenThreads τ ρ) : Prop where
  named : ∀ t regs saved, s.guest t = .parked regs saved → ∃ e, s.entries[regs.rax]? = some e ∧
    e.inuse = .inUse ∧ Fits (s.allocated.getD 0) regs.rax ∧ e.state = saved
  apart : ∀ t t' regs saved regs' saved', s.guest t = .parked regs saved →
    s.guest t' = .parked regs' saved' → regs.rax = regs'.rax → t = t'

/-- A hit, which may make the list grow, leaves the entries of parked threads as they
    are. -/
def KeepsEntries (s : BrokenThreads τ ρ) (input : BrokenThreadInput τ ρ) : Prop :=
  match input with
  | .watchHit .. => ∀ t regs saved, s.guest t = .parked regs saved →
      (s.step input).entries[regs.rax]? = s.entries[regs.rax]?
  | _ => True

/-- A thread is parked only while one of the entries is free or there are less than
    32. -/
def HasRoom (s : BrokenThreads τ ρ) : BrokenThreadInput τ ρ → Prop
  | .watchHit t _ watch canBreak kernelmode _ => s.guest t = .running → canBreak = true →
      (if kernelmode then watch.loopKernelMode else watch.loopUserMode) ≠ 0 →
        (∃ e ∈ s.entries, e.inuse = .free) ∨ s.entries.length < 32
  | _ => True

/-! ## Invariant -/

/-- The entry that belongs to a thread. -/
def slotOf : Guest ρ → Option Nat
  | .running => none
  | .parked regs _ => some regs.rax
  | .stepping id => some id

/-- The list before and after it has grown once. -/
def Room (s : BrokenThreads τ ρ) : Prop :=
  s.allocated = none ∧ s.entries = [] ∨
    s.allocated = some 6400 ∧ s.size = 8 ∧ s.entries.length ≤ 8 ∨
    s.allocated = some 25608 ∧ s.size = 40 ∧ s.entries.length ≤ 32

/-- What every event keeps while there is room. -/
structure Inv (s : BrokenThreads τ ρ) : Prop where
  slots : ∀ t i, slotOf (s.guest t) = some i → ∃ e, s.entries[i]? = some e ∧ e.inuse = .inUse
  saved : ∀ t regs saved, s.guest t = .parked regs saved → ∀ e, s.entries[regs.rax]? = some e →
    e.state = saved
  inj : ∀ t t' i, slotOf (s.guest t) = some i → slotOf (s.guest t') = some i → t = t'
  room : s.Room

section Entries

omit [DecidableEq τ]

variable {s : BrokenThreads τ ρ} {i : Nat} {t : τ}

theorem Inv.fits (h : s.Inv) {e : BrokenThreadEntry ρ} (hget : s.entries[i]? = some e) :
    Fits (s.allocated.getD 0) i := by
  obtain ⟨hlt, -⟩ := List.getElem?_eq_some_iff.1 hget
  rcases h.room with ⟨-, hnil⟩ | ⟨halloc, -, hlen⟩ | ⟨halloc, -, hlen⟩
  · rw [hnil] at hlt
    exact absurd hlt (Nat.not_lt_zero i)
  · rw [halloc]
    show (i + 1) * 800 ≤ 6400
    omega
  · rw [halloc]
    show (i + 1) * 800 ≤ 25608
    omega

theorem Inv.correct (h : s.Inv) : s.Correct where
  named t regs saved hparked := by
    have hslot : slotOf (s.guest t) = some regs.rax := by rw [hparked]; rfl
    obtain ⟨e, hget, huse⟩ := h.slots t regs.rax hslot
    exact ⟨e, hget, huse, h.fits hget, h.saved t regs saved hparked e hget⟩
  apart t t' regs saved regs' saved' hparked hparked' hrax := by
    refine h.inj t t' regs.rax ?_ ?_
    · rw [hparked]
      rfl
    · rw [hparked', hrax]
      rfl

theorem room_modify (h : s.Room) (f : BrokenThreadEntry ρ → BrokenThreadEntry ρ) :
    (s.modifyEntry i f).Room := by
  have hlen : (s.entries.modify i f).length = s.entries.length := List.length_modify ..
  unfold Room modifyEntry
  simp only [hlen, ← List.length_eq_zero_iff]
  rw [Room, ← List.length_eq_zero_iff] at h
  exact h

theorem Inv.modify (h : s.Inv) {f : BrokenThreadEntry ρ → BrokenThreadEntry ρ}
    (huse : ∀ e, e.inuse = .inUse → (f e).inuse = .inUse) (hstate : ∀ e, (f e).state = e.state) :
    (s.modifyEntry i f).Inv where
  slots t j hslot := by
    obtain ⟨e, hget, hinuse⟩ := h.slots t j hslot
    show ∃ e, (s.entries.modify i f)[j]? = some e ∧ _
    rw [List.getElem?_modify, hget]
    by_cases hij : i = j
    · exact ⟨f e, by simp [hij], huse e hinuse⟩
    · exact ⟨e, by simp [hij], hinuse⟩
  saved t regs saved hparked e hget := by
    have hget' : (s.entries.modify i f)[regs.rax]? = some e := hget
    rw [List.getElem?_modify, Option.map_eq_map, Option.map_eq_some_iff] at hget'
    obtain ⟨e', he', rfl⟩ := hget'
    have hsaved := h.saved t regs saved hparked e' he'
    split
    · rw [hstate, hsaved]
    · exact hsaved
  inj := h.inj
  room := room_modify h.room f

/-- Only the thread of an entry is concerned by a change of it. -/
theorem slot_other (h : s.Inv) (hslot : slotOf (s.guest t) = some i) {t' : τ} (hne : t' ≠ t)
    {j : Nat} (hslot' : slotOf (s.guest t') = some j) : i ≠ j := by
  rintro rfl
  exact hne (h.inj t' t i hslot' hslot)

end Entries

variable {s : BrokenThreads τ ρ} {i : Nat} {t : τ}

theorem guest_setGuest_self (g : Guest ρ) : (s.setGuest t g).guest t = g :=
  Function.update_self ..

theorem guest_setGuest_of_ne {t' : τ} (hne : t' ≠ t) (g : Guest ρ) :
    (s.setGuest t g).guest t' = s.guest t' :=
  Function.update_of_ne hne ..

theorem Inv.change (h : s.Inv) (hslot : slotOf (s.guest t) = some i)
    (f : BrokenThreadEntry ρ → BrokenThreadEntry ρ) (g : Guest ρ)
    (hg : slotOf g = none ∨ slotOf g = some i ∧ ∀ e, e.inuse = .inUse → (f e).inuse = .inUse)
    (hsaved : ∀ regs saved, g = .parked regs saved → ∀ e, s.entries[i]? = some e →
      (f e).state = saved) :
    ((s.modifyEntry i f).setGuest t g).Inv where
  slots t' j hslot' := by
    show ∃ e, (s.entries.modify i f)[j]? = some e ∧ _
    by_cases heq : t' = t
    · subst heq
      have hj : slotOf g = some j := by
        rwa [guest_setGuest_self] at hslot'
      rcases hg with hnone | ⟨hsame, huse⟩
      · rw [hnone] at hj
        exact absurd hj.symm (Option.some_ne_none j)
      · have hij : i = j := Option.some.inj (hsame.symm.trans hj)
        subst hij
        obtain ⟨e, hget, hinuse⟩ := h.slots t' i hslot
        exact ⟨f e, by simp [hget], huse e hinuse⟩
    · have hj : slotOf (s.guest t') = some j := by
        rwa [guest_setGuest_of_ne heq] at hslot'
      have hij := slot_other h hslot heq hj
      obtain ⟨e, hget, hinuse⟩ := h.slots t' j hj
      exact ⟨e, by simp [hij, hget], hinuse⟩
  saved t' regs saved hparked e hget := by
    have hget' : (s.entries.modify i f)[regs.rax]? = some e := hget
    by_cases heq : t' = t
    · subst heq
      have hgp : g = .parked regs saved := by
        rwa [guest_setGuest_self] at hparked
      have hi : i = regs.rax := by
        rcases hg with hnone | ⟨hsame, -⟩
        · rw [hgp] at hnone
          exact absurd hnone (Option.some_ne_none _)
        · rw [hgp] at hsame
          exact (Option.some.inj hsame).symm
      rw [← hi, List.getElem?_modify_eq, Option.map_eq_map, Option.map_eq_some_iff] at hget'
      obtain ⟨e', he', rfl⟩ := hget'
      exact hsaved regs saved hgp e' he'
    · have hp : s.guest t' = .parked regs saved := by
        rwa [guest_setGuest_of_ne heq] at hparked
      have hij : i ≠ regs.rax := slot_other h hslot heq (by rw [hp]; rfl)
      rw [List.getElem?_modify_ne _ _ hij] at hget'
      exact h.saved t' regs saved hp e hget'
  inj t' t'' j hslot' hslot'' := by
    by_cases heq : t' = t
    · by_cases heq' : t'' = t
      · rw [heq, heq']
      · subst heq
        rw [guest_setGuest_self] at hslot'
        rw [guest_setGuest_of_ne heq'] at hslot''
        have hij := slot_other h hslot heq' hslot''
        rcases hg with hnone | ⟨hsame, -⟩
        · rw [hnone] at hslot'
          exact absurd hslot'.symm (Option.some_ne_none j)
        · exact absurd (Option.some.inj (hsame.symm.trans hslot')) hij
    · by_cases heq' : t'' = t
      · subst heq'
        rw [guest_setGuest_self] at hslot''
        rw [guest_setGuest_of_ne heq] at hslot'
        have hij := slot_other h hslot heq hslot'
        rcases hg with hnone | ⟨hsame, -⟩
        · rw [hnone] at hslot''
          exact absurd hslot''.symm (Option.some_ne_none j)
        · exact absurd (Option.some.inj (hsame.symm.trans hslot'')) hij
      · rw [guest_setGuest_of_ne heq] at hslot'
        rw [guest_setGuest_of_ne heq'] at hslot''
        exact h.inj t' t'' j hslot' hslot''
  room := room_modify h.room f

/-! ## Parking -/

omit [DecidableEq τ] in
theorem allocate_spec (h : s.Inv) (garbage : Nat → BrokenThreadEntry ρ) :
    (s.allocate garbage).entries = s.entries ∧ (s.allocate garbage).guest = s.guest ∧
      ((s.allocate garbage).allocated = some 6400 ∧ (s.allocate garbage).size = 8 ∧
          s.entries.length < 8 ∨
        (s.allocate garbage).allocated = some 25608 ∧ (s.allocate garbage).size = 40 ∧
          s.entries.length ≤ 32) := by
  unfold allocate
  rcases h.room with ⟨halloc, hnil⟩ | ⟨halloc, hsize, hlen⟩ | ⟨halloc, hsize, hlen⟩
  · simp [halloc, hnil, sizeofEntry]
  · simp only [halloc, hsize]
    by_cases hfull : 8 ≤ s.entries.length
    · rw [if_pos hfull]
      refine ⟨?_, rfl, .inr ⟨rfl, rfl, by omega⟩⟩
      -- the eight entries fit the old list and the new one
      refine List.ext_getElem? fun j => ?_
      rw [List.getElem?_mapIdx]
      cases hget : s.entries[j]? with
      | none => rfl
      | some e =>
        obtain ⟨hlt, -⟩ := List.getElem?_eq_some_iff.1 hget
        have hfits : Fits (min 6400 (8 + sizeofEntry * 32)) j := by
          show (j + 1) * 800 ≤ min 6400 (8 + 800 * 32)
          omega
        rw [Option.map_some, if_pos hfits]
    · rw [if_neg hfull]
      exact ⟨rfl, rfl, .inl ⟨halloc, hsize, by omega⟩⟩
  · have hroom : ¬ s.size ≤ s.entries.length := by omega
    simp only [halloc]
    rw [if_neg hroom]
    exact ⟨rfl, rfl, .inr ⟨halloc, hsize, hlen⟩⟩

theorem park_spec (h : s.Inv) (t : τ) (regs : ThreadState ρ) (watch : ParkingWatch) (newRIP : Nat)
    (garbage : Nat → BrokenThreadEntry ρ) :
    ∃ e : BrokenThreadEntry ρ, e.inuse = .inUse ∧ e.state = regs ∧
      (s.park t regs watch newRIP garbage).entries = putFree isFree s.entries e ∧
      (s.park t regs watch newRIP garbage).guest = Function.update s.guest t
        (.parked { regs with rip := newRIP, rax := freeSlot isFree s.entries } regs) ∧
      (s.park t regs watch newRIP garbage).allocated = (s.allocate garbage).allocated ∧
      (s.park t regs watch newRIP garbage).size = (s.allocate garbage).size := by
  obtain ⟨hentries, hguest, -⟩ := allocate_spec h garbage
  refine ⟨⟨.inUse, 0, watch.id, watch.loopUserMode, watch.loopKernelMode, regs, 0⟩, rfl, rfl, ?_, ?_,
    rfl, rfl⟩
  · unfold park
    simp only [hentries]
  · unfold park
    simp only [hentries, hguest]

omit [DecidableEq τ] in
/-- The entry of a thread is not the one that is taken. -/
theorem slot_ne_freeSlot (h : s.Inv) (hslot : slotOf (s.guest t) = some i) :
    i ≠ freeSlot isFree s.entries := by
  obtain ⟨e, hget, huse⟩ := h.slots t i hslot
  refine ne_freeSlot isFree hget ?_
  rw [isFree, huse]
  rfl

theorem Inv.park (h : s.Inv) (regs : ThreadState ρ)
    (watch : ParkingWatch) (newRIP : Nat) (garbage : Nat → BrokenThreadEntry ρ)
    (hfree : (∃ e ∈ s.entries, e.inuse = .free) ∨ s.entries.length < 32) :
    (s.park t regs watch newRIP garbage).Inv := by
  obtain ⟨e, huse, hstate, hentries, hguest, halloc, hsize⟩ :=
    park_spec h t regs watch newRIP garbage
  -- who is where afterwards
  have hself : (s.park t regs watch newRIP garbage).guest t =
      .parked { regs with rip := newRIP, rax := freeSlot isFree s.entries } regs := by
    rw [hguest, Function.update_self]
  have hother : ∀ t', t' ≠ t → (s.park t regs watch newRIP garbage).guest t' = s.guest t' := by
    intro t' hne
    rw [hguest, Function.update_of_ne hne]
  have hget : ∀ t' j, t' ≠ t → slotOf (s.guest t') = some j →
      (s.park t regs watch newRIP garbage).entries[j]? = s.entries[j]? := by
    intro t' j _ hslot
    rw [hentries, getElem?_putFree, if_neg (slot_ne_freeSlot h hslot)]
  have hnew : (s.park t regs watch newRIP garbage).entries[freeSlot isFree s.entries]? = some e := by
    rw [hentries, getElem?_putFree, if_pos rfl]
  refine ⟨?_, ?_, ?_, ?_⟩
  · intro t' j hslot
    by_cases heq : t' = t
    · rw [heq, hself] at hslot
      have hj : freeSlot isFree s.entries = j := Option.some.inj hslot
      exact ⟨e, hj ▸ hnew, huse⟩
    · rw [hother t' heq] at hslot
      rw [hget t' j heq hslot]
      exact h.slots t' j hslot
  · intro t' regs' saved hparked e' he'
    by_cases heq : t' = t
    · rw [heq, hself] at hparked
      cases hparked
      rw [hnew] at he'
      rw [← Option.some.inj he', hstate]
    · rw [hother t' heq] at hparked
      rw [hget t' regs'.rax heq (by rw [hparked]; rfl)] at he'
      exact h.saved t' regs' saved hparked e' he'
  · intro t' t'' j hslot' hslot''
    by_cases heq : t' = t
    · by_cases heq' : t'' = t
      · rw [heq, heq']
      · rw [heq, hself] at hslot'
        rw [hother t'' heq'] at hslot''
        have hj : freeSlot isFree s.entries = j := Option.some.inj hslot'
        exact absurd hj.symm (slot_ne_freeSlot h hslot'')
    · rw [hother t' heq] at hslot'
      by_cases heq' : t'' = t
      · rw [heq', hself] at hslot''
        have hj : freeSlot isFree s.entries = j := Option.some.inj hslot''
        exact absurd hj.symm (slot_ne_freeSlot h hslot')
      · rw [hother t'' heq'] at hslot''
        exact h.inj t' t'' j hslot' hslot''
  · have hlen : (putFree isFree s.entries e).length ≤ s.entries.length + 1 ∧
        ((∃ e ∈ s.entries, e.inuse = .free) →
          (putFree isFree s.entries e).length = s.entries.length) := by
      unfold putFree
      constructor
      · split
        · rw [List.length_set]
          omega
        · exact Nat.le_of_eq List.length_append
      · rintro ⟨e', he', hfree'⟩
        have hlt : freeSlot isFree s.entries < s.entries.length :=
          List.findIdx_lt_length_of_exists ⟨e', he', by rw [isFree, hfree']; rfl⟩
        rw [if_pos hlt, List.length_set]
    unfold Room
    rw [hentries, halloc, hsize]
    obtain ⟨-, -, ⟨hbytes, hsize', hle⟩ | ⟨hbytes, hsize', hle⟩⟩ := allocate_spec h garbage
    · exact .inr (.inl ⟨hbytes, hsize', by omega⟩)
    · refine .inr (.inr ⟨hbytes, hsize', ?_⟩)
      rcases hfree with hfree | hless
      · rw [hlen.2 hfree]
        exact hle
      · omega

theorem not_correct_park (h : s.Inv) (regs : ThreadState ρ) (watch : ParkingWatch) (newRIP : Nat)
    (garbage : Nat → BrokenThreadEntry ρ)
    (hfull : ¬ ((∃ e ∈ s.entries, e.inuse = .free) ∨ s.entries.length < 32)) :
    ¬ (s.park t regs watch newRIP garbage).Correct := by
  intro hcorrect
  rw [not_or, Nat.not_lt] at hfull
  obtain ⟨e, -, -, -, hguest, halloc, -⟩ := park_spec h t regs watch newRIP garbage
  obtain ⟨-, -, ⟨-, -, hle⟩ | ⟨hbytes, -, -⟩⟩ := allocate_spec h garbage
  · omega
  have hslot : freeSlot isFree s.entries = s.entries.length := by
    refine List.findIdx_eq_length.2 fun e he => ?_
    refine decide_eq_false fun hfree => hfull.1 ⟨e, he, hfree⟩
  obtain ⟨_, -, -, hfits, -⟩ := hcorrect.named t _ _ (by rw [hguest, Function.update_self])
  rw [halloc, hbytes] at hfits
  have hfits' : (freeSlot isFree s.entries + 1) * 800 ≤ 25608 := hfits
  omega

/-! ## Events -/

theorem Inv.handleSoftwareBreakpoint (h : s.Inv) {regs saved : ThreadState ρ}
    (hparked : s.guest t = .parked regs saved) : (s.handleSoftwareBreakpoint t regs).Inv := by
  unfold BrokenThreads.handleSoftwareBreakpoint
  cases hfind : (List.range s.entries.length).find? (s.IsFrozen regs) with
  | none => exact h
  | some i =>
    have hfrozen := List.find?_some hfind
    have hrax : regs.rax = i := by
      unfold IsFrozen at hfrozen
      split at hfrozen
      · exact absurd hfrozen Bool.false_ne_true
      · exact (of_decide_eq_true hfrozen).2.2.2
    -- the heartbeat
    have hbeat : (s.modifyEntry i fun e => { e with count := e.count + 1 }).Inv :=
      h.modify (fun _ huse => huse) fun _ => rfl
    have hslot : slotOf ((s.modifyEntry i fun e => { e with count := e.count + 1 }).guest t) =
        some i := by
      show slotOf (s.guest t) = some i
      rw [hparked, ← hrax]
      rfl
    simp only [handleFrozenThread]
    split
    · exact hbeat
    · split
      · exact hbeat
      · split
        · exact hbeat.change hslot _ _ (.inr ⟨rfl, fun _ huse => huse⟩) nofun
        · exact hbeat.change hslot _ _ (.inl rfl) nofun

theorem Inv.handleStepAndBreak (h : s.Inv) (hstepping : s.guest t = .stepping i)
    (regs : ThreadState ρ) (canBreak kernelmode : Bool) :
    (s.handleStepAndBreak t i regs canBreak kernelmode).Inv := by
  have hslot : slotOf (s.guest t) = some i := by rw [hstepping]; rfl
  unfold BrokenThreads.handleStepAndBreak
  split
  · exact h
  · split
    · refine h.change hslot _ _ (.inr ⟨rfl, fun _ huse => huse⟩) ?_
      rintro regs' saved heq e -
      cases heq
      rfl
    · exact h.change hslot _ _ (.inl rfl) nofun

omit [DecidableEq τ] in
theorem Inv.resumeBrokenThread (h : s.Inv) (id continueMethod : Int32) :
    (s.resumeBrokenThread id continueMethod).Inv := by
  unfold BrokenThreads.resumeBrokenThread
  split
  · refine h.modify (fun e huse => ?_) fun e => ?_
    · simp only [resumeEntry, huse]
      split
      · rfl
      · exact huse
    · unfold resumeEntry
      split
      · rfl
      · rfl
      · split <;> rfl
  · exact h

omit [DecidableEq τ] in
theorem Inv.setBrokenThreadEntryFull (h : s.Inv) (id : Int32) (state : ThreadState ρ)
    (count : UInt32) : (s.setBrokenThreadEntryFull id state count).Inv := by
  unfold BrokenThreads.setBrokenThreadEntryFull
  split
  case isFalse => exact h
  case isTrue =>
    split
    · exact h
    · split
      case isFalse => exact h
      case isTrue =>
        -- the slots stay, and the saved states change with the entry
        have hslot : ∀ g : Guest ρ, slotOf (g.setSaved id.toInt.toNat state) = slotOf g := by
          intro g
          cases g <;> rfl
        refine ⟨?_, ?_, ?_, room_modify h.room _⟩
        · intro t j ht
          rw [hslot] at ht
          obtain ⟨e, hget, huse⟩ := h.slots t j ht
          show ∃ e, (s.entries.modify _ _)[j]? = some e ∧ _
          rw [List.getElem?_modify, hget, Option.map_eq_map, Option.map_some]
          by_cases hij : id.toInt.toNat = j
          · exact ⟨_, rfl, by rw [if_pos hij]; exact huse⟩
          · exact ⟨_, rfl, by rw [if_neg hij]; exact huse⟩
        · intro t regs saved hparked e hget
          have hget' : (s.entries.modify id.toInt.toNat fun e => { e with state, count })[regs.rax]? =
              some e := hget
          cases hguest : s.guest t with
          | running => simp [hguest, Guest.setSaved] at hparked
          | stepping _ => simp [hguest, Guest.setSaved] at hparked
          | parked regs' saved' =>
            simp only [hguest, Guest.setSaved, Guest.parked.injEq] at hparked
            obtain ⟨rfl, rfl⟩ := hparked
            rw [List.getElem?_modify, Option.map_eq_map, Option.map_eq_some_iff] at hget'
            obtain ⟨e', he', rfl⟩ := hget'
            by_cases hid : id.toInt.toNat = regs'.rax
            · rw [if_pos hid, if_pos hid.symm]
            · rw [if_neg hid, if_neg (Ne.symm hid)]
              exact h.saved t regs' saved' hguest e' he'
        · intro t t' j ht ht'
          rw [hslot] at ht ht'
          exact h.inj t t' j ht ht'

theorem watchHit_cases (s : BrokenThreads τ ρ) (t : τ) (regs : ThreadState ρ)
    (watch : ParkingWatch) (canBreak kernelmode : Bool) (garbage : Nat → BrokenThreadEntry ρ) :
    s.step (.watchHit t regs watch canBreak kernelmode garbage) = s ∨
      s.guest t = .running ∧ canBreak = true ∧
        (if kernelmode then watch.loopKernelMode else watch.loopUserMode) ≠ 0 ∧
        s.step (.watchHit t regs watch canBreak kernelmode garbage) = s.park t regs watch
          (if kernelmode then watch.loopKernelMode else watch.loopUserMode) garbage := by
  simp only [step]
  cases hguest : s.guest t with
  | running =>
    by_cases hbreak : canBreak = true ∧
        (if kernelmode then watch.loopKernelMode else watch.loopUserMode) ≠ 0
    · exact .inr ⟨rfl, hbreak.1, hbreak.2, if_pos hbreak⟩
    · exact .inl (if_neg hbreak)
  | parked _ _ => exact .inl rfl
  | stepping _ => exact .inl rfl

theorem inv_step (input : BrokenThreadInput τ ρ) (h : s.Inv) (hroom : s.HasRoom input) :
    (s.step input).Inv := by
  cases input with
  | watchHit t regs watch canBreak kernelmode garbage =>
    rcases watchHit_cases s t regs watch canBreak kernelmode garbage with
      hsame | ⟨hrunning, hbreak, hloop, hpark⟩
    · rw [hsame]
      exact h
    · rw [hpark]
      exact h.park regs watch _ garbage (hroom hrunning hbreak hloop)
  | keepAlive t =>
    simp only [step]
    split
    · next hparked => exact h.handleSoftwareBreakpoint hparked
    · exact h
  | stepAndBreak t regs canBreak kernelmode =>
    simp only [step]
    split
    · next hstepping => exact h.handleStepAndBreak hstepping regs canBreak kernelmode
    · exact h
  | resumeBrokenThread id continueMethod => exact h.resumeBrokenThread id continueMethod
  | setBrokenThreadEntryFull id state count => exact h.setBrokenThreadEntryFull id state count

omit [DecidableEq τ] in
theorem inv_initial : (initial : BrokenThreads τ ρ).Inv :=
  ⟨nofun, nofun, nofun, .inl ⟨rfl, rfl⟩⟩

theorem keepsEntries (input : BrokenThreadInput τ ρ) (h : s.Inv) : s.KeepsEntries input := by
  cases input with
  | watchHit t regs watch canBreak kernelmode garbage =>
    intro t' regs' saved hparked
    rcases watchHit_cases s t regs watch canBreak kernelmode garbage with
      hsame | ⟨-, -, -, hpark⟩
    · rw [hsame]
    · obtain ⟨e, -, -, hentries, -⟩ := park_spec h t regs watch
        (if kernelmode then watch.loopKernelMode else watch.loopUserMode) garbage
      have hslot : slotOf (s.guest t') = some regs'.rax := by rw [hparked]; rfl
      rw [hpark, hentries, getElem?_putFree, if_neg (slot_ne_freeSlot h hslot)]
  | keepAlive t => trivial
  | stepAndBreak t regs canBreak kernelmode => trivial
  | resumeBrokenThread id continueMethod => trivial
  | setBrokenThreadEntryFull id state count => trivial

theorem correct_step_iff (input : BrokenThreadInput τ ρ) (h : s.Inv) :
    s.HasRoom input ↔ (s.step input).Correct ∧ s.KeepsEntries input := by
  constructor
  · exact fun hroom => ⟨(inv_step input h hroom).correct, keepsEntries input h⟩
  · rintro ⟨hcorrect, -⟩
    cases input with
    | watchHit t regs watch canBreak kernelmode garbage =>
      intro hrunning hbreak hloop
      by_contra hfull
      have hpark : s.step (.watchHit t regs watch canBreak kernelmode garbage) = s.park t regs watch
          (if kernelmode then watch.loopKernelMode else watch.loopUserMode) garbage := by
        simp only [step, hrunning]
        exact if_pos ⟨hbreak, hloop⟩
      rw [hpark] at hcorrect
      exact not_correct_park h regs watch _ garbage hfull hcorrect
    | keepAlive t => trivial
    | stepAndBreak t regs canBreak kernelmode => trivial
    | resumeBrokenThread id continueMethod => trivial
    | setBrokenThreadEntryFull id state count => trivial

/-- In a run every parked thread has, after every event, an entry of its own inside
    the list that holds its state, and keeps it when the list grows, if and only if
    no thread is parked while 32 entries are in use. -/
theorem parked_threads_kept_iff (inputs : List (BrokenThreadInput τ ρ)) :
    Along step (fun s input => (s.step input).Correct ∧ s.KeepsEntries input) initial inputs ↔
      Along step HasRoom initial inputs :=
  (along_congr (I := Inv) (fun _ input => inv_step input) (fun _ input => correct_step_iff input)
    inv_initial inputs).symm

/-- Thread `t` hits a watch with a loop for user mode. -/
def hit (t : Nat) : BrokenThreadInput Nat Unit :=
  .watchHit t ⟨0, 0, 0, ()⟩ ⟨0, 4096, 0⟩ true false fun _ => ⟨.free, 0, 0, 0, 0, ⟨0, 0, 0, ()⟩, 0⟩

/-- Thread 32 is given an entry behind the list. -/
theorem thirty_three_threads :
    ¬ (exec step (initial : BrokenThreads Nat Unit) ((List.range 33).map hit)).Correct := by
  intro hcorrect
  have hparked : (exec step (initial : BrokenThreads Nat Unit) ((List.range 33).map hit)).guest 32 =
      .parked ⟨0, 4096, 32, ()⟩ ⟨0, 0, 0, ()⟩ := by
    decide +kernel
  obtain ⟨_, -, -, hfits, -⟩ := hcorrect.named 32 _ _ hparked
  exact absurd hfits (by decide +kernel)

end BrokenThreads

end CheatEngine.Dbvm
