/-
  CheatEngine.Ceserver.HandleTable

  The handle list of ceserver (porthelp.c): handles are indices into one
  global array that is created on first use, reuses the slots of removed
  handles and is replaced by a larger array when no slot is free.

  The replacement copies `sizeof(HandleList_max * sizeof(HandleListEntry))`
  bytes, the size of a `size_t`, so only the first word of entry 0 survives
  it.
-/
import Mathlib.Data.Int.Interval
import CheatEngine.Lib.Run

namespace CheatEngine.Ceserver

open CheatEngine.Lib

/-- `handleType` of porthelp.h. -/
inductive HandleType
  | htEmpty
  | htProcesHandle
  | htThreadHandle
  | htPipeHandle
  | htTHSProcess
  | htTHSModule
  | htTHSThread
  | htNativeThreadHandle
  deriving DecidableEq, Repr

/-- A `void *`; `0` is `NULL`. -/
abbrev Pointer : Type := Nat

/-- `HandleListEntry`, less the field `Handle` that nothing reads. -/
structure HandleListEntry where
  /-- `htEmpty` marks a free slot. -/
  type : HandleType
  /-- What the handle stands for. -/
  pointer : Pointer

def HandleListEntry.zero : HandleListEntry := ⟨.htEmpty, 0⟩

/-- `HandleList` with `HandleList_max` as its length; `NULL` is the empty
    list. -/
structure HandleTable where
  /-- The array. -/
  handleList : List HandleListEntry

namespace HandleTable

def max (t : HandleTable) : Nat := t.handleList.length

def entry (t : HandleTable) (i : Nat) : HandleListEntry := t.handleList.getD i .zero

/-- Both globals before the first handle is created. -/
def initial : HandleTable := ⟨[]⟩

/-- Assign type and pointer of slot `i`. -/
def put (t : HandleTable) (i : Nat) (e : HandleListEntry) : HandleTable :=
  ⟨t.handleList.set i e⟩

/-- The initialisation at the top of `CreateHandleFromPointer`. -/
def ensure (t : HandleTable) : HandleTable :=
  if t.handleList = [] then ⟨List.replicate 256 .zero⟩ else t

/-- The `for` loop of `CreateHandleFromPointer`: the first free slot from 1. -/
def freeSlot (t : HandleTable) : Option Nat :=
  (List.range' 1 (t.max - 1)).find? fun i => (t.entry i).type = .htEmpty

/-- `sizeof(HandleListEntry)`: type, padding, pointer, handle, padding. -/
def sizeofEntry : Nat := 24

/-- `sizeof(HandleList_max * sizeof(HandleListEntry))`, the size of the
    `size_t` the product has as its type. -/
def copyLength : Nat := 8

/-- `memcpy(NewHandleList, HandleList, n)` into zeroed memory: a field arrives
    when all of its bytes are among the first `n`. -/
def memcpyEntry (n i : Nat) (e : HandleListEntry) : HandleListEntry where
  type := if i * sizeofEntry + 4 ≤ n then e.type else .htEmpty
  pointer := if i * sizeofEntry + 16 ≤ n then e.pointer else 0

section

variable (t : HandleTable)

/-- The array of twice the size that takes the place of a full one. -/
def grow : HandleTable :=
  ⟨t.handleList.mapIdx (memcpyEntry copyLength) ++ List.replicate t.max .zero⟩

/-- `CreateHandleFromPointer`: the handle and the table after it. -/
def createHandleFromPointer (p : Pointer) (type : HandleType) : Int × HandleTable :=
  let t := t.ensure
  match t.freeSlot with
  | some i => (i, t.put i ⟨type, p⟩)
  | none => (t.max, t.grow.put t.max ⟨type, p⟩)

/-- The guard of `GetPointerFromHandle` and `RemoveHandle`. -/
def used (handle : Int) : Bool :=
  0 < handle ∧ handle < t.max ∧ (t.entry handle.toNat).type ≠ .htEmpty

def getPointerFromHandle (handle : Int) : Pointer :=
  if t.used handle then (t.entry handle.toNat).pointer else 0

def getHandleType (handle : Int) : HandleType :=
  if 0 < handle ∧ handle < t.max then (t.entry handle.toNat).type else .htEmpty

def removeHandle (handle : Int) : HandleTable :=
  if t.used handle then
    t.put handle.toNat { t.entry handle.toNat with type := .htEmpty }
  else t

/-- `SearchHandleList`: the first handle of a type whose pointer satisfies the
    callback, or 0. -/
def searchHandleList (type : HandleType) (cb : Pointer → Bool) : Int :=
  ((List.range' 1 (t.max - 1)).find? fun i =>
    (t.entry i).type = type ∧ cb (t.entry i).pointer).getD 0

end

/-! ## Slots -/

variable {t : HandleTable} {i j : Nat} {e : HandleListEntry} {p : Pointer} {type : HandleType}

@[simp] theorem put_max : (t.put i e).max = t.max := by
  simp [put, max]

theorem entry_put (hi : i < t.max) : (t.put i e).entry j = if i = j then e else t.entry j := by
  simp only [put, entry, max] at hi ⊢
  by_cases hij : i = j
  · subst hij
    simp [hi]
  · simp [List.getD_eq_getElem?_getD, List.getElem?_set_ne hij, hij]

theorem freeSlot_some (h : t.freeSlot = some i) :
    0 < i ∧ i < t.max ∧ (t.entry i).type = .htEmpty := by
  have hfree := List.find?_some h
  have hmem := List.mem_of_find?_eq_some h
  rw [List.mem_range'_1] at hmem
  refine ⟨by omega, by omega, by simpa using hfree⟩

theorem freeSlot_eq_none :
    t.freeSlot = none ↔ ∀ i, 0 < i → i < t.max → (t.entry i).type ≠ .htEmpty := by
  simp only [freeSlot, List.find?_eq_none, List.mem_range'_1, decide_eq_true_eq]
  constructor
  · intro h i hpos hlt
    exact h i ⟨by omega, by omega⟩
  · intro h i hi
    exact h i (by omega) (by omega)

variable {handle : Int}

theorem used_iff : t.used handle = true ↔
    0 < handle ∧ handle < t.max ∧ (t.entry handle.toNat).type ≠ .htEmpty := by
  simp [used]

theorem getPointerFromHandle_of_used (h : t.used handle = true) :
    t.getPointerFromHandle handle = (t.entry handle.toNat).pointer := by
  simp [getPointerFromHandle, h]

theorem getHandleType_of_used (h : t.used handle = true) :
    t.getHandleType handle = (t.entry handle.toNat).type := by
  obtain ⟨hpos, hlt, -⟩ := used_iff.1 h
  simp [getHandleType, hpos, hlt]

/-- Writing a slot in range decides whether that handle is in use and leaves
    the others as they were. -/
theorem used_put (hi : 0 < i) (hlt : i < t.max) :
    (t.put i e).used handle = true ↔
      if handle = i then e.type ≠ .htEmpty else t.used handle = true := by
  rw [used_iff, put_max, entry_put hlt]
  by_cases hh : handle = i
  · subst hh
    simp [hi, hlt]
  · have hne : 0 < handle → ¬ i = handle.toNat := by omega
    rw [if_neg hh, used_iff]
    constructor
    · rintro ⟨hpos, hmax, hty⟩
      exact ⟨hpos, hmax, by simpa [hne hpos] using hty⟩
    · rintro ⟨hpos, hmax, hty⟩
      exact ⟨hpos, hmax, by simpa [hne hpos] using hty⟩

@[simp] theorem ensure_max (h : t.max = 0 ∨ t.max = 256) : t.ensure.max = 256 := by
  unfold ensure
  split
  · exact List.length_replicate
  · next hnil =>
    have hne : t.max ≠ 0 := by simpa [max] using hnil
    omega

/-- Creating the array puts no handle in use and changes no slot. -/
theorem ensure_entry (i : Nat) : t.ensure.entry i = t.entry i := by
  unfold ensure
  split
  · next hnil =>
    simp only [entry, hnil, List.getD_eq_getElem?_getD, List.getElem?_replicate]
    split <;> simp
  · rfl

theorem ensure_used (h : t.max = 0 ∨ t.max = 256) :
    t.ensure.used handle = true ↔ t.used handle = true := by
  rw [used_iff, used_iff, ensure_entry, ensure_max h]
  constructor
  · rintro ⟨hpos, hlt, hty⟩
    refine ⟨hpos, ?_, hty⟩
    rcases h with h | h
    · exact absurd (by simp [entry, List.length_eq_zero_iff.1 h, HandleListEntry.zero]) hty
    · omega
  · rintro ⟨hpos, hlt, hty⟩
    exact ⟨hpos, by omega, hty⟩

theorem memcpyEntry_copyLength (hi : 0 < i) : memcpyEntry copyLength i e = .zero := by
  have htype : ¬ i * sizeofEntry + 4 ≤ copyLength := by
    simp only [sizeofEntry, copyLength]
    omega
  have hpointer : ¬ i * sizeofEntry + 16 ≤ copyLength := by omega
  simp [memcpyEntry, htype, hpointer, HandleListEntry.zero]

theorem grow_entry (hi : 0 < i) : t.grow.entry i = .zero := by
  simp only [grow, entry, List.getD_eq_getElem?_getD, List.getElem?_append]
  split
  · next hlt =>
    rw [List.getElem?_mapIdx]
    cases t.handleList[i]? with
    | none => rfl
    | some e => simp [memcpyEntry_copyLength hi]
  · rw [List.getElem?_replicate]
    split <;> rfl

@[simp] theorem grow_max : t.grow.max = t.max + t.max := by
  simp [grow, max]

theorem used_grow_put (hmax : 0 < t.max)
    (h : (t.grow.put t.max e).used handle = true) : handle = t.max := by
  by_contra hne
  rw [used_put hmax (by rw [grow_max]; omega), if_neg hne, used_iff] at h
  obtain ⟨hpos, -, htype⟩ := h
  rw [grow_entry (by omega)] at htype
  exact htype rfl

end HandleTable

/-! ## Runs -/

/-- A call on the handle list.  No caller creates a handle of type
    `htEmpty`. -/
inductive HandleCall
  | createHandleFromPointer (p : Pointer) (type : HandleType) (hne : type ≠ .htEmpty)
  | removeHandle (handle : Int)
  | getPointerFromHandle (handle : Int)
  | getHandleType (handle : Int)
  | searchHandleList (type : HandleType) (cb : Pointer → Bool)

/-- The table together with the handles that were returned and not yet
    removed, each with what it was created for. -/
structure HandleRun where
  table : HandleTable
  live : List (Int × HandleListEntry)

namespace HandleRun

/-- Before the first call. -/
def initial : HandleRun := ⟨.initial, []⟩

def step (s : HandleRun) : HandleCall → HandleRun
  | .createHandleFromPointer p type _ =>
    let (handle, table) := s.table.createHandleFromPointer p type
    ⟨table, (handle, ⟨type, p⟩) :: s.live⟩
  | .removeHandle handle =>
    ⟨s.table.removeHandle handle, s.live.filter fun l => l.1 ≠ handle⟩
  | .getPointerFromHandle _ => s
  | .getHandleType _ => s
  | .searchHandleList _ _ => s

/-- Every live handle resolves to the pointer and type it was created with. -/
def Resolves (s : HandleRun) : Prop :=
  ∀ l ∈ s.live, s.table.getPointerFromHandle l.1 = l.2.pointer ∧
    s.table.getHandleType l.1 = l.2.type

/-- A creation returns neither 0 nor a live handle. -/
def Fresh (s : HandleRun) : HandleCall → Prop
  | .createHandleFromPointer p type _ =>
    let handle := (s.table.createHandleFromPointer p type).1
    handle ≠ 0 ∧ handle ∉ s.live.map Prod.fst
  | _ => True

/-- A creation finds at most 254 live handles. -/
def Room (s : HandleRun) : HandleCall → Prop
  | .createHandleFromPointer _ _ _ => s.live.length < 255
  | _ => True

/-- While the table has not grown, its used slots are the live handles. -/
structure Tracked (s : HandleRun) : Prop where
  max : s.table.max = 0 ∨ s.table.max = 256
  used : ∀ h e, (h, e) ∈ s.live ↔ s.table.used h = true ∧ s.table.entry h.toNat = e
  nodup : (s.live.map Prod.fst).Nodup

variable {s : HandleRun}

theorem tracked_initial : Tracked initial where
  max := .inl rfl
  used h e := by
    simp [initial, HandleTable.initial, HandleTable.used, HandleTable.max]
    omega
  nodup := List.nodup_nil

section

variable (hs : Tracked s)
include hs

theorem Tracked.resolves : Resolves s := by
  intro l hl
  obtain ⟨hused, hentry⟩ := (hs.used l.1 l.2).1 hl
  rw [HandleTable.getPointerFromHandle_of_used hused, HandleTable.getHandleType_of_used hused,
    hentry]
  exact ⟨rfl, rfl⟩

theorem Tracked.mem_keys {h : Int} :
    h ∈ s.live.map Prod.fst ↔ s.table.used h = true := by
  rw [List.mem_map]
  constructor
  · rintro ⟨⟨h', e⟩, hmem, rfl⟩
    exact ((hs.used h' e).1 hmem).1
  · intro hused
    exact ⟨(h, _), (hs.used h _).2 ⟨hused, rfl⟩, rfl⟩

theorem Tracked.length_lt_iff :
    s.live.length < 255 ↔ s.table.ensure.freeSlot ≠ none := by
  have hcard : (s.live.map Prod.fst).toFinset.card = s.live.length := by
    rw [List.toFinset_card_of_nodup hs.nodup, List.length_map]
  have hslots : (Finset.Icc (1 : Int) 255).card = 255 := by simp
  have hmax := HandleTable.ensure_max hs.max
  have hsub : (s.live.map Prod.fst).toFinset ⊆ Finset.Icc (1 : Int) 255 := by
    intro h hh
    rw [List.mem_toFinset, hs.mem_keys, ← HandleTable.ensure_used hs.max,
      HandleTable.used_iff, hmax] at hh
    rw [Finset.mem_Icc]
    omega
  constructor
  · -- If every slot is taken, all of 1..255 are live.
    intro hlt hnone
    rw [HandleTable.freeSlot_eq_none, hmax] at hnone
    have hall : Finset.Icc (1 : Int) 255 ⊆ (s.live.map Prod.fst).toFinset := by
      intro h hh
      rw [Finset.mem_Icc] at hh
      rw [List.mem_toFinset, hs.mem_keys, ← HandleTable.ensure_used hs.max,
        HandleTable.used_iff, hmax]
      exact ⟨by omega, by omega, hnone h.toNat (by omega) (by omega)⟩
    have hle := Finset.card_le_card hall
    omega
  · intro hsome
    obtain ⟨i, hi⟩ := Option.ne_none_iff_exists'.1 hsome
    obtain ⟨hpos, hlt, hfree⟩ := HandleTable.freeSlot_some hi
    have hnot : (i : Int) ∉ (s.live.map Prod.fst).toFinset := by
      rw [List.mem_toFinset, hs.mem_keys, ← HandleTable.ensure_used hs.max,
        HandleTable.used_iff]
      rintro ⟨-, -, htype⟩
      exact htype hfree
    have hss : (s.live.map Prod.fst).toFinset ⊂ Finset.Icc (1 : Int) 255 := by
      refine (Finset.ssubset_iff_of_subset hsub).2 ⟨i, ?_, hnot⟩
      rw [Finset.mem_Icc]
      omega
    have hcardlt := Finset.card_lt_card hss
    omega

theorem create_of_room (hroom : s.live.length < 255) (e : HandleListEntry) :
    ∃ i : Nat, s.table.createHandleFromPointer e.pointer e.type = (↑i, s.table.ensure.put i e) ∧
      0 < i ∧ i < s.table.ensure.max ∧ s.table.used i = false := by
  obtain ⟨i, hi⟩ := Option.ne_none_iff_exists'.1 (hs.length_lt_iff.1 hroom)
  obtain ⟨hpos, hlt, hfree⟩ := HandleTable.freeSlot_some hi
  refine ⟨i, by simp [HandleTable.createHandleFromPointer, hi], hpos, hlt, ?_⟩
  rw [← Bool.not_eq_true, ← HandleTable.ensure_used hs.max, HandleTable.used_iff]
  rintro ⟨-, -, htype⟩
  exact htype hfree

theorem tracked_create (p : Pointer) (type : HandleType)
    (hne : type ≠ .htEmpty) (hroom : s.live.length < 255) :
    Tracked (s.step (.createHandleFromPointer p type hne)) := by
  obtain ⟨i, hcreate, hpos, hlt, hunused⟩ := create_of_room hs hroom ⟨type, p⟩
  have hstep : s.step (.createHandleFromPointer p type hne) =
      ⟨s.table.ensure.put i ⟨type, p⟩, (↑i, ⟨type, p⟩) :: s.live⟩ := by
    simp only [step, hcreate]
  rw [hstep]
  refine ⟨.inr ?_, ?_, ?_⟩
  · simpa using HandleTable.ensure_max hs.max
  · intro h e
    rw [HandleTable.used_put hpos hlt, HandleTable.entry_put hlt, List.mem_cons, hs.used]
    by_cases hh : h = i
    · subst hh
      simp [hunused, hne, eq_comm]
    · rw [if_neg hh, HandleTable.ensure_used hs.max, HandleTable.ensure_entry]
      constructor
      · rintro (heq | ⟨hused, hentry⟩)
        · exact absurd (Prod.mk.inj heq).1 hh
        · have hi : ¬ i = h.toNat := by
            have := (HandleTable.used_iff.1 hused).1
            omega
          exact ⟨hused, by rw [if_neg hi]; exact hentry⟩
      · rintro ⟨hused, hentry⟩
        have hi : ¬ i = h.toNat := by
          have := (HandleTable.used_iff.1 hused).1
          omega
        exact .inr ⟨hused, by rwa [if_neg hi] at hentry⟩
  · rw [List.map_cons, List.nodup_cons, hs.mem_keys, hunused]
    exact ⟨by simp, hs.nodup⟩

theorem tracked_remove (handle : Int) :
    Tracked (s.step (.removeHandle handle)) := by
  have hlive : ∀ h e, (h, e) ∈ s.live.filter (fun l => l.1 ≠ handle) ↔
      h ≠ handle ∧ (h, e) ∈ s.live := by
    intro h e
    simp [and_comm]
  have hnodup : ((s.live.filter fun l => l.1 ≠ handle).map Prod.fst).Nodup :=
    hs.nodup.sublist (List.filter_sublist.map Prod.fst)
  by_cases hused : s.table.used handle = true
  · have hstep : s.step (.removeHandle handle) =
        ⟨s.table.put handle.toNat { s.table.entry handle.toNat with type := .htEmpty },
          s.live.filter fun l => l.1 ≠ handle⟩ := by
      simp [step, HandleTable.removeHandle, hused]
    obtain ⟨hpos, hlt, -⟩ := HandleTable.used_iff.1 hused
    have hcast : (handle.toNat : Int) = handle := Int.toNat_of_nonneg (by omega)
    rw [hstep]
    refine ⟨by simpa using hs.max, ?_, hnodup⟩
    intro h e
    rw [hlive, HandleTable.used_put (by omega) (by omega), HandleTable.entry_put (by omega),
      hcast, hs.used]
    by_cases hh : h = handle
    · simp [hh]
    · rw [if_neg hh]
      constructor
      · rintro ⟨-, hu, hentry⟩
        have hpos' := (HandleTable.used_iff.1 hu).1
        exact ⟨hu, by rw [if_neg (by omega)]; exact hentry⟩
      · rintro ⟨hu, hentry⟩
        have hpos' := (HandleTable.used_iff.1 hu).1
        exact ⟨hh, hu, by rwa [if_neg (by omega)] at hentry⟩
  · have hstep : s.step (.removeHandle handle) =
        ⟨s.table, s.live.filter fun l => l.1 ≠ handle⟩ := by
      simp [step, HandleTable.removeHandle, hused]
    rw [hstep]
    refine ⟨hs.max, ?_, hnodup⟩
    intro h e
    rw [hlive, hs.used]
    constructor
    · rintro ⟨-, hrest⟩
      exact hrest
    · rintro ⟨hu, hentry⟩
      refine ⟨?_, hu, hentry⟩
      rintro rfl
      exact hused hu

theorem Tracked.step (c : HandleCall) (hroom : Room s c) :
    Tracked (s.step c) := by
  cases c with
  | createHandleFromPointer p type hne => exact tracked_create hs p type hne hroom
  | removeHandle handle => exact tracked_remove hs handle
  | getPointerFromHandle => exact hs
  | getHandleType => exact hs
  | searchHandleList => exact hs

theorem not_resolves_of_full (p : Pointer) (type : HandleType)
    (hne : type ≠ .htEmpty) (hfull : ¬ s.live.length < 255) :
    ¬ Resolves (s.step (.createHandleFromPointer p type hne)) := by
  have hnone : s.table.ensure.freeSlot = none := by
    by_contra hsome
    exact hfull (hs.length_lt_iff.2 hsome)
  have hmax := HandleTable.ensure_max hs.max
  -- Slot 1 is one of the handles that the search found taken.
  have hone := HandleTable.freeSlot_eq_none.1 hnone 1 (by omega) (by omega)
  have hused : s.table.used 1 = true := by
    rw [← HandleTable.ensure_used hs.max, HandleTable.used_iff, hmax]
    exact ⟨by omega, by omega, hone⟩
  have hmem : ((1 : Int), s.table.entry 1) ∈ s.live := (hs.used _ _).2 ⟨hused, rfl⟩
  have hstep : s.step (.createHandleFromPointer p type hne) =
      ⟨s.table.ensure.grow.put 256 ⟨type, p⟩, (256, ⟨type, p⟩) :: s.live⟩ := by
    simp [HandleRun.step, HandleTable.createHandleFromPointer, hnone, hmax]
  rw [hstep]
  intro hres
  obtain ⟨-, htype⟩ := hres _ (List.mem_cons_of_mem _ hmem)
  have hgone : ((s.table.ensure.grow.put 256 ⟨type, p⟩).entry 1).type = .htEmpty := by
    rw [HandleTable.entry_put (by simp [hmax]), if_neg (by omega),
      HandleTable.grow_entry (by omega)]
    rfl
  rw [HandleTable.ensure_entry] at hone
  simp only [HandleTable.getHandleType, HandleTable.put_max, HandleTable.grow_max, hmax] at htype
  exact hone (htype.symm.trans (by simpa using hgone))

theorem keeps_iff_room (c : HandleCall) :
    (Fresh s c ∧ Resolves (s.step c)) ↔ Room s c := by
  constructor
  · rintro ⟨-, hres⟩
    cases c with
    | createHandleFromPointer p type hne =>
      by_contra hfull
      exact not_resolves_of_full hs p type hne hfull hres
    | _ => trivial
  · intro hroom
    refine ⟨?_, (hs.step c hroom).resolves⟩
    cases c with
    | createHandleFromPointer p type hne =>
      obtain ⟨i, hcreate, hpos, -, hunused⟩ := create_of_room hs hroom ⟨type, p⟩
      simp only [Fresh, hcreate, hs.mem_keys, hunused]
      exact ⟨by omega, by simp⟩
    | _ => trivial

theorem along_keeps_iff_room (calls : List HandleCall) :
    Along HandleRun.step (fun s c => Fresh s c ∧ Resolves (s.step c)) s calls ↔
      Along HandleRun.step Room s calls := by
  refine along_congr (I := Tracked) ?_ (fun s c hs => keeps_iff_room hs c) hs calls
  intro s c hs hkeep
  exact hs.step c ((keeps_iff_room hs c).1 hkeep)

end

theorem length_add_lt_of_creations (p : Pointer) (type : HandleType) (hne : type ≠ .htEmpty)
    (n : Nat) (h : Along HandleRun.step Room s
      (List.replicate (n + 1) (.createHandleFromPointer p type hne))) :
    s.live.length + n < 255 := by
  induction n generalizing s with
  | zero => exact h.1
  | succ n ih =>
    have hlast := ih h.2
    simp only [HandleRun.step, List.length_cons] at hlast
    omega

end HandleRun

/-- Along every run of calls from the empty table, each creation returns a
    fresh non-zero handle and every live handle keeps resolving, if and only if
    every creation is made with fewer than 255 live handles. -/
theorem handles_kept_iff_room (calls : List HandleCall) :
    Along HandleRun.step (fun s c => s.Fresh c ∧ (s.step c).Resolves) .initial calls ↔
      Along HandleRun.step HandleRun.Room .initial calls :=
  HandleRun.along_keeps_iff_room HandleRun.tracked_initial calls

/-- 256 creations in a row: the last one drops the 255 handles before it. -/
theorem handles_lost_after_256_creations :
    ¬ Along HandleRun.step (fun s c => s.Fresh c ∧ (s.step c).Resolves) .initial
      (List.replicate 256 (.createHandleFromPointer 1 .htTHSProcess (by decide))) := by
  rw [HandleRun.along_keeps_iff_room HandleRun.tracked_initial]
  intro hroom
  exact absurd (HandleRun.length_add_lt_of_creations 1 .htTHSProcess (by decide) 255 hroom)
    (by decide)

end CheatEngine.Ceserver
