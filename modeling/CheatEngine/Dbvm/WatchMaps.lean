/-
  CheatEngine.Dbvm.WatchMaps

  The mapping of the watched entries (epthandler.c, mm.c).  `ept_watch_activate` maps the
  entry of each CPU into the global area and keeps the address under the ID of the watch.
  `ept_watch_deactivate` opens and unmaps only the IDs below `eptWatchListLength`, and that
  is never set.
-/
import CheatEngine.Dbvm.Watch
import Mathlib.Data.List.FinRange

namespace CheatEngine.Dbvm

open CheatEngine.Lib

/-! ## The global area -/

/-- The pages from `GLOBALMAPPEDMEMORY` to `MAPPEDMEMORY`. -/
def globalMapPages : Nat := (0x08000000000 - 0x07000000000) / 4096

/-- `mmFindGlobalMapAddressForSize` for one page: the first of the `rest` pages from `i` on
    that is not present. -/
def findGlobalPage (present : Nat → Bool) : (rest i : Nat) → Option Nat
  | 0, _ => none
  | rest + 1, i => if present i then findGlobalPage present rest (i + 1) else some i

theorem findGlobalPage_eq_some {present : Nat → Bool} {rest i slot : Nat}
    (h : findGlobalPage present rest i = some slot) : present slot = false := by
  induction rest generalizing i with
  | zero => cases h
  | succ rest ih =>
    rw [findGlobalPage] at h
    split at h
    · exact ih h
    · next hi =>
      obtain rfl := Option.some.inj h
      exact Bool.eq_false_iff.2 hi

/-- The watches of `n` CPUs, which pages of the global area are present, and for each CPU
    and ID the page where its entry is mapped. -/
structure WatchMaps (n : Nat) where
  watches : WatchState (Fin n)
  present : Nat → Bool
  pointer : Fin n → Nat → Option Nat

/-- A call that changes the watches. -/
inductive WatchCall (n : Nat)
  | activate (args : WatchArguments) (restore : Fin n → Bool)
  | deactivate (ID : Nat)

namespace WatchMaps

variable {n : Nat}

/-- No watch yet; other parts of DBVM have mapped their pages. -/
def initial (other : Nat → Bool) (entry : Fin n → Nat → PageEntry) : WatchMaps n where
  watches := .initial entry
  present := other
  pointer _ _ := none

/-- `mapPhysicalMemoryGlobal` of the entry of one CPU, which lies in one page.  When the area is
    full the address is near 0, and the CPU faults on it. -/
def mapEntry (ID : Nat) (s : WatchMaps n) (c : Fin n) : Option (WatchMaps n) :=
  (findGlobalPage s.present globalMapPages 0).map fun slot =>
    { s with
      present := Function.update s.present slot true
      pointer := Function.update s.pointer c (Function.update (s.pointer c) ID (some slot)) }

/-- The loop of `ept_watch_activate` over the CPUs. -/
def mapEntries (ID : Nat) (s : WatchMaps n) (cpus : List (Fin n)) : Option (WatchMaps n) :=
  cpus.foldlM (mapEntry ID) s

def activate (executeOnly : Bool) (s : WatchMaps n) (args : WatchArguments)
    (restore : Fin n → Bool) : Option (Nat × WatchMaps n) :=
  if WatchState.accepts args then
    (s.mapEntries s.watches.getFreeWatchID (List.finRange n)).map fun s =>
      (0, { s with watches := s.watches.activate executeOnly args restore })
  else some (1, s)

/-- `unmapPhysicalMemoryGlobal` of the entry of one CPU, if it has one under the ID. -/
def unmapEntry (ID : Nat) (s : WatchMaps n) (c : Fin n) : WatchMaps n :=
  if ID < s.watches.eptWatchListLength c then
    match s.pointer c ID with
    | none => s
    | some slot =>
      { s with
        present := Function.update s.present slot false
        pointer := Function.update s.pointer c (Function.update (s.pointer c) ID none) }
  else s

section

variable (executeOnly : Bool) (s : WatchMaps n)

def deactivate (ID : Nat) : Nat × WatchMaps n :=
  match s.watches.eptWatchList[ID]? with
  | none => (1, s)
  | some w =>
    if w.active then
      let unmapped :=
        if s.watches.hasAnotherOne ID w then s
        else (List.finRange n).foldl (unmapEntry ID) s
      (0, { unmapped with watches := s.watches.deactivate executeOnly ID })
    else (2, s)

def call : WatchCall n → Option (Nat × WatchMaps n)
  | .activate args restore => s.activate executeOnly args restore
  | .deactivate ID => some (s.deactivate executeOnly ID)

def step (i : WatchCall n) : Option (WatchMaps n) :=
  (s.call executeOnly i).map Prod.snd

end

/-! ## What is wanted -/

def Active (s : WatchMaps n) (ID : Nat) : Prop :=
  ∃ w, s.watches.eptWatchList[ID]? = some w ∧ w.active = true

/-- The pages present in the area are those of other parts, and one for each pair of an active
    watch and a CPU. -/
structure Exact (other : Nat → Bool) (s : WatchMaps n) : Prop where
  pages : ∀ slot, s.present slot = true ↔
    other slot = true ∨ ∃ ID c, s.Active ID ∧ s.pointer c ID = some slot
  mapped : ∀ ID c, s.Active ID → ∃ slot, s.pointer c ID = some slot

/-- A deactivation that returns 0 and leaves no active watch on the page has opened the entry of
    every CPU. -/
def Reopened (s s' : WatchMaps n) (code : Nat) : WatchCall n → Prop
  | .activate _ _ => True
  | .deactivate ID => code = 0 → ∀ w, s.watches.eptWatchList[ID]? = some w →
      (∀ ID' w', ¬ s'.watches.ActiveOn ID' w.page w') →
        ∀ c, (s'.watches.entry c w.page).fullAccess = s'.watches.entry c w.page

/-- A call leaves the area exact, and a deactivation opens the entries. -/
def Undoes (executeOnly : Bool) (other : Nat → Bool) (s : WatchMaps n) (i : WatchCall n) : Prop :=
  ∀ code s', s.call executeOnly i = some (code, s') → Exact other s' ∧ s.Reopened s' code i

/-- The call is not the deactivation of an active watch. -/
def KeepsActive (s : WatchMaps n) : WatchCall n → Prop
  | .activate _ _ => True
  | .deactivate ID => ¬ s.Active ID

variable {s s' : WatchMaps n} {ID : Nat} {other : Nat → Bool} {executeOnly : Bool}

theorem mapEntry_eq_some {c : Fin n} (h : s.mapEntry ID c = some s') :
    ∃ slot, s.present slot = false ∧ s' = { s with
      present := Function.update s.present slot true
      pointer := Function.update s.pointer c (Function.update (s.pointer c) ID (some slot)) } := by
  obtain ⟨slot, hfind, rfl⟩ := Option.map_eq_some_iff.1 h
  exact ⟨slot, findGlobalPage_eq_some hfind, rfl⟩

/-- What mapping the entries of some CPUs has done: each has got its own page, that was not
    present. -/
structure Mapped (ID : Nat) (s s' : WatchMaps n) (cpus : List (Fin n)) : Prop where
  watches : s'.watches = s.watches
  others : ∀ c ID', ¬ (c ∈ cpus ∧ ID' = ID) → s'.pointer c ID' = s.pointer c ID'
  fresh : ∀ c ∈ cpus, ∃ slot, s'.pointer c ID = some slot ∧ s.present slot = false
  apart : ∀ c ∈ cpus, ∀ c' ∈ cpus, s'.pointer c ID = s'.pointer c' ID → c = c'
  present : ∀ slot, s'.present slot = true ↔
    s.present slot = true ∨ ∃ c ∈ cpus, s'.pointer c ID = some slot

theorem mapped_mapEntries {cpus : List (Fin n)} (hnodup : cpus.Nodup)
    (h : s.mapEntries ID cpus = some s') : Mapped ID s s' cpus := by
  induction cpus generalizing s with
  | nil =>
    obtain rfl := Option.some.inj h
    refine ⟨rfl, fun _ _ _ => rfl, ?_, ?_, fun slot => ⟨Or.inl, ?_⟩⟩
    · intro c hc
      cases hc
    · intro c hc
      cases hc
    · rintro (hpresent | ⟨c, hc, -⟩)
      · exact hpresent
      · cases hc
  | cons c cs ih =>
    rw [mapEntries, List.foldlM_cons] at h
    obtain ⟨s₁, hfirst, hrest⟩ := Option.bind_eq_some_iff.1 h
    obtain ⟨slot, hslot, rfl⟩ := mapEntry_eq_some hfirst
    obtain ⟨hc, hcs⟩ := List.nodup_cons.1 hnodup
    have hm := ih hcs hrest
    -- the later CPUs do not touch the entry of the first one
    have hpointer : s'.pointer c ID = some slot := by
      rw [hm.others c ID fun hmem => hc hmem.1]
      show Function.update s.pointer c _ c ID = _
      rw [Function.update_self, Function.update_self]
    have hfresh : ∀ d ∈ cs, ∃ p, s'.pointer d ID = some p ∧ s.present p = false ∧ p ≠ slot := by
      intro d hd
      obtain ⟨p, hp, (hfree : Function.update s.present slot true p = false)⟩ := hm.fresh d hd
      have hne : p ≠ slot := by
        rintro rfl
        rw [Function.update_self] at hfree
        cases hfree
      rw [Function.update_of_ne hne] at hfree
      exact ⟨p, hp, hfree, hne⟩
    refine ⟨hm.watches, ?_, ?_, ?_, ?_⟩
    · intro d ID' hother
      rw [hm.others d ID' fun hmem => hother ⟨List.mem_cons_of_mem c hmem.1, hmem.2⟩]
      show Function.update s.pointer c _ d ID' = _
      by_cases hd : d = c
      · subst hd
        rw [Function.update_self, Function.update_of_ne]
        exact fun hID => hother ⟨List.mem_cons_self, hID⟩
      · rw [Function.update_of_ne hd]
    · intro d hd
      rcases List.mem_cons.1 hd with rfl | hd
      · exact ⟨slot, hpointer, hslot⟩
      · obtain ⟨p, hp, hfree, -⟩ := hfresh d hd
        exact ⟨p, hp, hfree⟩
    · intro d hd d' hd' hsame
      rcases List.mem_cons.1 hd with rfl | hmem
      · rcases List.mem_cons.1 hd' with rfl | hmem'
        · rfl
        · obtain ⟨p, hp, -, hne⟩ := hfresh d' hmem'
          rw [hpointer, hp] at hsame
          exact absurd (Option.some.inj hsame).symm hne
      · rcases List.mem_cons.1 hd' with rfl | hmem'
        · obtain ⟨p, hp, -, hne⟩ := hfresh d hmem
          rw [hpointer, hp] at hsame
          exact absurd (Option.some.inj hsame) hne
        · exact hm.apart d hmem d' hmem' hsame
    · intro p
      rw [hm.present]
      show Function.update s.present slot true p = true ∨ _ ↔ _
      constructor
      · rintro (hp | ⟨d, hd, hp⟩)
        · by_cases hslot' : p = slot
          · exact Or.inr ⟨c, List.mem_cons_self, hslot' ▸ hpointer⟩
          · rw [Function.update_of_ne hslot'] at hp
            exact Or.inl hp
        · exact Or.inr ⟨d, List.mem_cons_of_mem c hd, hp⟩
      · rintro (hp | ⟨d, hd, hp⟩)
        · left
          by_cases hslot' : p = slot
          · rw [hslot', Function.update_self]
          · rw [Function.update_of_ne hslot']
            exact hp
        · rcases List.mem_cons.1 hd with rfl | hd
          · left
            rw [hpointer] at hp
            rw [← Option.some.inj hp, Function.update_self]
          · exact Or.inr ⟨d, hd, hp⟩

/-! ## Invariant -/

/-- What a run keeps: the area is exact, no two pairs share a page, and none has a page of
    another part. -/
structure Inv (other : Nat → Bool) (s : WatchMaps n) : Prop where
  length : ∀ c, s.watches.eptWatchListLength c = 0
  exact : Exact other s
  apart : ∀ ID c ID' c', s.Active ID → s.Active ID' → s.pointer c ID = s.pointer c' ID' →
    ID = ID' ∧ c = c'
  own : ∀ ID c slot, s.Active ID → s.pointer c ID = some slot → other slot = false

theorem inv_initial (other : Nat → Bool) (entry : Fin n → Nat → PageEntry) :
    (initial other entry).Inv other := by
  have hnone : ∀ ID, ¬ (initial other entry).Active ID := by
    rintro ID ⟨w, hw, -⟩
    cases hw
  refine ⟨fun _ => rfl, ⟨fun slot => ⟨Or.inl, ?_⟩, ?_⟩, ?_, ?_⟩
  · rintro (hother | ⟨ID, c, hactive, -⟩)
    · exact hother
    · exact absurd hactive (hnone ID)
  · exact fun ID c hactive => absurd hactive (hnone ID)
  · exact fun ID c ID' c' hactive => absurd hactive (hnone ID)
  · exact fun ID c slot hactive => absurd hactive (hnone ID)

theorem not_active_getFreeWatchID : ¬ s.Active s.watches.getFreeWatchID := by
  rintro ⟨w, hw, hactive⟩
  exact ne_freeSlot (!·.active) hw (by rw [hactive]; rfl) rfl

theorem active_activate (executeOnly : Bool) (m : WatchMaps n) {args : WatchArguments}
    (restore : Fin n → Bool) (haccepts : WatchState.accepts args = true) (ID : Nat) :
    Active { m with watches := s.watches.activate executeOnly args restore } ID ↔
      ID = s.watches.getFreeWatchID ∨ s.Active ID := by
  have hlist : (s.watches.activate executeOnly args restore).eptWatchList =
      putFree (!·.active) s.watches.eptWatchList (s.watches.newWatch args) := by
    rw [WatchState.activate, if_pos haccepts]
  rw [Active, hlist]
  have hget := getElem?_putFree (!·.active) s.watches.eptWatchList (s.watches.newWatch args) ID
  constructor
  · rintro ⟨w, hw, hactive⟩
    rw [hget] at hw
    split at hw
    · next hID => exact Or.inl hID
    · exact Or.inr ⟨w, hw, hactive⟩
  · intro hor
    by_cases hID : ID = s.watches.getFreeWatchID
    · exact ⟨s.watches.newWatch args, hget.trans (if_pos hID), rfl⟩
    · obtain ⟨w, hw, hactive⟩ := hor.resolve_left hID
      exact ⟨w, (hget.trans (if_neg hID)).trans hw, hactive⟩

variable {code : Nat}

/-- An activation. -/
theorem Inv.activate (h : s.Inv other) {args : WatchArguments} {restore : Fin n → Bool}
    (hcall : s.activate executeOnly args restore = some (code, s')) : s'.Inv other := by
  unfold WatchMaps.activate at hcall
  split at hcall
  swap
  · obtain ⟨-, rfl⟩ := Prod.mk.inj (Option.some.inj hcall)
    exact h
  next haccepts =>
  obtain ⟨m, hmap, heq⟩ := Option.map_eq_some_iff.1 hcall
  obtain ⟨-, rfl⟩ := Prod.mk.inj heq
  have hm := mapped_mapEntries (List.nodup_finRange n) hmap
  rw [hm.watches]
  have hactive := active_activate (s := s) executeOnly m restore haccepts
  -- the watches of before keep their pages
  have hold : ∀ ID c, s.Active ID → m.pointer c ID = s.pointer c ID := by
    intro ID c hID
    refine hm.others c ID fun hmem => ?_
    rw [hmem.2] at hID
    exact not_active_getFreeWatchID hID
  have hnew : ∀ c, ∃ slot, m.pointer c s.watches.getFreeWatchID = some slot ∧
      s.present slot = false := fun c => hm.fresh c (List.mem_finRange c)
  -- a page of a watch of before was present
  have hpresent : ∀ ID c slot, s.Active ID → s.pointer c ID = some slot → s.present slot = true :=
    fun ID c slot hID hslot => (h.exact.pages slot).2 (Or.inr ⟨ID, c, hID, hslot⟩)
  refine ⟨?_, ⟨fun slot => ?_, fun ID c hID => ?_⟩, fun ID c ID' c' hID hID' hsame => ?_,
    fun ID c slot hID hslot => ?_⟩
  · intro c
    show (s.watches.activate executeOnly args restore).eptWatchListLength c = 0
    rw [WatchState.activate, if_pos haccepts]
    exact h.length c
  · rw [hm.present, h.exact.pages]
    constructor
    · rintro ((hother | ⟨ID, c, hID, hslot⟩) | ⟨c, -, hslot⟩)
      · exact Or.inl hother
      · exact Or.inr ⟨ID, c, (hactive ID).2 (Or.inr hID), (hold ID c hID).trans hslot⟩
      · exact Or.inr ⟨_, c, (hactive _).2 (Or.inl rfl), hslot⟩
    · rintro (hother | ⟨ID, c, hID, hslot⟩)
      · exact Or.inl (Or.inl hother)
      · rcases (hactive ID).1 hID with rfl | hID
        · exact Or.inr ⟨c, List.mem_finRange c, hslot⟩
        · exact Or.inl (Or.inr ⟨ID, c, hID, (hold ID c hID).symm.trans hslot⟩)
  · rcases (hactive ID).1 hID with rfl | hID
    · obtain ⟨slot, hslot, -⟩ := hnew c
      exact ⟨slot, hslot⟩
    · obtain ⟨slot, hslot⟩ := h.exact.mapped ID c hID
      exact ⟨slot, (hold ID c hID).trans hslot⟩
  · have hsame : m.pointer c ID = m.pointer c' ID' := hsame
    rcases (hactive ID).1 hID with rfl | hID
    · rcases (hactive ID').1 hID' with rfl | hID'
      · exact ⟨rfl, hm.apart c (List.mem_finRange c) c' (List.mem_finRange c') hsame⟩
      · obtain ⟨slot, hslot, hfree⟩ := hnew c
        rw [hold ID' c' hID', hslot] at hsame
        exact absurd (hfree.symm.trans (hpresent ID' c' slot hID' hsame.symm)) Bool.false_ne_true
    · rcases (hactive ID').1 hID' with rfl | hID'
      · obtain ⟨slot, hslot, hfree⟩ := hnew c'
        rw [hold ID c hID, hslot] at hsame
        exact absurd (hfree.symm.trans (hpresent ID c slot hID hsame)) Bool.false_ne_true
      · rw [hold ID c hID, hold ID' c' hID'] at hsame
        exact h.apart ID c ID' c' hID hID' hsame
  · rcases (hactive ID).1 hID with rfl | hID
    · -- a new page was not present, as those of other parts are
      obtain ⟨slot', hslot', hfree⟩ := hnew c
      obtain rfl := Option.some.inj (hslot.symm.trans hslot')
      by_contra hother
      have hused := (h.exact.pages slot).2 (Or.inl (Bool.eq_true_of_not_eq_false hother))
      exact absurd (hfree.symm.trans hused) Bool.false_ne_true
    · exact h.own ID c slot hID ((hold ID c hID).symm.trans hslot)

/-- Nothing is unmapped. -/
theorem foldl_unmapEntry (hlength : ∀ c, s.watches.eptWatchListLength c = 0) (cpus : List (Fin n)) :
    cpus.foldl (unmapEntry ID) s = s := by
  induction cpus with
  | nil => rfl
  | cons c cs ih =>
    have hfirst : s.unmapEntry ID c = s := by
      rw [unmapEntry, hlength c, if_neg (Nat.not_lt_zero ID)]
    rw [List.foldl_cons, hfirst]
    exact ih

theorem deactivate_of_not_active (h : ¬ s.Active ID)
    (hcall : s.deactivate executeOnly ID = (code, s')) : code ≠ 0 ∧ s' = s := by
  unfold deactivate at hcall
  split at hcall
  · obtain ⟨rfl, rfl⟩ := Prod.mk.inj hcall
    exact ⟨Nat.one_ne_zero, rfl⟩
  · next w hw =>
    rw [if_neg fun hactive => h ⟨w, hw, hactive⟩] at hcall
    obtain ⟨rfl, rfl⟩ := Prod.mk.inj hcall
    exact ⟨Nat.succ_ne_zero 1, rfl⟩

theorem deactivate_of_active (executeOnly : Bool)
    (hlength : ∀ c, s.watches.eptWatchListLength c = 0) (h : s.Active ID) :
    s.deactivate executeOnly ID =
      (0, { s with watches := s.watches.deactivate executeOnly ID }) := by
  obtain ⟨w, hw, hactive⟩ := h
  rw [deactivate, hw]
  dsimp only
  rw [if_pos hactive, foldl_unmapEntry hlength, ite_self]

theorem not_exact_of_deactivate {s : WatchMaps (n + 1)} (h : s.Inv other) (hactive : s.Active ID) :
    ¬ Exact other { s with watches := s.watches.deactivate executeOnly ID } := by
  intro hexact
  obtain ⟨w, hw, hw'⟩ := hactive
  have hlist : (s.watches.deactivate executeOnly ID).eptWatchList =
      s.watches.eptWatchList.set ID { w with active := false } := by
    rw [WatchState.deactivate, hw]
    dsimp only
    rw [if_pos hw']
  -- the page of the first CPU is still there
  obtain ⟨slot, hslot⟩ := h.exact.mapped ID 0 ⟨w, hw, hw'⟩
  have hpresent := (h.exact.pages slot).2 (Or.inr ⟨ID, 0, ⟨w, hw, hw'⟩, hslot⟩)
  rcases (hexact.pages slot).1 hpresent with hother | ⟨ID', c, ⟨v, hv, hv'⟩, hslot'⟩
  · exact absurd ((h.own ID 0 slot ⟨w, hw, hw'⟩ hslot).symm.trans hother) Bool.false_ne_true
  · -- and it is the page of no other watch
    rw [hlist, List.getElem?_set] at hv
    split at hv
    · split at hv
      · obtain rfl := Option.some.inj hv
        cases hv'
      · cases hv
    · next hne =>
      have hsame : s.pointer 0 ID = s.pointer c ID' := hslot.trans hslot'.symm
      exact hne (h.apart ID 0 ID' c ⟨w, hw, hw'⟩ ⟨v, hv, hv'⟩ hsame).1

theorem Inv.call (h : s.Inv other) {i : WatchCall n} (hkeeps : s.KeepsActive i)
    (hcall : s.call executeOnly i = some (code, s')) : s'.Inv other ∧ s.Reopened s' code i := by
  cases i with
  | activate args restore => exact ⟨h.activate hcall, trivial⟩
  | deactivate ID =>
    obtain ⟨hcode, rfl⟩ := deactivate_of_not_active hkeeps (Option.some.inj hcall)
    exact ⟨h, fun hzero => absurd hzero hcode⟩

theorem Inv.step (h : s.Inv other) {i : WatchCall n} (hkeeps : s.KeepsActive i)
    (hstep : s.step executeOnly i = some s') : s'.Inv other := by
  obtain ⟨⟨code, s₁⟩, hcall, rfl⟩ := Option.map_eq_some_iff.1 hstep
  exact (h.call hkeeps hcall).1

theorem undoes_iff_keepsActive {s : WatchMaps (n + 1)} (h : s.Inv other) (i : WatchCall (n + 1)) :
    s.Undoes executeOnly other i ↔ s.KeepsActive i := by
  constructor
  · intro hundoes
    cases i with
    | activate args restore => trivial
    | deactivate ID =>
      intro hactive
      have hcall := deactivate_of_active executeOnly h.length hactive
      exact not_exact_of_deactivate h hactive (hundoes _ _ (congrArg some hcall)).1
  · intro hkeeps code s' hcall
    obtain ⟨hinv, hreopened⟩ := h.call hkeeps hcall
    exact ⟨hinv.exact, hreopened⟩

/-- For any number of CPUs, whatever other parts of DBVM have mapped, and every sequence of
    calls: each call leaves exactly the pages of the active watches in the area, and each
    deactivation opens the entries again, if and only if no active watch is deactivated. -/
theorem undoes_iff (executeOnly : Bool) (other : Nat → Bool) (entry : Fin (n + 1) → Nat → PageEntry)
    (calls : List (WatchCall (n + 1))) :
    AlongM (step executeOnly) (Undoes executeOnly other) (initial other entry) calls ↔
      AlongM (step executeOnly) KeepsActive (initial other entry) calls := by
  constructor
  · refine AlongM.imp (I := Inv other) (fun s i h hundoes => ?_) (inv_initial other entry)
    have hkeeps := (undoes_iff_keepsActive h i).1 hundoes
    exact ⟨hkeeps, fun s' hstep => h.step hkeeps hstep⟩
  · refine AlongM.imp (I := Inv other) (fun s i h hkeeps => ?_) (inv_initial other entry)
    exact ⟨(undoes_iff_keepsActive h i).2 hkeeps, fun s' hstep => h.step hkeeps hstep⟩

def oneCpuMaps : WatchMaps 1 := initial (fun _ => false) fun _ page => .ept page true true true

def oneWatch : WatchCall 1 := .activate ⟨0x1000, 8, .write, 0, 16, 0, 0⟩ fun _ => true

/-- After its deactivation its page is still mapped. -/
theorem not_undoes : ¬ ∀ (executeOnly : Bool) (other : Nat → Bool)
    (entry : Fin 1 → Nat → PageEntry) (calls : List (WatchCall 1)),
    AlongM (step executeOnly) (Undoes executeOnly other) (initial other entry) calls := by
  intro hall
  obtain ⟨-, hrest⟩ := hall true (fun _ => false) (fun _ page => .ept page true true true)
    [oneWatch, .deactivate 0]
  have hfirst : ∃ s, oneCpuMaps.step true oneWatch = some s ∧
      (s.deactivate true 0).2.watches.eptWatchList = [⟨0x1000, 8, .write, 0, 0, 0, false⟩] ∧
      (s.deactivate true 0).2.present 0 = true := by
    exact ⟨_, rfl, by decide, by decide⟩
  obtain ⟨s, hs, hlist, hpresent⟩ := hfirst
  have hexact : Exact (fun _ => false) (s.deactivate true 0).2 := ((hrest s hs).1 _ _ rfl).1
  rcases (hexact.pages 0).1 hpresent with hother | ⟨ID, c, ⟨w, hw, hactive⟩, -⟩
  · cases hother
  · rw [hlist] at hw
    obtain rfl := List.mem_singleton.1 (List.mem_of_getElem? hw)
    cases hactive

end WatchMaps

end CheatEngine.Dbvm
