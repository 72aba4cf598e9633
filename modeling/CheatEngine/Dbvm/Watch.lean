/-
  CheatEngine.Dbvm.Watch

  Watches on physical pages (epthandler.c).  Each CPU has its own entry of a
  watched page.  `ept_watch_activate` makes the entry anew and closes it for the
  new watch, an event opens it for one step, and the handler after the step
  closes it for the watch that was hit.  `ept_watch_deactivate` would open it
  again, but nothing ever sets the `eptWatchListLength` it checks.
-/
import CheatEngine.Dbvm.PageEntry
import CheatEngine.Lib.Run
import CheatEngine.Lib.Slots
import Mathlib.Logic.Function.Basic

namespace CheatEngine.Dbvm

open CheatEngine.Lib

/-! ## Data -/

/-- `EPTO_INTERRUPT` and `EPTO_DBVMBP`. -/
def eptoInterrupt : UInt32 := 0x40
def eptoDbvmbp : UInt32 := 0x80

/-- `EPTWatchEntry`, less its log. -/
structure WatchEntry where
  physicalAddress : Nat
  size : Nat
  type : WatchType
  options : UInt32
  loopUserMode : UInt64
  loopKernelMode : UInt64
  active : Bool
  deriving DecidableEq, Repr

def pageOf (address : Nat) : Nat := address / 4096

namespace WatchEntry

def page (w : WatchEntry) : Nat := pageOf w.physicalAddress

def contains (w : WatchEntry) (address : Nat) : Bool :=
  w.physicalAddress ≤ address && address < w.physicalAddress + w.size

/-- `ept_isWatchIDPerfectMatch`. -/
def isPerfectMatch (w : WatchEntry) (address : Nat) : Bool := w.active && w.contains address

/-- `ept_isWatchIDMatch`. -/
def isMatch (w : WatchEntry) (page : Nat) : Bool := w.active && w.page = page

end WatchEntry

/-- What the hardware says about a violation. -/
inductive Violation
  /-- `EPT_VIOLATION_INFO`. -/
  | ept (R W X wasReadable wasWritable wasExecutable : Bool)
  /-- `NP_VIOLATION_INFO`, with the `RIP` of the guest. -/
  | np (P W ID : Bool) (RIP : Nat)

/-- The violation can be one that a watch of this type waits for. -/
def Violation.isFor : WatchType → Violation → Bool
  | .write, .ept _ W _ _ wasWritable _ => W && !wasWritable
  | .write, .np _ W _ _ => W
  | .readWrite, .ept R W _ wasReadable wasWritable _ => W && !wasWritable || R && !wasReadable
  | .readWrite, .np P _ _ _ => !P
  | .execute, .ept _ _ X _ _ wasExecutable => X && !wasExecutable
  | .execute, .np _ _ ID _ => ID

/-- The watches, the entry of each page on each CPU, and the steps that each
    CPU still has to finish, newest first: the watch, and the page that was
    opened for it. -/
structure WatchState (κ : Type) where
  eptWatchList : List WatchEntry
  entry : κ → Nat → PageEntry
  eptWatchListLength : κ → Nat
  reasons : κ → List (Nat × Nat)

/-- The arguments of `ept_watch_activate`. -/
structure WatchArguments where
  physicalAddress : Nat
  size : Nat
  type : WatchType
  options : UInt32
  maxEntryCount : Nat
  optionalField1 : UInt64
  optionalField2 : UInt64

/-- What the handlers do, with what the hardware decides. -/
inductive WatchInput (κ : Type)
  /-- `ept_watch_activate`; on AMD `restore` tells the CPUs on which
      `NPMapPhysicalMemory` restores a page that is present. -/
  | activate (args : WatchArguments) (restore : κ → Bool)
  /-- `ept_watch_deactivate`. -/
  | deactivate (ID : Nat)
  /-- `ept_handleWatchEvent`; `canBreak` and `kernelMode` are the state of the
      guest that it looks at. -/
  | event (c : κ) (physicalAddress : Nat) (violation : Violation) (canBreak kernelMode : Bool)
  /-- `ept_handleWatchEventAfterStep` for the newest step of the CPU. -/
  | afterStep (c : κ)

namespace WatchState

variable {κ : Type}

def initial (entry : κ → Nat → PageEntry) : WatchState κ where
  eptWatchList := []
  entry := entry
  eptWatchListLength _ := 0
  reasons _ := []

/-! ## Operations -/

/-- `getFreeWatchID`: the first entry that is not active, or one more. -/
def getFreeWatchID (s : WatchState κ) : Nat := freeSlot (!·.active) s.eptWatchList

/-- The entry that `ept_watch_activate` fills in.  The loops of an earlier use
    stay when the options do not ask for them. -/
def newWatch (s : WatchState κ) (args : WatchArguments) : WatchEntry :=
  let old := s.eptWatchList[s.getFreeWatchID]?
  let breaks := args.options &&& eptoDbvmbp ≠ 0
  { physicalAddress := args.physicalAddress
    size :=
      if pageOf args.physicalAddress < pageOf (args.physicalAddress + args.size) then
        0x1000 - args.physicalAddress % 0x1000
      else args.size
    type := args.type
    options := args.options
    loopUserMode := if breaks then args.optionalField1 else (old.map (·.loopUserMode)).getD 0
    loopKernelMode := if breaks then args.optionalField2 else (old.map (·.loopKernelMode)).getD 0
    active := true }

/-- The `MaxEntryCount` of a watch that logs must not be 0. -/
def accepts (args : WatchArguments) : Bool :=
  args.maxEntryCount ≠ 0 || args.options &&& (eptoInterrupt ||| eptoDbvmbp) ≠ 0

def activate (executeOnly : Bool) (s : WatchState κ) (args : WatchArguments) (restore : κ → Bool) :
    WatchState κ :=
  if accepts args then
    let w := s.newWatch args
    { s with
      eptWatchList := putFree (!·.active) s.eptWatchList w
      entry := fun c page =>
        if page = w.page then
          ((s.entry c page).mapPhysicalMemory page (restore c)).close executeOnly args.type
        else s.entry c page }
  else s

/-- Another active watch of the same type on the same page. -/
def hasAnotherOne (s : WatchState κ) (ID : Nat) (w : WatchEntry) : Bool :=
  s.eptWatchList.zipIdx.any fun x => x.2 ≠ ID && x.1.isMatch w.page && x.1.type = w.type

def deactivate (executeOnly : Bool) (s : WatchState κ) (ID : Nat) : WatchState κ :=
  match s.eptWatchList[ID]? with
  | none => s
  | some w =>
    if w.active then
      { s with
        eptWatchList := s.eptWatchList.set ID { w with active := false }
        entry := fun c page =>
          if s.hasAnotherOne ID w = false ∧ page = w.page ∧ ID < s.eptWatchListLength c then
            (s.entry c page).reopen executeOnly w.type
          else s.entry c page }
    else s

/-- The loop of `ept_handleWatchEvent` that looks for the watch that was hit.
    It asks for the type of the watch found so far. -/
def selectWatch (l : List WatchEntry) (violation : Violation) (address : Nat) : Nat → List Nat → Nat
  | ID, [] => ID
  | ID, i :: is =>
    if (l[i]?).any (·.isMatch (pageOf address)) && (l[ID]?).any (violation.isFor ·.type) then
      if (l[i]?).any (·.isPerfectMatch address) then i
      else selectWatch l violation address i is
    else selectWatch l violation address ID is

/-- The address that `ept_handleWatchEvent` goes by: an instruction fetch on AMD
    takes its offset from `RIP`. -/
def eventAddress (physicalAddress : Nat) : Violation → Nat
  | .np _ _ true RIP => pageOf physicalAddress * 4096 + RIP % 4096
  | _ => physicalAddress

def eventWatch (s : WatchState κ) (violation : Violation) (address : Nat) : Option Nat :=
  (s.eptWatchList.findIdx? (·.isMatch (pageOf address))).map fun ID =>
    selectWatch s.eptWatchList violation address ID
      (List.range' ID (s.eptWatchList.length - ID))

/-- `EPTO_DBVMBP`: the guest is sent to its loop and the page stays closed. -/
def breaksGuest (w : WatchEntry) (address : Nat) (canBreak kernelMode : Bool) : Bool :=
  w.options &&& eptoDbvmbp ≠ 0 && w.contains address && canBreak &&
    (if kernelMode then w.loopKernelMode else w.loopUserMode) ≠ 0

def setEntry [DecidableEq κ] (s : WatchState κ) (c : κ) (page : Nat) (f : PageEntry → PageEntry) :
    κ → Nat → PageEntry :=
  Function.update s.entry c (Function.update (s.entry c) page (f (s.entry c page)))

def handleWatchEvent [DecidableEq κ] (s : WatchState κ) (c : κ) (physicalAddress : Nat)
    (violation : Violation) (canBreak kernelMode : Bool) : WatchState κ :=
  let address := eventAddress physicalAddress violation
  match s.eventWatch violation address with
  | none => s
  | some ID =>
    match s.eptWatchList[ID]? with
    | none => s
    | some w =>
      if breaksGuest w address canBreak kernelMode then s
      else
        { s with
          entry := s.setEntry c w.page PageEntry.fullAccess
          reasons := Function.update s.reasons c ((ID, w.page) :: s.reasons c) }

/-- `ept_handleWatchEventAfterStep`: it closes the entry for the watch that now
    has the ID. -/
def handleWatchEventAfterStep [DecidableEq κ] (executeOnly : Bool) (s : WatchState κ) (c : κ) :
    WatchState κ :=
  match s.reasons c with
  | [] => s
  | (ID, _) :: rest =>
    let s := { s with reasons := Function.update s.reasons c rest }
    match s.eptWatchList[ID]? with
    | none => s
    | some w =>
      if w.active then { s with entry := s.setEntry c w.page (.close executeOnly w.type) }
      else s

/-- One call. -/
def step [DecidableEq κ] (executeOnly : Bool) (s : WatchState κ) : WatchInput κ → WatchState κ
  | .activate args restore => s.activate executeOnly args restore
  | .deactivate ID => s.deactivate executeOnly ID
  | .event c physicalAddress violation canBreak kernelMode =>
    s.handleWatchEvent c physicalAddress violation canBreak kernelMode
  | .afterStep c => s.handleWatchEventAfterStep executeOnly c

/-! ## What is wanted, and when -/

/-- The watch with this ID is active and on the page. -/
def ActiveOn (s : WatchState κ) (ID page : Nat) (w : WatchEntry) : Prop :=
  s.eptWatchList[ID]? = some w ∧ w.active = true ∧ w.page = page

/-- A step is pending on the CPU for the page. -/
def Pending (s : WatchState κ) (c : κ) (page : Nat) : Prop := ∃ ID, (ID, page) ∈ s.reasons c

/-- Every active watch is armed on every CPU that has no step pending for its
    page. -/
def Armed (s : WatchState κ) : Prop :=
  ∀ c ID page w, s.ActiveOn ID page w → ¬ s.Pending c page → (s.entry c page).Denies w.type

/-- Closing the entry of a CPU for `type` arms every active watch of the page. -/
def CoversAll (executeOnly : Bool) (s : WatchState κ) (c : κ) (page : Nat) (type : WatchType) :
    Prop :=
  ∀ ID w, s.ActiveOn ID page w → (s.entry c page).Covers executeOnly type w.type

/-- The calls that keep the watches armed. -/
def Keeps (executeOnly : Bool) (s : WatchState κ) : WatchInput κ → Prop
  | .activate args restore =>
    accepts args = true → ∀ c, (s.entry c (pageOf args.physicalAddress)).Remapped (restore c) →
      s.CoversAll executeOnly c (pageOf args.physicalAddress) args.type
  | .deactivate ID =>
    ∀ c page w, s.ActiveOn ID page w → (ID, page) ∈ s.reasons c →
      ∀ ID' w', s.ActiveOn ID' page w' → ID' = ID
  | .event _ _ _ _ _ => True
  | .afterStep c =>
    ∀ ID p rest page w, s.reasons c = (ID, p) :: rest → s.ActiveOn ID page w →
      s.CoversAll executeOnly c page w.type

/-- What a run keeps: the page of a CPU is open only for a watch that is still
    active on it, and nothing opens an entry on deactivation. -/
structure Inv (s : WatchState κ) : Prop where
  length : ∀ c, s.eptWatchListLength c = 0
  entry : ∀ c page, (∃ ID w, s.ActiveOn ID page w ∧ (ID, page) ∈ s.reasons c) ∨
    ∀ ID w, s.ActiveOn ID page w → (s.entry c page).Denies w.type

theorem Inv.armed {s : WatchState κ} (hs : s.Inv) : s.Armed := by
  intro c ID page w hactive hpending
  rcases hs.entry c page with ⟨ID', w', -, hreason⟩ | hdenies
  · exact absurd ⟨ID', hreason⟩ hpending
  · exact hdenies ID w hactive

theorem inv_initial (entry : κ → Nat → PageEntry) : (initial entry).Inv := by
  refine ⟨fun _ => rfl, ?_⟩
  intro c page
  right
  intro ID w hactive
  exact nomatch hactive.1

variable {s : WatchState κ} {ID page : Nat} {w : WatchEntry}

theorem ActiveOn.ne_getFreeWatchID (h : s.ActiveOn ID page w) : ID ≠ s.getFreeWatchID :=
  ne_freeSlot _ h.1 (by rw [h.2.1]; rfl)

theorem isMatch_iff : w.isMatch page = true ↔ w.active = true ∧ w.page = page := by
  simp [WatchEntry.isMatch]

theorem selectWatch_isMatch (violation : Violation) (address : Nat) (is : List Nat)
    (hID : (s.eptWatchList[ID]?).any (·.isMatch (pageOf address)) = true) :
    (s.eptWatchList[selectWatch s.eptWatchList violation address ID is]?).any
      (·.isMatch (pageOf address)) = true := by
  induction is generalizing ID with
  | nil => exact hID
  | cons i is ih =>
    unfold selectWatch
    split
    · next hfound =>
      rw [Bool.and_eq_true] at hfound
      split
      · exact hfound.1
      · exact ih hfound.1
    · exact ih hID

theorem eventWatch_activeOn {violation : Violation} {address : Nat}
    (h : s.eventWatch violation address = some ID) :
    ∃ w, s.ActiveOn ID (pageOf address) w := by
  unfold eventWatch at h
  rw [Option.map_eq_some_iff] at h
  obtain ⟨first, hfirst, rfl⟩ := h
  have hmatch : (s.eptWatchList[first]?).any (·.isMatch (pageOf address)) = true := by
    obtain ⟨hlt, hp, -⟩ := List.findIdx?_eq_some_iff_getElem.1 hfirst
    rw [List.getElem?_eq_getElem hlt]
    exact hp
  have hselected := selectWatch_isMatch violation address
    (List.range' first (s.eptWatchList.length - first)) hmatch
  rw [Option.any_eq_true] at hselected
  obtain ⟨w, hw, hpage⟩ := hselected
  rw [isMatch_iff] at hpage
  exact ⟨w, hw, hpage.1, hpage.2⟩

/-! ## Steps -/

variable {executeOnly : Bool}

theorem activeOn_putFree {w' : WatchEntry} {s' : WatchState κ}
    (hlist : s'.eptWatchList = putFree (!·.active) s.eptWatchList w') :
    s'.ActiveOn ID page w ↔
      (ID = s.getFreeWatchID ∧ w = w' ∧ w.active = true ∧ w.page = page) ∨
        s.ActiveOn ID page w := by
  rw [ActiveOn, hlist, getElem?_putFree]
  change (if ID = s.getFreeWatchID then _ else _) = _ ∧ _ ↔ _
  constructor
  · rintro ⟨hget, hactive, hpage⟩
    split at hget
    · next hID => exact .inl ⟨hID, (Option.some.inj hget).symm, hactive, hpage⟩
    · exact .inr ⟨hget, hactive, hpage⟩
  · rintro (⟨hID, rfl, hactive, hpage⟩ | hold)
    · exact ⟨if_pos hID, hactive, hpage⟩
    · rw [if_neg hold.ne_getFreeWatchID]
      exact hold

theorem inv_activate (args : WatchArguments) (restore : κ → Bool) (hs : s.Inv)
    (hkeeps : s.Keeps executeOnly (.activate args restore)) :
    (s.activate executeOnly args restore).Inv := by
  unfold activate
  split
  swap
  · exact hs
  next haccepts =>
  have hpage : (s.newWatch args).page = pageOf args.physicalAddress := rfl
  refine ⟨hs.length, ?_⟩
  intro c page
  -- an entry of another page, or one with a step pending for an active watch, is as before
  rcases hs.entry c page with ⟨ID, w, hactive, hreason⟩ | hdenies
  · exact .inl ⟨ID, w, (activeOn_putFree rfl).2 (.inr hactive), hreason⟩
  right
  intro ID w hactive
  rcases (activeOn_putFree rfl).1 hactive with ⟨-, rfl, -, hw⟩ | hold
  · show (if page = (s.newWatch args).page then _ else _ : PageEntry).Denies _
    rw [if_pos hw.symm]
    exact PageEntry.denies_close
  · show (if page = (s.newWatch args).page then _ else _ : PageEntry).Denies _
    by_cases hsame : page = (s.newWatch args).page
    · rw [if_pos hsame]
      by_cases hremapped : (s.entry c page).Remapped (restore c)
      · rw [hpage] at hsame
        subst hsame
        have hcovers := hkeeps haccepts c hremapped ID w hold
        exact (PageEntry.covers_mapPhysicalMemory.2 hcovers).denies_close
      · exact PageEntry.denies_close_of_not_remapped hremapped (hdenies ID w hold)
    · rw [if_neg hsame]
      exact hdenies ID w hold

theorem inv_deactivate (ID : Nat) (hs : s.Inv) (hkeeps : s.Keeps executeOnly (.deactivate ID)) :
    (s.deactivate executeOnly ID).Inv := by
  unfold deactivate
  split
  · exact hs
  next w hw =>
  split
  swap
  · exact hs
  next hactive =>
  refine ⟨hs.length, ?_⟩
  intro c page
  -- the entries stay as they are: `eptWatchListLength` is 0
  have hentry : (if s.hasAnotherOne ID w = false ∧ page = w.page ∧ ID < s.eptWatchListLength c then
      (s.entry c page).reopen executeOnly w.type else s.entry c page) = s.entry c page := by
    rw [hs.length c]
    exact if_neg fun h => absurd h.2.2 (Nat.not_lt_zero ID)
  have hold : ∀ {ID' w'}, (s.eptWatchList.set ID { w with active := false })[ID']? = some w' →
      w'.active = true → ID' ≠ ID ∧ s.eptWatchList[ID']? = some w' := by
    intro ID' w' hget hactive'
    rw [List.getElem?_set] at hget
    split at hget
    · next hID =>
      split at hget
      · rw [← Option.some.inj hget] at hactive'
        exact absurd hactive' Bool.false_ne_true
      · exact nomatch hget
    · next hID => exact ⟨Ne.symm hID, hget⟩
  rcases hs.entry c page with ⟨ID', w', hactive', hreason⟩ | hdenies
  · by_cases hID : ID' = ID
    · -- the step pending is that of the watch itself, so no other watch is on the page
      subst hID
      right
      intro ID'' w'' hon
      obtain ⟨hne, hget⟩ := hold hon.1 hon.2.1
      exact absurd (hkeeps c page w' hactive' hreason ID'' w'' ⟨hget, hon.2⟩) hne
    · left
      refine ⟨ID', w', ⟨?_, hactive'.2⟩, hreason⟩
      show (s.eptWatchList.set ID _)[ID']? = some w'
      rw [List.getElem?_set, if_neg (Ne.symm hID)]
      exact hactive'.1
  · right
    intro ID' w' hon
    show (if _ then _ else _ : PageEntry).Denies _
    rw [hentry]
    exact hdenies ID' w' ⟨(hold hon.1 hon.2.1).2, hon.2⟩

theorem coversAll_of_forall {c : κ} {type : WatchType}
    (h : ∀ w ∈ s.eptWatchList, (s.entry c page).Covers executeOnly type w.type) :
    s.CoversAll executeOnly c page type :=
  fun _ w hw => h w (List.mem_of_getElem? hw.1)

section Cpu

variable [DecidableEq κ]

theorem setEntry_apply (c c' : κ) (page page' : Nat) (f : PageEntry → PageEntry) :
    s.setEntry c page f c' page' =
      if c' = c ∧ page' = page then f (s.entry c page) else s.entry c' page' := by
  unfold setEntry
  by_cases hc : c' = c
  · subst hc
    rw [Function.update_self, Function.update_apply]
    simp
  · rw [Function.update_of_ne hc, if_neg (fun h => hc h.1)]

theorem inv_handleWatchEvent (c : κ) (physicalAddress : Nat) (violation : Violation)
    (canBreak kernelMode : Bool) (hs : s.Inv) :
    (s.handleWatchEvent c physicalAddress violation canBreak kernelMode).Inv := by
  simp only [handleWatchEvent]
  split
  · exact hs
  next ID hID =>
  obtain ⟨w, hw⟩ := eventWatch_activeOn hID
  simp only [hw.1]
  split
  · exact hs
  refine ⟨hs.length, ?_⟩
  intro c' page
  by_cases hthis : c' = c ∧ page = w.page
  · obtain ⟨rfl, rfl⟩ := hthis
    left
    refine ⟨ID, w, ⟨hw.1, hw.2.1, rfl⟩, ?_⟩
    show (ID, w.page) ∈ Function.update s.reasons c' _ c'
    rw [Function.update_self]
    exact List.mem_cons_self
  · rcases hs.entry c' page with ⟨ID', w', hactive, hreason⟩ | hdenies
    · refine .inl ⟨ID', w', hactive, ?_⟩
      show (ID', page) ∈ Function.update s.reasons c _ c'
      by_cases hc : c' = c
      · subst hc
        rw [Function.update_self]
        exact List.mem_cons_of_mem _ hreason
      · rwa [Function.update_of_ne hc]
    · right
      intro ID' w' hactive
      show (s.setEntry c w.page _ c' page).Denies _
      rw [setEntry_apply, if_neg hthis]
      exact hdenies ID' w' hactive

theorem inv_handleWatchEventAfterStep (c : κ) (hs : s.Inv)
    (hkeeps : s.Keeps executeOnly (.afterStep c)) :
    (s.handleWatchEventAfterStep executeOnly c).Inv := by
  unfold handleWatchEventAfterStep
  split
  · exact hs
  next ID p rest hreasons =>
  -- a step that is over was for no active watch, or the entry is closed again below
  have hkept : ∀ c' page ID' w', s.ActiveOn ID' page w' → (ID', page) ∈ s.reasons c' →
      (c' = c ∧ ID' = ID) ∨ (ID', page) ∈ Function.update s.reasons c rest c' := by
    intro c' page ID' w' hactive hreason
    by_cases hc : c' = c
    · subst hc
      rw [Function.update_self]
      rw [hreasons, List.mem_cons] at hreason
      rcases hreason with heq | hmem
      · exact .inl ⟨rfl, congrArg Prod.fst heq⟩
      · exact .inr hmem
    · right
      rwa [Function.update_of_ne hc]
  have hopen : (∀ w, s.eptWatchList[ID]? = some w → w.active = false) →
      ({ s with reasons := Function.update s.reasons c rest } : WatchState κ).Inv := by
    intro hinactive
    refine ⟨hs.length, ?_⟩
    intro c' page
    rcases hs.entry c' page with ⟨ID', w', hactive, hreason⟩ | hdenies
    · rcases hkept c' page ID' w' hactive hreason with ⟨-, rfl⟩ | hmem
      · exact absurd hactive.2.1 (by rw [hinactive w' hactive.1]; decide)
      · exact .inl ⟨ID', w', hactive, hmem⟩
    · exact .inr hdenies
  cases hget : s.eptWatchList[ID]? with
  | none =>
    simp only [hget]
    exact hopen (fun w hw => nomatch hget.symm.trans hw)
  | some w =>
    by_cases hactive : w.active = true
    swap
    · simp only [hget, if_neg hactive]
      refine hopen ?_
      intro w' hw'
      rw [← Option.some.inj (hget.symm.trans hw')]
      exact Bool.eq_false_iff.2 hactive
    simp only [hget, if_pos hactive]
    have hon : s.ActiveOn ID w.page w := ⟨hget, hactive, rfl⟩
    have hcovers := hkeeps ID p rest w.page w hreasons hon
    refine ⟨hs.length, ?_⟩
    intro c' page
    by_cases hthis : c' = c ∧ page = w.page
    · obtain ⟨rfl, rfl⟩ := hthis
      right
      intro ID' w' hactive'
      show (setEntry _ c' w.page _ c' w.page).Denies _
      rw [setEntry_apply, if_pos ⟨rfl, rfl⟩]
      exact (hcovers ID' w' hactive').denies_close
    · rcases hs.entry c' page with ⟨ID', w', hactive', hreason⟩ | hdenies
      · rcases hkept c' page ID' w' hactive' hreason with ⟨rfl, rfl⟩ | hmem
        · have hsame : w' = w := Option.some.inj (hactive'.1.symm.trans hget)
          subst hsame
          exact absurd ⟨rfl, hactive'.2.2.symm⟩ hthis
        · exact .inl ⟨ID', w', hactive', hmem⟩
      · right
        intro ID' w' hactive'
        show (setEntry _ c w.page _ c' page).Denies _
        rw [setEntry_apply, if_neg hthis]
        exact hdenies ID' w' hactive'

theorem inv_step (input : WatchInput κ) (hs : s.Inv) (hkeeps : s.Keeps executeOnly input) :
    (s.step executeOnly input).Inv := by
  cases input with
  | activate args restore => exact inv_activate args restore hs hkeeps
  | deactivate ID => exact inv_deactivate ID hs hkeeps
  | event c physicalAddress violation canBreak kernelMode =>
    exact inv_handleWatchEvent c physicalAddress violation canBreak kernelMode hs
  | afterStep c => exact inv_handleWatchEventAfterStep c hs hkeeps

/-- In every run of the handlers, on any CPUs, every active watch is armed on
    each CPU without a step pending for its page, as long as an entry is only
    closed for a watch that covers all active watches of the page, and no watch
    is deactivated during its own step on a page with another active watch. -/
theorem watches_armed (executeOnly : Bool) (entry : κ → Nat → PageEntry)
    (inputs : List (WatchInput κ))
    (hkeeps : Along (step executeOnly) (Keeps executeOnly) (initial entry) inputs) :
    (exec (step executeOnly) (initial entry) inputs).Armed :=
  Inv.armed (exec_invariant (fun _ input hs hk => inv_step input hs hk) (inv_initial entry) hkeeps)

def oneCpu : WatchState Unit := initial fun _ page => .ept page true true true

def watchPage1 (type : WatchType) : WatchInput Unit :=
  .activate ⟨4096, 1, type, 0, 16, 0, 0⟩ fun _ => true

def writePage1 : WatchInput Unit :=
  .event () 4096 (.ept false true false true false true) false false

/-- Two write watches, a write and the step after it. -/
def watchedWrite : List (WatchInput Unit) :=
  [watchPage1 .write, watchPage1 .write, writePage1, .afterStep ()]

/-- Both write watches are armed after the step. -/
theorem watchedWrite_armed :
    (exec (step true) oneCpu watchedWrite).eptWatchList.length = 2 ∧
      (exec (step true) oneCpu watchedWrite).Armed := by
  refine ⟨by decide, watches_armed true _ watchedWrite ⟨?_, ?_, trivial, ?_, trivial⟩⟩
  · rintro _ ⟨⟩ _
    exact coversAll_of_forall (by decide)
  · rintro _ ⟨⟩ _
    exact coversAll_of_forall (by decide)
  · intro ID p rest page w hreasons hw
    have hwrite : w.type = .write := by
      have hall : ∀ w ∈ (exec (step true) oneCpu [watchPage1 .write, watchPage1 .write,
          writePage1]).eptWatchList, w.type = .write := by decide
      exact hall w (List.mem_of_getElem? hw.1)
    have hpage : w.page = 1 := by
      have hall : ∀ w ∈ (exec (step true) oneCpu [watchPage1 .write, watchPage1 .write,
          writePage1]).eptWatchList, w.page = 1 := by decide
      exact hall w (List.mem_of_getElem? hw.1)
    rw [hwrite, ← hw.2.2, hpage]
    exact coversAll_of_forall (by decide)

/-- An execute watch is no longer armed once a write watch is activated on the
    same page: the entry is made anew and closed for writes only. -/
theorem second_watch_disarms :
    ¬ (exec (step true) oneCpu [watchPage1 .execute, watchPage1 .write]).Armed := by
  intro harmed
  have hdenies := harmed () 0 1 ⟨4096, 1, .execute, 0, 0, 0, true⟩
    ⟨by decide, rfl, rfl⟩ (fun ⟨ID, hID⟩ => nomatch hID)
  exact absurd hdenies (by decide)

end Cpu

end WatchState

end CheatEngine.Dbvm
