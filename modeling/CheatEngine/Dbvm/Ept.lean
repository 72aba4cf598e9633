/-
  CheatEngine.Dbvm.Ept

  The entries of cloaked pages (epthandler.c, nphandler.c).  On Intel the entry of
  a cloaked page can only be executed, and a read shows the copy of the page for
  one step.  On AMD it shows the copy and cannot be executed; an execution shows
  the page for one step, or until the CPU leaves it (mode 1).  `ept_reset` takes
  everything down.

  `EptState` puts the watches, which own the entries, and the cloaked pages
  together.  The bits of the levels above the last one, which mode 1 also
  changes, are left out.
-/
import CheatEngine.Dbvm.Cloak
import CheatEngine.Dbvm.Watch

namespace CheatEngine.Dbvm

open CheatEngine.Lib

namespace PageEntry

/-- The loop of `ept_cloak_activate` over the CPUs, for one entry. -/
def cloak (executeOnly : Bool) (page dataPage : Nat) (e : PageEntry) : PageEntry :=
  match e.mapPhysicalMemory page false with
  | .ept PFN _ _ _ => .ept PFN false false executeOnly
  | .np _ _ _ _ => .np dataPage true true true

/-- The loop of `ept_cloak_deactivate` over the CPUs, for one entry. -/
def decloak (page : Nat) : PageEntry → PageEntry
  | .ept PFN _ _ _ => .ept PFN true true true
  | .np _ _ _ _ => .np page true true false

/-- `ept_handleCloakEventAfterStep`, for one entry. -/
def recloak (executeOnly : Bool) (page dataPage : Nat) : PageEntry → PageEntry
  | .ept _ _ _ _ => .ept page false false executeOnly
  | .np _ _ _ _ => .np dataPage true true true

def setEXB (EXB : Bool) : PageEntry → PageEntry
  | .np PFN true RW _ => .np PFN true RW EXB
  | e => e

def ShowsPage (page : Nat) : PageEntry → Prop
  | .ept PFN _ _ _ => PFN = page
  | .np _ _ _ _ => True

instance (page : Nat) (e : PageEntry) : Decidable (e.ShowsPage page) :=
  match e with
  | .ept PFN _ _ _ => inferInstanceAs (Decidable (PFN = page))
  | .np _ _ _ _ => inferInstanceAs (Decidable True)

theorem maps_decloak {page : Nat} {e : PageEntry} :
    (e.decloak page).Maps page ↔ e.ShowsPage page := by
  cases e with
  | ept PFN RA WA XA => exact and_iff_left rfl
  | np PFN P RW EXB => exact iff_of_true ⟨rfl, rfl⟩ trivial

end PageEntry

/-- What does not change: `has_EPT_ExecuteOnlySupport`, `MAXPHYADDR`, and the page
    of the copy behind each pointer to cloak data. -/
structure Platform where
  executeOnly : Bool
  maxphyaddr : Nat
  dataPage : Nat → Nat

/-- The watches with the entries, the cloaked pages with their breakpoints, the
    `CloakMode` behind each pointer, `NP_Cloak` of each CPU, and the cloak events
    whose step it still has to finish, newest first. -/
structure EptState (κ : Type) where
  watch : WatchState κ
  cloak : CloakState κ
  cloakMode : Nat → Nat
  activeRegion : κ → Option Nat
  lastCloakedVirtualBase : κ → Nat
  reasons : κ → List Nat

/-- What `ept_handleCloakEvent` looks at. -/
structure CloakEvent where
  address : Nat
  addressVA : Nat
  RIP : Nat
  violation : Violation

inductive EptInput (κ : Type)
  | watch (input : WatchInput κ)
  /-- `mode` is that of a call of `ept_cloak_activate`. -/
  | cloak (input : BreakpointInput κ) (mode : Nat)
  /-- `ept_handleCloakEvent`. -/
  | cloakEvent (c : κ) (event : CloakEvent)
  /-- `ept_handleCloakEventAfterStep` for the newest step of the CPU. -/
  | cloakAfterStep (c : κ)
  /-- `ept_reset`. -/
  | reset

namespace EptState

variable {κ : Type}

def initial (memory : Nat → UInt8) (entry : κ → Nat → PageEntry) : EptState κ where
  watch := .initial entry
  cloak := .initial memory
  cloakMode _ := 0
  activeRegion _ := none
  lastCloakedVirtualBase _ := 0
  reasons _ := []

def cloakedData (r : CloakRegistry) (page : Nat) : Option Nat := (r.lookup (page * 4096)).join

/-- The entry of a page after a call that found it with the data `before` and
    left it with the data `after`. -/
def syncEntry (pf : Platform) (before after : Option Nat) (page : Nat) (e : PageEntry) :
    PageEntry :=
  match before, after with
  | none, some p => e.cloak pf.executeOnly page (pf.dataPage p)
  | some _, none => e.decloak page
  | _, _ => e

def modeOf (mode : Nat) : BreakpointInput κ → Nat
  | .activate _ => mode
  | _ => 0

/-- A call or event of the breakpoints: `ept_cloak_activate` inside it closes the
    entries of a page that it registers, `ept_cloak_deactivate` opens those of the
    page that it takes out. -/
def cloakCall [DecidableEq κ] (pf : Platform) (s : EptState κ) (input : BreakpointInput κ)
    (mode : Nat) : Option (EptState κ) := do
  let cloak ← s.cloak.step pf.maxphyaddr input
  let entry := fun c page =>
    syncEntry pf (cloakedData s.cloak.registry page) (cloakedData cloak.registry page) page
      (s.watch.entry c page)
  return { s with
    watch := { s.watch with entry }, cloak,
    cloakMode := Function.update s.cloakMode s.cloak.registry.nextData (modeOf mode input) }

/-! ## Cloak events -/

/-- The bytes of a jump through the eight bytes that follow it. -/
def megajmpbytes : List UInt8 := [0xff, 0x25, 0x00, 0x00, 0x00, 0x00]

/-- `isMegaJmp`: the instruction reads its own jump target, and it is not in the
    copy. -/
def isMegaJmp (memory : Nat → UInt8) (d : CloakedPageData) (addressVA RIP : Nat) : Bool :=
  let offset := RIP % 4096
  let size := min 14 (0x1000 - offset)
  let new := fun i => memory (d.executable + offset + i)
  let original := fun i => d.data (offset + i)
  (addressVA + 2 ^ 64 - RIP) % 2 ^ 64 = 6 && new 0 = 0xff &&
    (List.range size).any (fun i => new i ≠ original i) &&
    (List.range (min 6 size)).all (fun i => some (new i) = megajmpbytes[i]?)

/-- The page that an Intel entry shows for the step. -/
def shownPage (pf : Platform) (memory : Nat → UInt8) (p : Nat) (d : CloakedPageData)
    (addressVA RIP : Nat) (X : Bool) : Nat :=
  if X || isMegaJmp memory d addressVA RIP then pageOf d.executable else pf.dataPage p

/-- `NPMode1CloakSetState`, on the entries of the last level. -/
def setState [DecidableEq κ] (pf : Platform) (s : EptState κ) (c : κ) (base : Nat) (state : Bool) :
    κ → Nat → PageEntry :=
  Function.update s.watch.entry c fun page =>
    let e := s.watch.entry c page
    let e :=
      if page / 512 = base / 512 then e.setEXB (if page = base then false else state) else e
    match state, cloakedData s.cloak.registry page with
    | false, some p => .np (pf.dataPage p) true true true
    | _, _ => e

/-- `RIP` is just before or just after the page it was on. -/
def pageBoundary (lastBase RIP : Nat) : Bool :=
  RIP < lastBase && lastBase ≤ (RIP + 32) % 2 ^ 64 ||
    lastBase + 4096 ≤ RIP && RIP ≤ lastBase + 4096 + 32

def showExecutable [DecidableEq κ] (s : EptState κ) (c : κ) (d : CloakedPageData) : EptState κ :=
  let page := pageOf d.executable
  { s with watch := { s.watch with
      entry := s.watch.setEntry c page fun _ => .np page true true false } }

/-- The CPU has a step to finish. -/
def addReason [DecidableEq κ] (s : EptState κ) (c : κ) (p : Nat) : EptState κ :=
  { s with reasons := Function.update s.reasons c (p :: s.reasons c) }

/-- The CPU left the page that it was on in mode 1. -/
def leaveRegion [DecidableEq κ] (pf : Platform) (s : EptState κ) (c : κ) (p RIP : Nat) :
    Option (EptState κ) := do
  let d ← s.cloak.cloakdata p
  let s := { s with watch := { s.watch with
    entry := s.setState pf c (pageOf d.executable) false } }
  let s := if pageBoundary (s.lastCloakedVirtualBase c) RIP then (s.showExecutable c d).addReason c p
    else s
  return { s with activeRegion := Function.update s.activeRegion c none }

def cloakedPageEvent [DecidableEq κ] (pf : Platform) (s : EptState κ) (c : κ) (event : CloakEvent)
    (p : Nat) : Option (EptState κ) := do
  let d ← s.cloak.cloakdata p
  match event.violation with
  | .np _ _ _ RIP =>
    let s := s.showExecutable c d
    if s.cloakMode p = 0 then return s.addReason c p
    else
      let s := { s with
        activeRegion := Function.update s.activeRegion c (some p)
        lastCloakedVirtualBase :=
          Function.update s.lastCloakedVirtualBase c (RIP % 2 ^ 60 / 4096 * 4096) }
      return { s with watch := { s.watch with
        entry := s.setState pf c (pageOf d.executable) true } }
  | .ept _ _ X _ _ _ =>
    let page := shownPage pf s.cloak.memory p d event.addressVA event.RIP X
    let s := { s with watch := { s.watch with
      entry := s.watch.setEntry c (pageOf d.executable) fun _ => .ept page true true true } }
    return s.addReason c p

def handleCloakEvent [DecidableEq κ] (pf : Platform) (s : EptState κ) (c : κ) (event : CloakEvent) :
    Option (EptState κ) :=
  if s.cloak.registry.list.isNone ∧ s.cloak.registry.map.isNone then some s
  else
    match event.violation, s.activeRegion c with
    | .np _ _ false _, _ => some s
    | .np _ _ true RIP, some p => s.leaveRegion pf c p RIP
    | _, _ => do
      match ← s.cloak.registry.lookup (pageBase pf.maxphyaddr event.address) with
      | none => return s
      | some p => s.cloakedPageEvent pf c event p

def handleCloakEventAfterStep [DecidableEq κ] (pf : Platform) (s : EptState κ) (c : κ) :
    Option (EptState κ) :=
  match s.reasons c with
  | [] => some s
  | p :: rest => do
    let d ← s.cloak.cloakdata p
    let page := pageOf d.executable
    return { s with
      watch := { s.watch with
        entry := s.watch.setEntry c page (.recloak pf.executeOnly page (pf.dataPage p)) }
      reasons := Function.update s.reasons c rest }

/-- The watches of `ept_reset`. -/
def resetWatches (executeOnly : Bool) (s : WatchState κ) : WatchState κ :=
  (List.range s.eptWatchList.length).foldl (fun s i => s.deactivate executeOnly i) s

/-- The breakpoints of `ept_reset`. -/
def resetBreakpoints (s : CloakState κ) : Option (CloakState κ) :=
  (List.range s.changeRegBPList.length).foldlM (CloakState.removeWhich fun _ => true) s

/-- `map_foreach` with `ept_reset_cb`, which clears the key that it is given.  The
    callback clears no entry that the walk has still to reach, so that the keys are
    those from before the walk. -/
def resetMap (map : MapInfo) : MapInfo :=
  (map.top.keys map.maxlevel 0).foldl (fun map address => map.setEntry address none) map

def listSize (s : EptState κ) : Nat := (s.cloak.registry.list.map AddressList.size).getD 0

/-- The loop of `ept_reset` over the list. -/
def resetList [DecidableEq κ] (pf : Platform) : Nat → EptState κ → Option (EptState κ)
  | 0, s => if s.listSize = 0 then some s else none
  | fuel + 1, s =>
    if s.listSize = 0 then some s
    else do
      let l ← s.cloak.registry.list
      let e ← l.memory[0]?
      let s ← s.cloakCall pf (.deactivate e.address) 0
      resetList pf fuel s

def reset [DecidableEq κ] (pf : Platform) (s : EptState κ) : Option (EptState κ) := do
  let watch := resetWatches pf.executeOnly s.watch
  let cloak ← resetBreakpoints s.cloak
  let s := { s with watch, cloak }
  match s.cloak.registry.map with
  | some map =>
    let registry := { s.cloak.registry with map := some (resetMap map) }
    return { s with cloak := { s.cloak with registry } }
  | none => resetList pf s.listSize s

def step [DecidableEq κ] (pf : Platform) (s : EptState κ) : EptInput κ → Option (EptState κ)
  | .watch input => some { s with watch := s.watch.step pf.executeOnly input }
  | .cloak input mode => s.cloakCall pf input mode
  | .cloakEvent c event => s.handleCloakEvent pf c event
  | .cloakAfterStep c => s.handleCloakEventAfterStep pf c
  | .reset => s.reset pf

end EptState

end CheatEngine.Dbvm
