/-
  CheatEngine.Dbvm.PageEntry

  The entries through which DBVM maps guest-physical pages: `EPT_PTE` on Intel
  (eptstructs.h) and `_PTE_PAE` in the nested tables of AMD.  A watch denies
  accesses by clearing bits of the entry of its page; the bits that count, and
  the way back, differ between the two.
-/
import Mathlib.Algebra.Group.Nat.Defs
import Mathlib.Data.List.Basic

namespace CheatEngine.Dbvm

/-- An entry of the last level, with the bits that the handlers write.  `PFN`
    is the number of the page it maps. -/
inductive PageEntry
  /-- `EPT_PTE`. -/
  | ept (PFN : Nat) (RA WA XA : Bool)
  /-- `_PTE_PAE` of a nested table. -/
  | np (PFN : Nat) (P RW EXB : Bool)

/-- `EPTW_WRITE`, `EPTW_READWRITE` and `EPTW_EXECUTE`. -/
inductive WatchType
  | write
  | readWrite
  | execute
  deriving DecidableEq, Repr

namespace PageEntry

def page : PageEntry → Nat
  | .ept PFN _ _ _ => PFN
  | .np PFN _ _ _ => PFN

def fullAccess : PageEntry → PageEntry
  | .ept PFN _ _ _ => .ept PFN true true true
  | .np PFN _ _ _ => .np PFN true true false

/-- The entry is that of `page`, and allows every access. -/
def Maps (page : Nat) (e : PageEntry) : Prop := e.page = page ∧ e.fullAccess = e

/-- The entry denies the accesses that a watch type names. -/
def Denies : PageEntry → WatchType → Prop
  | .ept _ _ WA _, .write => WA = false
  | .ept _ RA WA _, .readWrite => RA = false ∧ WA = false
  | .ept _ _ _ XA, .execute => XA = false
  | .np _ P RW _, .write => P = false ∨ RW = false
  | .np _ P _ _, .readWrite => P = false
  | .np _ P _ EXB, .execute => P = false ∨ EXB = true

instance (e : PageEntry) (type : WatchType) : Decidable (e.Denies type) :=
  match e, type with
  | .ept _ _ WA _, .write => inferInstanceAs (Decidable (WA = false))
  | .ept _ RA WA _, .readWrite => inferInstanceAs (Decidable (RA = false ∧ WA = false))
  | .ept _ _ _ XA, .execute => inferInstanceAs (Decidable (XA = false))
  | .np _ P RW _, .write => inferInstanceAs (Decidable (P = false ∨ RW = false))
  | .np _ P _ _, .readWrite => inferInstanceAs (Decidable (P = false))
  | .np _ P _ EXB, .execute => inferInstanceAs (Decidable (P = false ∨ EXB = true))

/-- Close an entry for one watch type, as `ept_watch_activate` and
    `ept_handleWatchEventAfterStep` do.  Without `has_EPT_ExecuteOnlySupport` an
    entry that cannot be read cannot be executed either. -/
def close (executeOnly : Bool) : WatchType → PageEntry → PageEntry
  | .write, .ept PFN RA _ XA => .ept PFN RA false XA
  | .readWrite, .ept PFN _ _ _ => .ept PFN false false executeOnly
  | .execute, .ept PFN RA WA _ => .ept PFN RA WA false
  | .write, .np PFN P _ EXB => .np PFN P false EXB
  | .readWrite, .np PFN _ RW EXB => .np PFN false RW EXB
  | .execute, .np PFN P RW _ => .np PFN P RW true

/-- Open an entry again for one watch type, as `ept_watch_deactivate` means to. -/
def reopen (executeOnly : Bool) : WatchType → PageEntry → PageEntry
  | .write, .ept PFN RA _ XA => .ept PFN RA true XA
  | .readWrite, .ept PFN _ _ XA => .ept PFN true true (if executeOnly then XA else true)
  | .execute, .ept PFN RA WA _ => .ept PFN RA WA true
  | .write, .np PFN P _ EXB => .np PFN P true EXB
  | .readWrite, .np PFN _ _ _ => .np PFN true true false
  | .execute, .np PFN P RW _ => .np PFN P RW false

/-- `EPTMapPhysicalMemory` and `NPMapPhysicalMemory` make the entry of `page`
    anew.  The first always does; the second does for an entry that is not
    present, and for a present one when the page is not cloaked and no update
    is pending on the CPU (`restore`). -/
def Remapped (restore : Bool) : PageEntry → Prop
  | .ept _ _ _ _ => True
  | .np _ P _ _ => P = false ∨ restore = true

/-- `EPTMapPhysicalMemory` and `NPMapPhysicalMemory` with `forcesmallpage`, on
    the entry they find. -/
def mapPhysicalMemory (page : Nat) (restore : Bool) : PageEntry → PageEntry
  | .ept PFN RA _ _ => .ept (if RA then PFN else page) true true true
  | .np PFN P RW EXB => if P = false ∨ restore = true then .np page true true false
      else .np PFN P RW EXB

/-- Closing for `type` denies what `other` names, whatever the entry was. -/
def Covers (executeOnly : Bool) (e : PageEntry) (type other : WatchType) : Prop :=
  (close executeOnly type e.fullAccess).Denies other

instance (executeOnly : Bool) (e : PageEntry) (type other : WatchType) :
    Decidable (e.Covers executeOnly type other) :=
  inferInstanceAs (Decidable (PageEntry.Denies _ _))

variable {executeOnly : Bool} {e : PageEntry} {type other : WatchType}

attribute [local simp] close Denies

theorem denies_close : (close executeOnly type e).Denies type := by
  cases e <;> cases type <;> simp [close, Denies]

theorem Covers.denies_close (h : e.Covers executeOnly type other) :
    (close executeOnly type e).Denies other := by
  cases e <;> cases type <;> cases other <;> simp_all [Covers, close, Denies, fullAccess]

/-- Every mapping of an entry has the same vendor. -/
theorem covers_mapPhysicalMemory {page : Nat} {restore : Bool} :
    (e.mapPhysicalMemory page restore).Covers executeOnly type other ↔
      e.Covers executeOnly type other := by
  cases e with
  | ept PFN RA WA XA => cases type <;> cases other <;> rfl
  | np PFN P RW EXB =>
    simp only [mapPhysicalMemory]
    split <;> cases type <;> cases other <;> rfl

theorem denies_close_of_not_remapped {page : Nat} {restore : Bool} (h : ¬ e.Remapped restore)
    (hdenies : e.Denies other) :
    (close executeOnly type (e.mapPhysicalMemory page restore)).Denies other := by
  cases e with
  | ept PFN RA WA XA => exact absurd trivial h
  | np PFN P RW EXB =>
    have hmap : mapPhysicalMemory page restore (.np PFN P RW EXB) = .np PFN P RW EXB := if_neg h
    rw [hmap]
    cases type <;> cases other <;> simp_all [close, Denies]

end PageEntry

end CheatEngine.Dbvm
