/-
  CheatEngine.Dbvm.EptTables

  The tables of the EPT of a CPU, and `EPTMapPhysicalMemory` (epthandler.c), which
  maps a guest-physical address: as a 1 GB or 2 MB page where the memory types allow
  it, else through tables that it allocates.  Memory is seen as pages of 512 QWORDs,
  whether they are tables or belong to the guest, and pages are given by number.

  The levels are counted from 0, the page table, to 3, the PML4; an entry of level
  `L` maps `2 ^ (9 * L)` pages.
-/
import Mathlib.Algebra.Group.Nat.Defs
import Mathlib.Logic.Function.Basic
import CheatEngine.Lib.Run

namespace CheatEngine.Dbvm

/-! ## Memory -/

/-- A QWORD, as the bit fields of an entry; `page` is its part in `MAXPHYADDRMASKPB`
    as a page number, and `other` has all other bits. -/
structure EptEntry where
  RA : Bool
  WA : Bool
  XA : Bool
  MEMTYPE : Nat
  BIG : Bool
  page : Nat
  other : Nat
  deriving DecidableEq, Repr

namespace EptEntry

def ofPage (page : Nat) : EptEntry := ⟨false, false, false, 0, false, page, 0⟩

def zero : EptEntry := ofPage 0

def allow (e : EptEntry) : EptEntry := { e with RA := true, WA := true, XA := true }

/-- Every access is allowed. -/
def Allowed (e : EptEntry) : Prop := e.RA = true ∧ e.WA = true ∧ e.XA = true

/-- Some access is allowed, so that the processor uses the entry. -/
def present (e : EptEntry) : Bool := e.RA || e.WA || e.XA

theorem allowed_allow (e : EptEntry) : e.allow.Allowed := ⟨rfl, rfl, rfl⟩

theorem Allowed.present {e : EptEntry} (h : e.Allowed) : e.present = true := by
  simp [EptEntry.present, h.1]

end EptEntry

/-- Physical memory: pages of 512 QWORDs. -/
abbrev EptMemory : Type := Nat → Nat → EptEntry

/-- The memory, the PML4 of the CPU, and the pages that were allocated for tables. -/
structure EptTables where
  mem : EptMemory
  pml4 : Nat
  tables : List Nat

namespace EptTables

def write (s : EptTables) (page index : Nat) (e : EptEntry) : EptTables :=
  { s with mem := Function.update s.mem page (Function.update (s.mem page) index e) }

def newTable (s : EptTables) (page : Nat) : EptTables :=
  { s with mem := Function.update s.mem page fun _ => .zero, tables := page :: s.tables }

section

variable (s : EptTables)
include s

@[simp] theorem write_pml4 (page index : Nat) (e : EptEntry) :
    (s.write page index e).pml4 = s.pml4 := rfl

@[simp] theorem write_tables (page index : Nat) (e : EptEntry) :
    (s.write page index e).tables = s.tables := rfl

@[simp] theorem write_self (page index : Nat) (e : EptEntry) :
    (s.write page index e).mem page index = e := by
  simp [write]

theorem write_of_ne {page index p i : Nat} (h : ¬ (p = page ∧ i = index))
    (e : EptEntry) : (s.write page index e).mem p i = s.mem p i := by
  by_cases hp : p = page
  · subst hp
    have hi : i ≠ index := fun hi => h ⟨rfl, hi⟩
    simp [write, hi]
  · simp [write, hp]

@[simp] theorem newTable_pml4 (page : Nat) : (s.newTable page).pml4 = s.pml4 := rfl

@[simp] theorem newTable_tables (page : Nat) :
    (s.newTable page).tables = page :: s.tables := rfl

@[simp] theorem newTable_self (page i : Nat) :
    (s.newTable page).mem page i = .zero := by
  simp [newTable]

theorem newTable_of_ne {page p : Nat} (h : p ≠ page) :
    (s.newTable page).mem p = s.mem p := by
  simp [newTable, h]

end

end EptTables

/-- `MEMRANGE`. -/
structure MemRange where
  startaddress : Nat
  size : Nat
  memtype : Nat
  deriving DecidableEq, Repr

/-- What does not change: `MAXPHYADDR`, the supported page sizes,
    `MTRRDefType.TYPE`, and the memory ranges, which the MTRRs give in whole pages. -/
structure EptPlatform where
  maxphyaddr : Nat
  has1GB : Bool
  has2MB : Bool
  defType : Nat
  memoryranges : List MemRange
  whole : ∀ r ∈ memoryranges, r.startaddress % 4096 = 0 ∧ r.size % 4096 = 0 ∧ 0 < r.size

/-- The loop of `getMTRRMapInfo` from `starta` to `stopa`: the memory type, or `none`
    when `fullmap` is 0. -/
def mapInfo (defType starta stopa : Nat) : List MemRange → Option Nat
  | [] => some defType
  | r :: ranges =>
    let stopb := r.startaddress + r.size - 1
    if starta ≤ stopb ∧ r.startaddress ≤ stopa then
      if r.startaddress ≤ starta ∧ stopa ≤ stopb then some r.memtype else none
    else if stopa < r.startaddress then some defType
    else mapInfo defType starta stopa ranges

def EptPlatform.getMTRRMapInfo (P : EptPlatform) (startaddress size : Nat) : Option Nat :=
  mapInfo P.defType startaddress (startaddress + size - 1) P.memoryranges

theorem mapInfo_page (defType page : Nat) (ranges : List MemRange)
    (h : ∀ r ∈ ranges, r.startaddress % 4096 = 0 ∧ r.size % 4096 = 0 ∧ 0 < r.size) :
    ∃ memtype, mapInfo defType (page * 4096) (page * 4096 + 4096 - 1) ranges = some memtype := by
  induction ranges with
  | nil => exact ⟨defType, rfl⟩
  | cons r ranges ih =>
    obtain ⟨hstart, hsize, hpos⟩ := h r List.mem_cons_self
    have hrest := ih fun r' hr' => h r' (List.mem_cons_of_mem r hr')
    simp only [mapInfo]
    by_cases hoverlap : page * 4096 ≤ r.startaddress + r.size - 1 ∧
        r.startaddress ≤ page * 4096 + 4096 - 1
    · -- both ends of a range are ends of pages
      have hinside : r.startaddress ≤ page * 4096 ∧
          page * 4096 + 4096 - 1 ≤ r.startaddress + r.size - 1 := by
        omega
      rw [if_pos hoverlap, if_pos hinside]
      exact ⟨_, rfl⟩
    · rw [if_neg hoverlap]
      split
      · exact ⟨_, rfl⟩
      · exact hrest

/-! ## `EPTMapPhysicalMemory` -/

/-- `VirtualAddressToIndexes`: the index of a page in a table of a level. -/
def tableIndex (L page : Nat) : Nat := page / 2 ^ (9 * L) % 512

/-- The entry of a 1 GB page (level 2) or a 2 MB page (level 1), if it can be mapped
    as one. -/
def EptPlatform.bigPage (P : EptPlatform) (L page : Nat) (forcesmallpage : Bool) :
    Option EptEntry :=
  if (if L = 2 then P.has1GB else P.has2MB) ∧ forcesmallpage = false then
    let base := page / 2 ^ (9 * L) * 2 ^ (9 * L)
    (P.getMTRRMapInfo (base * 4096) (2 ^ (9 * L) * 4096)).map fun memtype =>
      { (EptEntry.ofPage base).allow with BIG := true, MEMTYPE := memtype % 8 }
  else none

/-- The entry of a big page is cleared, "Clear everything", when small pages are forced. -/
def EptTables.clearBig (s : EptTables) (table index : Nat) (clear : Bool) : EptTables :=
  if clear ∧ (s.mem table index).RA ∧ (s.mem table index).BIG then s.write table index .zero
  else s

/-- A table above the last level.  `clear` is `forcesmallpage`, which the PML4 does not
    look at.  Returned is the next table, or `none` when the entry was mapped as a big
    page; the pages are those that `malloc2` gives, one after another. -/
def nextTable (P : EptPlatform) (s : EptTables) (pages : List Nat) (table index : Nat)
    (clear : Bool) (big : Option EptEntry) : Option (EptTables × List Nat × Option Nat) :=
  let s := s.clearBig table index clear
  -- without the bit the entry is taken for a table, also where it is a big page
  if (s.mem table index).RA then some (s, pages, some (s.mem table index).page)
  else
    match big, pages with
    | some e, pages => some (s.write table index e, pages, none)
    | none, [] => none
    | none, temp :: pages =>
      let page := temp % 2 ^ (P.maxphyaddr - 12)
      some ((s.newTable temp).write table index (EptEntry.ofPage page).allow, pages, some page)

/-- The entry of a page table; `none` when the assertion about the memory type fails. -/
def lastEntry (P : EptPlatform) (page : Nat) (e : EptEntry) : Option EptEntry :=
  if e.RA then some e.allow
  else (P.getMTRRMapInfo (page * 4096) 4096).map fun memtype =>
    { (EptEntry.ofPage page).allow with MEMTYPE := memtype % 8 }

/-- `EPTMapPhysicalMemory`: the tables after it, and the address of the entry. -/
def eptMapPhysicalMemory (P : EptPlatform) (s : EptTables) (pages : List Nat)
    (physicalAddress : Nat) (forcesmallpage : Bool) : Option (EptTables × Nat) := do
  let page := physicalAddress / 4096 % 2 ^ (P.maxphyaddr - 12)
  let (s, pages, pagedirptr) ← nextTable P s pages s.pml4 (tableIndex 3 page) false none
  match pagedirptr with
  | none => none
  | some pagedirptr =>
    let (s, pages, pagedir) ← nextTable P s pages pagedirptr (tableIndex 2 page) forcesmallpage
      (P.bigPage 2 page forcesmallpage)
    match pagedir with
    | none => some (s, pagedirptr * 4096 + 8 * tableIndex 2 page)
    | some pagedir =>
      let (s, _, pagetable) ← nextTable P s pages pagedir (tableIndex 1 page) forcesmallpage
        (P.bigPage 1 page forcesmallpage)
      match pagetable with
      | none => some (s, pagedir * 4096 + 8 * tableIndex 1 page)
      | some pagetable =>
        let e ← lastEntry P page (s.mem pagetable (tableIndex 0 page))
        some (s.write pagetable (tableIndex 0 page) e,
          pagetable * 4096 + 8 * tableIndex 0 page)

/-- Where a walk ends: the entry, the page it leads to and the accesses that all
    entries on the way allow. -/
structure EptLeaf where
  table : Nat
  index : Nat
  level : Nat
  page : Nat
  RA : Bool
  WA : Bool
  XA : Bool

/-- Only what the entry allows as well. -/
def EptLeaf.restrict (e : EptEntry) (leaf : EptLeaf) : EptLeaf :=
  { leaf with RA := leaf.RA && e.RA, WA := leaf.WA && e.WA, XA := leaf.XA && e.XA }

/-- The walk for a page from a table of level `L` on. -/
def walkFrom (mem : EptMemory) : Nat → Nat → Nat → Option EptLeaf
  | 0, table, page =>
    let e := mem table (tableIndex 0 page)
    if e.present then some ⟨table, tableIndex 0 page, 0, e.page, e.RA, e.WA, e.XA⟩ else none
  | L + 1, table, page =>
    let e := mem table (tableIndex (L + 1) page)
    if ¬ e.present then none
    else if e.BIG ∧ L + 1 ≤ 2 then
      some ⟨table, tableIndex (L + 1) page, L + 1,
        e.page / 2 ^ (9 * (L + 1)) * 2 ^ (9 * (L + 1)) + page % 2 ^ (9 * (L + 1)),
        e.RA, e.WA, e.XA⟩
    else (walkFrom mem L e.page page).map (EptLeaf.restrict e)

/-- The walk for a page; four levels translate addresses of 48 bits. -/
def EptTables.walk (s : EptTables) (page : Nat) : Option EptLeaf :=
  if page < 2 ^ 36 then walkFrom s.mem 3 s.pml4 page else none

end CheatEngine.Dbvm
