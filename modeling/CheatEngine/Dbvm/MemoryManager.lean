/-
  CheatEngine.Dbvm.MemoryManager

  The memory manager of DBVM (mm.c).  Pages are mapped one after another from
  `BASE_VIRTUAL_ADDRESS` on.  `AllocationInfoList` has a `BitMask` of 64 bits for
  each page, one bit for 64 bytes; the list is in the memory it describes and
  moves when it grows.  `malloc2` looks for a small block in windows of eight
  bytes of the list, and for a large one from a free page on; `free2` is told the
  size.

  Addresses are offsets from `BASE_VIRTUAL_ADDRESS`.  The list is one number, so
  that a window may start at any byte of it.  An access behind the end of the
  list, or through `NULL`, does not return (`none`).
-/
import Mathlib.Algebra.Group.Int.Defs
import CheatEngine.Lib.Bitmap
import CheatEngine.Lib.Run

namespace CheatEngine.Dbvm

open CheatEngine.Lib

/-- `AllocationInfoList` with its place, `PhysicalPageListSize` and
    `PhysicalPageListMaxSize`. -/
structure MemoryManager where
  bitmap : Nat
  allocationInfoList : Nat
  physicalPageListSize : Nat
  physicalPageListMaxSize : Nat
  deriving DecidableEq

/-- Blocks are looked up by address and size. -/
instance instLawfulBEqBlock : LawfulBEq (Nat × Nat) := inferInstance

def bitcount (size : Nat) : Nat := size / 64 + if size % 64 ≠ 0 then 1 else 0

/-- `(1ULL << count) - 1`, where the processor takes the count modulo 64. -/
def lowMask (count : Nat) : Nat := 2 ^ (count % 64) - 1

def toInt32 (n : Nat) : Int := if n % 2 ^ 32 < 2 ^ 31 then (n % 2 ^ 32 : Nat) else n % 2 ^ 32 - 2 ^ 32

namespace MemoryManager

/-- After `InitializeMM` has made the list: it takes the first 512 bytes of page
    0, and the other 63 entries are full. -/
def initial : MemoryManager := ⟨2 ^ 4096 - 2 ^ 64 + 0xff, 0, 1, 64⟩

/-- `list[i]`. -/
def byte (s : MemoryManager) (i : Nat) : Nat := (s.bitmap >>> (8 * i)) % 2 ^ 8

/-- `*(UINT64 *)&list[i]`. -/
def window (s : MemoryManager) (i : Nat) : Nat := (s.bitmap >>> (8 * i)) % 2 ^ 64

def bitMask (s : MemoryManager) (j : Nat) : Nat := (s.bitmap >>> (64 * j)) % 2 ^ 64

/-- The loop over the eight shifts of the mask. -/
def findShift (p : Nat) : Nat → Nat → Nat → Option (Nat × Nat)
  | 0, _, _ => none
  | fuel + 1, j, currentbm =>
    if p &&& currentbm ≠ 0 then findShift p fuel (j + 1) (currentbm <<< 1 % 2 ^ 64)
    else some (j, currentbm)

def findSmall (s : MemoryManager) (bitmask : Nat) : Nat → Nat → Option (Nat × Nat × Nat)
  | 0, _ => none
  | fuel + 1, i =>
    if s.byte i ≠ 0xff then
      match findShift (s.window i) 8 0 bitmask with
      | some (j, currentbm) => some (i, j, currentbm)
      | none => findSmall s bitmask fuel (i + 1)
    else findSmall s bitmask fuel (i + 1)

def mallocSmall (s : MemoryManager) (count : Nat) : Option Nat × MemoryManager :=
  match s.findSmall (lowMask count) (s.physicalPageListSize * 8 - 8) 0 with
  | none => (none, s)
  | some (i, j, currentbm) =>
    (some (i * (4096 / 8) + j * 64), { s with bitmap := s.bitmap ||| (currentbm <<< (8 * i)) })

def minpagecount (size : Nat) : Nat := size / 4096 + if size % 4096 ≠ 0 then 1 else 0

/-- The loop over the neighbours of the free page `i`, from page `j` on.  For an
    occupied last page it looks at the mask of page `i`. -/
def usable (s : MemoryManager) (size i : Nat) : Nat → Nat → Int → Option Bool
  | 0, _, _ => none
  | fuel + 1, j, sizeleft =>
    if sizeleft ≤ 0 then some true
    else if s.physicalPageListMaxSize ≤ j then none
    else if s.bitMask j ≠ 0 then
      if j = i + minpagecount size - 1 ∧ sizeleft < 4096 then
        some (lowMask (bitcount sizeleft.toNat) &&& s.bitMask i = 0)
      else some false
    else usable s size i fuel (j + 1) (sizeleft - 4096)

def findLarge (s : MemoryManager) (size : Nat) : Nat → Nat → Option (Option Nat)
  | 0, _ => some none
  | fuel + 1, i =>
    if s.bitMask i = 0 then do
      if ← s.usable size i (s.physicalPageListMaxSize + 1) (i + 1) (toInt32 (size + 2 ^ 32 - 4096))
      then return some i
      else findLarge s size fuel (i + 1)
    else findLarge s size fuel (i + 1)

def markPages : Nat → Nat → MemoryManager → Option MemoryManager
  | 0, _, s => some s
  | n + 1, x, s =>
    if x < s.physicalPageListMaxSize then
      markPages n (x + 1) { s with bitmap := s.bitmap ||| ((2 ^ 64 - 1) <<< (64 * x)) }
    else none

/-- Mark the last part of a range that does not fill a page. -/
def markRest (x rest : Nat) (s : MemoryManager) : Option MemoryManager :=
  if rest = 0 then some s
  else if x < s.physicalPageListMaxSize then
    some { s with bitmap := s.bitmap ||| (lowMask (bitcount rest) <<< (64 * x)) }
  else none

def mallocLarge (s : MemoryManager) (size : Nat) : Option (Option Nat × MemoryManager) := do
  match ← s.findLarge size s.physicalPageListSize 0 with
  | none => return (none, s)
  | some i =>
    let s ← markPages (size / 4096) i s
    let s ← markRest (i + size / 4096) (size % 4096) s
    return (some (i * 4096), s)

/-! ## Calls -/

def malloc2 (s : MemoryManager) (size : Nat) : Option (Option Nat × MemoryManager) :=
  if bitcount size = 0 then some (none, s)
  else if bitcount size < 56 then some (s.mallocSmall (bitcount size))
  else s.mallocLarge size

def clearPages : Nat → Nat → MemoryManager → Option MemoryManager
  | 0, _, s => some s
  | n + 1, index, s =>
    if index < s.physicalPageListMaxSize then
      clearPages n (index + 1)
        { s with bitmap := clearMask s.bitmap ((2 ^ 64 - 1) <<< (64 * index)) }
    else none

def clearRest (index bitoffset count : Nat) (s : MemoryManager) : Option MemoryManager :=
  if count = 0 then some s
  else if index < s.physicalPageListMaxSize then
    let bitmask := lowMask count <<< bitoffset % 2 ^ 64
    some { s with bitmap := clearMask s.bitmap (bitmask <<< (64 * index)) }
  else none

section

variable (s : MemoryManager)

def free2 (address size : Nat) : Option MemoryManager := do
  let index := address / 4096
  let s ← clearPages (bitcount size / 64) index s
  clearRest (index + bitcount size / 64) (address % 4096 / 64) (bitcount size % 64) s

def realloc2 (oldaddress oldsize newsize : Nat) : Option (Option Nat × MemoryManager) := do
  let (newaddress, s) ← s.malloc2 newsize
  match newaddress with
  | none => return (none, s)
  | some a => return (some a, ← s.free2 oldaddress oldsize)

/-- The list moves to twice its size.  `realloc2` copies it before it frees the
    old block in the old list, and the caller frees that block in the new one. -/
def growList : Option MemoryManager := do
  let oldsize := 8 * s.physicalPageListMaxSize
  let (newaddress, copied) ← s.malloc2 (oldsize * 2 % 2 ^ 32)
  let _ ← copied.free2 s.allocationInfoList oldsize
  let list ← newaddress
  let full := 64 * (s.physicalPageListMaxSize * 2 - s.physicalPageListSize)
  let s' : MemoryManager :=
    { bitmap := setRange (copied.bitmap % 2 ^ (64 * s.physicalPageListMaxSize))
        (64 * s.physicalPageListSize) full
      allocationInfoList := list
      physicalPageListSize := s.physicalPageListSize
      physicalPageListMaxSize := s.physicalPageListMaxSize * 2 }
  s'.free2 s.allocationInfoList oldsize

/-- The page that `addPhysicalPageToDBVM` adds, before the list grows. -/
def addPage (inuse : Bool) : MemoryManager :=
  let mask := (2 ^ 64 - 1) <<< (64 * s.physicalPageListSize)
  { s with
    bitmap := if inuse then s.bitmap ||| mask else clearMask s.bitmap mask
    physicalPageListSize := s.physicalPageListSize + 1 }

/-- `addPhysicalPageToDBVM`; a page that becomes a page table is not added to the
    list. -/
def addPhysicalPageToDBVM (table inuse : Bool) : Option MemoryManager :=
  if table then some s
  else
    let s := s.addPage inuse
    if s.physicalPageListMaxSize ≤ s.physicalPageListSize then s.growList else some s

end

end MemoryManager

/-- The manager, the live blocks with their sizes, and the pages that were added
    in use. -/
structure Heap where
  mm : MemoryManager
  live : List (Nat × Nat)
  inuse : List Nat
  deriving DecidableEq

/-- A call. -/
inductive HeapInput
  | addPhysicalPageToDBVM (table inuse : Bool)
  | malloc2 (size : UInt32)
  | free2 (address : Nat) (size : UInt32)
  | realloc2 (oldaddress : Nat) (oldsize newsize : UInt32)

namespace Heap

def initial : Heap := ⟨.initial, [], []⟩

def keep (live : List (Nat × Nat)) (address : Option Nat) (size : Nat) : List (Nat × Nat) :=
  match address with
  | none => live
  | some a => (a, size) :: live

/-- One call.  Only live blocks are freed and reallocated, with their size. -/
def step (s : Heap) : HeapInput → Option Heap
  | .addPhysicalPageToDBVM table inuse => do
    let mm ← s.mm.addPhysicalPageToDBVM table inuse
    let added := if table = false ∧ inuse then s.mm.physicalPageListSize :: s.inuse else s.inuse
    return ⟨mm, s.live, added⟩
  | .malloc2 size => do
    let (address, mm) ← s.mm.malloc2 size.toNat
    return ⟨mm, keep s.live address size.toNat, s.inuse⟩
  | .free2 address size =>
    if (address, size.toNat) ∈ s.live then do
      let mm ← s.mm.free2 address size.toNat
      return ⟨mm, s.live.erase (address, size.toNat), s.inuse⟩
    else some s
  | .realloc2 oldaddress oldsize newsize =>
    if (oldaddress, oldsize.toNat) ∈ s.live then do
      let (address, mm) ← s.mm.realloc2 oldaddress oldsize.toNat newsize.toNat
      match address with
      | none => return { s with mm }
      | some a =>
        return ⟨mm, (a, newsize.toNat) :: s.live.erase (oldaddress, oldsize.toNat), s.inuse⟩
    else some s

end Heap

end CheatEngine.Dbvm
