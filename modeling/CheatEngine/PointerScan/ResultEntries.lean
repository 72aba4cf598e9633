/-
  CheatEngine.PointerScan.ResultEntries

  What a worker stores for a path (`StorePath` of pointerscanworker.pas): nothing
  when the path leads elsewhere in another pointer map, an entry packed to bits, or
  an entry of whole words.  A packed entry is written into a buffer that is never
  cleared, so that the bits behind the last offset are those of the entry before.

  Main result: two workers with the same layout store the same entries for paths
  that are the same calls.
-/
import CheatEngine.Lib.Bytes
import CheatEngine.PointerScan.Rscan

namespace CheatEngine.PointerScan

open CheatEngine.Lib

/-- `TPointerListHandler` (pointeraddresslist.pas): the modules, and the memory in
    blocks of 64 KB. -/
structure RescanList where
  modulebases : List UInt64
  is32bit : Bool
  pmap : UInt64 → Option (Nat → UInt8)

namespace RescanList

/-- `getAddressFromModuleIndexPlusOffset`, which takes the offset as an integer. -/
def getAddressFromModuleIndexPlusOffset (l : RescanList) (moduleindex : Int) (offset : UInt64) :
    UInt64 :=
  let offset := offset.toUInt32.toInt32.toInt64.toUInt64
  if 0 ≤ moduleindex then l.modulebases.getD moduleindex.toNat 0 + offset else offset

def getPointer (l : RescanList) (address : UInt64) : UInt64 :=
  let base := address &&& ~~~ (0xffff : UInt64)
  match l.pmap base with
  | none => 0
  | some pbase =>
    let bytes := (List.range 8).map fun i => pbase ((address - base).toNat + i)
    if l.is32bit then (u32At bytes 0).toUInt64 else u64At bytes 0

/-- The loop of `DoRescan` over the offsets below `n`. -/
def follow (l : RescanList) (tempresults : Nat → UInt32) : Nat → UInt64 → Option UInt64
  | 0, a => some a
  | n + 1, a =>
    let a := l.getPointer a
    if a = 0 then none else follow l tempresults n (a + (tempresults n).toUInt64)

end RescanList

def doRescan (lists : List (RescanList × UInt64)) (c : StoreCall) : Bool :=
  lists.all fun (l, address) =>
    l.follow c.tempresults (c.level + 1)
      (l.getAddressFromModuleIndexPlusOffset c.moduleid c.offset) = some address

/-! ## Packed entries -/

/-- `MaxBitCountModuleOffset`, `MaxBitCountModuleIndex`, `MaxBitCountLevel` and
    `MaxBitCountOffset`. -/
structure MaxBitCount where
  moduleOffset : UInt32
  moduleIndex : UInt32
  level : UInt32
  offset : UInt32

/-- The loop of `getMaxBitCount`; a dword has 32 bits. -/
def bitCount : Nat → UInt32 → UInt32
  | 0, _ => 0
  | n + 1, absolutemaxvalue =>
    if 0 < absolutemaxvalue then bitCount n (absolutemaxvalue >>> 1) + 1 else 0

def getMaxBitCount (absolutemaxvalue : UInt32) (signed : Bool) : UInt32 :=
  let bitcount := bitCount 32 absolutemaxvalue
  if signed then bitcount + 1 else bitcount

/-- A mask of so many bits; the loop variable is a signed integer. -/
def mask (bits : UInt32) : UInt32 :=
  Nat.iterate (fun m : UInt32 => (m <<< 1) ||| 1) bits.toInt32.toInt.toNat 0

def dwordAt (entry : Nat → UInt8) (i : Nat) : UInt32 :=
  u32At ((List.range 4).map fun k => entry (i + k)) 0

def putBytes (entry : Nat → UInt8) (i : Nat) (bytes : List UInt8) : Nat → UInt8 :=
  fun j => if i ≤ j then bytes.getD (j - i) (entry j) else entry j

/-- A field is written from a bit on, and the bits above it are left. -/
def putField (entry : Nat → UInt8) (bit : Nat) (fieldMask value : UInt32) : Nat → UInt8 :=
  let bd8 := bit / 8
  let bm8 := UInt32.ofNat (bit % 8)
  putBytes entry bd8
    (u32 ((dwordAt entry bd8 &&& ~~~ (fieldMask <<< bm8)) ||| (value <<< bm8)))

/-- A worker, as far as `StorePath` uses it. -/
structure ScanWorker where
  settings : Settings
  compressedptr : Bool
  alligned : Bool
  maxBitCount : MaxBitCount
  instantrescan : List (RescanList × UInt64)

namespace ScanWorker

/-- How many offsets at the end are the same in every entry. -/
def endlevel (w : ScanWorker) : Nat :=
  if w.settings.mustEndWithSpecificOffsetMaxDeviation = 0 then
    w.settings.mustendwithoffsetlist.length
  else 0

def compressedEntrySize (w : ScanWorker) : Nat :=
  let b := w.maxBitCount
  let bits : Int := b.moduleOffset.toNat + b.moduleIndex.toNat + b.level.toNat +
    b.offset.toNat * (w.settings.maxlevel - w.endlevel)
  (((Int32.ofInt bits).toInt + 7).tdiv 8).toNat

/-- The loop over the offsets: `n` are left, the next one is `i`. -/
def putOffsets (w : ScanWorker) (tempresults : Nat → UInt32) :
    Nat → Nat → Nat → (Nat → UInt8) → Nat → UInt8
  | 0, _, _, entry => entry
  | n + 1, i, bit, entry =>
    let offset := if w.alligned then tempresults i >>> 2 else tempresults i
    putOffsets w tempresults n (i + 1) (bit + w.maxBitCount.offset.toNat)
      (putField entry bit (mask w.maxBitCount.offset) offset)

def compress (w : ScanWorker) (entry : Nat → UInt8) (c : StoreCall) : Nat → UInt8 :=
  let b := w.maxBitCount
  let entry := putBytes entry 0 (u64 c.offset)
  let bit := b.moduleOffset.toNat
  let entry := putBytes entry (bit / 8) (u32 (Int32.ofInt c.moduleid).toUInt32)
  let bit := bit + b.moduleIndex.toNat
  let entry := putField entry bit (mask b.level) (UInt32.ofNat (c.level + 1 - w.endlevel))
  w.putOffsets c.tempresults (c.level + 1 - w.endlevel) w.endlevel (bit + b.level.toNat) entry

/-- `StorePath`: the buffer, and the entry unless there is none. -/
def storePath (w : ScanWorker) (entry : Nat → UInt8) (c : StoreCall) :
    (Nat → UInt8) × List (List UInt8) :=
  if ¬ doRescan w.instantrescan c then (entry, [])
  else if w.compressedptr then
    -- a static address before the last of the given offsets is not what was asked for
    if w.settings.mustEndWithSpecificOffsetMaxDeviation = 0 ∧
        c.level + 1 < w.settings.mustendwithoffsetlist.length then (entry, [])
    else
      let entry := w.compress entry c
      (entry, [(List.range w.compressedEntrySize).map entry])
  else
    (entry, [u32 (Int32.ofInt c.moduleid).toUInt32 ++ u64 c.offset ++
      u32 (UInt32.ofNat (c.level + 1)) ++
      ((List.range w.settings.maxlevel).map c.tempresults).flatMap u32])

def storePaths (w : ScanWorker) (entry : Nat → UInt8) : List StoreCall → List (List UInt8)
  | [] => []
  | c :: calls =>
    let stored := w.storePath entry c
    stored.2 ++ w.storePaths stored.1 calls

/-- The entries that a worker stores for an element of the queue: it takes the
    element's arrays and calls `rscan`. -/
def evaluate (w : ScanWorker) (t : Target) (entry : Nat → UInt8) (startlevel : Nat) (a : Arrays)
    (valuetofind : UInt64) : List (List UInt8) :=
  w.storePaths entry (rscan w.settings t startlevel a valuetofind).2

/-- The two workers pack entries in the same way. -/
structure SameLayout (w w' : ScanWorker) : Prop where
  compressedptr : w.compressedptr = w'.compressedptr
  alligned : w.alligned = w'.alligned
  maxBitCount : w.maxBitCount = w'.maxBitCount
  instantrescan : w.instantrescan = w'.instantrescan
  maxlevel : w.settings.maxlevel = w'.settings.maxlevel
  deviation : w.settings.mustEndWithSpecificOffsetMaxDeviation =
    w'.settings.mustEndWithSpecificOffsetMaxDeviation
  offsetlist : w.settings.mustendwithoffsetlist = w'.settings.mustendwithoffsetlist

namespace SameLayout

variable {w w' : ScanWorker}

section

variable (h : SameLayout w w')
include h

theorem endlevel : w.endlevel = w'.endlevel := by
  rw [ScanWorker.endlevel, ScanWorker.endlevel, h.deviation, h.offsetlist]

theorem compressedEntrySize :
    w.compressedEntrySize = w'.compressedEntrySize := by
  rw [ScanWorker.compressedEntrySize, ScanWorker.compressedEntrySize, h.endlevel, h.maxBitCount,
    h.maxlevel]

theorem putOffsets (tempresults : Nat → UInt32) (n i bit : Nat) (entry : Nat → UInt8) :
    w.putOffsets tempresults n i bit entry = w'.putOffsets tempresults n i bit entry := by
  induction n generalizing i bit entry with
  | zero => rfl
  | succ n ih => rw [ScanWorker.putOffsets, ScanWorker.putOffsets, h.alligned, h.maxBitCount, ih]

theorem compress (entry : Nat → UInt8) (c : StoreCall) :
    w.compress entry c = w'.compress entry c := by
  rw [ScanWorker.compress, ScanWorker.compress, h.endlevel, h.maxBitCount, h.putOffsets]

theorem storePath (entry : Nat → UInt8) (c : StoreCall) :
    w.storePath entry c = w'.storePath entry c := by
  rw [ScanWorker.storePath, ScanWorker.storePath, h.compress, h.compressedEntrySize, h.compressedptr,
    h.instantrescan, h.maxlevel, h.deviation, h.offsetlist]

theorem storePaths (entry : Nat → UInt8) (calls : List StoreCall) :
    w.storePaths entry calls = w'.storePaths entry calls := by
  induction calls generalizing entry with
  | nil => rfl
  | cons c calls ih => rw [ScanWorker.storePaths, ScanWorker.storePaths, h.storePath, ih]

end

end SameLayout

end ScanWorker

end CheatEngine.PointerScan
