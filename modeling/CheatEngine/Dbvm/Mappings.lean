/-
  CheatEngine.Dbvm.Mappings

  The mappings of a CPU of DBVM (mm.c): 1024 entries of `mappagetables`, through which it
  comes to physical memory for a while.  `mapPhysicalMemory` takes the first entries in a row
  that are not present and `unmapPhysicalMemory` clears them.  An access through an entry
  that is not present is a page fault in the VMM, and a CPU without a place for a mapping
  waits for ever.

  Addresses are relative to `getMappedMemoryBase()`.
-/
import CheatEngine.Dbvm.GuestMemory
import CheatEngine.Lib.Bits
import CheatEngine.Lib.Windows

namespace CheatEngine.Dbvm

/-- The physical memory, as `DWORD`s: the one at index `i` has the address `4 * i`. -/
abbrev PhysicalMemory : Type := Nat → UInt32

/-- `mappagetables`: the number of the page to which an entry leads, when it is present. -/
abbrev Mappings : Type := Lib.Windows Nat

/-- Why a CPU goes no further. -/
inductive Halt
  /-- There is no place for a mapping (`FreezeOnMapAllocFail`). -/
  | outOfMappings
  /-- An access through an entry that is not present. -/
  | pageFault
  /-- `unmapPhysicalMemory` was given an address that is not one of this CPU. -/
  | invalidAddress
  deriving DecidableEq, Repr

/-- Programs of the VMM over the mappings of their CPU. -/
abbrev Vmm (α : Type) : Type := StateT Mappings (Except Halt) α

/-- `MAXPHYADDRMASKPB` -/
def maxphyaddrMaskPB (MAXPHYADDR : Nat) : Nat := 2 ^ MAXPHYADDR - 2 ^ 12

def mapPhysicalMemory (MAXPHYADDR PhysicalAddress : Nat) (size : Int) : Vmm Nat := fun s =>
  let offset := PhysicalAddress % 4096
  let totalsize := size + offset
  match mmFindMapPositionForSize (fun i => (s i).isSome) totalsize with
  | none => .error .outOfMappings
  | some pos =>
      let page := (PhysicalAddress &&& maxphyaddrMaskPB MAXPHYADDR) / 4096
      .ok (pos * 4096 + offset,
        s.opened ((List.range (pageCount totalsize).toNat).map fun i => (pos + i, page + i)))

def unmapPhysicalMemory (virtualaddress : Nat) (size : Int) : Vmm Unit := fun s =>
  let totalsize := size + (virtualaddress % 4096 : Nat)
  let pos := virtualaddress / 4096
  if 1024 < pos then .error .invalidAddress
  else .ok ((), s.closed (List.range' pos (pageCount totalsize).toNat))

def readDword (memory : PhysicalMemory) (virtualaddress : Nat) : Vmm Nat := fun s =>
  match s (virtualaddress / 4096) with
  | none => .error .pageFault
  | some page => .ok ((memory (page * 1024 + virtualaddress % 4096 / 4)).toNat, s)

def readQword (memory : PhysicalMemory) (virtualaddress : Nat) : Vmm Nat := do
  let low ← readDword memory virtualaddress
  let high ← readDword memory (virtualaddress + 4)
  pure (low + 2 ^ 32 * high)

namespace Vmm

variable {α β : Type} {x : Vmm α} {f : α → Vmm β} {s s' : Mappings} {a : α} {e : Halt}

theorem bind_ok (h : x s = .ok (a, s')) : (x >>= f) s = f a s' := by
  show (x s >>= fun r => f r.1 r.2) = f a s'
  rw [h]
  rfl

theorem bind_error (h : x s = .error e) : (x >>= f) s = .error e := by
  show (x s >>= fun r => f r.1 r.2) = .error e
  rw [h]
  rfl

@[simp] theorem pure_apply (a : α) (s : Mappings) : (pure a : Vmm α) s = .ok (a, s) := rfl

end Vmm

theorem findPosition_one (s : Mappings) (rest i : Nat) :
    findPosition (fun j => (s j).isSome) 1 rest i =
      (List.range' i rest).find? fun j => (s j).isNone := by
  induction rest generalizing i with
  | zero => rfl
  | succ rest ih =>
      have hfree : freeFrom (fun j => (s j).isSome) rest (i + 1) (1 - 1) = some true := by
        cases rest <;> simp [freeFrom]
      rw [findPosition, hfree, List.range'_succ, List.find?_cons, ih]
      cases s i <;> rfl

theorem mmFindMapPositionForSize_page (s : Mappings) :
    mmFindMapPositionForSize (fun j => (s j).isSome) 4096 = s.firstClosed 1024 := by
  have hcount : pageCount 4096 = 1 := rfl
  rw [mmFindMapPositionForSize, if_neg (by decide), hcount, findPosition_one,
    Lib.Windows.firstClosed, List.range_eq_range']

variable {M : Nat}

theorem maxphyaddrMaskPB_and (hM : 12 ≤ M) (e : Nat) :
    e &&& maxphyaddrMaskPB M = 4096 * (e % 2 ^ M / 4096) :=
  Lib.and_mask hM e

/-- What mapping the page does whose number is given. -/
theorem mapPhysicalMemory_page (hM : 12 ≤ M) (e : Nat) (s : Mappings) :
    mapPhysicalMemory M (e &&& maxphyaddrMaskPB M) 4096 s =
      match s.firstClosed 1024 with
      | none => .error .outOfMappings
      | some pos => .ok (pos * 4096, s.opened [(pos, e % 2 ^ M / 4096)]) := by
  have haligned : (e &&& maxphyaddrMaskPB M) % 4096 = 0 := by
    rw [maxphyaddrMaskPB_and hM]
    omega
  have hpage : (e &&& maxphyaddrMaskPB M &&& maxphyaddrMaskPB M) / 4096 = e % 2 ^ M / 4096 := by
    rw [Nat.and_assoc, Nat.and_self, maxphyaddrMaskPB_and hM]
    omega
  have hsize : (4096 : Int) + ((0 : Nat) : Int) = 4096 := rfl
  have hcount : (pageCount 4096).toNat = 1 := rfl
  simp only [mapPhysicalMemory, haligned, hsize, mmFindMapPositionForSize_page, hpage, hcount]
  cases s.firstClosed 1024 with
  | none => rfl
  | some pos => simp

variable {pos : Nat}

theorem unmapPhysicalMemory_page (hpos : pos < 1024) (s : Mappings) :
    unmapPhysicalMemory (pos * 4096) 4096 s = .ok ((), s.closed [pos]) := by
  have hdiv : pos * 4096 / 4096 = pos := by omega
  have hmod : pos * 4096 % 4096 = 0 := by omega
  have hsize : (4096 : Int) + ((0 : Nat) : Int) = 4096 := rfl
  have hcount : (pageCount 4096).toNat = 1 := rfl
  have hle : ¬ 1024 < pos := by omega
  simp only [unmapPhysicalMemory, hdiv, hmod, hsize, hcount, if_neg hle]
  rfl

theorem readDword_page {memory : PhysicalMemory} {s : Mappings} {page offset : Nat}
    (hpage : s pos = some page) (hoffset : offset < 4096) :
    readDword memory (pos * 4096 + offset) s =
      .ok ((memory (page * 1024 + offset / 4)).toNat, s) := by
  have hdiv : (pos * 4096 + offset) / 4096 = pos := by omega
  have hmod : (pos * 4096 + offset) % 4096 = offset := by omega
  simp only [readDword, hdiv, hmod, hpage]

def qwordAt (memory : PhysicalMemory) (address : Nat) : Nat :=
  (memory (address / 4)).toNat + 2 ^ 32 * (memory (address / 4 + 1)).toNat

theorem readQword_page {memory : PhysicalMemory} {s : Mappings} {page i : Nat}
    (hpage : s pos = some page) (hi : i < 512) :
    readQword memory (pos * 4096 + 8 * i) s =
      .ok (qwordAt memory (4096 * page + 8 * i), s) := by
  have hlow : readDword memory (pos * 4096 + 8 * i) s =
      .ok ((memory ((4096 * page + 8 * i) / 4)).toNat, s) := by
    have hindex : (4096 * page + 8 * i) / 4 = page * 1024 + 8 * i / 4 := by omega
    rw [hindex]
    exact readDword_page hpage (by omega)
  have hhigh : readDword memory (pos * 4096 + 8 * i + 4) s =
      .ok ((memory ((4096 * page + 8 * i) / 4 + 1)).toNat, s) := by
    have hindex : (4096 * page + 8 * i) / 4 + 1 = page * 1024 + (8 * i + 4) / 4 := by omega
    rw [hindex, Nat.add_assoc]
    exact readDword_page hpage (by omega)
  rw [readQword, Vmm.bind_ok hlow, Vmm.bind_ok hhigh, qwordAt]
  rfl

/-! ## Tables -/

def unmapTables : List Nat → Vmm Unit
  | [] => pure ()
  | table :: tables => do
    unmapPhysicalMemory table 4096
    unmapTables tables

/-- What is done with a table, which stays mapped when an address was found. -/
def unmapUnlessFound (table : Nat) (x : Vmm (Option Nat)) : Vmm (Option Nat) := do
  match ← x with
  | some address => pure (some address)
  | none => do
    unmapPhysicalMemory table 4096
    pure none

/-- Map a table, read an entry of it and use that when it is present. -/
def withTable (MAXPHYADDR : Nat) (read : Nat → Vmm Nat) (base offset : Nat)
    (body : (table entry : Nat) → Vmm (Option Nat)) : Vmm (Option Nat) := do
  let table ← mapPhysicalMemory MAXPHYADDR base 4096
  let entry ← read (table + offset)
  unmapUnlessFound table (if entry.testBit 0 then body table entry else pure none)

/-- A window is closed again when no address was found with it. -/
def closeUnlessFound (pos : Nat) :
    Except Halt (Option Nat × Mappings) → Except Halt (Option Nat × Mappings)
  | .ok (none, s) => .ok (none, s.closed [pos])
  | r => r

theorem withTable_apply (hM : 12 ≤ M) {read : Nat → Vmm Nat} {base offset entry : Nat}
    {body : Nat → Nat → Vmm (Option Nat)}
    (hread : ∀ s pos, s pos = some (base % 2 ^ M / 4096) →
      read (pos * 4096 + offset) s = .ok (entry, s)) (s : Mappings) :
    withTable M read (base &&& maxphyaddrMaskPB M) offset body s =
      match s.firstClosed 1024 with
      | none => .error .outOfMappings
      | some pos =>
        if entry.testBit 0 then
          closeUnlessFound pos (body (pos * 4096) entry (s.opened [(pos, base % 2 ^ M / 4096)]))
        else .ok (none, s) := by
  have hmap := mapPhysicalMemory_page hM base s
  rw [withTable]
  cases hfirst : s.firstClosed 1024 with
  | none =>
    rw [hfirst] at hmap
    exact Vmm.bind_error hmap
  | some pos =>
    rw [hfirst] at hmap
    obtain ⟨hlt, hnone, -⟩ := Lib.Windows.firstClosed_eq_some hfirst
    have hclose := Lib.Windows.closed_opened_one hnone (base % 2 ^ M / 4096)
    rw [Vmm.bind_ok hmap, Vmm.bind_ok (hread _ pos (Lib.Windows.opened_self _ _ _ _))]
    simp only [unmapUnlessFound]
    cases entry.testBit 0 with
    | false =>
      refine (Vmm.bind_ok (Vmm.pure_apply none _)).trans ?_
      refine (Vmm.bind_ok (unmapPhysicalMemory_page hlt _)).trans ?_
      rw [hclose]
      rfl
    | true =>
      simp only [if_true]
      cases hbody : body (pos * 4096) entry (s.opened [(pos, base % 2 ^ M / 4096)]) with
      | error e => exact Vmm.bind_error hbody
      | ok r =>
        obtain ⟨found, t⟩ := r
        refine (Vmm.bind_ok hbody).trans ?_
        cases found with
        | some a => rfl
        | none => exact Vmm.bind_ok (unmapPhysicalMemory_page hlt _)

/-- The windows that a program has opened: they were closed before. -/
def Held (w : Mappings) (l : List (Nat × Nat)) : Prop := ∀ x ∈ l, x.1 < 1024 ∧ w x.1 = none

theorem unmapTables_apply (is : List Nat) (his : ∀ i ∈ is, i < 1024) (s : Mappings) :
    unmapTables (is.map (· * 4096)) s = .ok ((), s.closed is) := by
  induction is generalizing s with
  | nil =>
    show Except.ok ((), s) = _
    rw [Lib.Windows.closed_nil]
  | cons i is ih =>
    rw [List.map_cons, unmapTables,
      Vmm.bind_ok (unmapPhysicalMemory_page (his i List.mem_cons_self) s),
      ih fun j hj => his j (List.mem_cons_of_mem i hj), Lib.Windows.closed_closed]
    rfl

namespace Vmm

/-- From `s` the program needs `n` mappings and gives `r`; with an address found it leaves
    `after`, without one what it started from. -/
def Gives (x : Vmm (Option Nat)) (s : Mappings) (n : Nat) (r : Except Halt (Option Nat))
    (after : Mappings) : Prop :=
  x s = if n ≤ s.closedCount 1024 then r.map fun a => (a, if a.isSome then after else s)
    else .error .outOfMappings

theorem Gives.eq_ok_iff {x : Vmm (Option Nat)} {s after : Mappings} {n : Nat}
    {r : Except Halt (Option Nat)} (h : Gives x s n r after) {a : Option Nat} :
    (∃ s', x s = .ok (a, s')) ↔ n ≤ s.closedCount 1024 ∧ r = .ok a := by
  rw [h]
  by_cases hroom : n ≤ s.closedCount 1024
  · rw [if_pos hroom]
    cases r with
    | error e => simp [Except.map]
    | ok b => simp [Except.map, hroom]
  · simp [hroom]

theorem gives_found {w : Mappings} {l : List (Nat × Nat)} (hheld : Held w l) {is : List Nat}
    (his : ∀ i, i ∈ is ↔ i ∈ l.map Prod.fst) (a : Nat) :
    Gives (unmapTables (is.map (· * 4096)) >>= fun _ => pure (some a)) (w.opened l) 0
      (.ok (some a)) w := by
  have hlt : ∀ i ∈ is, i < 1024 := by
    intro i hi
    obtain ⟨x, hx, rfl⟩ := List.mem_map.1 ((his i).1 hi)
    exact (hheld x hx).1
  rw [Gives, bind_ok (unmapTables_apply is hlt _),
    Lib.Windows.closed_opened (fun x hx => (hheld x hx).2) his, if_pos (Nat.zero_le _)]
  rfl

theorem Gives.withTable {M : Nat} (hM : 12 ≤ M) {read : Nat → Vmm Nat} {base offset entry n : Nat}
    {body : Nat → Nat → Vmm (Option Nat)} {w after : Mappings} {l : List (Nat × Nat)}
    {r : Except Halt (Option Nat)} (hheld : Held w l)
    (hread : ∀ s pos, s pos = some (base % 2 ^ M / 4096) →
      read (pos * 4096 + offset) s = .ok (entry, s))
    (hbody : ∀ pos, Held w ((pos, base % 2 ^ M / 4096) :: l) → entry.testBit 0 = true →
      Gives (body (pos * 4096) entry) (w.opened ((pos, base % 2 ^ M / 4096) :: l)) n r after)
    (habsent : entry.testBit 0 = false → n = 0 ∧ r = .ok none) :
    Gives (Dbvm.withTable M read (base &&& maxphyaddrMaskPB M) offset body) (w.opened l) (n + 1) r
      after := by
  rw [Gives, withTable_apply hM hread]
  cases hfirst : (w.opened l).firstClosed 1024 with
  | none =>
    have hfull := Lib.Windows.firstClosed_eq_none.1 hfirst
    rw [if_neg (by omega)]
  | some pos =>
    obtain ⟨hlt, hnone, -⟩ := Lib.Windows.firstClosed_eq_some hfirst
    have hcount := Lib.Windows.closedCount_opened hlt hnone (base % 2 ^ M / 4096)
    cases hpresent : entry.testBit 0 with
    | false =>
      obtain ⟨rfl, rfl⟩ := habsent hpresent
      rw [if_pos (by omega)]
      rfl
    | true =>
      have hheld' : Held w ((pos, base % 2 ^ M / 4096) :: l) := by
        intro x hx
        rcases List.mem_cons.1 hx with rfl | hx
        · exact ⟨hlt, Lib.Windows.closed_of_opened hnone⟩
        · exact hheld x hx
      have hclose := Lib.Windows.closed_opened_one hnone (base % 2 ^ M / 4096)
      have hrest := hbody pos hheld' hpresent
      rw [Gives] at hrest
      simp only [if_true]
      show closeUnlessFound pos
        (body (pos * 4096) entry (w.opened ((pos, base % 2 ^ M / 4096) :: l))) = _
      rw [hrest]
      by_cases hroom : n + 1 ≤ (w.opened l).closedCount 1024
      · rw [if_pos hroom, if_pos (by omega)]
        cases r with
        | error e => rfl
        | ok found =>
          cases found with
          | some a => rfl
          | none =>
            show Except.ok (none,
              ((w.opened l).opened [(pos, base % 2 ^ M / 4096)]).closed [pos]) = _
            rw [hclose]
            rfl
      · rw [if_neg hroom, if_neg (by omega)]
        rfl

end Vmm

end CheatEngine.Dbvm
