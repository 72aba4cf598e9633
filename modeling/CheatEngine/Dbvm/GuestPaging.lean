/-
  CheatEngine.Dbvm.GuestPaging

  The address translation of DBVM for its guest, `getPhysicalAddressVM` (vmpaging.c), against
  the walk that the processor makes through the same tables.  The function maps each table on
  its way, reads one entry and unmaps what it has mapped when it returns.

  Without paging the address stays, except on an Intel CPU without unrestricted guests, which
  then runs the guest with tables of DBVM's own in `vm_guest_cr3`.
-/
import CheatEngine.Dbvm.Mappings
import CheatEngine.Lib.PageWalk

namespace CheatEngine.Dbvm

open Lib.PageWalk (Level path walk)

/-- What the translation reads of a CPU.  `CR0`, `CR3` and `CR4` are those of the `vmcb`, or
    `vm_guest_cr0` and so on. -/
structure PagingState where
  isAMD : Bool
  hasUnrestrictedSupport : Bool
  /-- `IS64BITPAGING`: bit 10 of `EFER`, or the bit of the entry controls. -/
  is64bitpaging : Bool
  CR0 : Nat
  vm_cr0_read_shadow : Nat
  CR3 : Nat
  guestCR3 : Nat
  CR4 : Nat
  MAXPHYADDR : Nat
  bounds : 32 ≤ MAXPHYADDR ∧ MAXPHYADDR ≤ 52
  /-- Outside of 64-bit mode `CR3` has 32 bits. -/
  narrow : is64bitpaging = false → CR3 < 2 ^ 32 ∧ guestCR3 < 2 ^ 32

/-- The table where a translation starts, or `none` where the address is returned as it is. -/
def PagingState.pagebase (c : PagingState) : Option Nat :=
  if c.isAMD then if c.CR0.testBit 31 then some c.CR3 else none
  else
    let cr0 := if c.hasUnrestrictedSupport then c.CR0 else c.vm_cr0_read_shadow
    if cr0 &&& 0x80000001 = 0x80000001 then some c.guestCR3
    else if c.hasUnrestrictedSupport then none
    else some c.CR3

def PagingState.PAE (c : PagingState) : Bool := c.CR4.testBit 5

/-! ## `getPhysicalAddressVM`

Bit 0 of an entry is `P` and bit 7 is `PS`. -/

section Model

variable (M : Nat) (memory : PhysicalMemory) (address : Nat)

def pageTable64 (held : List Nat) (realpagedirtable pde : Nat) : Vmm (Option Nat) :=
  withTable M (readQword memory) (pde &&& maxphyaddrMaskPB M) (8 * (address / 2 ^ 12 % 512))
    fun realpagetable pte => do
      unmapTables (held ++ [realpagedirtable, realpagetable])
      pure (some ((pte &&& maxphyaddrMaskPB M) + address % 2 ^ 12))

/-- The page table in PAE mode, whose entry is read again after the tables were unmapped. -/
def pageTablePAE (held : List Nat) (realpagedirtable pde : Nat) : Vmm (Option Nat) :=
  withTable M (readQword memory) (pde &&& maxphyaddrMaskPB M) (8 * (address / 2 ^ 12 % 512))
    fun realpagetable _ => do
      unmapTables (held ++ [realpagedirtable, realpagetable])
      let pte ← readQword memory (realpagetable + 8 * (address / 2 ^ 12 % 512))
      pure (some ((pte &&& maxphyaddrMaskPB M) + address % 2 ^ 12))

def pageDirectory (pageTable : List Nat → Nat → Nat → Vmm (Option Nat)) (held : List Nat)
    (pdpte : Nat) : Vmm (Option Nat) :=
  withTable M (readQword memory) (pdpte &&& maxphyaddrMaskPB M) (8 * (address / 2 ^ 21 % 512))
    fun realpagedirtable pde =>
      if pde.testBit 7 then do
        unmapTables (held ++ [realpagedirtable])
        pure (some ((pde &&& maxphyaddrMaskPB M) + address % 2 ^ 21))
      else pageTable held realpagedirtable pde

def translate64 (pagebase : Nat) : Vmm (Option Nat) :=
  withTable M (readQword memory) (pagebase &&& maxphyaddrMaskPB M) (8 * (address / 2 ^ 39 % 512))
    fun realpml4table pml4e =>
      withTable M (readQword memory) (pml4e &&& maxphyaddrMaskPB M) (8 * (address / 2 ^ 30 % 512))
        fun realpagedirptrtable pdpte =>
          pageDirectory M memory address (pageTable64 M memory address)
            [realpml4table, realpagedirptrtable] pdpte

def translatePAE (pagebase : Nat) : Vmm (Option Nat) :=
  withTable M (readQword memory) (pagebase &&& maxphyaddrMaskPB M) (8 * (address / 2 ^ 30 % 512))
    fun realpagedirptrtable pdpte =>
      pageDirectory M memory address (pageTablePAE M memory address) [realpagedirptrtable] pdpte

/-- The page table in 32-bit mode: the bit `P` is one of four bytes, the address is taken from
    eight.  The directory stays mapped. -/
def pageTable32 (pde : Nat) : Vmm (Option Nat) :=
  withTable M (readDword memory) (pde &&& maxphyaddrMaskPB M) (4 * (address / 2 ^ 12 % 1024))
    fun realpagetable _ => do
      let pte ← readQword memory (realpagetable + 4 * (address / 2 ^ 12 % 1024))
      unmapTables [realpagetable]
      pure (some ((pte &&& maxphyaddrMaskPB M) + address % 2 ^ 12))

def translate32 (pagebase : Nat) : Vmm (Option Nat) :=
  withTable M (readDword memory) (pagebase &&& maxphyaddrMaskPB M) (4 * (address / 2 ^ 22))
    fun realpagedirtable low => do
      let pde ← readQword memory (realpagedirtable + 4 * (address / 2 ^ 22))
      if low.testBit 7 then do
        unmapTables [realpagedirtable]
        pure (some ((pde &&& maxphyaddrMaskPB M) + address % 2 ^ 22))
      else pageTable32 M memory address pde

end Model

/-- `getPhysicalAddressVM`; without an address, `notpaged` is set and 0 is returned. -/
def getPhysicalAddressVM (c : PagingState) (memory : PhysicalMemory) (address : Nat) :
    Vmm (Option Nat) :=
  match c.pagebase with
  | none => pure (some address)
  | some pagebase =>
    if c.is64bitpaging then translate64 c.MAXPHYADDR memory address pagebase
    else if c.PAE then translatePAE c.MAXPHYADDR memory address pagebase
    else translate32 c.MAXPHYADDR memory address pagebase

/-! ## The walk of the processor -/

section Walk

variable (M : Nat) (memory : PhysicalMemory)

/-- The bits of an entry from `k` up to `MAXPHYADDR`. -/
def frame (k e : Nat) : Nat := 2 ^ k * (e % 2 ^ M / 2 ^ k)

/-- A level with entries of eight bytes; the base of a page has the bits from `low` on. -/
def level8 (shift bits low : Nat) (pages : Nat → Bool) : Level Nat where
  shift := shift
  bits := bits
  entry table i := qwordAt memory (table + 8 * i)
  present e := e.testBit 0
  page e := if pages e then some (frame M low e) else none
  table := frame M 12

def level4 (shift : Nat) (page : Nat → Option Nat) : Level Nat where
  shift := shift
  bits := 10
  entry table i := (memory ((table + 4 * i) / 4)).toNat
  present e := e.testBit 0
  page := page
  table e := 4096 * (e / 4096)

def lastLevel : Level Nat := level8 M memory 12 9 12 fun _ => true

/-- Four-level paging, with pages of 4 KB, 2 MB and 1 GB. -/
def fourLevels : List (Level Nat) :=
  [level8 M memory 39 9 39 fun _ => false, level8 M memory 30 9 30 (·.testBit 7),
    level8 M memory 21 9 21 (·.testBit 7), lastLevel M memory]

def paeLevels : List (Level Nat) :=
  [level8 M memory 30 2 30 fun _ => false, level8 M memory 21 9 21 (·.testBit 7),
    lastLevel M memory]

/-- The base of a 4 MB page, with the bits of PSE-36. -/
def bigPage (e : Nat) : Nat := 2 ^ 22 * (e / 2 ^ 22) + 2 ^ 32 * (e / 2 ^ 13 % 2 ^ (min M 40 - 32))

def smallPages : Level Nat := level4 memory 12 fun e => some (4096 * (e / 4096))

/-- 32-bit paging, with pages of 4 KB, and of 4 MB when `CR4.PSE` is set. -/
def legacyLevels (PSE : Bool) : List (Level Nat) :=
  [level4 memory 22 fun e => if PSE ∧ e.testBit 7 then some (bigPage M e) else none,
    smallPages memory]

end Walk

section

variable (c : PagingState)

/-- The levels of the mode that the CPU is in. -/
def PagingState.levels (memory : PhysicalMemory) : List (Level Nat) :=
  if c.is64bitpaging then fourLevels c.MAXPHYADDR memory
  else if c.PAE then paeLevels c.MAXPHYADDR memory
  else legacyLevels c.MAXPHYADDR memory (c.CR4.testBit 4)

/-- The first table: PAE tables are aligned to 32 bytes. -/
def PagingState.root (pagebase : Nat) : Nat :=
  if c.is64bitpaging then frame c.MAXPHYADDR 12 pagebase
  else if c.PAE then 32 * (pagebase / 32)
  else 4096 * (pagebase / 4096)

/-- The bits of a linear address. -/
def PagingState.width : Nat := if c.is64bitpaging then 64 else 32

abbrev PagingState.Linear : Type := Fin (2 ^ c.width)

/-- The function returns what the walk gives, and sets `notpaged` exactly when some entry on
    the walk is not present. -/
def Translates (memory : PhysicalMemory) (w : Mappings) (address : c.Linear) : Prop :=
  ∃ found w', getPhysicalAddressVM c memory address w = .ok (found, w') ∧
    match c.pagebase with
    | none => found = some address.val
    | some pagebase =>
      (∀ a, found = some a → walk (c.levels memory) (c.root pagebase) address = some a) ∧
      (found = none ↔ false ∈ path (c.levels memory) (c.root pagebase) address)

end

theorem ends_levels (c : PagingState) (memory : PhysicalMemory) :
    Lib.PageWalk.Ends (c.levels memory) := by
  unfold PagingState.levels
  split
  · exact fun _ => Option.some_ne_none _
  · split
    · exact fun _ => Option.some_ne_none _
    · exact fun _ => Option.some_ne_none _

theorem translates_of_pagebase {c : PagingState} {memory : PhysicalMemory} {w : Mappings}
    {address : c.Linear} {pagebase : Nat} (hbase : c.pagebase = some pagebase) :
    Translates c memory w address ↔
      ∃ w', getPhysicalAddressVM c memory address w =
        .ok (walk (c.levels memory) (c.root pagebase) address, w') := by
  have hnone := Lib.PageWalk.walk_eq_none_iff (ends_levels c memory) (c.root pagebase) address
  rw [Translates, hbase]
  constructor
  · rintro ⟨found, w', hrun, hsome, hiff⟩
    refine ⟨w', ?_⟩
    rw [hrun]
    cases found with
    | some a => rw [hsome a rfl]
    | none => rw [hnone.2 (hiff.1 rfl)]
  · rintro ⟨w', hrun⟩
    exact ⟨_, w', hrun, fun a ha => ha, hnone⟩

/-! ## What the function finds: entries of eight bytes -/

section Found

variable {M : Nat} {memory : PhysicalMemory} {address : Nat}

/-- The tables as the function reads them in 64-bit mode: no pages of 1 GB, and the base of a
    page has all bits from bit 12 on. -/
def readLevels (M : Nat) (memory : PhysicalMemory) : List (Level Nat) :=
  [level8 M memory 39 9 12 fun _ => false, level8 M memory 30 9 12 fun _ => false,
    level8 M memory 21 9 12 (·.testBit 7), lastLevel M memory]

/-- A level with `r` behind its entries that lead to a table. -/
def levelResult (l : Level Nat) (table address : Nat) (r : Except Halt (Option Nat)) :
    Except Halt (Option Nat) :=
  let e := l.at table address
  if l.present e then
    match l.page e with
    | some base => .ok (some (base + address % 2 ^ l.shift))
    | none => r
  else .ok none

theorem levelResult_walk (l : Level Nat) (levels : List (Level Nat)) (table address : Nat) :
    levelResult l table address (.ok (walk levels (l.table (l.at table address)) address)) =
      .ok (walk (l :: levels) table address) := by
  simp only [levelResult, walk]
  cases l.present (l.at table address) with
  | false => rfl
  | true => cases l.page (l.at table address) <;> rfl

theorem and_maskPB_eq_frame (hM : 12 ≤ M) (e : Nat) : e &&& maxphyaddrMaskPB M = frame M 12 e :=
  maxphyaddrMaskPB_and hM e

variable {base : Nat} {l : List (Nat × Nat)}

theorem gives_level (hM : 12 ≤ M) {shift : Nat} {pages : Nat → Bool}
    {levels : List (Level Nat)} {body : Nat → Nat → Vmm (Option Nat)} {w : Mappings}
    {r : Except Halt (Option Nat)} {e : Nat}
    (he : (level8 M memory shift 9 12 pages).at (frame M 12 base) address = e) (hheld : Held w l)
    (hpage : ∀ pos, Held w ((pos, base % 2 ^ M / 4096) :: l) → pages e = true →
      (body (pos * 4096) e).Gives (w.opened ((pos, base % 2 ^ M / 4096) :: l)) 0
        (.ok (some (frame M 12 e + address % 2 ^ shift))) w)
    (hnext : ∀ pos, Held w ((pos, base % 2 ^ M / 4096) :: l) → pages e = false →
      (body (pos * 4096) e).Gives (w.opened ((pos, base % 2 ^ M / 4096) :: l))
        (path levels (frame M 12 e) address).length r w) :
    (withTable M (readQword memory) (base &&& maxphyaddrMaskPB M) (8 * (address / 2 ^ shift % 512))
      body).Gives (w.opened l)
        (path (level8 M memory shift 9 12 pages :: levels) (frame M 12 base) address).length
        (levelResult (level8 M memory shift 9 12 pages) (frame M 12 base) address r) w := by
  have hread : ∀ s : Mappings, ∀ pos, s pos = some (base % 2 ^ M / 4096) →
      readQword memory (pos * 4096 + 8 * (address / 2 ^ shift % 512)) s = .ok (e, s) := by
    intro s pos hpos
    rw [readQword_page hpos (Nat.mod_lt _ (by decide)), ← he]
    rfl
  rw [path, levelResult, List.length_cons]
  simp only [he]
  have hpresent : (level8 M memory shift 9 12 pages).present e = e.testBit 0 := rfl
  have hpageof : (level8 M memory shift 9 12 pages).page e =
      if pages e then some (frame M 12 e) else none := rfl
  rw [hpresent, hpageof]
  refine Vmm.Gives.withTable hM hheld hread (fun pos hheld' hp => ?_) fun hp => ?_
  · rw [if_pos hp]
    cases hpages : pages e with
    | true =>
      simp only [hp, if_true, reduceCtorEq, and_false, if_false]
      exact hpage pos hheld' hpages
    | false =>
      simp only [hp, Bool.false_eq_true, if_false, and_self, if_true]
      exact hnext pos hheld' hpages
  · rw [hp]
    exact ⟨rfl, rfl⟩

theorem gives_pageTable64 (hM : 12 ≤ M) {w : Mappings} (hheld : Held w l)
    (held : List Nat) {p pde : Nat} (hmem : ∀ i, i ∈ held ++ [p] ↔ i ∈ l.map Prod.fst) :
    (pageTable64 M memory address (held.map (· * 4096)) (p * 4096) pde).Gives (w.opened l)
      (path [lastLevel M memory] (frame M 12 pde) address).length
      (.ok (walk [lastLevel M memory] (frame M 12 pde) address)) w := by
  rw [← levelResult_walk]
  refine gives_level hM rfl hheld (fun pos hheld' _ => ?_) fun pos _ hpages => nomatch hpages
  have htables : held.map (· * 4096) ++ [p * 4096, pos * 4096] =
      (held ++ [p] ++ [pos]).map (· * 4096) := by
    simp
  rw [htables, and_maskPB_eq_frame hM]
  refine Vmm.gives_found hheld' (fun i => ?_) _
  rw [List.mem_append, hmem, List.mem_singleton, List.map_cons, List.mem_cons, or_comm]

theorem gives_pageDirectory (hM : 12 ≤ M) {w : Mappings} (hheld : Held w l)
    {pageTable : List Nat → Nat → Nat → Vmm (Option Nat)} (held : List Nat) {pdpte e : Nat}
    {r : Except Halt (Option Nat)} (hmem : ∀ i, i ∈ held ↔ i ∈ l.map Prod.fst)
    (he : qwordAt memory (frame M 12 pdpte + 8 * (address / 2 ^ 21 % 512)) = e)
    (hnext : ∀ p, Held w ((p, pdpte % 2 ^ M / 4096) :: l) →
      (pageTable (held.map (· * 4096)) (p * 4096) e).Gives
        (w.opened ((p, pdpte % 2 ^ M / 4096) :: l))
        (path [lastLevel M memory] (frame M 12 e) address).length r w) :
    (pageDirectory M memory address pageTable (held.map (· * 4096)) pdpte).Gives (w.opened l)
      (path [level8 M memory 21 9 12 (·.testBit 7), lastLevel M memory] (frame M 12 pdpte)
        address).length
      (levelResult (level8 M memory 21 9 12 (·.testBit 7)) (frame M 12 pdpte) address r) w := by
  refine gives_level hM he hheld (fun pos hheld' hpages => ?_) fun pos hheld' hpages => ?_
  · have htables : held.map (· * 4096) ++ [pos * 4096] = (held ++ [pos]).map (· * 4096) := by simp
    rw [if_pos hpages, htables, and_maskPB_eq_frame hM]
    refine Vmm.gives_found hheld' (fun i => ?_) _
    rw [List.mem_append, hmem, List.mem_singleton, List.map_cons, List.mem_cons, or_comm]
  · rw [if_neg (by simp [hpages])]
    exact hnext pos hheld'

theorem gives_translate64 (hM : 12 ≤ M) (pagebase : Nat) (w : Mappings) :
    (translate64 M memory address pagebase).Gives w
      (path (readLevels M memory) (frame M 12 pagebase) address).length
      (.ok (walk (readLevels M memory) (frame M 12 pagebase) address)) w := by
  have hempty : Held w [] := fun x hx => nomatch hx
  rw [readLevels, ← levelResult_walk]
  refine gives_level (l := []) hM rfl hempty (fun _ _ hpages => nomatch hpages) fun p hp _ => ?_
  rw [← levelResult_walk]
  refine gives_level hM rfl hp (fun _ _ hpages => nomatch hpages) fun p' hp' _ => ?_
  rw [← levelResult_walk]
  refine gives_pageDirectory hM hp' [p, p'] (fun i => ?_) rfl fun p'' hp'' => ?_
  · simp [or_comm]
  · refine gives_pageTable64 hM hp'' [p, p'] fun i => ?_
    simp [or_left_comm, or_comm]

theorem gives_pageTablePAE (hM : 12 ≤ M) {w : Mappings} (hheld : Held w l)
    (held : List Nat) {p pde : Nat} (hmem : ∀ i, i ∈ held ++ [p] ↔ i ∈ l.map Prod.fst) :
    (pageTablePAE M memory address (held.map (· * 4096)) (p * 4096) pde).Gives (w.opened l) 1
      (if (qwordAt memory (frame M 12 pde + 8 * (address / 2 ^ 12 % 512))).testBit 0 then
        .error .pageFault else .ok none) w := by
  have hread : ∀ s : Mappings, ∀ pos, s pos = some (pde % 2 ^ M / 4096) →
      readQword memory (pos * 4096 + 8 * (address / 2 ^ 12 % 512)) s =
        .ok (qwordAt memory (frame M 12 pde + 8 * (address / 2 ^ 12 % 512)), s) :=
    fun s pos hpos => readQword_page hpos (Nat.mod_lt _ (by decide))
  refine Vmm.Gives.withTable hM hheld hread (fun pos hheld' hp => ?_) fun hp => ?_
  · have htables : held.map (· * 4096) ++ [p * 4096, pos * 4096] =
        (held ++ [p] ++ [pos]).map (· * 4096) := by
      simp
    have hlt : ∀ i ∈ held ++ [p] ++ [pos], i < 1024 := by
      intro i hi
      rw [List.mem_append, hmem, List.mem_singleton] at hi
      rcases hi with hi | rfl
      · obtain ⟨x, hx, rfl⟩ := List.mem_map.1 hi
        exact (hheld x hx).1
      · exact (hheld' _ List.mem_cons_self).1
    have hclosed :
        (w.opened ((pos, pde % 2 ^ M / 4096) :: l)).closed (held ++ [p] ++ [pos]) = w := by
      refine Lib.Windows.closed_opened (fun x hx => (hheld' x hx).2) fun i => ?_
      rw [List.mem_append, hmem, List.mem_singleton, List.map_cons, List.mem_cons, or_comm]
    have hgone : readDword memory (pos * 4096 + 8 * (address / 2 ^ 12 % 512)) w =
        .error .pageFault := by
      have hpos : (pos * 4096 + 8 * (address / 2 ^ 12 % 512)) / 4096 = pos := by omega
      rw [readDword, hpos, (hheld' _ List.mem_cons_self).2]
    rw [Vmm.Gives, htables, Vmm.bind_ok (unmapTables_apply _ hlt _), hclosed, readQword,
      Vmm.bind_error (Vmm.bind_error hgone), hp]
    rfl
  · rw [hp]
    exact ⟨rfl, rfl⟩

def paeResult (M : Nat) (memory : PhysicalMemory) (address table : Nat) :
    Except Halt (Option Nat) :=
  let pointers := level8 M memory 30 9 12 fun _ => false
  let directory := level8 M memory 21 9 12 (·.testBit 7)
  let pdpte := pointers.at table address
  let pde := directory.at (frame M 12 pdpte) address
  levelResult pointers table address <|
    levelResult directory (frame M 12 pdpte) address <|
      if ((lastLevel M memory).at (frame M 12 pde) address).testBit 0 then .error .pageFault
      else .ok none

theorem gives_translatePAE (hM : 12 ≤ M) (pagebase : Nat) (w : Mappings) :
    (translatePAE M memory address pagebase).Gives w
      (path (readLevels M memory).tail (frame M 12 pagebase) address).length
      (paeResult M memory address (frame M 12 pagebase)) w := by
  have hempty : Held w [] := fun x hx => nomatch hx
  refine gives_level (l := []) hM rfl hempty (fun _ _ hpages => nomatch hpages) fun p hp _ => ?_
  refine gives_pageDirectory hM hp [p] (fun i => by simp) rfl fun p' hp' => ?_
  have hlast : ∀ t, (path [lastLevel M memory] t address).length = 1 := fun t => by simp [path]
  rw [hlast]
  exact gives_pageTablePAE hM hp' [p] fun i => by simp [or_comm]

/-! ## Entries of four bytes -/

/-- The four bytes behind the entry `i` of the table that is mapped at `pos`: behind the last
    one of a page they belong to the next mapping. -/
def upperHalf (w : Mappings) (memory : PhysicalMemory) (pos page i : Nat) : Option Nat :=
  if i < 1023 then some (memory (page * 1024 + i + 1)).toNat
  else (w (pos + 1)).map fun next => (memory (next * 1024)).toNat

variable {i pos : Nat}

theorem readQword_entry (memory : PhysicalMemory) {s : Mappings} {page : Nat}
    (hpage : s pos = some page) (hi : i < 1024) :
    readQword memory (pos * 4096 + 4 * i) s =
      match upperHalf s memory pos page i with
      | none => .error .pageFault
      | some upper => .ok ((memory (page * 1024 + i)).toNat + 2 ^ 32 * upper, s) := by
  have hlow : readDword memory (pos * 4096 + 4 * i) s =
      .ok ((memory (page * 1024 + i)).toNat, s) := by
    rw [readDword_page hpage (by omega), Nat.mul_div_cancel_left _ (by decide)]
  rw [readQword, Vmm.bind_ok hlow, upperHalf]
  by_cases hlast : i < 1023
  · have hhigh : readDword memory (pos * 4096 + 4 * i + 4) s =
        .ok ((memory (page * 1024 + i + 1)).toNat, s) := by
      have hindex : page * 1024 + i + 1 = page * 1024 + (4 * i + 4) / 4 := by omega
      rw [hindex, Nat.add_assoc]
      exact readDword_page hpage (by omega)
    rw [if_pos hlast, Vmm.bind_ok hhigh]
    rfl
  · -- the address is the start of the next mapping
    have hnext : pos * 4096 + 4 * i + 4 = (pos + 1) * 4096 := by omega
    have hdiv : (pos + 1) * 4096 / 4096 = pos + 1 := Nat.mul_div_cancel _ (by decide)
    have hmod : (pos + 1) * 4096 % 4096 = 0 := Nat.mul_mod_left _ _
    rw [if_neg hlast, hnext]
    have hhigh : readDword memory ((pos + 1) * 4096) s =
        match s (pos + 1) with
        | none => .error .pageFault
        | some next => .ok ((memory (next * 1024)).toNat, s) := by
      cases hopen : s (pos + 1) <;>
        simp only [readDword, hdiv, hmod, hopen, Nat.zero_div, Nat.add_zero]
    cases hopen : s (pos + 1) with
    | none =>
      rw [hopen] at hhigh
      exact Vmm.bind_error hhigh
    | some next =>
      rw [hopen] at hhigh
      rw [Vmm.bind_ok hhigh]
      rfl

theorem readDword_entry {s : Mappings} {page : Nat} (hpage : s pos = some page) (hi : i < 1024) :
    readDword memory (pos * 4096 + 4 * i) s =
      .ok ((memory (page * 1024 + i)).toNat, s) := by
  rw [readDword_page hpage (by omega), Nat.mul_div_cancel_left _ (by decide)]

/-- What a table with entries of four bytes does: a page at most is found. -/
def table32 (M : Nat) (memory : PhysicalMemory) (i base : Nat) (w : Mappings)
    (found : (pos : Nat) → (low entry : Nat) → Except Halt (Option Nat × Mappings)) :
    Except Halt (Option Nat × Mappings) :=
  let page := base % 2 ^ M / 4096
  let low := (memory (page * 1024 + i)).toNat
  match w.firstClosed 1024 with
  | none => .error .outOfMappings
  | some pos =>
    if low.testBit 0 then
      match upperHalf (w.opened [(pos, page)]) memory pos page i with
      | none => .error .pageFault
      | some upper => closeUnlessFound pos (found pos low (low + 2 ^ 32 * upper))
    else .ok (none, w)

theorem withTable_entry (hM : 12 ≤ M) (hi : i < 1024) (w : Mappings)
    (body : (table low entry : Nat) → Vmm (Option Nat)) :
    withTable M (readDword memory) (base &&& maxphyaddrMaskPB M) (4 * i) (fun table low => do
        let entry ← readQword memory (table + 4 * i)
        body table low entry) w =
      table32 M memory i base w fun pos low entry =>
        body (pos * 4096) low entry (w.opened [(pos, base % 2 ^ M / 4096)]) := by
  have hread : ∀ s : Mappings, ∀ pos, s pos = some (base % 2 ^ M / 4096) →
      readDword memory (pos * 4096 + 4 * i) s =
        .ok ((memory (base % 2 ^ M / 4096 * 1024 + i)).toNat, s) :=
    fun s pos hpos => readDword_entry hpos hi
  refine (withTable_apply hM hread w).trans ?_
  unfold table32
  generalize base % 2 ^ M / 4096 = page
  cases hfirst : w.firstClosed 1024 with
  | none => rfl
  | some pos =>
    have hquad := readQword_entry memory (Lib.Windows.opened_self w pos page []) hi
    dsimp only
    cases hupper : upperHalf (w.opened [(pos, page)]) memory pos page i with
    | none =>
      rw [hupper] at hquad
      rw [Vmm.bind_error hquad]
      rfl
    | some upper =>
      rw [hupper] at hquad
      rw [Vmm.bind_ok hquad]

theorem found_apply {w : Mappings} (hfirst : w.firstClosed 1024 = some pos) (page a : Nat) :
    ((unmapTables [pos * 4096] >>= fun _ => pure (some a) : Vmm (Option Nat)))
      (w.opened [(pos, page)]) = .ok (some a, w) := by
  obtain ⟨hlt, hnone, -⟩ := Lib.Windows.firstClosed_eq_some hfirst
  have hunmap := unmapTables_apply [pos] (by simpa using hlt) (w.opened [(pos, page)])
  rw [Lib.Windows.closed_opened_one hnone] at hunmap
  exact Vmm.bind_ok hunmap

def pageTableRun (M : Nat) (memory : PhysicalMemory) (address pde : Nat) (w : Mappings) :
    Except Halt (Option Nat × Mappings) :=
  table32 M memory (address / 2 ^ 12 % 1024) pde w fun _ _ pte =>
    .ok (some (frame M 12 pte + address % 2 ^ 12), w)

def run32 (M : Nat) (memory : PhysicalMemory) (address pagebase : Nat) (w : Mappings) :
    Except Halt (Option Nat × Mappings) :=
  table32 M memory (address / 2 ^ 22) pagebase w fun pos low pde =>
    if low.testBit 7 then .ok (some (frame M 12 pde + address % 2 ^ 22), w)
    else pageTableRun M memory address pde (w.opened [(pos, pagebase % 2 ^ M / 4096)])

/-- Two results that agree at the place that is taken are alike. -/
theorem table32_congr {w : Mappings} {f g : Nat → Nat → Nat → Except Halt (Option Nat × Mappings)}
    (h : ∀ pos low entry, w.firstClosed 1024 = some pos → f pos low entry = g pos low entry) :
    table32 M memory i base w f = table32 M memory i base w g := by
  unfold table32
  cases hfirst : w.firstClosed 1024 with
  | none => rfl
  | some pos => simp only [h pos _ _ hfirst]

theorem pageTable32_apply (hM : 12 ≤ M) (pde : Nat) (w : Mappings) :
    pageTable32 M memory address pde w = pageTableRun M memory address pde w := by
  refine (withTable_entry hM (Nat.mod_lt _ (by decide)) w _).trans (table32_congr ?_)
  intro pos _ pte hfirst
  rw [and_maskPB_eq_frame hM]
  exact found_apply hfirst _ _

theorem translate32_apply (hM : 12 ≤ M) {pagebase : Nat} (haddress : address < 2 ^ 32)
    (w : Mappings) :
    translate32 M memory address pagebase w = run32 M memory address pagebase w := by
  have hi : address / 2 ^ 22 < 1024 := by omega
  refine (withTable_entry hM hi w fun table low pde =>
    if low.testBit 7 then do
      unmapTables [table]
      pure (some ((pde &&& maxphyaddrMaskPB M) + address % 2 ^ 22))
    else pageTable32 M memory address pde).trans (table32_congr ?_)
  intro pos low pde hfirst
  by_cases hbig : low.testBit 7 = true
  · rw [if_pos hbig, if_pos hbig, and_maskPB_eq_frame hM]
    exact found_apply hfirst _ _
  · rw [if_neg hbig, if_neg hbig]
    exact pageTable32_apply hM pde _

end Found

/-! ## When the function is right -/

section Right

variable (M : Nat) (memory : PhysicalMemory) (w : Mappings) (address : Nat)

def entry8 (shift table : Nat) : Nat := qwordAt memory (table + 8 * (address / 2 ^ shift % 512))

/-- In 64-bit mode: there is room for the tables; a 1 GB page, read as a directory, leads to the
    address by chance; the entry of a 2 MB page has no bit from 12 to 20. -/
def Right64 (table : Nat) : Prop :=
  let pml4e := entry8 memory address 39 table
  let pdpte := entry8 memory address 30 (frame M 12 pml4e)
  let pde := entry8 memory address 21 (frame M 12 pdpte)
  (path (readLevels M memory) table address).length ≤ w.closedCount 1024 ∧
    (pml4e.testBit 0 → pdpte.testBit 0 →
      if pdpte.testBit 7 then
        walk (readLevels M memory).tail.tail (frame M 12 pdpte) address =
          some (frame M 30 pdpte + address % 2 ^ 30)
      else pde.testBit 0 → pde.testBit 7 → frame M 12 pde = frame M 21 pde)

/-- In PAE mode: as before, never for a page of 4 KB, and only with the first table at a 4 KB
    boundary, or where the tables from that boundary lead to the same page. -/
def RightPAE (pagebase : Nat) : Prop :=
  let pdpte := entry8 memory address 30 (frame M 12 pagebase)
  let pde := entry8 memory address 21 (frame M 12 pdpte)
  let pte := entry8 memory address 12 (frame M 12 pde)
  (path (readLevels M memory).tail (frame M 12 pagebase) address).length ≤ w.closedCount 1024 ∧
    (pdpte.testBit 0 → pde.testBit 0 → pde.testBit 7 = false → pte.testBit 0 = false) ∧
    if pagebase % 4096 < 32 then
      pdpte.testBit 0 → pde.testBit 0 → pde.testBit 7 → frame M 12 pde = frame M 21 pde
    else walk (readLevels M memory).tail (frame M 12 pagebase) address =
      walk (paeLevels M memory) (32 * (pagebase / 32)) address

/-- In 32-bit mode: behind each entry that is used four bytes can be read, and the eight bytes
    together have the frame of the entry. -/
def Right32 (PSE : Bool) (pagebase : Nat) : Prop :=
  let i := address / 2 ^ 22
  let j := address / 2 ^ 12 % 1024
  let directory := pagebase / 4096
  let e := (memory (directory * 1024 + i)).toNat
  ∃ pos, w.firstClosed 1024 = some pos ∧ (e.testBit 0 → ∃ upper,
    let s := w.opened [(pos, directory)]
    let pde := e + 2 ^ 32 * upper
    let table := pde % 2 ^ M / 4096
    let low := (memory (table * 1024 + j)).toNat
    let pte := (memory (e / 4096 * 1024 + j)).toNat
    upperHalf s memory pos directory i = some upper ∧
      if e.testBit 7 then
        if PSE then frame M 12 pde = bigPage M e
        else walk [smallPages memory] (4096 * (e / 4096)) address =
          some (frame M 12 pde + address % 2 ^ 22)
      else ∃ pos', s.firstClosed 1024 = some pos' ∧ low.testBit 0 = pte.testBit 0 ∧
        (pte.testBit 0 → ∃ upper',
          upperHalf (s.opened [(pos', table)]) memory pos' table j = some upper' ∧
            frame M 12 (low + 2 ^ 32 * upper') = 4096 * (pte / 4096)))

variable {M memory w address} {e low table : Nat}

theorem walk_level8 {shift : Nat} {pages : Nat → Bool} {levels : List (Level Nat)}
    (he : entry8 memory address shift table = e) :
    walk (level8 M memory shift 9 low pages :: levels) table address =
      if e.testBit 0 then
        if pages e then some (frame M low e + address % 2 ^ shift)
        else walk levels (frame M 12 e) address
      else none := by
  have hat : (level8 M memory shift 9 low pages).at table address = e := he
  have hpage : (level8 M memory shift 9 low pages).page e =
      if pages e then some (frame M low e) else none := rfl
  rw [walk, hat, hpage]
  cases pages e <;> rfl

variable {pde pdpte : Nat}

theorem walk_four_iff {pml4e : Nat} (hpml4e : entry8 memory address 39 table = pml4e)
    (hpdpte : entry8 memory address 30 (frame M 12 pml4e) = pdpte)
    (hpde : entry8 memory address 21 (frame M 12 pdpte) = pde) :
    walk (readLevels M memory) table address = walk (fourLevels M memory) table address ↔
      (pml4e.testBit 0 → pdpte.testBit 0 →
        if pdpte.testBit 7 then
          walk (readLevels M memory).tail.tail (frame M 12 pdpte) address =
            some (frame M 30 pdpte + address % 2 ^ 30)
        else pde.testBit 0 → pde.testBit 7 → frame M 12 pde = frame M 21 pde) := by
  simp only [readLevels, fourLevels, List.tail_cons]
  rw [walk_level8 hpml4e, walk_level8 hpml4e, walk_level8 hpdpte, walk_level8 hpdpte]
  cases pml4e.testBit 0 with
  | false => simp only [Bool.false_eq_true, if_false, false_implies]
  | true =>
    cases pdpte.testBit 0 with
    | false => simp only [Bool.false_eq_true, if_false, if_true, false_implies, true_implies]
    | true =>
      cases pdpte.testBit 7 with
      | true => simp only [Bool.false_eq_true, if_false, if_true, true_implies]
      | false =>
        simp only [Bool.false_eq_true, if_false, if_true, true_implies]
        rw [walk_level8 hpde, walk_level8 hpde]
        cases pde.testBit 0 <;> cases pde.testBit 7 <;> simp

theorem walk_pae_iff (haddress : address < 2 ^ 32) (hpdpte : entry8 memory address 30 table = pdpte)
    (hpde : entry8 memory address 21 (frame M 12 pdpte) = pde) :
    walk (readLevels M memory).tail table address = walk (paeLevels M memory) table address ↔
      (pdpte.testBit 0 → pde.testBit 0 → pde.testBit 7 → frame M 12 pde = frame M 21 pde) := by
  have hat : (level8 M memory 30 2 30 fun _ => false).at table address = pdpte := by
    have hindex : address / 2 ^ 30 % 2 ^ 2 = address / 2 ^ 30 % 512 := by omega
    rw [← hpdpte, Level.at, entry8, ← hindex]
    rfl
  have hpae : walk (paeLevels M memory) table address =
      if pdpte.testBit 0 then walk (paeLevels M memory).tail (frame M 12 pdpte) address
      else none := by
    rw [paeLevels, walk, hat]
    rfl
  rw [hpae]
  simp only [readLevels, paeLevels, List.tail_cons]
  rw [walk_level8 hpdpte, walk_level8 hpde, walk_level8 hpde]
  cases pdpte.testBit 0 <;> cases pde.testBit 0 <;> cases pde.testBit 7 <;> simp

theorem levelResult_level8 {shift : Nat} {pages : Nat → Bool}
    {r : Except Halt (Option Nat)} (he : entry8 memory address shift table = e) :
    levelResult (level8 M memory shift 9 12 pages) table address r =
      if e.testBit 0 then
        if pages e then .ok (some (frame M 12 e + address % 2 ^ shift)) else r
      else .ok none := by
  have hat : (level8 M memory shift 9 12 pages).at table address = e := he
  have hpage : (level8 M memory shift 9 12 pages).page e =
      if pages e then some (frame M 12 e) else none := rfl
  rw [levelResult, hat, hpage]
  cases pages e <;> rfl

variable {pte : Nat}

theorem paeResult_eq (hpdpte : entry8 memory address 30 table = pdpte)
    (hpde : entry8 memory address 21 (frame M 12 pdpte) = pde)
    (hpte : entry8 memory address 12 (frame M 12 pde) = pte) :
    paeResult M memory address table =
      if pdpte.testBit 0 ∧ pde.testBit 0 ∧ pde.testBit 7 = false ∧ pte.testBit 0 then
        .error .pageFault
      else .ok (walk (readLevels M memory).tail table address) := by
  have hpointers : (level8 M memory 30 9 12 fun _ => false).at table address = pdpte := hpdpte
  have hdirectory : (level8 M memory 21 9 12 (·.testBit 7)).at (frame M 12 pdpte) address = pde :=
    hpde
  have hlast : (lastLevel M memory).at (frame M 12 pde) address = pte := hpte
  rw [paeResult]
  simp only [hpointers, hdirectory, hlast]
  rw [levelResult_level8 hpdpte, levelResult_level8 hpde]
  simp only [readLevels, List.tail_cons]
  rw [walk_level8 hpdpte, walk_level8 hpde, lastLevel, walk_level8 hpte]
  cases pdpte.testBit 0 <;> cases pde.testBit 0 <;> cases pde.testBit 7 <;>
    cases pte.testBit 0 <;> simp

theorem rightPAE_iff {pagebase : Nat} (hbase : pagebase < 2 ^ M) (haddress : address < 2 ^ 32) :
    (path (readLevels M memory).tail (frame M 12 pagebase) address).length ≤ w.closedCount 1024 ∧
        paeResult M memory address (frame M 12 pagebase) =
          .ok (walk (paeLevels M memory) (32 * (pagebase / 32)) address) ↔
      RightPAE M memory w address pagebase := by
  have hroot : pagebase % 4096 < 32 → 32 * (pagebase / 32) = frame M 12 pagebase := by
    intro hlow
    rw [frame, Nat.mod_eq_of_lt hbase]
    omega
  obtain ⟨pdpte, hpdpte⟩ : ∃ e, entry8 memory address 30 (frame M 12 pagebase) = e := ⟨_, rfl⟩
  obtain ⟨pde, hpde⟩ : ∃ e, entry8 memory address 21 (frame M 12 pdpte) = e := ⟨_, rfl⟩
  obtain ⟨pte, hpte⟩ : ∃ e, entry8 memory address 12 (frame M 12 pde) = e := ⟨_, rfl⟩
  have hboundary := walk_pae_iff haddress hpdpte hpde
  rw [paeResult_eq hpdpte hpde hpte, RightPAE]
  simp only [hpdpte, hpde, hpte]
  refine and_congr_right fun _ => ?_
  by_cases hpage : pdpte.testBit 0 ∧ pde.testBit 0 ∧ pde.testBit 7 = false ∧ pte.testBit 0
  · rw [if_pos hpage]
    refine iff_of_false (by simp) fun h => ?_
    have habsent := h.1 hpage.1 hpage.2.1 hpage.2.2.1
    rw [hpage.2.2.2] at habsent
    cases habsent
  · rw [if_neg hpage, Except.ok.injEq]
    have hfree : pdpte.testBit 0 → pde.testBit 0 → pde.testBit 7 = false →
        pte.testBit 0 = false := fun hpdpteP hpdeP hsmall =>
      Bool.eq_false_iff.2 fun hpteP => hpage ⟨hpdpteP, hpdeP, hsmall, hpteP⟩
    by_cases hlow : pagebase % 4096 < 32
    · rw [if_pos hlow, hroot hlow, hboundary]
      exact ⟨fun h => ⟨hfree, h⟩, fun h => h.2⟩
    · rw [if_neg hlow]
      exact ⟨fun h => ⟨hfree, h⟩, fun h => h.2⟩

variable {page : Nat}

theorem table32_eq_iff {i base pos : Nat} {x : Option Nat}
    {f : Nat → Nat → Nat → Except Halt (Option Nat × Mappings)}
    (hpage : base % 2 ^ M / 4096 = page) (hlow : (memory (page * 1024 + i)).toNat = low)
    (hfirst : w.firstClosed 1024 = some pos) :
    (∃ w', table32 M memory i base w f = .ok (x, w')) ↔
      if low.testBit 0 then
        ∃ upper, upperHalf (w.opened [(pos, page)]) memory pos page i = some upper ∧
          ∃ w', f pos low (low + 2 ^ 32 * upper) = .ok (x, w')
      else x = none := by
  unfold table32
  simp only [hpage, hlow, hfirst]
  cases low.testBit 0 with
  | false =>
    simp only [Bool.false_eq_true, if_false, Except.ok.injEq, Prod.mk.injEq]
    exact ⟨fun h => h.elim fun _ h => h.1.symm, fun h => ⟨w, h.symm, rfl⟩⟩
  | true =>
    simp only [if_true]
    cases upperHalf (w.opened [(pos, page)]) memory pos page i with
    | none => simp
    | some upper =>
      simp only [Option.some.injEq, exists_eq_left']
      rcases f pos low (low + 2 ^ 32 * upper) with e | ⟨_ | a, s⟩ <;> simp [closeUnlessFound]

theorem table32_full {i base : Nat} {f : Nat → Nat → Nat → Except Halt (Option Nat × Mappings)}
    (hfirst : w.firstClosed 1024 = none) :
    table32 M memory i base w f = .error .outOfMappings := by
  unfold table32
  simp only [hfirst]

theorem walk_smallPages (hpte : (memory (page * 1024 + address / 2 ^ 12 % 1024)).toNat = pte) :
    walk [smallPages memory] (4096 * page) address =
      if pte.testBit 0 then some (4096 * (pte / 4096) + address % 2 ^ 12) else none := by
  have hat : (smallPages memory).at (4096 * page) address = pte := by
    have hindex : (4096 * page + 4 * (address / 2 ^ 12 % 1024)) / 4 =
        page * 1024 + address / 2 ^ 12 % 1024 := by omega
    rw [← hpte, ← hindex]
    rfl
  rw [walk, hat]
  rfl

theorem walk_legacyLevels {PSE : Bool} (haddress : address < 2 ^ 32)
    (he : (memory (page * 1024 + address / 2 ^ 22)).toNat = e) :
    walk (legacyLevels M memory PSE) (4096 * page) address =
      if e.testBit 0 then
        if PSE ∧ e.testBit 7 then some (bigPage M e + address % 2 ^ 22)
        else walk [smallPages memory] (4096 * (e / 4096)) address
      else none := by
  have hat : (level4 memory 22 fun e => if PSE ∧ e.testBit 7 then some (bigPage M e) else none).at
      (4096 * page) address = e := by
    have hindex : (4096 * page + 4 * (address / 2 ^ 22 % 2 ^ 10)) / 4 =
        page * 1024 + address / 2 ^ 22 := by omega
    rw [← he, ← hindex]
    rfl
  rw [legacyLevels, walk, hat]
  show (if e.testBit 0 then match (if PSE ∧ e.testBit 7 then some (bigPage M e) else none) with
    | some base => some (base + address % 2 ^ 22)
    | none => walk [smallPages memory] (4096 * (e / 4096)) address else none) = _
  by_cases hbig : PSE ∧ e.testBit 7
  · rw [if_pos hbig, if_pos hbig]
  · rw [if_neg hbig, if_neg hbig]

theorem pageTableRun_eq_iff {pos : Nat} (hpage : pde % 2 ^ M / 4096 = page)
    (hlow : (memory (page * 1024 + address / 2 ^ 12 % 1024)).toNat = low)
    (hfirst : w.firstClosed 1024 = some pos) :
    (∃ w', pageTableRun M memory address pde w =
        .ok (if pte.testBit 0 then some (4096 * (pte / 4096) + address % 2 ^ 12) else none, w')) ↔
      low.testBit 0 = pte.testBit 0 ∧ (pte.testBit 0 → ∃ upper,
        upperHalf (w.opened [(pos, page)]) memory pos page (address / 2 ^ 12 % 1024) = some upper ∧
          frame M 12 (low + 2 ^ 32 * upper) = 4096 * (pte / 4096)) := by
  rw [pageTableRun, table32_eq_iff hpage hlow hfirst]
  cases low.testBit 0 <;> cases pte.testBit 0 <;> simp

theorem right32_iff {PSE : Bool} {pagebase : Nat} (hM : 32 ≤ M) (hbase : pagebase < 2 ^ 32)
    (haddress : address < 2 ^ 32) :
    (∃ w', run32 M memory address pagebase w =
        .ok (walk (legacyLevels M memory PSE) (4096 * (pagebase / 4096)) address, w')) ↔
      Right32 M memory w address PSE pagebase := by
  have hpage : pagebase % 2 ^ M / 4096 = pagebase / 4096 := by
    rw [Nat.mod_eq_of_lt (Nat.lt_of_lt_of_le hbase (Nat.pow_le_pow_right (by decide) hM))]
  unfold Right32
  dsimp only
  cases hfirst : w.firstClosed 1024 with
  | none => simp [run32, table32_full hfirst]
  | some pos =>
    obtain ⟨e, he⟩ : ∃ e, (memory (pagebase / 4096 * 1024 + address / 2 ^ 22)).toNat = e :=
      ⟨_, rfl⟩
    obtain ⟨pte, hpte⟩ : ∃ pte,
        (memory (e / 4096 * 1024 + address / 2 ^ 12 % 1024)).toNat = pte := ⟨_, rfl⟩
    rw [run32, table32_eq_iff hpage he hfirst, walk_legacyLevels haddress he, walk_smallPages hpte]
    simp only [he, hpte, hpage, Option.some.injEq, exists_eq_left']
    cases e.testBit 0 with
    | false => simp
    | true =>
      simp only [if_true, true_implies]
      refine exists_congr fun upper => and_congr_right fun _ => ?_
      cases e.testBit 7 with
      | true =>
        -- a page of 4 MB, unless the processor takes the entry for that of a table
        rw [walk_smallPages hpte]
        cases PSE <;> simp [eq_comm]
      | false =>
        simp only [Bool.false_eq_true, and_false, if_false]
        cases hfirst' : (w.opened [(pos, pagebase / 4096)]).firstClosed 1024 with
        | none => simp [pageTableRun, table32_full hfirst']
        | some pos' =>
          simp only [Option.some.injEq, exists_eq_left']
          exact pageTableRun_eq_iff rfl rfl hfirst'

end Right

/-- When the function is right. -/
def PagingState.Right (c : PagingState) (memory : PhysicalMemory) (w : Mappings)
    (address : Nat) : Prop :=
  match c.pagebase with
  | none => True
  | some pagebase =>
    if c.is64bitpaging then Right64 c.MAXPHYADDR memory w address (frame c.MAXPHYADDR 12 pagebase)
    else if c.PAE then RightPAE c.MAXPHYADDR memory w address pagebase
    else Right32 c.MAXPHYADDR memory w address (c.CR4.testBit 4) pagebase

theorem PagingState.pagebase_lt {c : PagingState} {pagebase : Nat}
    (hbase : c.pagebase = some pagebase) (hnarrow : c.is64bitpaging = false) :
    pagebase < 2 ^ 32 := by
  obtain ⟨hCR3, hguest⟩ := c.narrow hnarrow
  unfold PagingState.pagebase at hbase
  grind

/-- The function gives the address of the processor's walk, and sets `notpaged` where that
    finds none, exactly when `c.Right` holds. -/
theorem translates_iff (c : PagingState) (memory : PhysicalMemory) (w : Mappings)
    (address : c.Linear) : Translates c memory w address ↔ c.Right memory w address := by
  obtain ⟨hM, -⟩ := c.bounds
  have hM12 : 12 ≤ c.MAXPHYADDR := by omega
  cases hbase : c.pagebase with
  | none =>
    have hrun : getPhysicalAddressVM c memory address w = .ok (some address.val, w) := by
      rw [getPhysicalAddressVM, hbase]
      rfl
    rw [Translates, PagingState.Right, hbase]
    exact iff_of_true ⟨_, _, hrun, rfl⟩ trivial
  | some pagebase =>
    rw [translates_of_pagebase hbase, PagingState.Right, getPhysicalAddressVM, hbase]
    dsimp only
    cases hmode : c.is64bitpaging with
    | true =>
      simp only [if_true, PagingState.levels, PagingState.root, hmode]
      rw [(gives_translate64 hM12 pagebase w).eq_ok_iff, Except.ok.injEq, walk_four_iff rfl rfl rfl]
      rfl
    | false =>
      have hlt := PagingState.pagebase_lt hbase hmode
      have haddress : address.val < 2 ^ 32 := by
        have hwidth : c.width = 32 := by rw [PagingState.width, hmode]; rfl
        rw [← hwidth]
        exact address.isLt
      cases hPAE : c.PAE with
      | true =>
        simp only [Bool.false_eq_true, if_false, if_true, PagingState.levels, PagingState.root,
          hmode, hPAE]
        rw [(gives_translatePAE hM12 pagebase w).eq_ok_iff]
        exact rightPAE_iff (Nat.lt_of_lt_of_le hlt (Nat.pow_le_pow_right (by decide) hM)) haddress
      | false =>
        simp only [Bool.false_eq_true, if_false, PagingState.levels, PagingState.root, hmode, hPAE]
        rw [translate32_apply hM12 haddress]
        exact right32_iff hM hlt haddress

/-- A CPU in 64-bit mode with its tables from the page 1 on. -/
def fourLevelState : PagingState where
  isAMD := true
  hasUnrestrictedSupport := true
  is64bitpaging := true
  CR0 := 0x80000001
  vm_cr0_read_shadow := 0
  CR3 := 0x1000
  guestCR3 := 0
  CR4 := 0x20
  MAXPHYADDR := 36
  bounds := by decide
  narrow := by decide

/-- The entry of a page of 2 MB at 0 whose PAT bit is set. -/
def patMemory : PhysicalMemory := fun i =>
  if i = 1024 then 0x2001 else if i = 2048 then 0x3001 else if i = 3072 then 0x1081 else 0

/-- The PAT bit is taken for a bit of the address. -/
theorem translate_pat_bit :
    ¬ ∀ (c : PagingState) (memory : PhysicalMemory) (w : Mappings) (address : c.Linear),
      Translates c memory w address := by
  intro h
  obtain ⟨found, w', hrun, hwalk, -⟩ := h fourLevelState patMemory (fun _ => none) ⟨0, by decide⟩
  have hfound : (getPhysicalAddressVM fourLevelState patMemory 0 fun _ => none).map Prod.fst =
      .ok (some 0x1000) := by decide
  have hresult : found = some 0x1000 := by
    have hmap := congrArg (Except.map Prod.fst) hrun
    rw [hfound] at hmap
    exact (Except.ok.inj hmap).symm
  have hcorrect :
      walk (fourLevelState.levels patMemory) (fourLevelState.root 0x1000) 0 = some 0 := by
    decide
  cases hcorrect.symm.trans (hwalk _ hresult)

end CheatEngine.Dbvm
