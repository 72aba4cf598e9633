/-
  CheatEngine.Dbvm.Mtrr

  `initMemTypeRanges` (epthandler.c), which builds the memory ranges from the MTRRs when
  DBVM starts, and `handleMSRWrite_MTRR`, which calls it again when a register is written.
  The fixed ranges below 1 MB are merged while their types are equal, and the size of a
  variable range is the highest bit that is clear in its mask.
-/
import CheatEngine.Dbvm.MemoryRanges
import CheatEngine.Lib.Bits

namespace CheatEngine.Dbvm

open CheatEngine.Lib (TagInterval loop)

/-- The registers of the fixed ranges. -/
structure FixedMtrrs where
  FIX64K_00000 : Nat
  FIX16K_80000 : Nat
  FIX16K_A0000 : Nat
  FIX4K_C0000 : Nat
  FIX4K_C8000 : Nat
  FIX4K_D0000 : Nat
  FIX4K_D8000 : Nat
  FIX4K_E0000 : Nat
  FIX4K_E8000 : Nat
  FIX4K_F0000 : Nat
  FIX4K_F8000 : Nat

/-- The registers that can be written: `TYPE` and `FE` of `IA32_MTRR_DEF_TYPE_MSR`, the
    fixed ranges, and `IA32_MTRR_PHYSBASE0+i*2` and `IA32_MTRR_PHYSMASK0+i*2`. -/
structure MtrrRegisters where
  TYPE : Nat
  FE : Bool
  fixed : FixedMtrrs
  physbase : Nat → Nat
  physmask : Nat → Nat

/-- What does not change: `MAXPHYADDR` and `MTRRCapabilities`. -/
structure MtrrPlatform where
  MAXPHYADDR : Nat
  FIX : Bool
  VCNT : Nat
  bounds : 12 ≤ MAXPHYADDR ∧ MAXPHYADDR ≤ 52

/-- `MAXPHYADDRMASKPB` -/
def MtrrPlatform.maskPB (P : MtrrPlatform) : Nat := 2 ^ P.MAXPHYADDR - 2 ^ 12

/-! ## Fixed ranges -/

/-- `case first ... last`, the shift of the blocks, and the value of the register. -/
structure FixedRow where
  first : Nat
  last : Nat
  shift : Nat
  types : Nat

namespace FixedMtrrs

/-- The cases of the `switch`. -/
def rows (m : FixedMtrrs) : List FixedRow :=
  [⟨0, 0x7ffff, 16, m.FIX64K_00000⟩,
   ⟨0x80000, 0x9ffff, 14, m.FIX16K_80000⟩,
   ⟨0xa0000, 0xbffff, 14, m.FIX16K_A0000⟩,
   ⟨0xc0000, 0xc7fff, 12, m.FIX4K_C0000⟩,
   ⟨0xc8000, 0xcffff, 12, m.FIX4K_C8000⟩,
   ⟨0xd0000, 0xd7fff, 12, m.FIX4K_D0000⟩,
   ⟨0xd8000, 0xdffff, 12, m.FIX4K_D8000⟩,
   ⟨0xe0000, 0xe7fff, 12, m.FIX4K_E0000⟩,
   ⟨0xe8000, 0xeffff, 12, m.FIX4K_E8000⟩,
   ⟨0xf0000, 0xf7fff, 12, m.FIX4K_F0000⟩,
   ⟨0xf8000, 0xfffff, 12, m.FIX4K_F8000⟩]

/-- The case of an address; there is one below 1 MB. -/
def row (m : FixedMtrrs) (address : Nat) : FixedRow :=
  (m.rows.find? fun r => r.first ≤ address ∧ address ≤ r.last).getD ⟨0, 0, 0, 0⟩

def type (m : FixedMtrrs) (address : Nat) : Nat :=
  let r := m.row address
  let index := (address - r.first) >>> r.shift
  r.types >>> (index * 8) &&& 0xf

def sizeinc (m : FixedMtrrs) (address : Nat) : Nat := 2 ^ (m.row address).shift

end FixedMtrrs

/-- The variables of the loop over the fixed ranges; `memtype` is -1 at first. -/
structure FixedScan where
  startaddress : Nat
  size : Nat
  memtype : Option Nat
  memoryranges : List MemRange

namespace FixedScan

def start : FixedScan := ⟨0, 0, none, []⟩

/-- `addToMemoryRanges(startaddress, size, memtype)` -/
def added (s : FixedScan) : List MemRange :=
  addToMemoryRanges s.memoryranges ⟨s.startaddress, s.size, s.memtype.getD 0⟩

/-- `while (startaddress+size<0x100000)`, and "last region needs to be added as well". -/
def turn (m : FixedMtrrs) (s : FixedScan) : FixedScan ⊕ List MemRange :=
  let address := s.startaddress + s.size
  if address < 0x100000 then
    let type := m.type address
    let sizeinc := m.sizeinc address
    let memtype := s.memtype.getD type
    if type = memtype then .inl { s with size := s.size + sizeinc, memtype := some memtype }
    else .inl ⟨address, sizeinc, some type, s.added⟩
  else .inr (if s.size ≠ 0 then s.added else s.memoryranges)

end FixedScan

/-- The fixed ranges, with more turns than there are blocks. -/
def fixedRanges (m : FixedMtrrs) : List MemRange :=
  (loop (FixedScan.turn m) 257 FixedScan.start).getD []

/-- `for (j=MAXPHYADDR-1; j>12; j--)`: the size that the highest clear bit gives. -/
def sizeLoop (mask : Nat) : Nat → Option Nat
  | 0 => none
  | j + 1 =>
    if 12 < j then
      if mask.testBit j then sizeLoop mask j else some (2 ^ (j + 1))
    else none

def addedRange (P : MtrrPlatform) (regs : MtrrRegisters) (i : Nat) : Option MemRange :=
  let base := regs.physbase i
  let mask := regs.physmask i
  let memtype := base &&& 0xff
  if mask.testBit 11 then    -- "valid"
    let base := base &&& P.maskPB
    let mask := mask &&& P.maskPB
    (sizeLoop mask P.MAXPHYADDR).map fun size => ⟨base, size, memtype⟩
  else none

def addVariable (P : MtrrPlatform) (regs : MtrrRegisters) (memoryranges : List MemRange) :
    List MemRange :=
  (List.range P.VCNT).foldl (fun memoryranges i =>
    match addedRange P regs i with
    | some r => addToMemoryRanges memoryranges r
    | none => memoryranges) memoryranges

/-- All ranges, before they are sanitized; `FE` is that of `MTRRDefType`. -/
def collectRanges (P : MtrrPlatform) (FE : Bool) (regs : MtrrRegisters) : List MemRange :=
  addVariable P regs (if P.FIX && FE then fixedRanges regs.fixed else [])

/-- `initMemTypeRanges`; `none` if it never returns. -/
def initMemTypeRanges (P : MtrrPlatform) (TYPE : Nat) (FE : Bool) (regs : MtrrRegisters)
    (memoryranges : List MemRange) : Option (List MemRange) :=
  if memoryranges ≠ [] then some memoryranges    -- "already initialized"
  else
    let memoryranges := collectRanges P FE regs
    sanitizeMemoryRegions (scanTurns memoryranges) TYPE memoryranges

/-- The registers, the list, and `MTRRDefType`, which is only read when DBVM starts. -/
structure MtrrState where
  TYPE : Nat
  FE : Bool
  registers : MtrrRegisters
  memoryranges : List MemRange

namespace MtrrState

/-- DBVM starts. -/
def init (P : MtrrPlatform) (regs : MtrrRegisters) : Option MtrrState :=
  (initMemTypeRanges P regs.TYPE regs.FE regs []).map fun memoryranges =>
    ⟨regs.TYPE, regs.FE, regs, memoryranges⟩

/-- Registers are written, and `handleMSRWrite_MTRR` is called. -/
def write (P : MtrrPlatform) (s : MtrrState) (regs : MtrrRegisters) : Option MtrrState :=
  (initMemTypeRanges P s.TYPE s.FE regs s.memoryranges).map fun memoryranges =>
    { s with registers := regs, memoryranges }

/-- `getMTRRMapInfo`: the memory type, or `none` when `fullmap` is 0. -/
def getMTRRMapInfo (s : MtrrState) (startaddress size : Nat) : Option Nat :=
  mapInfo s.TYPE startaddress (startaddress + size - 1) s.memoryranges

end MtrrState

/-- The range of register pair `i`: the addresses that agree with the base in the bits of
    the mask. -/
def variableRange (P : MtrrPlatform) (regs : MtrrRegisters) (i : Nat) : Option MemRange :=
  if (regs.physmask i).testBit 11 then
    some ⟨regs.physbase i &&& P.maskPB, 2 ^ P.MAXPHYADDR - (regs.physmask i &&& P.maskPB),
      regs.physbase i &&& 0xff⟩
  else none

def variableRanges (P : MtrrPlatform) (regs : MtrrRegisters) : List MemRange :=
  (List.range P.VCNT).filterMap (variableRange P regs)

/-- The type of an address: that of the fixed range below 1 MB, else the combined type of
    the variable ranges that cover it, else the default type. -/
def GivenType (fixedOn : Bool) (TYPE : Nat) (fixed : FixedMtrrs) (ranges : List MemRange)
    (address t : Nat) : Prop :=
  if fixedOn = true ∧ address < 0x100000 then t = fixed.type address
  else (∃ u, Covered ranges address u) ∧ CombinedType 4 ranges address t ∨
    (¬ ∃ u, Covered ranges address u) ∧ t = TYPE

def EffectiveType (P : MtrrPlatform) (regs : MtrrRegisters) : Nat → Nat → Prop :=
  GivenType (P.FIX && regs.FE) regs.TYPE regs.fixed (variableRanges P regs)

def bigRanges (P : MtrrPlatform) (regs : MtrrRegisters) : List MemRange :=
  (variableRanges P regs).filter fun r => 2 ^ 14 ≤ r.size

/-- The type that the registers would give without the variable ranges below 16 KB, and
    with the default type and the switch for the fixed ranges that DBVM has seen. -/
def SeenType (P : MtrrPlatform) (TYPE : Nat) (FE : Bool) (regs : MtrrRegisters) :
    Nat → Nat → Prop :=
  GivenType (P.FIX && FE) TYPE regs.fixed (bigRanges P regs)

/-- The registers are as the architecture wants them: the masks are contiguous, the ranges
    have at least 4 KB and are aligned to their size, and types that meet may meet. -/
structure Defined (P : MtrrPlatform) (regs : MtrrRegisters) : Prop where
  contiguous : ∀ i < P.VCNT, (regs.physmask i).testBit 11 = true →
    ∃ k, 12 ≤ k ∧ k ≤ P.MAXPHYADDR ∧ regs.physmask i &&& P.maskPB = 2 ^ P.MAXPHYADDR - 2 ^ k ∧
      2 ^ k ∣ regs.physbase i &&& P.maskPB
  compatible : ∀ a ∈ variableRanges P regs, ∀ b ∈ variableRanges P regs, ¬ a.Apart b →
    Compatible 4 a.memtype b.memtype

/-- The list that is built from the registers is right: the ranges below 16 KB decide no
    type, the default-type register is the one that was seen, no fixed type gives way to the
    variable range that it should override, and no more than 100 ranges arise. -/
structure Buildable (P : MtrrPlatform) (TYPE : Nat) (FE : Bool) (regs : MtrrRegisters) :
    Prop where
  seen : ∀ address t, SeenType P TYPE FE regs address t ↔ EffectiveType P regs address t
  overrides : (P.FIX && FE) = true → ∀ r ∈ bigRanges P regs, ∀ address < 0x100000,
    r.Covers address → MTC_RPS (regs.fixed.type address) r.memtype = regs.fixed.type address
  most : AtMost100 (collectRanges P FE regs)

/-- A write is harmless: with a list it changes no type, and without one the list that is
    built now is right. -/
structure Harmless (P : MtrrPlatform) (s : MtrrState) (regs : MtrrRegisters) : Prop where
  kept : s.memoryranges ≠ [] → ∀ address t,
    EffectiveType P regs address t ↔ EffectiveType P s.registers address t
  built : s.memoryranges = [] → Buildable P s.TYPE s.FE regs

/-- `getMTRRMapInfo` answers with a type only if every address of the block has it, and it
    answers for every page. -/
structure Right (P : MtrrPlatform) (s : MtrrState) : Prop where
  typed : ∀ startaddress size t, s.getMTRRMapInfo startaddress size = some t →
    ∀ address, startaddress ≤ address → address < startaddress + size →
      EffectiveType P s.registers address t
  page : ∀ page, ∃ t, s.getMTRRMapInfo (page * 4096) 4096 = some t

/-! ## The fixed ranges -/

namespace FixedMtrrs

variable {r r' : FixedRow} {a e : Nat}

/-- The cases without their values. -/
def keys : List (Nat × Nat × Nat) :=
  [(0, 0x7ffff, 16), (0x80000, 0x9ffff, 14), (0xa0000, 0xbffff, 14), (0xc0000, 0xc7fff, 12),
   (0xc8000, 0xcffff, 12), (0xd0000, 0xd7fff, 12), (0xd8000, 0xdffff, 12),
   (0xe0000, 0xe7fff, 12), (0xe8000, 0xeffff, 12), (0xf0000, 0xf7fff, 12),
   (0xf8000, 0xfffff, 12)]

section

variable (m : FixedMtrrs)
include m

theorem map_rows : m.rows.map (fun r => (r.first, r.last, r.shift)) = keys := rfl

theorem key_mem (h : r ∈ m.rows) : (r.first, r.last, r.shift) ∈ keys := by
  rw [← m.map_rows]
  exact List.mem_map_of_mem (f := fun r : FixedRow => (r.first, r.last, r.shift)) h

/-- A register holds eight blocks of one size. -/
theorem rows_spec (h : r ∈ m.rows) :
    (r.shift = 16 ∨ r.shift = 14 ∨ r.shift = 12) ∧ r.first % 2 ^ r.shift = 0 ∧
      r.last + 1 = r.first + 8 * 2 ^ r.shift ∧ r.last < 0x100000 := by
  have hall : ∀ key ∈ keys, (key.2.2 = 16 ∨ key.2.2 = 14 ∨ key.2.2 = 12) ∧
      key.1 % 2 ^ key.2.2 = 0 ∧ key.2.1 + 1 = key.1 + 8 * 2 ^ key.2.2 ∧
      key.2.1 < 0x100000 := by decide
  exact hall _ (m.key_mem h)

/-- The blocks of a later register are not larger. -/
theorem shift_le (h : r ∈ m.rows) (h' : r' ∈ m.rows) (hlt : r.last < r'.first) :
    r'.shift ≤ r.shift := by
  have hall : ∀ key ∈ keys, ∀ key' ∈ keys, key.2.1 < key'.1 → key'.2.2 ≤ key.2.2 := by
    decide
  exact hall _ (m.key_mem h) _ (m.key_mem h') hlt

theorem rows_apart : m.rows.Pairwise fun r r' => r.last < r'.first := by
  have hkeys : keys.Pairwise fun key key' => key.2.1 < key'.1 := by decide
  rw [← m.map_rows] at hkeys
  exact List.pairwise_map.1 hkeys

theorem row_eq (h : r ∈ m.rows) (hlo : r.first ≤ a) (hhi : a ≤ r.last) :
    m.row a = r := by
  unfold row
  cases hfind : m.rows.find? fun r => r.first ≤ a ∧ a ≤ r.last with
  | none =>
    have hnot := List.find?_eq_none.1 hfind r h
    simp only [decide_eq_true_eq] at hnot
    exact absurd ⟨hlo, hhi⟩ hnot
  | some r' =>
    have hmem := List.mem_of_find?_eq_some hfind
    have hin := List.find?_some hfind
    simp only [decide_eq_true_eq] at hin
    show r' = r
    by_contra hne
    -- two cases with the address in both would stand one behind the other
    have hapart : (m.rows.Pairwise fun r r' => r.last < r'.first ∨ r'.last < r.first) :=
      m.rows_apart.imp Or.inl
    have hsymm : Std.Symm fun r r' : FixedRow => r.last < r'.first ∨ r'.last < r.first :=
      ⟨fun _ _ => Or.symm⟩
    rcases hapart.forall hmem h hne with hlt | hlt <;> omega

theorem row_spec (he : e < 0x100000) :
    m.row e ∈ m.rows ∧ (m.row e).first ≤ e ∧ e ≤ (m.row e).last := by
  obtain ⟨r, hr, hlo, hhi⟩ : ∃ r ∈ m.rows, r.first ≤ e ∧ e ≤ r.last := by
    simp only [rows, List.mem_cons, List.not_mem_nil, or_false, exists_eq_or_imp, exists_eq_left]
    omega
  rw [m.row_eq hr hlo hhi]
  exact ⟨hr, hlo, hhi⟩

end

theorem FixedRow.block {first last shift e a : Nat}
    (hshift : shift = 16 ∨ shift = 14 ∨ shift = 12) (hfirst : first % 2 ^ shift = 0)
    (hlast : last + 1 = first + 8 * 2 ^ shift) (hlo : first ≤ e) (hhi : e ≤ last)
    (halign : e % 2 ^ shift = 0) (h1 : e ≤ a) (h2 : a < e + 2 ^ shift) :
    a ≤ last ∧ (a - first) >>> shift = (e - first) >>> shift := by
  rw [Nat.shiftRight_eq_div_pow, Nat.shiftRight_eq_div_pow]
  rcases hshift with rfl | rfl | rfl <;> omega

theorem block_spec (m : FixedMtrrs) (he : e < 0x100000) (halign : m.sizeinc e ∣ e) :
    (∀ a, e ≤ a → a < e + m.sizeinc e → m.type a = m.type e) ∧
      e + m.sizeinc e ≤ 0x100000 ∧
      (e + m.sizeinc e < 0x100000 → m.sizeinc (e + m.sizeinc e) ∣ e + m.sizeinc e) ∧
      4096 ∣ m.sizeinc e ∧ 0 < m.sizeinc e := by
  obtain ⟨hmem, hlo, hhi⟩ := m.row_spec he
  obtain ⟨hshift, hfirst, hlast, hend⟩ := m.rows_spec hmem
  have hblock : ∀ a, e ≤ a → a < e + m.sizeinc e → a ≤ (m.row e).last ∧
      (a - (m.row e).first) >>> (m.row e).shift = (e - (m.row e).first) >>> (m.row e).shift :=
    fun a => FixedRow.block hshift hfirst hlast hlo hhi
      (Nat.mod_eq_zero_of_dvd halign)
  have hpos : 0 < m.sizeinc e := Nat.two_pow_pos _
  have hin : e + m.sizeinc e ≤ (m.row e).last + 1 := by
    have hbefore := (hblock (e + m.sizeinc e - 1) (by omega) (by omega)).1
    omega
  refine ⟨fun a h1 h2 => ?_, by omega, fun hnext => ?_, ?_, hpos⟩
  · obtain ⟨hle, hindex⟩ := hblock a h1 h2
    have hrowa : m.row a = m.row e := m.row_eq hmem (by omega) hle
    simp only [type, hrowa, hindex]
  · -- the next block is of the same size or of a smaller one
    have hdvd : m.sizeinc e ∣ e + m.sizeinc e :=
      (Nat.dvd_add_right halign).2 (Nat.dvd_refl _)
    refine Nat.dvd_trans (Nat.pow_dvd_pow 2 ?_) hdvd
    obtain ⟨hmem', hlo', hhi'⟩ := m.row_spec hnext
    by_cases hsame : e + m.sizeinc e ≤ (m.row e).last
    · rw [m.row_eq hmem (by omega) hsame]
    · by_cases hafter : (m.row e).last < (m.row (e + m.sizeinc e)).first
      · exact m.shift_le hmem hmem' hafter
      · -- no case begins within another one
        have hrow : m.row (m.row e).last = m.row (e + m.sizeinc e) :=
          m.row_eq hmem' (by omega) (by omega)
        rw [← hrow, m.row_eq hmem (by omega) (Nat.le_refl _)]
  · rcases hshift with hs | hs | hs <;> rw [sizeinc, hs] <;> decide

end FixedMtrrs

theorem covered_append (l l' : List MemRange) (a t : Nat) :
    Covered (l ++ l') a t ↔ Covered l a t ∨ Covered l' a t := by
  simp only [Covered, List.mem_append, or_and_right, exists_or]

theorem covered_singleton (r : MemRange) (a t : Nat) :
    Covered [r] a t ↔ r.Covers a ∧ r.memtype = t := by
  simp only [Covered, List.mem_singleton, exists_eq_left]

/-- The ranges stand one behind another, consist of pages, and end by an address. -/
structure Tiled (last : Nat) (l : List MemRange) : Prop where
  sorted : l.Pairwise fun a b => a.startaddress + a.size ≤ b.startaddress
  pages : ∀ r ∈ l, 0 < r.size ∧ 4096 ∣ r.startaddress ∧ 4096 ∣ r.size
  fits : ∀ r ∈ l, r.startaddress + r.size ≤ last

theorem Tiled.append {l : List MemRange} {last : Nat} (r : MemRange) (h : Tiled last l)
    (hstart : last ≤ r.startaddress) (hpos : 0 < r.size) (hpage : 4096 ∣ r.startaddress)
    (hpages : 4096 ∣ r.size) : Tiled (r.startaddress + r.size) (l ++ [r]) := by
  constructor
  · refine List.pairwise_append.2 ⟨h.sorted, List.pairwise_singleton _ _, fun a ha b hb => ?_⟩
    rw [List.mem_singleton.1 hb]
    have hfits := h.fits a ha
    omega
  · intro a ha
    rcases List.mem_append.1 ha with ha | ha
    · exact h.pages a ha
    · rw [List.mem_singleton.1 ha]
      exact ⟨hpos, hpage, hpages⟩
  · intro a ha
    rcases List.mem_append.1 ha with ha | ha
    · have hfits := h.fits a ha
      omega
    · rw [List.mem_singleton.1 ha]

namespace FixedScan

variable {m : FixedMtrrs} {s s' : FixedScan}

/-- Up to the address of the scan, the ranges with the one in progress say what the
    registers say. -/
structure Inv (m : FixedMtrrs) (s : FixedScan) : Prop where
  le : s.startaddress + s.size ≤ 0x100000
  align : s.startaddress + s.size < 0x100000 →
    m.sizeinc (s.startaddress + s.size) ∣ s.startaddress + s.size
  pages : 4096 ∣ s.startaddress ∧ 4096 ∣ s.size
  first : s.size = 0 → s.startaddress = 0 ∧ s.memtype = none
  next : s.size ≠ 0 → ∃ t, s.memtype = some t
  tiled : Tiled s.startaddress s.memoryranges
  covered : ∀ a t, Covered s.added a t ↔ a < s.startaddress + s.size ∧ m.type a = t

theorem added_eq (h : s.size ≠ 0) :
    s.added = s.memoryranges ++ [⟨s.startaddress, s.size, s.memtype.getD 0⟩] := if_neg h

theorem added_of_zero (h : s.size = 0) : s.added = s.memoryranges := if_pos h

theorem Inv.added_tiled (h : s.Inv m) : Tiled (s.startaddress + s.size) s.added := by
  by_cases hsize : s.size = 0
  · rw [added_of_zero hsize, hsize, Nat.add_zero]
    exact h.tiled
  · rw [added_eq hsize]
    exact Tiled.append ⟨s.startaddress, s.size, s.memtype.getD 0⟩ h.tiled (Nat.le_refl _)
      (Nat.pos_of_ne_zero hsize) h.pages.1 h.pages.2

theorem inv_start (m : FixedMtrrs) : start.Inv m where
  le := by decide
  align _ := Nat.dvd_zero _
  pages := ⟨Nat.dvd_zero _, Nat.dvd_zero _⟩
  first _ := ⟨rfl, rfl⟩
  next h := absurd rfl h
  tiled := ⟨List.Pairwise.nil, fun _ h => (nomatch h), fun _ h => (nomatch h)⟩
  covered a t := by
    rw [added_of_zero rfl]
    constructor
    · rintro ⟨r, hr, -⟩
      cases hr
    · rintro ⟨h, -⟩
      exact absurd h (Nat.not_lt_zero a)

theorem turn_covered (h : s.Inv m) {inc type : Nat} (hs' : (s.memtype.getD type = type ∧
      s' = { s with size := s.size + inc, memtype := some type }) ∨
      s' = ⟨s.startaddress + s.size, inc, some type, s.added⟩) (hinc : inc ≠ 0) (a t : Nat) :
    Covered s'.added a t ↔ Covered s.added a t ∨
      (s.startaddress + s.size ≤ a ∧ a < s.startaddress + s.size + inc ∧ type = t) := by
  rcases hs' with ⟨hsame, rfl⟩ | rfl
  · have hsize : s.size + inc ≠ 0 := by omega
    rw [added_eq hsize, covered_append, covered_singleton]
    simp only [MemRange.Covers, Option.getD_some]
    by_cases hzero : s.size = 0
    · rw [added_of_zero hzero, hzero]
      refine or_congr_right ?_
      constructor
      · rintro ⟨⟨h1, h2⟩, h3⟩
        exact ⟨by omega, by omega, h3⟩
      · rintro ⟨h1, h2, h3⟩
        exact ⟨⟨by omega, by omega⟩, h3⟩
    · obtain ⟨t', ht'⟩ := h.next hzero
      rw [ht', Option.getD_some] at hsame
      subst hsame
      rw [added_eq hzero, covered_append, covered_singleton, or_assoc, ht']
      simp only [MemRange.Covers, Option.getD_some]
      refine or_congr_right ?_
      constructor
      · rintro ⟨⟨h1, h2⟩, h3⟩
        by_cases hin : a < s.startaddress + s.size
        · exact .inl ⟨⟨h1, hin⟩, h3⟩
        · exact .inr ⟨by omega, by omega, h3⟩
      · rintro (⟨⟨h1, h2⟩, h3⟩ | ⟨h1, h2, h3⟩)
        · exact ⟨⟨h1, by omega⟩, h3⟩
        · exact ⟨⟨by omega, by omega⟩, h3⟩
  · rw [added_eq hinc, covered_append, covered_singleton]
    simp only [MemRange.Covers, Option.getD_some, and_assoc]

theorem turn_spec (h : s.Inv m) :
    (∃ s', turn m s = .inl s' ∧ s'.Inv m ∧
      (0x100000 - (s'.startaddress + s'.size)) / 4096 <
        (0x100000 - (s.startaddress + s.size)) / 4096) ∨
      ∃ l, turn m s = .inr l ∧ Tiled 0x100000 l ∧
        ∀ a t, Covered l a t ↔ a < 0x100000 ∧ m.type a = t := by
  by_cases he : s.startaddress + s.size < 0x100000
  · obtain ⟨htype, hend, hnext, hpages, hpos⟩ := m.block_spec he (h.align he)
    have hne : m.sizeinc (s.startaddress + s.size) ≠ 0 := Nat.ne_of_gt hpos
    have hle := Nat.le_of_dvd hpos hpages
    have hstart := h.pages.1
    have hsize := h.pages.2
    -- what both branches come to
    have hgrown : ∀ s' : FixedScan, (∀ a t, Covered s'.added a t ↔ Covered s.added a t ∨
        (s.startaddress + s.size ≤ a ∧
          a < s.startaddress + s.size + m.sizeinc (s.startaddress + s.size) ∧
            m.type (s.startaddress + s.size) = t)) →
        ∀ a t, Covered s'.added a t ↔
          a < s.startaddress + s.size + m.sizeinc (s.startaddress + s.size) ∧ m.type a = t := by
      intro s' hcov a t
      rw [hcov, h.covered]
      constructor
      · rintro (⟨h1, h2⟩ | ⟨h1, h2, h3⟩)
        · exact ⟨by omega, h2⟩
        · exact ⟨h2, (htype a h1 h2).trans h3⟩
      · rintro ⟨h1, h2⟩
        by_cases hbefore : a < s.startaddress + s.size
        · exact .inl ⟨hbefore, h2⟩
        · exact .inr ⟨by omega, h1, (htype a (by omega) h1).symm.trans h2⟩
    refine .inl ?_
    by_cases hsame : m.type (s.startaddress + s.size) =
        s.memtype.getD (m.type (s.startaddress + s.size))
    · have hturn : turn m s = .inl { s with
          size := s.size + m.sizeinc (s.startaddress + s.size)
          memtype := some (m.type (s.startaddress + s.size)) } := by
        simp only [turn, if_pos he]
        rw [if_pos hsame, ← hsame]
      refine ⟨_, hturn, ⟨?_, ?_, ⟨hstart, (Nat.dvd_add_right hsize).2 hpages⟩, ?_, ?_, h.tiled, ?_⟩,
        ?_⟩
      · dsimp only
        omega
      · dsimp only
        rw [← Nat.add_assoc]
        exact hnext
      · intro hzero
        dsimp only at hzero
        omega
      · exact fun _ => ⟨_, rfl⟩
      · have hcov := hgrown _ (turn_covered h (.inl ⟨hsame.symm, rfl⟩) hne)
        dsimp only at hcov ⊢
        rw [← Nat.add_assoc]
        exact hcov
      · dsimp only
        omega
    · have hturn : turn m s = .inl ⟨s.startaddress + s.size,
          m.sizeinc (s.startaddress + s.size), some (m.type (s.startaddress + s.size)),
          s.added⟩ := by
        simp only [turn, if_pos he]
        rw [if_neg hsame]
      refine ⟨_, hturn, ⟨hend, hnext, ⟨(Nat.dvd_add_right hstart).2 hsize, hpages⟩, ?_, ?_,
        h.added_tiled, hgrown _ (turn_covered h (.inr rfl) hne)⟩, ?_⟩
      · exact fun hzero => absurd hzero hne
      · exact fun _ => ⟨_, rfl⟩
      · dsimp only
        omega
  · have hlast : s.startaddress + s.size = 0x100000 := Nat.le_antisymm h.le (by omega)
    have hne : s.size ≠ 0 := fun hzero => by
      have hfirst := (h.first hzero).1
      omega
    have hturn : turn m s = .inr s.added := by
      simp only [turn, if_neg he, if_pos hne]
    refine .inr ⟨_, hturn, ?_, ?_⟩
    · rw [← hlast]
      exact h.added_tiled
    · rw [← hlast]
      exact h.covered

end FixedScan

theorem fixedRanges_spec (m : FixedMtrrs) : Tiled 0x100000 (fixedRanges m) ∧
    ∀ a t, Covered (fixedRanges m) a t ↔ a < 0x100000 ∧ m.type a = t := by
  obtain ⟨l, hl, hspec⟩ := Lib.loop_of_measure (I := FixedScan.Inv m)
    (fun s => (0x100000 - (s.startaddress + s.size)) / 4096)
    (fun _ => FixedScan.turn_spec) (FixedScan.inv_start m)
  have hranges : fixedRanges m = l := by
    unfold fixedRanges
    rw [show (257 : Nat) =
      (0x100000 - (FixedScan.start.startaddress + FixedScan.start.size)) / 4096 + 1 from rfl, hl, Option.getD_some]
  rw [hranges]
  exact hspec

/-! ## The variable ranges -/

theorem and_maskPB (P : MtrrPlatform) (x : Nat) :
    x &&& P.maskPB = 2 ^ 12 * (x % 2 ^ P.MAXPHYADDR / 2 ^ 12) :=
  Lib.and_mask P.bounds.1 x

theorem sizeLoop_mask {n k : Nat} (M : Nat) (hk : k ≤ n) (hn : n ≤ M) :
    sizeLoop (2 ^ M - 2 ^ k) n = if 14 ≤ k then some (2 ^ k) else none := by
  induction n with
  | zero =>
    rw [if_neg (by omega)]
    rfl
  | succ n ih =>
    rw [sizeLoop, Lib.testBit_mask (by omega)]
    by_cases hin : k ≤ n
    · -- bit `n` belongs to the mask
      rw [if_pos (c := _ = true) (by simp [hin]; omega), ih hin (by omega)]
      split
      · rfl
      · rw [if_neg (by omega)]
    · have hlast : k = n + 1 := by omega
      subst hlast
      rw [if_neg (c := _ = true) (by simp)]
      by_cases h12 : 12 < n
      · rw [if_pos h12, if_pos (by omega)]
      · rw [if_neg h12, if_neg (by omega)]

section Variable

variable {P : MtrrPlatform} {regs : MtrrRegisters} {i : Nat}

theorem Defined.range (h : Defined P regs) (hi : i < P.VCNT) {r : MemRange}
    (hr : variableRange P regs i = some r) :
    ∃ k, 12 ≤ k ∧ k ≤ P.MAXPHYADDR ∧ r.size = 2 ^ k ∧ 2 ^ k ∣ r.startaddress ∧
      r.startaddress + r.size ≤ 2 ^ P.MAXPHYADDR ∧
      addedRange P regs i = if 14 ≤ k then some r else none := by
  unfold variableRange at hr
  split at hr
  next hvalid =>
      obtain ⟨k, hk, hkM, hmask, halign⟩ := h.contiguous i hi hvalid
      have hpow : 2 ^ k ≤ 2 ^ P.MAXPHYADDR := Nat.pow_le_pow_right (by decide) hkM
      have hsize : 2 ^ P.MAXPHYADDR - (2 ^ P.MAXPHYADDR - 2 ^ k) = 2 ^ k := by omega
      rw [hmask, hsize] at hr
      obtain rfl := Option.some.inj hr
      refine ⟨k, hk, hkM, rfl, halign, ?_, ?_⟩
      · -- both ends are multiples of the size
        have hlt : regs.physbase i &&& P.maskPB < 2 ^ P.MAXPHYADDR := by
          rw [and_maskPB]
          have hmod := Nat.mod_lt (regs.physbase i) (Nat.two_pow_pos P.MAXPHYADDR)
          have hdiv := Nat.mul_div_le (regs.physbase i % 2 ^ P.MAXPHYADDR) (2 ^ 12)
          omega
        obtain ⟨c, hc⟩ := halign
        obtain ⟨d, hd⟩ := Nat.pow_dvd_pow 2 hkM
        show (regs.physbase i &&& P.maskPB) + 2 ^ k ≤ 2 ^ P.MAXPHYADDR
        rw [hc, hd] at hlt
        rw [hc, hd, ← Nat.mul_succ]
        exact Nat.mul_le_mul_left _ (Nat.lt_of_mul_lt_mul_left hlt)
      · simp only [addedRange, if_pos hvalid, hmask, sizeLoop_mask P.MAXPHYADDR hkM (Nat.le_refl _)]
        split <;> rfl
  next => cases hr

theorem addedRange_of_none (h : variableRange P regs i = none) :
    addedRange P regs i = none := by
  unfold variableRange at h
  unfold addedRange
  split at h
  · cases h
  next hvalid => rw [if_neg hvalid]

theorem addedRange_eq (h : Defined P regs) (hi : i < P.VCNT) :
    addedRange P regs i = (variableRange P regs i).filter fun r => 2 ^ 14 ≤ r.size := by
  cases hr : variableRange P regs i with
  | none => rw [addedRange_of_none hr, Option.filter_none]
  | some r =>
    obtain ⟨k, -, -, hsize, -, -, hadded⟩ := h.range hi hr
    rw [hadded, Option.filter_some]
    have hiff : 2 ^ 14 ≤ r.size ↔ 14 ≤ k := by
      rw [hsize]
      exact Nat.pow_le_pow_iff_right (by decide)
    by_cases hk : 14 ≤ k
    · rw [if_pos hk, if_pos (decide_eq_true (hiff.2 hk))]
    · rw [if_neg hk, if_neg fun htrue => hk (hiff.1 (of_decide_eq_true htrue))]

theorem addVariable_eq (h : Defined P regs) (l : List MemRange) :
    addVariable P regs l = l ++ bigRanges P regs := by
  unfold addVariable bigRanges variableRanges
  suffices hloop : ∀ n ≤ P.VCNT, (List.range n).foldl (fun memoryranges i =>
      match addedRange P regs i with
      | some r => addToMemoryRanges memoryranges r
      | none => memoryranges) l =
        l ++ ((List.range n).filterMap (variableRange P regs)).filter fun r => 2 ^ 14 ≤ r.size from
    hloop P.VCNT (Nat.le_refl _)
  intro n hn
  induction n with
  | zero => simp
  | succ n ih =>
    rw [List.range_succ, List.foldl_append, ih (by omega), List.foldl_cons, List.foldl_nil,
      List.filterMap_append, List.filter_append, ← List.append_assoc, addedRange_eq h (by omega)]
    cases hr : variableRange P regs n with
    | none => simp [hr]
    | some r =>
      rw [List.filterMap_cons_some hr, List.filterMap_nil, Option.filter_some]
      by_cases hsize : 2 ^ 14 ≤ r.size
      · have hne : r.size ≠ 0 := by
          have hpos : 0 < 2 ^ 14 := by decide
          omega
        rw [if_pos (decide_eq_true hsize), List.filter_cons, if_pos (decide_eq_true hsize),
          List.filter_nil]
        exact if_neg hne
      · rw [if_neg (by simpa using hsize), List.filter_cons, if_neg (by simpa using hsize),
          List.filter_nil, List.append_nil]

theorem Defined.of_mem (h : Defined P regs) {r : MemRange} (hr : r ∈ variableRanges P regs) :
    r.Sound ∧ 4096 ∣ r.startaddress ∧ 4096 ∣ r.size := by
  obtain ⟨i, hi, hri⟩ := List.mem_filterMap.1 hr
  obtain ⟨k, hk, hkM, hsize, halign, hfits, -⟩ := h.range (List.mem_range.1 hi) hri
  have hM : 2 ^ P.MAXPHYADDR ≤ 2 ^ 52 := Nat.pow_le_pow_right (by decide) P.bounds.2
  have hpos : 0 < r.size := hsize ▸ Nat.two_pow_pos k
  have hpage : 2 ^ 12 ∣ 2 ^ k := Nat.pow_dvd_pow 2 hk
  have hbound : (2 : Nat) ^ 52 < 2 ^ 64 := by decide
  exact ⟨⟨hpos, by omega, by omega⟩, Nat.dvd_trans hpage halign, hsize ▸ hpage⟩

theorem mem_bigRanges {r : MemRange} :
    r ∈ bigRanges P regs ↔ r ∈ variableRanges P regs ∧ 2 ^ 14 ≤ r.size := by
  rw [bigRanges, List.mem_filter, decide_eq_true_eq]

theorem Defined.sanitizable (h : Defined P regs) : Sanitizable 4 (bigRanges P regs) :=
  ⟨fun _ hr => (h.of_mem (mem_bigRanges.1 hr).1).1, fun a ha b hb =>
    h.compatible a (mem_bigRanges.1 ha).1 b (mem_bigRanges.1 hb).1⟩

end Variable

/-! ## The list -/

section List

variable {P : MtrrPlatform} {regs : MtrrRegisters} {TYPE : Nat} {FE : Bool} {address t : Nat}

theorem collectRanges_eq (h : Defined P regs) (FE : Bool) : collectRanges P FE regs =
    (if P.FIX && FE then fixedRanges regs.fixed else []) ++ bigRanges P regs :=
  addVariable_eq h _

theorem covered_collectRanges (h : Defined P regs) (FE : Bool) (address u : Nat) :
    Covered (collectRanges P FE regs) address u ↔
      ((P.FIX && FE) = true ∧ address < 0x100000 ∧ regs.fixed.type address = u) ∨
        Covered (bigRanges P regs) address u := by
  rw [collectRanges_eq h, covered_append]
  refine or_congr_left ?_
  by_cases hon : (P.FIX && FE) = true
  · rw [if_pos hon, (fixedRanges_spec regs.fixed).2]
    exact ⟨fun hcov => ⟨hon, hcov⟩, fun hcov => hcov.2⟩
  · rw [if_neg hon]
    constructor
    · rintro ⟨r, hr, -⟩
      cases hr
    · exact fun hcov => absurd hcov.1 hon

theorem Buildable.wins (hb : Buildable P TYPE FE regs) (h : Defined P regs) {t u : Nat}
    (ht : Covered (collectRanges P FE regs) address t)
    (hu : Covered (collectRanges P FE regs) address u) : Wins t u ∨ Wins u t := by
  rw [covered_collectRanges h] at ht hu
  rcases ht with ⟨hon, hlow, rfl⟩ | ⟨a, ha, hax, rfl⟩
  · rcases hu with ⟨-, -, rfl⟩ | ⟨b, hb', hbx, rfl⟩
    · exact .inl (Wins.refl _)
    · exact .inl (MTC_RPS_eq_left_iff.1 (hb.overrides hon b hb' address hlow hbx))
  · rcases hu with ⟨hon, hlow, rfl⟩ | ⟨b, hb', hbx, rfl⟩
    · exact .inr (MTC_RPS_eq_left_iff.1 (hb.overrides hon a ha address hlow hax))
    · exact (h.sanitizable.compatible a ha b hb' fun hapart => hapart address hax hbx).wins
        (.inr rfl)

theorem Defined.of_mem_collectRanges (h : Defined P regs) (FE : Bool) {r : MemRange}
    (hr : r ∈ collectRanges P FE regs) : r.Sound ∧ 4096 ∣ r.startaddress ∧ 4096 ∣ r.size := by
  rw [collectRanges_eq h, List.mem_append] at hr
  rcases hr with hr | hr
  · split at hr
    · obtain ⟨hpos, hstart, hsize⟩ := (fixedRanges_spec regs.fixed).1.pages r hr
      have hfits := (fixedRanges_spec regs.fixed).1.fits r hr
      exact ⟨⟨hpos, by omega, by omega⟩, hstart, hsize⟩
    · cases hr
  · exact h.of_mem (mem_bigRanges.1 hr).1

theorem Buildable.mergeable (hb : Buildable P TYPE FE regs) (h : Defined P regs) :
    Mergeable (collectRanges P FE regs) where
  sound r hr := (h.of_mem_collectRanges FE hr).1
  wins a ha b hb' hmeet := by
    obtain ⟨address, hx⟩ := not_forall.1 hmeet
    obtain ⟨hax, hbx⟩ := Classical.not_imp.1 hx
    exact hb.wins h ⟨a, ha, hax, rfl⟩ ⟨b, hb', not_not.1 hbx, rfl⟩

theorem Buildable.seenType_iff (hb : Buildable P TYPE FE regs) (h : Defined P regs)
    (address t : Nat) : SeenType P TYPE FE regs address t ↔
      Winner (collectRanges P FE regs) address t ∨
        (¬ ∃ u, Covered (collectRanges P FE regs) address u) ∧ t = TYPE := by
  unfold SeenType GivenType
  by_cases hfixed : (P.FIX && FE) = true ∧ address < 0x100000
  · -- below 1 MB the fixed type wins
    have hcov : Covered (collectRanges P FE regs) address (regs.fixed.type address) :=
      (covered_collectRanges h FE address _).2 (.inl ⟨hfixed.1, hfixed.2, rfl⟩)
    have hwins : ∀ u, Covered (collectRanges P FE regs) address u →
        Wins (regs.fixed.type address) u := by
      intro u hu
      rcases (covered_collectRanges h FE address u).1 hu with ⟨-, -, rfl⟩ | ⟨r, hr, hrx, rfl⟩
      · exact Wins.refl _
      · exact MTC_RPS_eq_left_iff.1 (hb.overrides hfixed.1 r hr address hfixed.2 hrx)
    rw [if_pos hfixed]
    constructor
    · rintro rfl
      exact .inl ⟨hcov, hwins⟩
    · rintro (⟨ht, hall⟩ | ⟨hnone, -⟩)
      · exact (hall _ hcov).antisymm (hwins t ht)
      · exact absurd ⟨_, hcov⟩ hnone
  · have hcov : ∀ u, Covered (collectRanges P FE regs) address u ↔
        Covered (bigRanges P regs) address u := by
      intro u
      rw [covered_collectRanges h]
      constructor
      · rintro (⟨hon, hlow, -⟩ | hu)
        · exact absurd ⟨hon, hlow⟩ hfixed
        · exact hu
      · exact Or.inr
    rw [if_neg hfixed, ← winner_iff_combinedType (.inr rfl) h.sanitizable]
    simp only [Winner, hcov]
    constructor
    · rintro (⟨-, hwin⟩ | hnone)
      · exact .inl hwin
      · exact .inr hnone
    · rintro (hwin | hnone)
      · exact .inl ⟨⟨t, hwin.1⟩, hwin⟩
      · exact .inr hnone

end List

theorem mapInfo_some {defType starta stopa t : Nat} {l : List MemRange}
    (hsorted : l.Pairwise fun a b => a.startaddress < b.startaddress)
    (hpos : ∀ r ∈ l, 0 < r.size) (h : mapInfo defType starta stopa l = some t) :
    (∃ r ∈ l, r.memtype = t ∧ r.startaddress ≤ starta ∧ stopa < r.startaddress + r.size) ∨
      t = defType ∧ ∀ r ∈ l, ¬ (starta < r.startaddress + r.size ∧ r.startaddress ≤ stopa) := by
  induction l with
  | nil =>
    refine .inr ⟨(Option.some.inj h).symm, ?_⟩
    rintro r ⟨⟩
  | cons r l ih =>
    obtain ⟨hfirst, hrest⟩ := List.pairwise_cons.1 hsorted
    have hsize := hpos r List.mem_cons_self
    rw [mapInfo] at h
    by_cases hover : starta ≤ r.startaddress + r.size - 1 ∧ r.startaddress ≤ stopa
    · rw [if_pos hover] at h
      split at h
      next hin =>
          exact .inl ⟨r, List.mem_cons_self, Option.some.inj h, hin.1, by omega⟩
      next => cases h
    · rw [if_neg hover] at h
      by_cases hbefore : stopa < r.startaddress
      · -- "every other item will be as well"
        rw [if_pos hbefore] at h
        refine .inr ⟨(Option.some.inj h).symm, fun r' hr' => ?_⟩
        rcases List.mem_cons.1 hr' with rfl | hr'
        · omega
        · have hlt := hfirst r' hr'
          omega
      · rw [if_neg hbefore] at h
        rcases ih hrest (fun r' hr' => hpos r' (List.mem_cons_of_mem r hr')) h with
          ⟨r', hr', hin⟩ | ⟨ht, hnone⟩
        · exact .inl ⟨r', List.mem_cons_of_mem r hr', hin⟩
        · refine .inr ⟨ht, fun r' hr' => ?_⟩
          rcases List.mem_cons.1 hr' with rfl | hr'
          · omega
          · exact hnone r' hr'

theorem right_of_built {P : MtrrPlatform} {s : MtrrState} (h : Defined P s.registers)
    (hb : Buildable P s.TYPE s.FE s.registers)
    (hlist : Sanitized s.TYPE (collectRanges P s.FE s.registers) s.memoryranges) : Right P s := by
  have hpos : ∀ r ∈ s.memoryranges, 0 < r.size := fun r hr => (hlist.sound r hr).pos
  constructor
  · intro startaddress size t ht address hlo hhi
    rw [← hb.seen, hb.seenType_iff h]
    rcases mapInfo_some hlist.sorted hpos ht with ⟨r, hr, rfl, hstart, hstop⟩ | ⟨rfl, hnone⟩
    · have hcov : Covered s.memoryranges address r.memtype :=
        ⟨r, hr, ⟨by omega, by omega⟩, rfl⟩
      exact .inl ((hlist.covered address _).1 hcov).1
    · -- a range of another type would touch the block
      by_cases hcov : ∃ u, Covered (collectRanges P s.FE s.registers) address u
      · obtain ⟨u, hu⟩ := hcov
        obtain ⟨v, hv⟩ := hlist.winner address u hu
        by_cases hdef : v = s.TYPE
        · exact .inl (hdef ▸ hv)
        · obtain ⟨r, hr, hrx, -⟩ := (hlist.covered address v).2 ⟨hv, hdef⟩
          have hnot := hnone r hr
          unfold MemRange.Covers at hrx
          omega
      · exact .inr ⟨hcov, rfl⟩
  · intro page
    refine mapInfo_page s.TYPE page s.memoryranges fun r hr => ?_
    -- the ends of the ranges are ends of ranges that were collected
    have hbound : ∀ e, TagInterval.IsBound
        ((collectRanges P s.FE s.registers).map MemRange.interval) e → 4096 ∣ e := by
      rintro e ⟨i, hi, he⟩
      obtain ⟨c, hc, rfl⟩ := List.mem_map.1 hi
      obtain ⟨-, hstart, hsize⟩ := h.of_mem_collectRanges s.FE hc
      rcases he with rfl | rfl
      · exact hstart
      · exact (Nat.dvd_add_right hstart).2 hsize
    have hstart := hbound _ (hlist.bounds r hr).1
    have hend := hbound _ (hlist.bounds r hr).2
    exact ⟨Nat.mod_eq_zero_of_dvd hstart,
      Nat.mod_eq_zero_of_dvd ((Nat.dvd_add_right hstart).1 hend), hpos r hr⟩

namespace MtrrState

variable {P : MtrrPlatform} {s : MtrrState} {regs : MtrrRegisters}

/-- The list is built when there is none. -/
theorem initMemTypeRanges_spec (TYPE : Nat) (FE : Bool) (h : Defined P regs)
    (hb : Buildable P TYPE FE regs) :
    ∃ l, initMemTypeRanges P TYPE FE regs [] = some l ∧
      Sanitized TYPE (collectRanges P FE regs) l := by
  obtain ⟨l, hl, hspec⟩ := sanitize_mergeable TYPE (hb.mergeable h) hb.most
  refine ⟨l, ?_, hspec⟩
  rw [initMemTypeRanges, if_neg (by simp)]
  exact hl

theorem init_spec (h : Defined P regs) (hb : Buildable P regs.TYPE regs.FE regs) :
    ∃ s, init P regs = some s ∧ Right P s := by
  obtain ⟨l, hl, hspec⟩ := initMemTypeRanges_spec regs.TYPE regs.FE h hb
  refine ⟨⟨regs.TYPE, regs.FE, regs, l⟩, ?_, right_of_built h hb hspec⟩
  rw [init, hl]
  rfl

theorem write_spec (hright : Right P s) (h : Defined P regs) (hok : Harmless P s regs) :
    ∃ s', write P s regs = some s' ∧ Right P s' := by
  by_cases hlist : s.memoryranges = []
  · have hb := hok.built hlist
    obtain ⟨l, hl, hspec⟩ := initMemTypeRanges_spec s.TYPE s.FE h hb
    refine ⟨{ s with registers := regs, memoryranges := l }, ?_, right_of_built h hb hspec⟩
    rw [write, hlist, hl]
    rfl
  · -- the list stays, and so do the types
    refine ⟨{ s with registers := regs }, ?_, fun startaddress size t ht address hlo hhi => ?_,
      hright.page⟩
    · rw [write, initMemTypeRanges, if_pos hlist]
      rfl
    · exact (hok.kept hlist address t).2 (hright.typed startaddress size t ht address hlo hhi)

/-- When the list can be built from the registers that DBVM starts with, and all later
    writes are harmless, DBVM goes on after every write, and `getMTRRMapInfo` answers with
    the effective types. -/
theorem types_follow_mtrrs (P : MtrrPlatform) (regs : MtrrRegisters)
    (writes : List MtrrRegisters) (h : Defined P regs) (hb : Buildable P regs.TYPE regs.FE regs)
    (hrun : ∀ s, init P regs = some s →
      Lib.AlongM (write P) (fun s w => Defined P w ∧ Harmless P s w) s writes) :
    ∃ s, ((init P regs).bind fun s => Lib.execM (write P) s writes) = some s ∧ Right P s := by
  obtain ⟨s, hs, hright⟩ := init_spec h hb
  rw [hs, Option.bind_some]
  exact Lib.execM_invariant (fun s w hright hw => write_spec hright hw.1 hw.2) hright (hrun s hs)

/-- Physical addresses of 36 bits and one variable range. -/
def onePair : MtrrPlatform := ⟨36, true, 1, by decide⟩

/-- The default type is UC, and one range has the type WB. -/
def writeBack (physbase physmask : Nat) : MtrrRegisters where
  TYPE := MTC_UC
  FE := false
  fixed := ⟨0, 0, 0, 0, 0, 0, 0, 0, 0, 0, 0⟩
  physbase _ := physbase
  physmask _ := physmask

def lowMemory : MtrrRegisters := writeBack MTC_WB 0xf00000800

theorem defined_lowMemory : Defined onePair lowMemory := by
  constructor
  · intro i hi hvalid
    have hmask : 0xf00000800 &&& onePair.maskPB = 2 ^ onePair.MAXPHYADDR - 2 ^ 32 := by decide
    have hbase : MTC_WB &&& onePair.maskPB = 0 := by decide
    exact ⟨32, by decide, by decide, hmask, hbase ▸ Nat.dvd_zero _⟩
  · have hall : ∀ a ∈ variableRanges onePair lowMemory, ∀ b ∈ variableRanges onePair lowMemory,
        Compatible 4 a.memtype b.memtype := by decide
    exact fun a ha b hb _ => hall a ha b hb

theorem buildable_lowMemory : Buildable onePair MTC_UC false lowMemory := by
  refine ⟨fun address t => Iff.rfl, fun hon => (nomatch hon), fun s hs => ?_⟩
  have hall : ∀ s ∈ Lib.visited Scan.turn 5 (Scan.start [⟨0, 2 ^ 32, MTC_WB⟩]),
      s.memoryranges.length ≤ 100 := by decide
  exact hall s (Lib.mem_visited (r := [⟨0, 2 ^ 32, MTC_WB⟩]) rfl hs)

theorem types_follow_mtrrs_lowMemory :
    ∃ s, ((init onePair lowMemory).bind fun s => Lib.execM (write onePair) s [lowMemory]) =
      some s ∧ Right onePair s := by
  refine types_follow_mtrrs onePair lowMemory [lowMemory] defined_lowMemory buildable_lowMemory
    fun s hs => ⟨⟨defined_lowMemory, ?_⟩, fun _ _ => trivial⟩
  obtain ⟨l, -, rfl⟩ := Option.map_eq_some_iff.1 hs
  exact ⟨fun _ _ _ => Iff.rfl, fun _ => buildable_lowMemory⟩

def onePage : MtrrRegisters := writeBack MTC_WB 0xffffff800

/-- The range of 4 KB is not added, so that its page gets the default type. -/
theorem not_types_follow_mtrrs : ¬ ∀ (P : MtrrPlatform) (regs : MtrrRegisters)
    (writes : List MtrrRegisters), Defined P regs → (∀ w ∈ writes, Defined P w) →
      ∃ s, ((init P regs).bind fun s => Lib.execM (write P) s writes) = some s ∧ Right P s := by
  intro hall
  have hdefined : Defined onePair onePage := by
    constructor
    · intro i hi hvalid
      have hmask : 0xffffff800 &&& onePair.maskPB = 2 ^ onePair.MAXPHYADDR - 2 ^ 12 := by decide
      have hbase : MTC_WB &&& onePair.maskPB = 0 := by decide
      exact ⟨12, by decide, by decide, hmask, hbase ▸ Nat.dvd_zero _⟩
    · have hsame : ∀ a ∈ variableRanges onePair onePage,
          ∀ b ∈ variableRanges onePair onePage, Compatible 4 a.memtype b.memtype := by decide
      exact fun a ha b hb _ => hsame a ha b hb
  obtain ⟨s, hs, hright⟩ := hall onePair onePage [] hdefined fun w hw => (nomatch hw)
  have hlist : initMemTypeRanges onePair MTC_UC false onePage [] = some [] := by decide
  have hinit : init onePair onePage = some ⟨MTC_UC, false, onePage, []⟩ :=
    congrArg (Option.map _) hlist
  rw [hinit] at hs
  obtain rfl := Option.some.inj hs
  have htyped := hright.typed 0 4096 MTC_UC rfl 0 (by decide) (by decide)
  have hcovered : Covered (variableRanges onePair onePage) 0 MTC_WB :=
    ⟨⟨0, 4096, MTC_WB⟩, List.mem_singleton.2 rfl, ⟨by decide, by decide⟩, rfl⟩
  rw [EffectiveType, GivenType, if_neg (by decide)] at htyped
  rcases htyped with ⟨-, hcombined⟩ | ⟨hnone, -⟩
  · have honly : ∀ u, Covered (variableRanges onePair onePage) 0 u → u = MTC_WB := by
      rintro u ⟨r, hr, -, rfl⟩
      rw [List.mem_singleton.1 hr]
      rfl
    rcases hcombined with ⟨huc, -⟩ | ⟨-, hwt, -⟩ | ⟨-, -, huc, -⟩
    · exact absurd (honly _ huc) (by decide)
    · exact absurd (honly _ hwt) (by decide)
    · exact absurd (honly _ huc) (by decide)
  · exact hnone ⟨_, hcovered⟩

end MtrrState

end CheatEngine.Dbvm
