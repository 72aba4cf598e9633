/-
  CheatEngine.Dbvm.MemoryBlocks

  The blocks that the memory manager of DBVM hands out.
-/
import CheatEngine.Dbvm.MemorySearch

namespace CheatEngine.Dbvm

open CheatEngine.Lib

/-! ## Blocks of a heap -/

namespace Heap

open MemoryManager

def blockOf (x : Nat × Nat) : Block := ⟨x.1 / 64, bitcount x.2⟩

def pageBlock (page : Nat) : Block := ⟨64 * page, 64⟩

def listBlock (mm : MemoryManager) : Nat × Nat :=
  (mm.allocationInfoList, 8 * mm.physicalPageListMaxSize)

/-- The list, the live blocks and the pages in use. -/
def blocks (s : Heap) : List Block :=
  blockOf (listBlock s.mm) :: (s.live.map blockOf ++ s.inuse.map pageBlock)

/-- Blocks start at a granule, and those of 56 granules or more at a page. -/
def Placed (x : Nat × Nat) : Prop :=
  x.1 % 64 = 0 ∧ 0 < bitcount x.2 ∧ (56 ≤ bitcount x.2 → x.1 % 4096 = 0)

/-- The bits are those of the blocks, and the entries of the list that are not yet
    used are full. -/
structure Consistent (s : Heap) : Prop where
  exact : Exact s.mm.bitmap (64 * s.mm.physicalPageListSize) s.blocks
  full : ∀ g, 64 * s.mm.physicalPageListSize ≤ g → g < 64 * s.mm.physicalPageListMaxSize →
    s.mm.bitmap.testBit g = true
  placed : ∀ x ∈ s.live, Placed x
  list : Placed (listBlock s.mm)
  maxSize : ∃ k, s.mm.physicalPageListMaxSize = 64 * 2 ^ k

/-- What a run keeps: between two calls the list has an entry that is not yet
    used. -/
structure Inv (s : Heap) : Prop extends Consistent s where
  size_lt : s.mm.physicalPageListSize < s.mm.physicalPageListMaxSize

variable {s : Heap} {size address : Nat}

theorem Inv.bitMask_ne_zero (h : s.Inv) : s.mm.bitMask s.mm.physicalPageListSize ≠ 0 := by
  intro hzero
  have hfree := (bitMask_eq_zero s.mm _).1 hzero
  have hlt := h.size_lt
  have hset := h.full (64 * s.mm.physicalPageListSize) (Nat.le_refl _) (by omega)
  rw [hfree _ (Nat.le_refl _) (by omega)] at hset
  exact Bool.false_ne_true hset

/-- A block that `malloc2` took. -/
theorem Inv.take (h : s.Inv) {start : Nat} {mm : MemoryManager}
    (hallocates : Allocates s.mm (bitcount size) start mm) (hpos : 0 < bitcount size) :
    (⟨mm, (64 * start, size) :: s.live, s.inuse⟩ : Heap).Inv := by
  have hstart : 64 * start / 64 = start := by omega
  refine ⟨⟨?_, ?_, ?_, ?_, ?_⟩, ?_⟩
  · show Exact mm.bitmap (64 * mm.physicalPageListSize) _
    rw [hallocates.size]
    have htake := h.exact.take (b := ⟨start, bitcount size⟩) hallocates.free hallocates.below
      fun g _ => hallocates.bits g
    apply htake.perm
    simp only [blocks, listBlock, hallocates.list, hallocates.maxSize, List.map_cons, blockOf,
      hstart]
    exact List.Perm.swap ..
  · intro g hle hlt
    have hle' : 64 * s.mm.physicalPageListSize ≤ g := hallocates.size ▸ hle
    have hlt' : g < 64 * s.mm.physicalPageListMaxSize := hallocates.maxSize ▸ hlt
    show mm.bitmap.testBit g = true
    rw [hallocates.bits, testBit_setRange, h.full g hle' hlt', Bool.true_or]
  · intro x hx
    rcases List.mem_cons.1 hx with rfl | hx
    · refine ⟨by show 64 * start % 64 = 0; omega, hpos, ?_⟩
      intro hbig
      have haligned := hallocates.aligned hbig
      show 64 * start % 4096 = 0
      omega
    · exact h.placed x hx
  · have hlist := h.list
    unfold listBlock at hlist ⊢
    show Placed (mm.allocationInfoList, 8 * mm.physicalPageListMaxSize)
    rw [hallocates.list, hallocates.maxSize]
    exact hlist
  · show ∃ k, mm.physicalPageListMaxSize = 64 * 2 ^ k
    rw [hallocates.maxSize]
    exact h.maxSize
  · show mm.physicalPageListSize < mm.physicalPageListMaxSize
    rw [hallocates.size, hallocates.maxSize]
    exact h.size_lt

theorem Inv.malloc2 (h : s.Inv) (hsize : size < 2 ^ 32) (hfits : s.mm.Fits size) :
    s.mm.malloc2 size = some (none, s.mm) ∨
      ∃ a mm, s.mm.malloc2 size = some (some a, mm) ∧ s.mm.HasRoom size ∧
        (⟨mm, (a, size) :: s.live, s.inuse⟩ : Heap).Inv := by
  rcases malloc2_spec hsize hfits h.size_lt h.bitMask_ne_zero with
    hnone | ⟨start, mm, heq, hal, hroom⟩
  · exact .inl hnone
  · exact .inr ⟨_, mm, heq, hroom, h.take hal hroom.1⟩

theorem Inv.free2 (h : s.Inv) {live : List (Nat × Nat)}
    (hlive : s.live.Perm ((address, size) :: live)) (hpage : InOnePage address size) :
    ∃ mm, s.mm.free2 address size = some mm ∧ (⟨mm, live, s.inuse⟩ : Heap).Inv := by
  have halign : address % 64 = 0 := (h.placed _ (hlive.mem_iff.2 List.mem_cons_self)).1
  -- the block first
  have hperm : s.blocks.Perm (blockOf (address, size) :: blockOf (listBlock s.mm) ::
      (live.map blockOf ++ s.inuse.map pageBlock)) := by
    have hblocks := (hlive.map blockOf).append_right (s.inuse.map pageBlock)
    exact (hblocks.cons _).trans (List.Perm.swap ..)
  have hexact := h.exact.perm hperm
  have hbelow : address / 64 + bitcount size ≤ 64 * s.mm.physicalPageListSize :=
    hexact.below _ List.mem_cons_self
  have hlt := h.size_lt
  obtain ⟨bitmap', heq, hbits⟩ := free2_spec s.mm halign hpage (by omega)
  refine ⟨_, heq, ⟨⟨hexact.give fun g _ => hbits g, ?_, ?_, h.list, h.maxSize⟩, h.size_lt⟩⟩
  · intro g hle hg
    have hout : ¬ (address / 64 ≤ g ∧ g < address / 64 + bitcount size) := by
      have hle' : 64 * s.mm.physicalPageListSize ≤ g := hle
      omega
    show bitmap'.testBit g = true
    rw [hbits, h.full g hle hg, decide_eq_false hout]
    rfl
  · exact fun x hx => h.placed x (hlive.mem_iff.2 (List.mem_cons_of_mem _ hx))

/-! ## Pages -/

/-- The heap with a page that was added, before the list grows. -/
def addPage (s : Heap) (inuse : Bool) : Heap :=
  ⟨s.mm.addPage inuse, s.live,
    if inuse then s.mm.physicalPageListSize :: s.inuse else s.inuse⟩

theorem testBit_addPage (mm : MemoryManager) (inuse : Bool) (g : Nat) :
    (mm.addPage inuse).bitmap.testBit g =
      if 64 * mm.physicalPageListSize ≤ g ∧ g < 64 * mm.physicalPageListSize + 64 then inuse
      else mm.bitmap.testBit g := by
  cases inuse with
  | false =>
    show (clearMask mm.bitmap ((2 ^ 64 - 1) <<< (64 * mm.physicalPageListSize))).testBit g = _
    rw [testBit_clearMask, testBit_range]
    split
    case isTrue hin => rw [decide_eq_true hin, Bool.not_true, Bool.and_false]
    case isFalse hout => rw [decide_eq_false hout, Bool.not_false, Bool.and_true]
  | true =>
    show (setRange mm.bitmap (64 * mm.physicalPageListSize) 64).testBit g = _
    rw [testBit_setRange]
    split
    case isTrue hin => rw [decide_eq_true hin, Bool.or_true]
    case isFalse hout => rw [decide_eq_false hout, Bool.or_false]

theorem Inv.addPage (h : s.Inv) (inuse : Bool) : (s.addPage inuse).Consistent := by
  have hbits := testBit_addPage s.mm inuse
  -- below the new page nothing changes
  have hexact : Exact (s.mm.addPage inuse).bitmap (64 * s.mm.physicalPageListSize) s.blocks := by
    refine h.exact.congr fun g hg => ?_
    rw [hbits, if_neg (by omega)]
  have hsize : 64 * (s.addPage inuse).mm.physicalPageListSize =
      64 * s.mm.physicalPageListSize + 64 := by
    show 64 * (s.mm.physicalPageListSize + 1) = _
    omega
  refine ⟨?_, ?_, h.placed, h.list, h.maxSize⟩
  · rw [hsize]
    cases inuse with
    | false =>
      refine hexact.grow (by omega) fun g hle hlt => ?_
      rw [hbits, if_pos ⟨hle, hlt⟩]
    | true =>
      have hset : ∀ g, 64 * s.mm.physicalPageListSize ≤ g →
          g < 64 * s.mm.physicalPageListSize + 64 →
          (s.mm.addPage true).bitmap.testBit g = true := by
        intro g hle hlt
        rw [hbits, if_pos ⟨hle, hlt⟩]
      apply (hexact.growSet hset).perm
      show (pageBlock s.mm.physicalPageListSize ::
          ((blockOf (listBlock s.mm) :: s.live.map blockOf) ++ s.inuse.map pageBlock)).Perm
        ((blockOf (listBlock s.mm) :: s.live.map blockOf) ++
          pageBlock s.mm.physicalPageListSize :: s.inuse.map pageBlock)
      exact List.perm_middle.symm
  · intro g hle hlt
    have hle' : 64 * s.mm.physicalPageListSize + 64 ≤ g := hsize ▸ hle
    show (s.mm.addPage inuse).bitmap.testBit g = true
    rw [hbits, if_neg (by omega)]
    exact h.full g (by omega) hlt

/-- The new size of the list: 0 when it does not fit an `unsigned int`, and from 56
    granules on it fills its pages. -/
theorem listSize_cases (k : Nat) :
    8 * (64 * 2 ^ k) * 2 % 2 ^ 32 = 0 ∨
      8 * (64 * 2 ^ k) * 2 % 2 ^ 32 = 8 * (64 * 2 ^ k * 2) ∧ 8 * (64 * 2 ^ k * 2) ≤ 2 ^ 31 ∧
        (56 ≤ bitcount (8 * (64 * 2 ^ k * 2)) → 8 * (64 * 2 ^ k * 2) % 4096 = 0) := by
  by_cases hk : 22 ≤ k
  · left
    obtain ⟨m, rfl⟩ := Nat.exists_eq_add_of_le hk
    rw [Nat.pow_add]
    omega
  · right
    have hpow : 2 ^ k ≤ 2 ^ 21 := Nat.pow_le_pow_right (by decide) (by omega)
    refine ⟨by omega, by omega, ?_⟩
    intro hbig
    rw [bitcount_eq] at hbig
    have htwo : 2 ≤ k := by
      by_contra hsmall
      have hle : 2 ^ k ≤ 2 ^ 1 := Nat.pow_le_pow_right (by decide) (by omega)
      omega
    obtain ⟨m, rfl⟩ := Nat.exists_eq_add_of_le htwo
    rw [Nat.pow_add]
    omega

theorem Consistent.growList (h : s.Consistent)
    (hsize : s.mm.physicalPageListSize = s.mm.physicalPageListMaxSize)
    (hroom : s.mm.HasRoom (8 * s.mm.physicalPageListMaxSize * 2 % 2 ^ 32))
    (hpage : InOnePage s.mm.allocationInfoList (8 * s.mm.physicalPageListMaxSize)) :
    ∃ mm, s.mm.growList = some mm ∧ (⟨mm, s.live, s.inuse⟩ : Heap).Inv := by
  obtain ⟨k, hk⟩ := h.maxSize
  have hnew : 8 * s.mm.physicalPageListMaxSize * 2 % 2 ^ 32 =
      8 * (s.mm.physicalPageListMaxSize * 2) ∧ 8 * (s.mm.physicalPageListMaxSize * 2) ≤ 2 ^ 31 ∧
      (56 ≤ bitcount (8 * (s.mm.physicalPageListMaxSize * 2)) →
        8 * (s.mm.physicalPageListMaxSize * 2) % 4096 = 0) := by
    rcases listSize_cases k with hzero | hnew
    · rw [hk, hzero] at hroom
      exact absurd hroom.1 (by decide)
    · rw [hk]
      exact hnew
  obtain ⟨hmod, hbound, hpages⟩ := hnew
  have hpos : 0 < s.mm.physicalPageListMaxSize := by
    have hpow := Nat.two_pow_pos k
    omega
  have halign : s.mm.allocationInfoList % 64 = 0 := h.list.1
  have hbelow : s.mm.allocationInfoList / 64 + bitcount (8 * s.mm.physicalPageListMaxSize) ≤
      64 * s.mm.physicalPageListSize := h.exact.below _ List.mem_cons_self
  rw [hmod] at hroom
  obtain ⟨start, copied, hmalloc, hal⟩ := malloc2_of_room hroom (by omega) hpages (by omega)
  obtain ⟨_, hfree, -⟩ := free2_spec copied halign hpage (by rw [hal.maxSize]; omega)
  -- the copy of the list, and the old list that is freed in it
  obtain ⟨bitmap', hfree', hbits'⟩ := free2_spec
    { bitmap := setRange (copied.bitmap % 2 ^ (64 * s.mm.physicalPageListMaxSize))
        (64 * s.mm.physicalPageListSize)
        (64 * (s.mm.physicalPageListMaxSize * 2 - s.mm.physicalPageListSize))
      allocationInfoList := 64 * start
      physicalPageListSize := s.mm.physicalPageListSize
      physicalPageListMaxSize := s.mm.physicalPageListMaxSize * 2 }
    halign hpage (by show _ ≤ 64 * (s.mm.physicalPageListMaxSize * 2); omega)
  simp only [testBit_setRange, Nat.testBit_mod_two_pow] at hbits'
  have hstart : 64 * start / 64 = start := by omega
  refine ⟨⟨bitmap', 64 * start, s.mm.physicalPageListSize, s.mm.physicalPageListMaxSize * 2⟩, ?_,
    ⟨⟨?_, ?_, h.placed, ?_, ⟨k + 1, ?_⟩⟩, ?_⟩⟩
  · unfold MemoryManager.growList
    simp only [hmod, hmalloc, Option.bind_eq_bind, Option.bind_some, hfree]
    exact hfree'
  · -- the new block is taken, then the old one is given back
    have htaken := h.exact.take (b := ⟨start, bitcount (8 * (s.mm.physicalPageListMaxSize * 2))⟩)
      hal.free hal.below fun g _ => hal.bits g
    have hgiven : ∀ g, g < 64 * s.mm.physicalPageListSize → bitmap'.testBit g =
        (copied.bitmap.testBit g && !decide (s.mm.allocationInfoList / 64 ≤ g ∧
          g < s.mm.allocationInfoList / 64 + bitcount (8 * s.mm.physicalPageListMaxSize))) := by
      intro g hg
      have hin : g < 64 * s.mm.physicalPageListMaxSize := by omega
      have hout : ¬ (64 * s.mm.physicalPageListSize ≤ g ∧ g < 64 * s.mm.physicalPageListSize +
          64 * (s.mm.physicalPageListMaxSize * 2 - s.mm.physicalPageListSize)) := by omega
      rw [hbits', decide_eq_true hin, decide_eq_false hout, Bool.true_and, Bool.or_false]
    show Exact bitmap' (64 * s.mm.physicalPageListSize)
      (⟨64 * start / 64, _⟩ :: (s.live.map blockOf ++ s.inuse.map pageBlock))
    rw [hstart]
    exact (htaken.perm (List.Perm.swap ..)).give hgiven
  · intro g hle hlt
    have hle' : 64 * s.mm.physicalPageListSize ≤ g := hle
    have hlt' : g < 64 * (s.mm.physicalPageListMaxSize * 2) := hlt
    have hin : 64 * s.mm.physicalPageListSize ≤ g ∧ g < 64 * s.mm.physicalPageListSize +
        64 * (s.mm.physicalPageListMaxSize * 2 - s.mm.physicalPageListSize) := by omega
    have hout : ¬ (s.mm.allocationInfoList / 64 ≤ g ∧ g < s.mm.allocationInfoList / 64 +
        bitcount (8 * s.mm.physicalPageListMaxSize)) := by omega
    show bitmap'.testBit g = true
    rw [hbits', decide_eq_true hin, decide_eq_false hout, Bool.or_true]
    rfl
  · refine ⟨?_, hroom.1, ?_⟩
    · show 64 * start % 64 = 0
      omega
    · intro hbig
      have haligned := hal.aligned hbig
      show 64 * start % 4096 = 0
      omega
  · show s.mm.physicalPageListMaxSize * 2 = 64 * 2 ^ (k + 1)
    rw [hk, Nat.pow_succ, Nat.mul_assoc]
  · show s.mm.physicalPageListSize < s.mm.physicalPageListMaxSize * 2
    omega

/-! ## Runs -/

/-- The call reaches none of the cases in which the code loses count: the block
    that it frees lies in one page, the one that it makes fits, and when the list
    grows it finds room and lies in one page. -/
def Keeps (s : Heap) : HeapInput → Prop
  | .addPhysicalPageToDBVM table inuse =>
    table = false → s.mm.physicalPageListMaxSize ≤ s.mm.physicalPageListSize + 1 →
      (s.mm.addPage inuse).HasRoom (8 * s.mm.physicalPageListMaxSize * 2 % 2 ^ 32) ∧
        InOnePage s.mm.allocationInfoList (8 * s.mm.physicalPageListMaxSize)
  | .malloc2 size => s.mm.Fits size.toNat
  | .free2 address size => (address, size.toNat) ∈ s.live → InOnePage address size.toNat
  | .realloc2 oldaddress oldsize newsize =>
    (oldaddress, oldsize.toNat) ∈ s.live → s.mm.Fits newsize.toNat ∧
      (s.mm.HasRoom newsize.toNat → InOnePage oldaddress oldsize.toNat)

theorem inv_addPhysicalPage (h : s.Inv) (table inuse : Bool)
    (hkeeps : s.Keeps (.addPhysicalPageToDBVM table inuse)) :
    ∃ s', s.step (.addPhysicalPageToDBVM table inuse) = some s' ∧ s'.Inv := by
  cases table with
  | true => exact ⟨s, rfl, h⟩
  | false =>
    have hadded := h.addPage inuse
    have hstep : s.step (.addPhysicalPageToDBVM false inuse) =
        (if s.mm.physicalPageListMaxSize ≤ s.mm.physicalPageListSize + 1
          then (s.mm.addPage inuse).growList else some (s.mm.addPage inuse)).bind
        fun mm => some ⟨mm, (s.addPage inuse).live, (s.addPage inuse).inuse⟩ := by
      cases inuse <;> rfl
    rw [hstep]
    have hlt := h.size_lt
    split
    case isTrue hgrow =>
      obtain ⟨hroom, hpage⟩ := hkeeps rfl hgrow
      have hsize : (s.addPage inuse).mm.physicalPageListSize =
          (s.addPage inuse).mm.physicalPageListMaxSize := by
        show s.mm.physicalPageListSize + 1 = s.mm.physicalPageListMaxSize
        omega
      obtain ⟨mm, heq, hinv⟩ := hadded.growList hsize hroom hpage
      have heq' : (s.mm.addPage inuse).growList = some mm := heq
      rw [heq']
      exact ⟨_, rfl, hinv⟩
    case isFalse hsmall =>
      exact ⟨_, rfl, hadded, Nat.not_le.1 hsmall⟩

theorem inv_step (input : HeapInput) (h : s.Inv) (hkeeps : s.Keeps input) :
    ∃ s', s.step input = some s' ∧ s'.Inv := by
  cases input with
  | addPhysicalPageToDBVM table inuse => exact inv_addPhysicalPage h table inuse hkeeps
  | malloc2 size =>
    rcases h.malloc2 size.toNat_lt hkeeps with hnone | ⟨a, mm, heq, -, hinv⟩
    · refine ⟨s, ?_, h⟩
      simp only [step, hnone, Option.bind_eq_bind, Option.bind_some, keep]
      rfl
    · refine ⟨_, ?_, hinv⟩
      simp only [step, heq, Option.bind_eq_bind, Option.bind_some, keep]
      rfl
  | free2 address size =>
    by_cases hmem : (address, size.toNat) ∈ s.live
    · obtain ⟨mm, heq, hinv⟩ := h.free2 (List.perm_cons_erase hmem) (hkeeps hmem)
      refine ⟨_, ?_, hinv⟩
      simp only [step, if_pos hmem, heq, Option.bind_eq_bind, Option.bind_some]
      rfl
    · exact ⟨s, if_neg hmem, h⟩
  | realloc2 oldaddress oldsize newsize =>
    by_cases hmem : (oldaddress, oldsize.toNat) ∈ s.live
    · obtain ⟨hfits, hpage⟩ := hkeeps hmem
      rcases h.malloc2 newsize.toNat_lt hfits with hnone | ⟨a, mm, heq, hroom, hinv⟩
      · refine ⟨s, ?_, h⟩
        simp only [step, if_pos hmem, MemoryManager.realloc2, hnone, Option.bind_eq_bind,
          Option.bind_some]
        rfl
      · -- the new block is live while the old one is freed
        have hperm : ((a, newsize.toNat) :: s.live).Perm ((oldaddress, oldsize.toNat) ::
            (a, newsize.toNat) :: s.live.erase (oldaddress, oldsize.toNat)) :=
          ((List.perm_cons_erase hmem).cons _).trans (List.Perm.swap ..)
        obtain ⟨mm', heq', hinv'⟩ := hinv.free2 hperm (hpage hroom)
        have hfree : mm.free2 oldaddress oldsize.toNat = some mm' := heq'
        refine ⟨_, ?_, hinv'⟩
        simp only [step, if_pos hmem, MemoryManager.realloc2, heq, hfree, Option.bind_eq_bind,
          Option.bind_some]
        rfl
    · exact ⟨s, if_neg hmem, h⟩

theorem testBit_initial (g : Nat) :
    MemoryManager.initial.bitmap.testBit g = decide (g < 8 ∨ 64 ≤ g ∧ g < 4096) := by
  have heq : MemoryManager.initial.bitmap = setRange (setRange 0 0 8) 64 4032 := by decide +kernel
  rw [heq, testBit_setRange, testBit_setRange, Nat.zero_testBit, Bool.false_or, ← Bool.decide_or]
  have hiff : (0 ≤ g ∧ g < 0 + 8 ∨ 64 ≤ g ∧ g < 64 + 4032) ↔ g < 8 ∨ 64 ≤ g ∧ g < 4096 := by omega
  exact decide_eq_decide.2 hiff

theorem inv_initial : initial.Inv := by
  refine ⟨⟨⟨List.pairwise_singleton .., ?_, ?_⟩, ?_, nofun, ⟨rfl, by decide, nofun⟩, 0, rfl⟩,
    by decide⟩
  · intro b hb
    rw [List.mem_singleton.1 hb]
    decide
  · intro g hg
    have hlt : g < 64 := hg
    show MemoryManager.initial.bitmap.testBit g = true ↔ ∃ b ∈ [(⟨0, 8⟩ : Block)], b.Covers g
    rw [testBit_initial, decide_eq_true_eq, List.exists_mem_cons_iff]
    constructor
    · intro hset
      exact .inl ⟨Nat.zero_le g, by show g < 0 + 8; omega⟩
    · rintro (⟨-, hcov⟩ | ⟨_, hnone, -⟩)
      · exact .inl (Nat.lt_of_lt_of_eq hcov (Nat.zero_add 8))
      · exact absurd hnone List.not_mem_nil
  · intro g hle hlt
    have hle' : 64 ≤ g := hle
    have hlt' : g < 4096 := hlt
    show MemoryManager.initial.bitmap.testBit g = true
    rw [testBit_initial, decide_eq_true (.inr ⟨hle', hlt'⟩)]

/-! ## Bytes -/

/-- The byte is one of the block. -/
def Within (x : Nat × Nat) (byte : Nat) : Prop := x.1 ≤ byte ∧ byte < x.1 + x.2

/-- The granule holds a byte of the block. -/
def Touches (x : Nat × Nat) (g : Nat) : Prop := ∃ byte, Within x byte ∧ byte / 64 = g

/-- The live blocks are apart and in pages that were added free, and the bits of
    the pages are those of the live blocks, of the list and of pages in use. -/
structure Correct (s : Heap) : Prop where
  apart : s.live.Pairwise fun x y => ∀ byte, Within x byte → ¬ Within y byte
  inside : ∀ x ∈ s.live, ∀ byte, Within x byte →
    byte / 4096 < s.mm.physicalPageListSize ∧ byte / 4096 ∉ s.inuse
  bits : ∀ g, g < 64 * s.mm.physicalPageListSize → (s.mm.bitmap.testBit g = true ↔
    (∃ x ∈ s.live, Touches x g) ∨ Touches (listBlock s.mm) g ∨ g / 64 ∈ s.inuse)

theorem covers_iff_touches {x : Nat × Nat} (h : Placed x) (g : Nat) :
    (blockOf x).Covers g ↔ Touches x g := by
  obtain ⟨halign, hpos, -⟩ := h
  unfold Touches Within
  show x.1 / 64 ≤ g ∧ g < x.1 / 64 + bitcount x.2 ↔ _
  rw [bitcount_eq] at hpos ⊢
  constructor
  · rintro ⟨hle, hlt⟩
    exact ⟨64 * g, by omega, by omega⟩
  · rintro ⟨byte, hbyte, rfl⟩
    omega

theorem covers_pageBlock (page g : Nat) : (pageBlock page).Covers g ↔ g / 64 = page := by
  unfold Block.Covers pageBlock
  simp only
  omega

theorem Inv.correct (h : s.Inv) : s.Correct := by
  have hcovers : ∀ x ∈ s.live, ∀ byte, Within x byte → (blockOf x).Covers (byte / 64) :=
    fun x hx byte hbyte => (covers_iff_touches (h.placed x hx) _).2 ⟨byte, hbyte, rfl⟩
  have hapart := (List.pairwise_cons.1 h.exact.apart).2
  rw [List.pairwise_append] at hapart
  obtain ⟨hlive, -, hinuse⟩ := hapart
  refine ⟨?_, ?_, ?_⟩
  · rw [List.pairwise_map] at hlive
    refine hlive.imp_of_mem ?_
    intro x y hx hy hxy byte hbyte hbyte'
    exact hxy (byte / 64) (hcovers x hx byte hbyte) (hcovers y hy byte hbyte')
  · intro x hx byte hbyte
    have hcov := hcovers x hx byte hbyte
    constructor
    · have hmem : blockOf x ∈ s.blocks :=
        List.mem_cons_of_mem _ (List.mem_append_left _ (List.mem_map_of_mem hx))
      have hbelow := h.exact.below _ hmem
      have hlt := hcov.2
      omega
    · intro hpage
      refine hinuse _ (List.mem_map_of_mem hx) _ (List.mem_map_of_mem hpage) _ hcov ?_
      rw [covers_pageBlock]
      omega
  · intro g hg
    rw [h.exact.bits g hg, blocks, List.exists_mem_cons_iff, covers_iff_touches h.list,
      or_left_comm]
    refine or_congr_right ?_
    constructor
    · rintro ⟨b, hb, hcov⟩
      rcases List.mem_append.1 hb with hb | hb
      · obtain ⟨x, hx, rfl⟩ := List.mem_map.1 hb
        exact .inl ⟨x, hx, (covers_iff_touches (h.placed x hx) g).1 hcov⟩
      · obtain ⟨page, hpage, rfl⟩ := List.mem_map.1 hb
        rw [covers_pageBlock] at hcov
        exact .inr (hcov ▸ hpage)
    · rintro (⟨x, hx, htouch⟩ | hpage)
      · exact ⟨blockOf x, List.mem_append_left _ (List.mem_map_of_mem hx),
          (covers_iff_touches (h.placed x hx) g).2 htouch⟩
      · exact ⟨pageBlock (g / 64), List.mem_append_right _ (List.mem_map_of_mem hpage),
          (covers_pageBlock _ g).2 rfl⟩

/-- A page is added, and used for a block that fills it. -/
def pageOfBlock : List HeapInput :=
  [.addPhysicalPageToDBVM false false, .malloc2 4096, .malloc2 100, .realloc2 512 100 300,
    .free2 4096 4096]

/-- The second block lies in two pages when it is freed. -/
def freeTwoPages : List HeapInput :=
  [.addPhysicalPageToDBVM false false, .malloc2 3520, .malloc2 1280, .free2 4032 1280]

def overLastPage : List HeapInput :=
  [.addPhysicalPageToDBVM false false, .addPhysicalPageToDBVM false false, .malloc2 4096,
    .malloc2 4096, .free2 4096 4096, .malloc2 4160]

end Heap

end CheatEngine.Dbvm
