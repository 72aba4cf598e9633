/-
  CheatEngine.Lib.Bitmap

  Bitmaps as natural numbers, and blocks of bits in them.  `Exact` says that the
  set bits of a bitmap are those of a list of blocks that are apart from each
  other; taking a free range, giving a block back and growing the bitmap keep it.
-/
import Mathlib.Algebra.Group.Nat.Defs
import Mathlib.Data.List.Basic
import Mathlib.Data.List.Perm.Basic

namespace CheatEngine.Lib

def setRange (bitmap start count : Nat) : Nat := bitmap ||| ((2 ^ count - 1) <<< start)

def clearMask (bitmap mask : Nat) : Nat := bitmap ^^^ (bitmap &&& mask)

/-- The bits are clear. -/
def FreeRange (bitmap start count : Nat) : Prop :=
  ∀ g, start ≤ g → g < start + count → bitmap.testBit g = false

theorem testBit_range (start count g : Nat) :
    ((2 ^ count - 1) <<< start).testBit g = decide (start ≤ g ∧ g < start + count) := by
  rw [Nat.testBit_shiftLeft, Nat.testBit_two_pow_sub_one]
  by_cases hle : start ≤ g
  · have hiff : g - start < count ↔ g < start + count := by omega
    simp [hle, hiff]
  · simp [hle]

theorem testBit_setRange (bitmap start count g : Nat) :
    (setRange bitmap start count).testBit g =
      (bitmap.testBit g || decide (start ≤ g ∧ g < start + count)) := by
  rw [setRange, Nat.testBit_or, testBit_range]

theorem testBit_clearMask (bitmap mask g : Nat) :
    (clearMask bitmap mask).testBit g = (bitmap.testBit g && !mask.testBit g) := by
  rw [clearMask, Nat.testBit_xor, Nat.testBit_and]
  cases bitmap.testBit g <;> cases mask.testBit g <;> rfl

theorem and_range_eq_zero (bitmap start count : Nat) :
    bitmap &&& ((2 ^ count - 1) <<< start) = 0 ↔ FreeRange bitmap start count := by
  constructor
  · intro hzero g hle hlt
    have hbit := congrArg (Nat.testBit · g) hzero
    simp only [Nat.testBit_and, testBit_range, Nat.zero_testBit] at hbit
    simpa [hle, hlt] using hbit
  · intro hfree
    apply Nat.eq_of_testBit_eq
    intro g
    rw [Nat.testBit_and, testBit_range, Nat.zero_testBit]
    by_cases hin : start ≤ g ∧ g < start + count
    · rw [hfree g hin.1 hin.2, Bool.false_and]
    · rw [decide_eq_false hin, Bool.and_false]

theorem freeRange_window {bitmap offset width start count : Nat} (hwidth : start + count ≤ width) :
    FreeRange ((bitmap >>> offset) % 2 ^ width) start count ↔
      FreeRange bitmap (offset + start) count := by
  constructor
  · intro hfree g hle hlt
    have hbit := hfree (g - offset) (by omega) (by omega)
    rw [Nat.testBit_mod_two_pow, Nat.testBit_shiftRight] at hbit
    have hin : g - offset < width := by omega
    have hg : offset + (g - offset) = g := by omega
    rwa [decide_eq_true hin, Bool.true_and, hg] at hbit
  · intro hfree g hle hlt
    rw [Nat.testBit_mod_two_pow, Nat.testBit_shiftRight, hfree (offset + g) (by omega) (by omega),
      Bool.and_false]

/-! ## Blocks -/

/-- `count` bits from `start` on. -/
structure Block where
  start : Nat
  count : Nat
  deriving DecidableEq, Repr

/-- The bit is in the block. -/
def Block.Covers (b : Block) (g : Nat) : Prop := b.start ≤ g ∧ g < b.start + b.count

/-- No bit is in both blocks. -/
def Block.Apart (b c : Block) : Prop := ∀ g, b.Covers g → ¬ c.Covers g

theorem Block.Apart.symm {b c : Block} (h : b.Apart c) : c.Apart b := fun g hc hb => h g hb hc

/-- The set bits below `bound` are those of the blocks, which are below it and
    apart from each other. -/
structure Exact (bitmap bound : Nat) (blocks : List Block) : Prop where
  apart : blocks.Pairwise Block.Apart
  below : ∀ b ∈ blocks, b.start + b.count ≤ bound
  bits : ∀ g, g < bound → (bitmap.testBit g = true ↔ ∃ b ∈ blocks, b.Covers g)

variable {bitmap bitmap' bound : Nat} {blocks blocks' : List Block} {b : Block}

theorem Exact.congr (h : Exact bitmap bound blocks)
    (hbits : ∀ g, g < bound → bitmap'.testBit g = bitmap.testBit g) :
    Exact bitmap' bound blocks where
  apart := h.apart
  below := h.below
  bits g hg := by
    rw [hbits g hg]
    exact h.bits g hg

theorem Exact.perm (h : Exact bitmap bound blocks) (hperm : blocks.Perm blocks') :
    Exact bitmap bound blocks' where
  apart := h.apart.perm hperm fun hapart => hapart.symm
  below b hb := h.below b (hperm.mem_iff.2 hb)
  bits g hg := by
    rw [h.bits g hg]
    exact exists_congr fun b => and_congr_left' hperm.mem_iff

theorem Exact.take (h : Exact bitmap bound blocks) (hfree : FreeRange bitmap b.start b.count)
    (hbelow : b.start + b.count ≤ bound)
    (hbits : ∀ g, g < bound → bitmap'.testBit g =
      (setRange bitmap b.start b.count).testBit g) :
    Exact bitmap' bound (b :: blocks) where
  apart := by
    refine List.pairwise_cons.2 ⟨?_, h.apart⟩
    intro c hc g hb hcov
    have hlt : g < bound := by
      have hin := hb.2
      omega
    have hset := (h.bits g hlt).2 ⟨c, hc, hcov⟩
    rw [hfree g hb.1 hb.2] at hset
    exact Bool.false_ne_true hset
  below c hc := by
    rcases List.mem_cons.1 hc with rfl | hc
    · exact hbelow
    · exact h.below c hc
  bits g hg := by
    rw [hbits g hg, testBit_setRange, Bool.or_eq_true, h.bits g hg, decide_eq_true_eq,
      List.exists_mem_cons_iff, or_comm]
    exact Iff.rfl

theorem Exact.give (h : Exact bitmap bound (b :: blocks))
    (hbits : ∀ g, g < bound → bitmap'.testBit g =
      (bitmap.testBit g && !decide (b.start ≤ g ∧ g < b.start + b.count))) :
    Exact bitmap' bound blocks where
  apart := (List.pairwise_cons.1 h.apart).2
  below c hc := h.below c (List.mem_cons_of_mem b hc)
  bits g hg := by
    have hold := h.bits g hg
    rw [List.exists_mem_cons_iff] at hold
    rw [hbits g hg, Bool.and_eq_true, hold, Bool.not_eq_true', decide_eq_false_iff_not]
    constructor
    · rintro ⟨hb | hrest, hnot⟩
      · exact absurd hb hnot
      · exact hrest
    · rintro ⟨c, hc, hcov⟩
      refine ⟨.inr ⟨c, hc, hcov⟩, ?_⟩
      intro hb
      exact (List.pairwise_cons.1 h.apart).1 c hc g hb hcov

theorem Exact.grow (h : Exact bitmap bound blocks) {bound' : Nat} (hle : bound ≤ bound')
    (hclear : ∀ g, bound ≤ g → g < bound' → bitmap.testBit g = false) :
    Exact bitmap bound' blocks where
  apart := h.apart
  below c hc := Nat.le_trans (h.below c hc) hle
  bits g hg := by
    by_cases hold : g < bound
    · exact h.bits g hold
    · rw [hclear g (by omega) hg]
      constructor
      · exact fun hcon => absurd hcon Bool.false_ne_true
      · rintro ⟨c, hc, hcov⟩
        have hbelow := h.below c hc
        have hin := hcov.2
        omega

theorem Exact.growSet (h : Exact bitmap bound blocks) {count : Nat}
    (hset : ∀ g, bound ≤ g → g < bound + count → bitmap.testBit g = true) :
    Exact bitmap (bound + count) (⟨bound, count⟩ :: blocks) where
  apart := by
    refine List.pairwise_cons.2 ⟨?_, h.apart⟩
    intro c hc g hb hcov
    have hbelow := h.below c hc
    have hin := hcov.2
    have hout := hb.1
    simp only at hout
    omega
  below c hc := by
    rcases List.mem_cons.1 hc with rfl | hc
    · exact Nat.le_refl _
    · exact Nat.le_trans (h.below c hc) (Nat.le_add_right ..)
  bits g hg := by
    rw [List.exists_mem_cons_iff]
    by_cases hold : g < bound
    · rw [h.bits g hold]
      constructor
      · exact .inr
      · rintro (hb | hrest)
        · exact absurd hb.1 (Nat.not_le.2 hold)
        · exact hrest
    · have hle : bound ≤ g := Nat.not_lt.1 hold
      exact iff_of_true (hset g hle hg) (.inl ⟨hle, hg⟩)

end CheatEngine.Lib
