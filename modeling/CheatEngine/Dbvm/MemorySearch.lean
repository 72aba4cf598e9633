/-
  CheatEngine.Dbvm.MemorySearch

  What `malloc2` finds and `free2` clears.  A small block is a free range wherever
  it starts, so it may lie in two pages, but `free2` only clears bits of its first
  page.  A large block starts at a free page; the last page of it is not checked
  when the block does not fill it, and bits of that page are only set for a rest
  of at most 63 granules.
-/
import CheatEngine.Dbvm.MemoryManager
import Mathlib.Data.Nat.Find

namespace CheatEngine.Dbvm

open CheatEngine.Lib

theorem bitcount_eq (size : Nat) : bitcount size = (size + 63) / 64 := by
  unfold bitcount
  split <;> omega

theorem bitcount_split (size : Nat) :
    bitcount size = 64 * (size / 4096) + bitcount (size % 4096) := by
  rw [bitcount_eq, bitcount_eq]
  omega

theorem minpagecount_eq (size : Nat) :
    MemoryManager.minpagecount size = (size + 4095) / 4096 := by
  unfold MemoryManager.minpagecount
  split <;> omega

theorem lowMask_of_lt {count : Nat} (h : count < 64) : lowMask count = 2 ^ count - 1 := by
  rw [lowMask, Nat.mod_eq_of_lt h]

namespace MemoryManager

variable {s : MemoryManager} {count size i : Nat}

/-! ## The search for a small block -/

theorem range_lt_two_pow {start width : Nat} (h : count + start ≤ width) :
    (2 ^ count - 1) <<< start < 2 ^ width := by
  have hpos : 0 < 2 ^ count := Nat.two_pow_pos count
  have hlt : 2 ^ count - 1 < 2 ^ count := by omega
  calc (2 ^ count - 1) <<< start = (2 ^ count - 1) * 2 ^ start := Nat.shiftLeft_eq ..
    _ < 2 ^ count * 2 ^ start := Nat.mul_lt_mul_of_pos_right hlt (Nat.two_pow_pos start)
    _ = 2 ^ (count + start) := (Nat.pow_add ..).symm
    _ ≤ 2 ^ width := Nat.pow_le_pow_right (by decide) h

theorem findShift_spec (p fuel j : Nat) (hj : j + fuel = 8) (hcount : count < 56) :
    (∃ j', j' < 8 ∧ findShift p fuel j ((2 ^ count - 1) <<< j) =
        some (j', (2 ^ count - 1) <<< j') ∧ FreeRange p j' count) ∨
      findShift p fuel j ((2 ^ count - 1) <<< j) = none ∧
        ∀ j', j ≤ j' → j' < 8 → ¬ FreeRange p j' count := by
  induction fuel generalizing j with
  | zero => exact .inr ⟨rfl, fun j' hle hlt => by omega⟩
  | succ fuel ih =>
    rw [findShift]
    by_cases hfree : FreeRange p j count
    · left
      refine ⟨j, by omega, ?_, hfree⟩
      rw [if_neg (not_not.2 ((and_range_eq_zero p j count).2 hfree))]
    · have hmask : ((2 ^ count - 1) <<< j) <<< 1 % 2 ^ 64 = (2 ^ count - 1) <<< (j + 1) := by
        rw [← Nat.shiftLeft_add]
        exact Nat.mod_eq_of_lt (range_lt_two_pow (by omega))
      rw [if_pos (fun hzero => hfree ((and_range_eq_zero p j count).1 hzero)), hmask]
      rcases ih (j + 1) (by omega) with hfound | ⟨hnone, hall⟩
      · exact .inl hfound
      · refine .inr ⟨hnone, ?_⟩
        intro j' hle hlt
        by_cases heq : j' = j
        · rw [heq]
          exact hfree
        · exact hall j' (by omega) hlt

theorem testBit_of_byte_full {g : Nat} (hfull : s.byte i = 0xff) (hle : 8 * i ≤ g)
    (hlt : g < 8 * i + 8) : s.bitmap.testBit g = true := by
  have hbit := congrArg (Nat.testBit · (g - 8 * i)) hfull
  have hmask : (0xff : Nat) = 2 ^ 8 - 1 := rfl
  have hin : g - 8 * i < 8 := by omega
  have hg : 8 * i + (g - 8 * i) = g := by omega
  simp only [byte, hmask, Nat.testBit_two_pow_sub_one] at hbit
  rwa [Nat.testBit_mod_two_pow, Nat.testBit_shiftRight, hg, decide_eq_true hin,
    Bool.true_and] at hbit

theorem findSmall_spec (s : MemoryManager) (fuel i : Nat) (hpos : 0 < count) (hcount : count < 56) :
    (∃ i' j, i' < i + fuel ∧ j < 8 ∧ s.findSmall (2 ^ count - 1) fuel i =
        some (i', j, (2 ^ count - 1) <<< j) ∧ FreeRange s.bitmap (8 * i' + j) count) ∨
      s.findSmall (2 ^ count - 1) fuel i = none ∧
        ∀ g, 8 * i ≤ g → g < 8 * (i + fuel) → ¬ FreeRange s.bitmap g count := by
  induction fuel generalizing i with
  | zero => exact .inr ⟨rfl, fun g hle hlt => by omega⟩
  | succ fuel ih =>
    -- nothing starts in byte `i`: go on with the next one
    have hnext : (∀ j, j < 8 → ¬ FreeRange s.bitmap (8 * i + j) count) →
        s.findSmall (2 ^ count - 1) (fuel + 1) i = s.findSmall (2 ^ count - 1) fuel (i + 1) →
        (∃ i' j, i' < i + (fuel + 1) ∧ j < 8 ∧ s.findSmall (2 ^ count - 1) (fuel + 1) i =
          some (i', j, (2 ^ count - 1) <<< j) ∧ FreeRange s.bitmap (8 * i' + j) count) ∨
        s.findSmall (2 ^ count - 1) (fuel + 1) i = none ∧
          ∀ g, 8 * i ≤ g → g < 8 * (i + (fuel + 1)) → ¬ FreeRange s.bitmap g count := by
      intro hbyte heq
      rw [heq]
      rcases ih (i + 1) with ⟨i', j, hi', hj, hfound, hfree⟩ | ⟨hnone, hall⟩
      · exact .inl ⟨i', j, by omega, hj, hfound, hfree⟩
      · refine .inr ⟨hnone, ?_⟩
        intro g hle hlt
        by_cases hin : g < 8 * i + 8
        · have hg : 8 * i + (g - 8 * i) = g := by omega
          rw [← hg]
          exact hbyte (g - 8 * i) (by omega)
        · exact hall g (by omega) (by omega)
    by_cases hfull : s.byte i = 0xff
    · apply hnext
      · intro j hj hfree
        have hset := testBit_of_byte_full hfull (g := 8 * i + j) (by omega) (by omega)
        rw [hfree (8 * i + j) (by omega) (by omega)] at hset
        exact Bool.false_ne_true hset
      · rw [findSmall, if_neg (not_not.2 hfull)]
    · have hstart : 2 ^ count - 1 = (2 ^ count - 1) <<< 0 := rfl
      rcases findShift_spec (s.window i) 8 0 rfl hcount with ⟨j, hj, hfound, hfree⟩ | ⟨hnone, hall⟩
      · left
        refine ⟨i, j, by omega, hj, ?_, (freeRange_window (by omega)).1 hfree⟩
        rw [findSmall, if_pos hfull]
        rw [← hstart] at hfound
        rw [hfound]
      · apply hnext
        · intro j hj hfree
          exact hall j (by omega) hj ((freeRange_window (by omega)).2 hfree)
        · rw [findSmall, if_pos hfull]
          rw [← hstart] at hnone
          rw [hnone]

/-- `malloc2` took `count` free granules from `start` on. -/
structure Allocates (s : MemoryManager) (count start : Nat) (s' : MemoryManager) : Prop where
  free : FreeRange s.bitmap start count
  below : start + count ≤ 64 * s.physicalPageListSize
  bits : ∀ g, s'.bitmap.testBit g = (setRange s.bitmap start count).testBit g
  list : s'.allocationInfoList = s.allocationInfoList
  size : s'.physicalPageListSize = s.physicalPageListSize
  maxSize : s'.physicalPageListMaxSize = s.physicalPageListMaxSize
  aligned : 56 ≤ count → start % 64 = 0

theorem mallocSmall_spec (s : MemoryManager) (hpos : 0 < count) (hcount : count < 56) :
    (∃ start s', s.mallocSmall count = (some (64 * start), s') ∧ Allocates s count start s' ∧
        start < 64 * (s.physicalPageListSize - 1)) ∨
      s.mallocSmall count = (none, s) ∧
        ∀ g, g < 64 * (s.physicalPageListSize - 1) → ¬ FreeRange s.bitmap g count := by
  have hmask : lowMask count = 2 ^ count - 1 := lowMask_of_lt (by omega)
  rcases findSmall_spec s (s.physicalPageListSize * 8 - 8) 0 hpos hcount with
    ⟨i, j, hi, hj, hfound, hfree⟩ | ⟨hnone, hall⟩
  · left
    refine ⟨8 * i + j, { s with bitmap := s.bitmap ||| (((2 ^ count - 1) <<< j) <<< (8 * i)) }, ?_,
      ⟨hfree, by omega, ?_, rfl, rfl, rfl, by omega⟩, by omega⟩
    · have haddress : i * (4096 / 8) + j * 64 = 64 * (8 * i + j) := by omega
      rw [mallocSmall, hmask, hfound]
      simp only [haddress]
    · intro g
      rw [setRange, ← Nat.shiftLeft_add, Nat.add_comm j]
  · right
    refine ⟨?_, fun g hg => hall g (by omega) (by omega)⟩
    rw [mallocSmall, hmask, hnone]

/-! ## The search for a large block -/

theorem bitMask_eq_zero (s : MemoryManager) (j : Nat) :
    s.bitMask j = 0 ↔ FreeRange s.bitmap (64 * j) 64 := by
  have hwindow : FreeRange (s.bitMask j) 0 64 ↔ FreeRange s.bitmap (64 * j + 0) 64 :=
    freeRange_window (Nat.le_refl 64)
  rw [Nat.add_zero] at hwindow
  rw [← hwindow]
  constructor
  · intro hzero g _ _
    rw [hzero, Nat.zero_testBit]
  · intro hfree
    apply Nat.eq_of_testBit_eq
    intro g
    rw [Nat.zero_testBit]
    by_cases hg : g < 64
    · exact hfree g (Nat.zero_le g) (by omega)
    · rw [bitMask, Nat.testBit_mod_two_pow, decide_eq_false hg, Bool.false_and]

/-- The first `n` pages from page `i` on are free. -/
def Run (s : MemoryManager) (n i : Nat) : Prop := ∀ k, k < n → s.bitMask (i + k) = 0

/-- The pages that `malloc2` checks for a large block: those that it fills, and at
    least one.  The size that is left is an `int`, and negative for a size of 2 GB
    and a page or more. -/
def checkedPages (size : Nat) : Nat := if size < 2 ^ 31 + 4096 then max 1 (size / 4096) else 1

theorem one_le_checkedPages (size : Nat) : 1 ≤ checkedPages size := by
  unfold checkedPages
  split <;> omega

theorem checkedPages_le_minpagecount (hpos : 0 < size) : checkedPages size ≤ minpagecount size := by
  rw [checkedPages, minpagecount_eq]
  split <;> omega

theorem usable_of_run (hi : s.bitMask i = 0)
    (hin : i + minpagecount size ≤ s.physicalPageListMaxSize) (fuel k : Nat)
    (hk : k ≤ minpagecount size) (hfuel : minpagecount size < k + fuel)
    (hrun : ∀ k', k ≤ k' → k' < size / 4096 → s.bitMask (i + k') = 0) :
    s.usable size i fuel (i + k) (size - 4096 * k) = some true := by
  induction fuel generalizing k with
  | zero => omega
  | succ fuel ih =>
    rw [usable]
    by_cases hdone : (size : Int) - 4096 * k ≤ 0
    · rw [if_pos hdone]
    · have hlt : k < minpagecount size := by
        rw [minpagecount_eq]
        omega
      have hbound : ¬ s.physicalPageListMaxSize ≤ i + k := by omega
      rw [if_neg hdone, if_neg hbound]
      by_cases hfree : s.bitMask (i + k) = 0
      · have hstep := ih (k + 1) hlt (by omega) fun k' hle hlt' => hrun k' (by omega) hlt'
        have hleft : (size : Int) - 4096 * k - 4096 = size - 4096 * (k + 1 : Nat) := by omega
        rw [if_neg (not_not.2 hfree), hleft]
        exact hstep
      · -- only the last page, which the block does not fill, may be occupied
        have hlast : ¬ k < size / 4096 := fun hcon => hfree (hrun k (Nat.le_refl k) hcon)
        have hpartial : i + k = i + minpagecount size - 1 ∧ (size : Int) - 4096 * k < 4096 := by
          rw [minpagecount_eq] at hlt ⊢
          omega
        rw [if_pos hfree, if_pos hpartial, hi, Nat.and_zero]
        rfl

theorem usable_of_blocked (k₀ : Nat) (hk₀ : k₀ < size / 4096) (hblocked : s.bitMask (i + k₀) ≠ 0)
    (hin : i + k₀ < s.physicalPageListMaxSize) (fuel k : Nat) (hk : k ≤ k₀) (hfuel : k₀ < k + fuel)
    (hrun : ∀ k', k ≤ k' → k' < k₀ → s.bitMask (i + k') = 0) :
    s.usable size i fuel (i + k) (size - 4096 * k) = some false := by
  induction fuel generalizing k with
  | zero => omega
  | succ fuel ih =>
    rw [usable]
    have hleft : ¬ (size : Int) - 4096 * k ≤ 0 := by omega
    have hbound : ¬ s.physicalPageListMaxSize ≤ i + k := by omega
    rw [if_neg hleft, if_neg hbound]
    by_cases heq : k = k₀
    · subst heq
      have hfull : ¬ (i + k = i + minpagecount size - 1 ∧ (size : Int) - 4096 * k < 4096) := by
        omega
      rw [if_pos hblocked, if_neg hfull]
    · have hfree := hrun k (Nat.le_refl k) (by omega)
      have hnext : (size : Int) - 4096 * k - 4096 = size - 4096 * (k + 1 : Nat) := by omega
      rw [if_neg (not_not.2 hfree), hnext]
      exact ih (k + 1) (by omega) (by omega) fun k' hle hlt => hrun k' (by omega) hlt

theorem toInt32_sub (hsize : size < 2 ^ 31 + 4096) :
    toInt32 (size + 2 ^ 32 - 4096) = (size : Int) - 4096 * (1 : Nat) := by
  unfold toInt32
  split <;> omega

theorem toInt32_sub_of_le (hsize : 2 ^ 31 + 4096 ≤ size) (hlt : size < 2 ^ 32) :
    toInt32 (size + 2 ^ 32 - 4096) ≤ 0 := by
  unfold toInt32
  split <;> omega

/-- The first page that is occupied, of those from page `i` on. -/
theorem exists_blocked {n : Nat} (hno : ¬ s.Run n i) (hi : s.bitMask i = 0) :
    ∃ k₀, 1 ≤ k₀ ∧ k₀ < n ∧ s.bitMask (i + k₀) ≠ 0 ∧ ∀ k, k < k₀ → s.bitMask (i + k) = 0 := by
  have hex : ∃ k, k < n ∧ s.bitMask (i + k) ≠ 0 := by
    by_contra hnone
    exact hno fun k hk => not_not.1 fun hne => hnone ⟨k, hk, hne⟩
  refine ⟨Nat.find hex, ?_, (Nat.find_spec hex).1, (Nat.find_spec hex).2, ?_⟩
  · by_contra hzero
    have heq : Nat.find hex = 0 := by omega
    have hspec := (Nat.find_spec hex).2
    rw [heq] at hspec
    exact hspec hi
  · intro k hk
    by_contra hne
    exact Nat.find_min hex hk ⟨Nat.lt_trans hk (Nat.find_spec hex).1, hne⟩

theorem usable_of_checked (hlt : size < 2 ^ 32) (hpos : 0 < size)
    (hrun : s.Run (checkedPages size) i) (hin : i + minpagecount size ≤ s.physicalPageListMaxSize) :
    s.usable size i (s.physicalPageListMaxSize + 1) (i + 1) (toInt32 (size + 2 ^ 32 - 4096)) =
      some true := by
  by_cases hsize : size < 2 ^ 31 + 4096
  · have hfree : s.bitMask i = 0 := hrun 0 (one_le_checkedPages size)
    have hone : 1 ≤ minpagecount size := by
      rw [minpagecount_eq]
      omega
    rw [toInt32_sub hsize]
    refine usable_of_run hfree hin _ 1 hone (by omega) fun k' _ hk' => hrun k' ?_
    rw [checkedPages, if_pos hsize]
    omega
  · rw [usable, if_pos (toInt32_sub_of_le (by omega) hlt)]

theorem findLarge_succ_of_not_run (hno : ¬ s.Run (checkedPages size) i)
    (hin : ∀ k, k < checkedPages size → (∀ k', k' < k → s.bitMask (i + k') = 0) →
      i + k < s.physicalPageListMaxSize) (fuel : Nat) :
    s.findLarge size (fuel + 1) i = s.findLarge size fuel (i + 1) := by
  rw [findLarge]
  by_cases hi : s.bitMask i = 0
  · obtain ⟨k₀, hone, hlt, hblocked, hrun⟩ := exists_blocked hno hi
    have hsize : size < 2 ^ 31 + 4096 := by
      by_contra hbig
      rw [checkedPages, if_neg hbig] at hlt
      omega
    have hpages : k₀ < size / 4096 := by
      rw [checkedPages, if_pos hsize] at hlt
      omega
    have hbound := hin k₀ hlt hrun
    have husable := usable_of_blocked (s := s) (i := i) k₀ hpages hblocked hbound
      (s.physicalPageListMaxSize + 1) 1 hone (by omega) fun k' _ hk' => hrun k' hk'
    rw [if_pos hi, toInt32_sub hsize, husable]
    rfl
  · rw [if_neg hi]

theorem findLarge_of_run (hlt : size < 2 ^ 32) (hpos : 0 < size) {i₀ : Nat}
    (hrun : s.Run (checkedPages size) i₀) (hfirst : ∀ i, i < i₀ → ¬ s.Run (checkedPages size) i)
    (hin : i₀ + minpagecount size ≤ s.physicalPageListMaxSize) (fuel i : Nat) (hi : i ≤ i₀)
    (hfuel : i₀ < i + fuel) : s.findLarge size fuel i = some (some i₀) := by
  have hpages := checkedPages_le_minpagecount hpos
  induction fuel generalizing i with
  | zero => omega
  | succ fuel ih =>
    by_cases heq : i = i₀
    · subst heq
      have hfree : s.bitMask i = 0 := hrun 0 (one_le_checkedPages size)
      rw [findLarge, if_pos hfree, usable_of_checked hlt hpos hrun hin]
      rfl
    · rw [findLarge_succ_of_not_run (hfirst i (by omega))]
      · exact ih (i + 1) (by omega) (by omega)
      · intro k hk _
        omega

theorem findLarge_of_no_run (hno : ∀ i, i < s.physicalPageListSize → ¬ s.Run (checkedPages size) i)
    (hlt : s.physicalPageListSize < s.physicalPageListMaxSize)
    (hfull : s.bitMask s.physicalPageListSize ≠ 0) (fuel i : Nat)
    (hfuel : i + fuel = s.physicalPageListSize) : s.findLarge size fuel i = some none := by
  induction fuel generalizing i with
  | zero => rfl
  | succ fuel ih =>
    rw [findLarge_succ_of_not_run (hno i (by omega))]
    · exact ih (i + 1) (by omega)
    · intro k _ hfree
      by_contra hbeyond
      have hat : i + (s.physicalPageListSize - i) = s.physicalPageListSize := by omega
      have hzero := hfree (s.physicalPageListSize - i) (by omega)
      rw [hat] at hzero
      exact hfull hzero

theorem markPages_spec (n x : Nat) (s : MemoryManager) (hin : x + n ≤ s.physicalPageListMaxSize) :
    ∃ bitmap', markPages n x s = some { s with bitmap := bitmap' } ∧
      ∀ g, bitmap'.testBit g = (setRange s.bitmap (64 * x) (64 * n)).testBit g := by
  induction n generalizing x s with
  | zero =>
    refine ⟨s.bitmap, rfl, ?_⟩
    intro g
    have hno : ¬ (64 * x ≤ g ∧ g < 64 * x + 64 * 0) := by omega
    rw [testBit_setRange, decide_eq_false hno, Bool.or_false]
  | succ n ih =>
    have hx : x < s.physicalPageListMaxSize := by omega
    have hrest : x + 1 + n ≤ s.physicalPageListMaxSize := by omega
    obtain ⟨bitmap', hmark, hbits⟩ := ih (x + 1)
      { s with bitmap := s.bitmap ||| ((2 ^ 64 - 1) <<< (64 * x)) } hrest
    refine ⟨bitmap', ?_, ?_⟩
    · rw [markPages, if_pos hx]
      exact hmark
    · intro g
      have hfirst := testBit_setRange s.bitmap (64 * x) 64 g
      rw [setRange] at hfirst
      rw [hbits, testBit_setRange, testBit_setRange, hfirst, Bool.or_assoc, ← Bool.decide_or]
      have hiff : (64 * x ≤ g ∧ g < 64 * x + 64 ∨
          64 * (x + 1) ≤ g ∧ g < 64 * (x + 1) + 64 * n) ↔
          64 * x ≤ g ∧ g < 64 * x + 64 * (n + 1) := by omega
      rw [decide_eq_decide.2 hiff]

/-- The pages from page `i` on that `malloc2` checks are free, and no earlier page
    starts as many. -/
def FirstRun (s : MemoryManager) (n i : Nat) : Prop :=
  i < s.physicalPageListSize ∧ s.Run n i ∧ ∀ i', i' < i → ¬ s.Run n i'

theorem mallocLarge_of_run (hsize : size < 2 ^ 32) (hbig : 56 ≤ bitcount size)
    (hfirst : s.FirstRun (checkedPages size) i)
    (hin : i + minpagecount size ≤ s.physicalPageListSize)
    (hmax : s.physicalPageListSize ≤ s.physicalPageListMaxSize) (hrest : size % 4096 ≤ 4032)
    (hfree : FreeRange s.bitmap (64 * i) (bitcount size)) :
    ∃ s', s.mallocLarge size = some (some (64 * (64 * i)), s') ∧
      Allocates s (bitcount size) (64 * i) s' := by
  have hpos : 0 < size := by
    rw [bitcount_eq] at hbig
    omega
  have hfound : s.findLarge size s.physicalPageListSize 0 = some (some i) :=
    findLarge_of_run hsize hpos hfirst.2.1 hfirst.2.2 (by omega) _ 0 (Nat.zero_le i)
      (by have hlt := hfirst.1; omega)
  have hpages : size / 4096 ≤ minpagecount size := by
    rw [minpagecount_eq]
    omega
  obtain ⟨bitmap', hmark, hbits⟩ := markPages_spec (size / 4096) i s (by omega)
  have haddress : i * 4096 = 64 * (64 * i) := by omega
  have hbelow : 64 * i + bitcount size ≤ 64 * s.physicalPageListSize := by
    rw [minpagecount_eq] at hin
    rw [bitcount_eq]
    omega
  have hcount := bitcount_split size
  by_cases hzero : size % 4096 = 0
  · refine ⟨{ s with bitmap := bitmap' }, ?_, ⟨hfree, hbelow, ?_, rfl, rfl, rfl, by omega⟩⟩
    · simp only [mallocLarge, hfound, Option.bind_eq_bind, Option.bind_some, hmark, markRest, hzero,
        if_true, haddress]
      rfl
    · intro g
      have hnone : bitcount 0 = 0 := rfl
      rw [hzero, hnone, Nat.add_zero] at hcount
      rw [hbits, hcount]
  · have hlast : i + size / 4096 < s.physicalPageListMaxSize := by
      rw [minpagecount_eq] at hin
      omega
    have hmask : lowMask (bitcount (size % 4096)) = 2 ^ bitcount (size % 4096) - 1 := by
      apply lowMask_of_lt
      rw [bitcount_eq]
      omega
    refine ⟨{ s with bitmap := setRange bitmap' (64 * (i + size / 4096)) (bitcount (size % 4096)) },
      ?_, ⟨hfree, hbelow, ?_, rfl, rfl, rfl, by omega⟩⟩
    · simp only [mallocLarge, hfound, Option.bind_eq_bind, Option.bind_some, hmark, markRest,
        if_neg hzero, if_pos hlast, haddress, hmask]
      rfl
    · intro g
      rw [testBit_setRange, hbits, testBit_setRange, testBit_setRange, Bool.or_assoc,
        ← Bool.decide_or]
      have hiff : (64 * i ≤ g ∧ g < 64 * i + 64 * (size / 4096) ∨
          64 * (i + size / 4096) ≤ g ∧
            g < 64 * (i + size / 4096) + bitcount (size % 4096)) ↔
          64 * i ≤ g ∧ g < 64 * i + bitcount size := by omega
      rw [decide_eq_decide.2 hiff]

/-! ## Conditions -/

/-- For a block of 56 granules or more: at the first page that `malloc2` accepts,
    the whole block is free and in pages that were added, and the rest of it in its
    last page is at most 63 granules. -/
def Fits (s : MemoryManager) (size : Nat) : Prop :=
  56 ≤ bitcount size → ∀ i, s.FirstRun (checkedPages size) i →
    size % 4096 ≤ 4032 ∧ i + minpagecount size ≤ s.physicalPageListSize ∧
      FreeRange s.bitmap (64 * i) (bitcount size)

/-- `malloc2` finds granules for the size: a free range that starts before the last
    page, or a run of free pages. -/
def HasRoom (s : MemoryManager) (size : Nat) : Prop :=
  0 < bitcount size ∧
    if bitcount size < 56 then
      ∃ g, g < 64 * (s.physicalPageListSize - 1) ∧ FreeRange s.bitmap g (bitcount size)
    else ∃ i, i + checkedPages size ≤ s.physicalPageListSize ∧ s.Run (checkedPages size) i

theorem exists_firstRun {n : Nat} (hi : i < s.physicalPageListSize) (hrun : s.Run n i) :
    ∃ i₀, i₀ ≤ i ∧ s.FirstRun n i₀ := by
  induction i using Nat.strong_induction_on with
  | _ i ih =>
    by_cases hfirst : ∀ i', i' < i → ¬ s.Run n i'
    · exact ⟨i, Nat.le_refl i, hi, hrun, hfirst⟩
    · rw [not_forall] at hfirst
      obtain ⟨i', hno⟩ := hfirst
      rw [Classical.not_imp, not_not] at hno
      obtain ⟨i₀, hle, hi₀⟩ := ih i' hno.1 (by omega) hno.2
      exact ⟨i₀, by omega, hi₀⟩

/-- `malloc2` takes a block of free granules if there is room, and else returns
    `NULL`. -/
theorem malloc2_spec (hsize : size < 2 ^ 32) (hfits : s.Fits size)
    (hlt : s.physicalPageListSize < s.physicalPageListMaxSize)
    (hfull : s.bitMask s.physicalPageListSize ≠ 0) :
    s.malloc2 size = some (none, s) ∨
      ∃ start s', s.malloc2 size = some (some (64 * start), s') ∧
        Allocates s (bitcount size) start s' ∧ s.HasRoom size := by
  unfold malloc2
  by_cases hzero : bitcount size = 0
  · exact .inl (if_pos hzero)
  have hpos : 0 < bitcount size := Nat.pos_of_ne_zero hzero
  rw [if_neg hzero]
  by_cases hsmall : bitcount size < 56
  · rw [if_pos hsmall]
    rcases mallocSmall_spec s hpos hsmall with ⟨start, s', heq, h, hstart⟩ | ⟨heq, -⟩
    · have hroom : s.HasRoom size := by
        refine ⟨hpos, ?_⟩
        rw [if_pos hsmall]
        exact ⟨start, hstart, h.free⟩
      exact .inr ⟨start, s', by rw [heq], h, hroom⟩
    · exact .inl (by rw [heq])
  rw [if_neg hsmall]
  by_cases hrun : ∃ i, i < s.physicalPageListSize ∧ s.Run (checkedPages size) i
  · obtain ⟨i, hi, hfree⟩ := hrun
    obtain ⟨i₀, -, hfirst⟩ := exists_firstRun hi hfree
    obtain ⟨hmod, hin, hfree'⟩ := hfits (by omega) i₀ hfirst
    obtain ⟨s', heq, h⟩ := mallocLarge_of_run hsize (by omega) hfirst hin (by omega) hmod hfree'
    have hroom : s.HasRoom size := by
      refine ⟨hpos, ?_⟩
      rw [if_neg hsmall]
      have hpages : checkedPages size ≤ minpagecount size :=
        checkedPages_le_minpagecount (Nat.pos_of_ne_zero fun h0 => hzero (by rw [h0]; rfl))
      exact ⟨i₀, by omega, hfirst.2.1⟩
    exact .inr ⟨_, s', heq, h, hroom⟩
  · left
    have hnone := findLarge_of_no_run (fun i hi hfree => hrun ⟨i, hi, hfree⟩) hlt hfull _ 0
      (Nat.zero_add _)
    rw [mallocLarge, hnone]
    rfl

theorem malloc2_of_room (hroom : s.HasRoom size) (hsize : size < 2 ^ 31 + 4096)
    (hpages : 56 ≤ bitcount size → size % 4096 = 0)
    (hmax : s.physicalPageListSize ≤ s.physicalPageListMaxSize) :
    ∃ start s', s.malloc2 size = some (some (64 * start), s') ∧
      Allocates s (bitcount size) start s' := by
  obtain ⟨hpos, hroom⟩ := hroom
  unfold malloc2
  rw [if_neg (Nat.pos_iff_ne_zero.1 hpos)]
  by_cases hsmall : bitcount size < 56
  · rw [if_pos hsmall] at hroom ⊢
    obtain ⟨g, hg, hfree⟩ := hroom
    rcases mallocSmall_spec s hpos hsmall with ⟨start, s', heq, h, -⟩ | ⟨-, hall⟩
    · exact ⟨start, s', by rw [heq], h⟩
    · exact absurd hfree (hall g hg)
  rw [if_neg hsmall] at hroom ⊢
  obtain ⟨i, hin, hrun⟩ := hroom
  have hmod := hpages (by omega)
  have hone := one_le_checkedPages size
  have hchecked : checkedPages size = size / 4096 := by
    rw [bitcount_eq] at hsmall
    rw [checkedPages, if_pos hsize]
    omega
  have hcount : minpagecount size = size / 4096 := by
    rw [minpagecount_eq]
    omega
  obtain ⟨i₀, hle, hfirst⟩ := exists_firstRun (by omega) hrun
  have hfree : FreeRange s.bitmap (64 * i₀) (bitcount size) := by
    intro g hg hlt
    rw [bitcount_eq] at hlt
    have hpage := (bitMask_eq_zero s _).1 (hfirst.2.1 (g / 64 - i₀) (by omega))
    exact hpage g (by omega) (by omega)
  obtain ⟨s', heq, h⟩ := mallocLarge_of_run (by omega) (by omega) hfirst (by omega) hmax (by omega)
    hfree
  exact ⟨_, s', heq, h⟩

theorem clearPages_spec (n index : Nat) (s : MemoryManager)
    (hin : index + n ≤ s.physicalPageListMaxSize) :
    ∃ bitmap', clearPages n index s = some { s with bitmap := bitmap' } ∧
      ∀ g, bitmap'.testBit g =
        (s.bitmap.testBit g && !decide (64 * index ≤ g ∧ g < 64 * index + 64 * n)) := by
  induction n generalizing index s with
  | zero =>
    refine ⟨s.bitmap, rfl, ?_⟩
    intro g
    have hno : ¬ (64 * index ≤ g ∧ g < 64 * index + 64 * 0) := by omega
    rw [decide_eq_false hno, Bool.not_false, Bool.and_true]
  | succ n ih =>
    have hx : index < s.physicalPageListMaxSize := by omega
    have hrest : index + 1 + n ≤ s.physicalPageListMaxSize := by omega
    obtain ⟨bitmap', hclear, hbits⟩ := ih (index + 1)
      { s with bitmap := clearMask s.bitmap ((2 ^ 64 - 1) <<< (64 * index)) } hrest
    refine ⟨bitmap', ?_, ?_⟩
    · rw [clearPages, if_pos hx]
      exact hclear
    · intro g
      rw [hbits, testBit_clearMask, testBit_range, Bool.and_assoc, ← Bool.not_or,
        ← Bool.decide_or]
      have hiff : (64 * index ≤ g ∧ g < 64 * index + 64 ∨
          64 * (index + 1) ≤ g ∧ g < 64 * (index + 1) + 64 * n) ↔
          64 * index ≤ g ∧ g < 64 * index + 64 * (n + 1) := by omega
      rw [decide_eq_decide.2 hiff]

/-- The block lies in one page, or starts a page. -/
def InOnePage (address size : Nat) : Prop :=
  address / 64 % 64 + bitcount size ≤ 64 ∨ address % 4096 = 0

theorem free2_spec (s : MemoryManager) {address : Nat} (halign : address % 64 = 0)
    (hpage : InOnePage address size)
    (hin : address / 64 + bitcount size ≤ 64 * s.physicalPageListMaxSize) :
    ∃ bitmap', s.free2 address size = some { s with bitmap := bitmap' } ∧
      ∀ g, bitmap'.testBit g = (s.bitmap.testBit g &&
        !decide (address / 64 ≤ g ∧ g < address / 64 + bitcount size)) := by
  unfold InOnePage at hpage
  have hindex : address / 4096 + bitcount size / 64 ≤ s.physicalPageListMaxSize := by omega
  obtain ⟨bitmap', hclear, hbits⟩ := clearPages_spec (bitcount size / 64) (address / 4096) s hindex
  unfold free2
  simp only [hclear, Option.bind_eq_bind, Option.bind_some]
  by_cases hrest : bitcount size % 64 = 0
  · refine ⟨bitmap', ?_, ?_⟩
    · rw [clearRest, if_pos hrest]
    · intro g
      have hiff : (64 * (address / 4096) ≤ g ∧
          g < 64 * (address / 4096) + 64 * (bitcount size / 64)) ↔
          address / 64 ≤ g ∧ g < address / 64 + bitcount size := by omega
      rw [hbits, decide_eq_decide.2 hiff]
  · have hlast : address / 4096 + bitcount size / 64 < s.physicalPageListMaxSize := by omega
    have hoffset : bitcount size % 64 + address % 4096 / 64 ≤ 64 := by omega
    -- the mask is not cut off at the end of the page
    have hmask : lowMask (bitcount size % 64) <<< (address % 4096 / 64) % 2 ^ 64 =
        (2 ^ (bitcount size % 64) - 1) <<< (address % 4096 / 64) := by
      rw [lowMask_of_lt (Nat.mod_lt _ (by decide))]
      exact Nat.mod_eq_of_lt (range_lt_two_pow hoffset)
    refine ⟨clearMask bitmap' ((2 ^ (bitcount size % 64) - 1) <<<
      (address % 4096 / 64 + 64 * (address / 4096 + bitcount size / 64))), ?_, ?_⟩
    · rw [clearRest, if_neg hrest, if_pos hlast, hmask]
      simp only [← Nat.shiftLeft_add]
    · intro g
      rw [testBit_clearMask, testBit_range, hbits, Bool.and_assoc, ← Bool.not_or, ← Bool.decide_or]
      have hiff : (64 * (address / 4096) ≤ g ∧
            g < 64 * (address / 4096) + 64 * (bitcount size / 64) ∨
          address % 4096 / 64 + 64 * (address / 4096 + bitcount size / 64) ≤ g ∧
            g < address % 4096 / 64 + 64 * (address / 4096 + bitcount size / 64) +
              bitcount size % 64) ↔
          address / 64 ≤ g ∧ g < address / 64 + bitcount size := by omega
      rw [decide_eq_decide.2 hiff]

end MemoryManager

end CheatEngine.Dbvm
