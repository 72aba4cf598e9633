/-
  CheatEngine.Cli.Numbers

  Numbers on their way through encoding/json.  A number of a command's data is
  written as a text; read into an `any` the text becomes a float64, and that is
  written again.

  A text is kept as the decimal number it writes, whether with an exponent or
  without one, and with its sign, since there is a negative zero.
-/
import CheatEngine.Lib.FloatFormat

namespace CheatEngine.Cli

open CheatEngine.Lib

/-- A Go number: the signed and the unsigned integers of all widths, and the two
    floating-point types with their bits. -/
inductive Number
  | int64 (v : Int64)
  | uint64 (v : UInt64)
  | float32 (bits : UInt32)
  | float64 (bits : UInt64)

/-- A number with its sign: what a text writes, and a float64 that is finite. -/
structure Decimal where
  negative : Bool
  magnitude : ℚ

namespace Number

/-- The value of an integer. -/
def toInt : Number → Option Int
  | .int64 v => some v.toInt
  | .uint64 v => some v.toNat
  | _ => none

/-- The magnitude of a floating-point number, with its format; `none` for an infinity and
    for NaN. -/
def finite : Number → Bool
  | .float32 bits => (binary32.magnitude 8 bits.toNat).isSome
  | .float64 bits => (binary64.magnitude 11 bits.toNat).isSome
  | _ => true

/-- What the encoder writes for a number that is finite: the digits of an integer, the
    shortest text of a floating-point number. -/
def literal : Number → Decimal
  | .int64 v => ⟨v.toInt < 0, v.toInt.natAbs⟩
  | .uint64 v => ⟨false, v.toNat⟩
  | .float32 bits =>
    ⟨2 ^ 31 ≤ bits.toNat, binary32.shortest ((binary32.magnitude 8 bits.toNat).getD 0)⟩
  | .float64 bits =>
    ⟨2 ^ 63 ≤ bits.toNat, binary64.shortest ((binary64.magnitude 11 bits.toNat).getD 0)⟩

end Number

namespace Decimal

/-- `strconv.ParseFloat(text, 64)`, where it does not overflow. -/
def toFloat64 (d : Decimal) : Decimal := ⟨d.negative, binary64.nearest d.magnitude⟩

/-- The test for an overflow. -/
def inRange (d : Decimal) : Bool := binary64.nearest d.magnitude < 2 ^ (1024 : ℤ)

/-- The text of a float64. -/
def format (d : Decimal) : Decimal := ⟨d.negative, binary64.shortest d.magnitude⟩

end Decimal

/-! ## Numbers that are kept -/

/-- An integer that comes back as it was: up to 2^53, or the shortest of the decimal numbers
    that are read as the same float64. -/
def KeptInteger (v : Int) : Prop :=
  v.natAbs ≤ 2 ^ 53 ∨ binary64.IsShortest (binary64.nearest v.natAbs) v.natAbs

/-- Floating-point numbers come back as they were. -/
def Number.Kept (n : Number) : Prop := ∀ v, n.toInt = some v → KeptInteger v

theorem format_toFloat64_iff (d : Decimal) :
    d.toFloat64.format = d ↔ binary64.shortest (binary64.nearest d.magnitude) = d.magnitude := by
  constructor
  · exact fun h => congrArg Decimal.magnitude h
  · intro h
    rw [Decimal.format, Decimal.toFloat64, h]

theorem shortest_nat_iff (n : ℕ) : binary64.shortest (binary64.nearest n) = n ↔
    n ≤ 2 ^ 53 ∨ binary64.IsShortest (binary64.nearest n) n := by
  have hsmall : n ≤ 2 ^ 53 → binary64.shortest (binary64.nearest n) = n := fun h =>
    FloatFormat.shortest_natCast (F := binary64) (by decide) (by decide) h
  constructor
  · intro h
    rcases Nat.eq_zero_or_pos n with rfl | hpos
    · exact .inl (Nat.zero_le _)
    · have hrep := FloatFormat.representable_nearest (F := binary64) (Nat.cast_nonneg n)
      have hnearest : 0 < binary64.nearest n := by
        refine hrep.nonneg.lt_of_ne fun hzero => ?_
        rw [← hzero, FloatFormat.shortest, if_pos rfl] at h
        have hcast : (n : ℚ) = 0 := h.symm
        exact absurd (Nat.cast_eq_zero.1 hcast) hpos.ne'
      exact .inr ((FloatFormat.shortest_eq_iff hnearest hrep).1 h)
  · rintro (h | h)
    · exact hsmall h
    · have hrep := FloatFormat.representable_nearest (F := binary64) (Nat.cast_nonneg n)
      rcases hrep.nonneg.lt_or_eq with hpos | hzero
      · exact (FloatFormat.shortest_eq_iff hpos hrep).2 h
      · -- only zero is rounded to zero
        rcases Nat.eq_zero_or_pos n with rfl | hn
        · exact hsmall (Nat.zero_le _)
        · have hone : binary64.Representable 1 := by
            have hpow := FloatFormat.representable_two_zpow (F := binary64) (e := 0) (by decide)
            rwa [zpow_zero] at hpow
          have hmono := FloatFormat.nearest_mono (F := binary64) zero_le_one
            (show (1 : ℚ) ≤ n by exact_mod_cast hn)
          rw [FloatFormat.nearest_of_representable hone, ← hzero] at hmono
          exact absurd hmono (by norm_num)

theorem kept_float32 {bits : UInt32} {f : ℚ} (h : binary32.magnitude 8 bits.toNat = some f) :
    binary64.shortest (binary64.nearest (binary32.shortest f)) = binary32.shortest f := by
  have hrep := FloatFormat.representable_magnitude h
  rcases hrep.nonneg.lt_or_eq with hpos | rfl
  · exact FloatFormat.shortest_nearest_shortest hpos hrep (by decide) (by decide)
  · have hzero : binary32.shortest 0 = 0 := if_pos rfl
    rw [hzero, FloatFormat.nearest_zero]
    exact if_pos rfl

theorem kept_float64 {bits : UInt64} {f : ℚ} (h : binary64.magnitude 11 bits.toNat = some f) :
    binary64.shortest (binary64.nearest (binary64.shortest f)) = binary64.shortest f := by
  rw [FloatFormat.nearest_shortest (FloatFormat.representable_magnitude h)]

theorem format_literal_iff {n : Number} (h : n.finite = true) :
    n.literal.toFloat64.format = n.literal ↔ n.Kept := by
  rw [format_toFloat64_iff]
  cases n with
  | int64 v =>
    rw [Number.literal, shortest_nat_iff, Number.Kept]
    simp only [Number.toInt, Option.some.injEq, forall_eq']
    rfl
  | uint64 v =>
    rw [Number.literal, shortest_nat_iff, Number.Kept]
    simp only [Number.toInt, Option.some.injEq, forall_eq']
    rfl
  | float32 bits =>
    obtain ⟨f, hf⟩ := Option.isSome_iff_exists.1 h
    simp only [Number.literal, hf, Option.getD_some, kept_float32 hf, true_iff]
    intro v hv
    cases hv
  | float64 bits =>
    obtain ⟨f, hf⟩ := Option.isSome_iff_exists.1 h
    simp only [Number.literal, hf, Option.getD_some, kept_float64 hf, true_iff]
    intro v hv
    cases hv

/-- 2^53 + 1 lies in the middle of two float64s and becomes 2^53. -/
theorem nearest_two_pow_53_succ : binary64.nearest (2 ^ 53 + 1) = (2 ^ 53 : ℕ) := by
  have hspacing : binary64.spacing (2 ^ 53 + 1) = 1 := by
    refine le_antisymm (FloatFormat.spacing_le (by norm_num) (by decide) ?_)
      (FloatFormat.le_spacing (by norm_num) ?_)
    · rw [show (1 : ℤ) + binary64.fractionBits + 1 = 54 from rfl]
      norm_num
    · rw [show (1 : ℤ) + binary64.fractionBits = 53 from rfl]
      norm_num
  have hfloor : ⌊((2 ^ 53 + 1 : ℚ) / 2)⌋ = 2 ^ 52 := by
    rw [Int.floor_eq_iff]
    norm_num
  have hround : roundEven ((2 ^ 53 + 1) / 2) = 2 ^ 52 := by
    rw [roundEven, hfloor]
    norm_num
  rw [FloatFormat.nearest, hspacing, zpow_one, hround]
  norm_num

/-- The smallest integer that is lost. -/
theorem not_kept_two_pow_53_succ : ¬ (Number.uint64 9007199254740993).Kept := by
  intro hkept
  have hformat := (format_literal_iff (n := .uint64 9007199254740993) rfl).2 hkept
  rw [format_toFloat64_iff] at hformat
  have hcast : (((9007199254740993 : UInt64).toNat : ℕ) : ℚ) = 2 ^ 53 + 1 := by
    rw [show (9007199254740993 : UInt64).toNat = 2 ^ 53 + 1 from rfl]
    norm_num
  have hshort : binary64.shortest (binary64.nearest (2 ^ 53 : ℕ)) = (2 ^ 53 : ℕ) :=
    (shortest_nat_iff _).2 (.inl (Nat.le_refl _))
  have hrep : binary64.nearest (2 ^ 53 : ℕ) = (2 ^ 53 : ℕ) := by
    rw [← nearest_two_pow_53_succ, FloatFormat.nearest_of_representable]
    exact FloatFormat.representable_nearest (by norm_num)
  rw [hrep] at hshort
  rw [Number.literal, hcast, nearest_two_pow_53_succ, hshort] at hformat
  norm_num at hformat

theorem inRange_literal {n : Number} (h : n.finite = true) : n.literal.inRange = true := by
  have hbelow : ∀ {q : ℚ} {e : ℤ}, 0 ≤ q → q ≤ 2 ^ e → -1074 ≤ e → e < 1024 →
      binary64.nearest q < 2 ^ (1024 : ℤ) := by
    intro q e hq hle hlow hhigh
    have hmono := FloatFormat.nearest_mono (F := binary64) hq hle
    rw [FloatFormat.nearest_of_representable (FloatFormat.representable_two_zpow hlow)] at hmono
    exact hmono.trans_lt (zpow_lt_zpow_right₀ (by norm_num) hhigh)
  rw [Decimal.inRange, decide_eq_true_eq]
  cases n with
  | int64 v =>
    refine hbelow (e := 64) (Nat.cast_nonneg _) ?_ (by norm_num) (by norm_num)
    have hlow := v.le_toInt
    have hhigh := v.toInt_lt
    have hint : v.toInt.natAbs ≤ 2 ^ 64 := by omega
    show ((v.toInt.natAbs : ℕ) : ℚ) ≤ _
    exact_mod_cast hint
  | uint64 v =>
    refine hbelow (e := 64) (Nat.cast_nonneg _) ?_ (by norm_num) (by norm_num)
    have hint : v.toNat ≤ 2 ^ 64 := v.toNat_lt.le
    show ((v.toNat : ℕ) : ℚ) ≤ _
    exact_mod_cast hint
  | float32 bits =>
    obtain ⟨f, hf⟩ := Option.isSome_iff_exists.1 h
    have hrep := FloatFormat.representable_magnitude hf
    have hlt := FloatFormat.magnitude_lt (by omega) hf
    simp only [Number.literal, hf, Option.getD_some]
    rcases hrep.nonneg.lt_or_eq with hpos | rfl
    · refine hbelow (e := 200) (FloatFormat.shortest_pos hpos hrep).le ?_ (by norm_num) (by norm_num)
      by_contra hle
      rw [not_le] at hle
      have hpow := FloatFormat.representable_two_zpow (F := binary32) (e := 200) (by decide)
      have hmono := FloatFormat.nearest_mono (F := binary32) hpow.nonneg hle.le
      rw [FloatFormat.nearest_of_representable hpow, FloatFormat.nearest_shortest hrep] at hmono
      have hend : (2 : ℚ) ^ (binary32.lowest + binary32.fractionBits + (2 ^ 8 : ℕ) - 2) ≤
          2 ^ (200 : ℤ) := zpow_le_zpow_right₀ (by norm_num) (by decide)
      exact absurd (hmono.trans_lt hlt) (not_lt.2 hend)
    · rw [FloatFormat.shortest, if_pos rfl, FloatFormat.nearest_zero]
      exact zpow_pos (by norm_num) _
  | float64 bits =>
    obtain ⟨f, hf⟩ := Option.isSome_iff_exists.1 h
    simp only [Number.literal, hf, Option.getD_some,
      FloatFormat.nearest_shortest (FloatFormat.representable_magnitude hf)]
    exact FloatFormat.magnitude_lt (by omega) hf

end CheatEngine.Cli
