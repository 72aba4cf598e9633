/-
  CheatEngine.Lib.FloatFormat

  Binary floating-point formats over the rationals, as far as a text is read into
  one and written from one: the nearest number of the format, with ties to even, and
  the shortest decimal number that is read as a given one.

  A format is the number of bits behind the leading bit and the exponent of the
  smallest spacing.  There is no largest exponent; a caller that overflows tests
  the result.  Only numbers that are not negative are rounded, the sign is kept
  apart.
-/
import Mathlib.Algebra.Order.Floor.Semiring
import Mathlib.Data.Int.Log
import Mathlib.Data.Rat.Floor
import Mathlib.Tactic.Linarith
import Mathlib.Tactic.NormNum
import Mathlib.Tactic.Positivity
import Mathlib.Tactic.Ring

namespace CheatEngine.Lib

def roundEven (x : ℚ) : ℤ :=
  if x - ⌊x⌋ < 1 / 2 then ⌊x⌋
  else if 1 / 2 < x - ⌊x⌋ then ⌊x⌋ + 1
  else ⌊x⌋ + ⌊x⌋ % 2

theorem abs_roundEven_sub_le (x : ℚ) : |(roundEven x : ℚ) - x| ≤ 1 / 2 := by
  have hlow := Int.floor_le x
  have hhigh := Int.lt_floor_add_one x
  have hnonneg : (0 : ℚ) ≤ (⌊x⌋ % 2 : ℤ) := by
    exact_mod_cast Int.emod_nonneg ⌊x⌋ (by norm_num)
  have hle : ((⌊x⌋ % 2 : ℤ) : ℚ) ≤ 1 := by
    exact_mod_cast (show ⌊x⌋ % 2 ≤ 1 by omega)
  rw [roundEven, abs_le]
  split_ifs <;> push_cast at * <;> constructor <;> linarith

/-- What is nearer than one half is the nearest. -/
theorem roundEven_eq {x : ℚ} {n : ℤ} (h : |x - n| < 1 / 2) : roundEven x = n := by
  have herror := abs_roundEven_sub_le x
  have hdist : |(roundEven x : ℚ) - n| < 1 := by
    calc |(roundEven x : ℚ) - n| ≤ |(roundEven x : ℚ) - x| + |x - n| := abs_sub_le _ _ _
      _ < 1 := by linarith
  have hint : |roundEven x - n| < 1 := by exact_mod_cast hdist
  have hzero := Int.abs_lt_one_iff.1 hint
  omega

@[simp] theorem roundEven_intCast (n : ℤ) : roundEven (n : ℚ) = n := roundEven_eq (by simp)

theorem roundEven_mono {x y : ℚ} (h : x ≤ y) : roundEven x ≤ roundEven y := by
  have hfloor := Int.floor_le_floor h
  rcases hfloor.lt_or_eq with hlt | heq
  · -- the integers between are above the one and below the other
    have hx := Int.lt_floor_add_one x
    have hy := Int.floor_le y
    have hup : roundEven x ≤ ⌊x⌋ + 1 := by
      rw [roundEven]
      split_ifs <;> omega
    have hdown : ⌊y⌋ ≤ roundEven y := by
      rw [roundEven]
      split_ifs <;> omega
    omega
  · rw [roundEven, roundEven, ← heq]
    split_ifs
    all_goals first | omega | (exfalso; linarith)

/-- A binary format. -/
structure FloatFormat where
  fractionBits : ℕ
  /-- The exponent of the smallest spacing. -/
  lowest : ℤ

def binary32 : FloatFormat := ⟨23, -149⟩

def binary64 : FloatFormat := ⟨52, -1074⟩

namespace FloatFormat

variable (F : FloatFormat)

def spacing (q : ℚ) : ℤ := max (Int.log 2 q - F.fractionBits) F.lowest

def nearest (q : ℚ) : ℚ := roundEven (q / 2 ^ F.spacing q) * 2 ^ F.spacing q

/-- The numbers of the format. -/
def Representable (f : ℚ) : Prop :=
  ∃ (m : ℕ) (e : ℤ), m < 2 ^ (F.fractionBits + 1) ∧ F.lowest ≤ e ∧ f = m * 2 ^ e

/-- The magnitude of a bit pattern; `none` for an infinity and for what is not a number. -/
def magnitude (exponentBits bits : ℕ) : Option ℚ :=
  let exponent := bits / 2 ^ F.fractionBits % 2 ^ exponentBits
  let fraction := bits % 2 ^ F.fractionBits
  if exponent = 2 ^ exponentBits - 1 then none
  else if exponent = 0 then some (fraction * 2 ^ F.lowest)
  else some ((2 ^ F.fractionBits + fraction : ℕ) * 2 ^ (F.lowest + exponent - 1))

variable {F}
variable {f q r : ℚ}

theorem two_zpow_pos (e : ℤ) : (0 : ℚ) < 2 ^ e := zpow_pos (by norm_num) e

theorem lowest_le_spacing (F : FloatFormat) (q : ℚ) : F.lowest ≤ F.spacing q := le_max_right _ _

/-- A number lies below the end of its binade. -/
theorem lt_two_zpow (q : ℚ) : q < 2 ^ (F.spacing q + F.fractionBits + 1) := by
  have hlog : q < 2 ^ (Int.log 2 q + 1) := Int.lt_zpow_succ_log_self (by norm_num) q
  have hle : Int.log 2 q - F.fractionBits ≤ F.spacing q := le_max_left _ _
  exact hlog.trans_le (zpow_le_zpow_right₀ (by norm_num) (by omega))

theorem two_zpow_le (hq : 0 < q) (h : F.lowest < F.spacing q) :
    2 ^ (F.spacing q + F.fractionBits) ≤ q := by
  have hspacing : F.spacing q = Int.log 2 q - F.fractionBits := by
    rw [spacing] at h ⊢
    rcases le_total (Int.log 2 q - F.fractionBits) F.lowest with hle | hle
    · rw [max_eq_right hle] at h
      exact absurd h (lt_irrefl _)
    · exact max_eq_left hle
  rw [hspacing, sub_add_cancel]
  exact Int.zpow_log_le_self (by norm_num) hq

theorem spacing_mono (hq : 0 < q) (h : q ≤ r) : F.spacing q ≤ F.spacing r :=
  max_le_max_right _ (Int.sub_le_sub_right (Int.log_mono_right hq h) _)

variable {e : ℤ}

theorem spacing_le (hq : 0 < q) (he : F.lowest ≤ e)
    (h : q < 2 ^ (e + F.fractionBits + 1)) : F.spacing q ≤ e := by
  have hlog : Int.log 2 q < e + F.fractionBits + 1 :=
    (Int.lt_zpow_iff_log_lt (by norm_num) hq).1 (by exact_mod_cast h)
  exact max_le (by omega) he

theorem le_spacing (hq : 0 < q) (h : 2 ^ (e + F.fractionBits) ≤ q) : e ≤ F.spacing q := by
  have hlog : e + F.fractionBits ≤ Int.log 2 q :=
    (Int.zpow_le_iff_le_log (by norm_num) hq).1 (by exact_mod_cast h)
  exact le_max_of_le_left (by omega)

/-! ## The nearest number -/

theorem abs_nearest_sub_le (F : FloatFormat) (q : ℚ) :
    |F.nearest q - q| ≤ 2 ^ F.spacing q / 2 := by
  have hpos := two_zpow_pos (F.spacing q)
  have hround := abs_roundEven_sub_le (q / 2 ^ F.spacing q)
  have hscale : F.nearest q - q =
      (roundEven (q / 2 ^ F.spacing q) - q / 2 ^ F.spacing q) * 2 ^ F.spacing q := by
    rw [nearest, sub_mul, div_mul_cancel₀ _ hpos.ne']
  rw [hscale, abs_mul, abs_of_pos hpos]
  calc _ ≤ 1 / 2 * 2 ^ F.spacing q := mul_le_mul_of_nonneg_right hround hpos.le
    _ = 2 ^ F.spacing q / 2 := by ring

theorem nearest_of_multiple {m : ℤ} (h : q = m * 2 ^ F.spacing q) : F.nearest q = q := by
  have hpos := two_zpow_pos (F.spacing q)
  have hdiv : q / 2 ^ F.spacing q = m := by
    rw [div_eq_iff hpos.ne']
    exact h
  rw [nearest, hdiv, roundEven_intCast, ← h]

@[simp] theorem nearest_zero (F : FloatFormat) : F.nearest 0 = 0 :=
  nearest_of_multiple (m := 0) (by simp)

theorem exists_multiple {m : ℤ} {e' : ℤ} (h : e' ≤ e) : ∃ m' : ℤ, (m : ℚ) * 2 ^ e = m' * 2 ^ e' := by
  obtain ⟨d, hd⟩ := Int.le.dest h
  refine ⟨m * 2 ^ d, ?_⟩
  rw [← hd, zpow_add₀ (by norm_num), zpow_natCast]
  push_cast
  ring

theorem Representable.nonneg (h : F.Representable f) : 0 ≤ f := by
  obtain ⟨m, e, -, -, rfl⟩ := h
  exact mul_nonneg (Nat.cast_nonneg m) (two_zpow_pos e).le

theorem Representable.multiple (h : F.Representable f) (hf : 0 < f) :
    ∃ m : ℤ, f = m * 2 ^ F.spacing f := by
  obtain ⟨m, e, hm, he, hfe⟩ := h
  have hlt : f < 2 ^ (e + F.fractionBits + 1) := by
    have hcast : (m : ℚ) < 2 ^ (F.fractionBits + 1) := by exact_mod_cast hm
    rw [hfe, add_assoc, add_comm, zpow_add₀ (by norm_num)]
    refine mul_lt_mul_of_pos_right ?_ (two_zpow_pos e)
    exact_mod_cast hcast
  obtain ⟨m', hm'⟩ := exists_multiple (m := m) (spacing_le hf he hlt)
  exact ⟨m', by rw [← hm', hfe]; norm_cast⟩

theorem nearest_of_representable (h : F.Representable f) : F.nearest f = f := by
  rcases h.nonneg.eq_or_lt with rfl | hf
  · exact nearest_zero F
  · obtain ⟨m, hm⟩ := h.multiple hf
    exact nearest_of_multiple hm

theorem nearest_nonneg (hq : 0 ≤ q) : 0 ≤ F.nearest q := by
  have hround : 0 ≤ roundEven (q / 2 ^ F.spacing q) := by
    have hmono := roundEven_mono (x := ((0 : ℤ) : ℚ)) (y := q / 2 ^ F.spacing q)
      (by rw [Int.cast_zero]; exact div_nonneg hq (two_zpow_pos _).le)
    rwa [roundEven_intCast] at hmono
  have hcast : (0 : ℚ) ≤ roundEven (q / 2 ^ F.spacing q) := by exact_mod_cast hround
  exact mul_nonneg hcast (two_zpow_pos _).le

theorem representable_magnitude {exponentBits bits : ℕ} (h : F.magnitude exponentBits bits = some f) :
    F.Representable f := by
  have hfraction : bits % 2 ^ F.fractionBits < 2 ^ F.fractionBits :=
    Nat.mod_lt _ (Nat.two_pow_pos _)
  simp only [magnitude] at h
  split at h
  · cases h
  · split at h
    · obtain rfl := Option.some.inj h
      exact ⟨_, F.lowest, by rw [pow_succ]; omega, le_rfl, rfl⟩
    · obtain rfl := Option.some.inj h
      exact ⟨_, _, by rw [pow_succ]; omega, by omega, rfl⟩

theorem magnitude_lt {exponentBits bits : ℕ} (hbits : 2 ≤ exponentBits)
    (h : F.magnitude exponentBits bits = some f) :
    f < 2 ^ (F.lowest + F.fractionBits + (2 ^ exponentBits : ℕ) - 2) := by
  have hfraction : bits % 2 ^ F.fractionBits < 2 ^ F.fractionBits :=
    Nat.mod_lt _ (Nat.two_pow_pos _)
  have hexponent : bits / 2 ^ F.fractionBits % 2 ^ exponentBits < 2 ^ exponentBits :=
    Nat.mod_lt _ (Nat.two_pow_pos _)
  have hfour : 2 ^ 2 ≤ 2 ^ exponentBits := Nat.pow_le_pow_right (by omega) hbits
  -- a fraction is below one binade, and a binade below the last one
  have hbound : ∀ (m : ℕ) (e : ℤ), m < 2 ^ (F.fractionBits + 1) →
      e + 3 ≤ F.lowest + (2 ^ exponentBits : ℕ) →
        (m : ℚ) * 2 ^ e < 2 ^ (F.lowest + F.fractionBits + (2 ^ exponentBits : ℕ) - 2) := by
    intro m e hm he
    have hcast : (m : ℚ) < 2 ^ ((F.fractionBits : ℤ) + 1) := by exact_mod_cast hm
    calc (m : ℚ) * 2 ^ e < 2 ^ ((F.fractionBits : ℤ) + 1) * 2 ^ e :=
          mul_lt_mul_of_pos_right hcast (two_zpow_pos e)
      _ = 2 ^ ((F.fractionBits : ℤ) + 1 + e) := (zpow_add₀ (by norm_num) _ e).symm
      _ ≤ 2 ^ (F.lowest + F.fractionBits + (2 ^ exponentBits : ℕ) - 2) :=
          zpow_le_zpow_right₀ (by norm_num) (by omega)
  simp only [magnitude] at h
  split at h
  · cases h
  · split at h
    · obtain rfl := Option.some.inj h
      exact hbound _ _ (by rw [pow_succ]; omega) (by omega)
    · obtain rfl := Option.some.inj h
      exact hbound _ _ (by rw [pow_succ]; omega) (by omega)

/-- Powers of two of the format. -/
theorem representable_two_zpow (h : F.lowest ≤ e) : F.Representable (2 ^ e) :=
  ⟨1, e, Nat.one_lt_two_pow (by omega), h, by norm_num⟩

/-- Rounding does not leave the binade but for its end. -/
theorem nearest_le_two_zpow (q : ℚ) :
    F.nearest q ≤ 2 ^ (F.spacing q + F.fractionBits + 1) := by
  have hpos := two_zpow_pos (F.spacing q)
  have hlt : q / 2 ^ F.spacing q ≤ ((2 ^ (F.fractionBits + 1) : ℤ) : ℚ) := by
    rw [div_le_iff₀ hpos]
    have hend := lt_two_zpow (F := F) q
    rw [add_assoc, add_comm, zpow_add₀ (by norm_num)] at hend
    push_cast
    exact_mod_cast hend.le
  have hround := roundEven_mono hlt
  rw [roundEven_intCast] at hround
  have hcast : (roundEven (q / 2 ^ F.spacing q) : ℚ) ≤ 2 ^ (F.fractionBits + 1) := by
    exact_mod_cast hround
  rw [nearest, add_assoc, add_comm (F.spacing q), zpow_add₀ (by norm_num)]
  exact mul_le_mul_of_nonneg_right (by exact_mod_cast hcast) hpos.le

theorem two_zpow_le_nearest (hq : 0 < q) (h : F.lowest < F.spacing q) :
    2 ^ (F.spacing q + F.fractionBits) ≤ F.nearest q := by
  have hpos := two_zpow_pos (F.spacing q)
  have hle : ((2 ^ F.fractionBits : ℤ) : ℚ) ≤ q / 2 ^ F.spacing q := by
    rw [le_div_iff₀ hpos]
    have hstart := two_zpow_le hq h
    rw [add_comm, zpow_add₀ (by norm_num)] at hstart
    push_cast
    exact_mod_cast hstart
  have hround := roundEven_mono hle
  rw [roundEven_intCast] at hround
  have hcast : (2 : ℚ) ^ F.fractionBits ≤ roundEven (q / 2 ^ F.spacing q) := by
    exact_mod_cast hround
  rw [nearest, add_comm (F.spacing q), zpow_add₀ (by norm_num)]
  exact mul_le_mul_of_nonneg_right (by exact_mod_cast hcast) hpos.le

theorem nearest_mono (hq : 0 ≤ q) (h : q ≤ r) : F.nearest q ≤ F.nearest r := by
  rcases hq.eq_or_lt with rfl | hq
  · rw [nearest_zero]
    exact nearest_nonneg h
  · rcases (spacing_mono (F := F) hq h).lt_or_eq with hlt | heq
    · -- the binades differ
      have hlow : F.lowest < F.spacing r := (lowest_le_spacing F q).trans_lt hlt
      calc F.nearest q ≤ 2 ^ (F.spacing q + F.fractionBits + 1) := nearest_le_two_zpow q
        _ ≤ 2 ^ (F.spacing r + F.fractionBits) := zpow_le_zpow_right₀ (by norm_num) (by omega)
        _ ≤ F.nearest r := two_zpow_le_nearest (hq.trans_le h) hlow
    · rw [nearest, nearest, ← heq]
      have hpos := two_zpow_pos (F.spacing q)
      have hround := roundEven_mono (div_le_div_of_nonneg_right h hpos.le)
      have hcast : (roundEven (q / 2 ^ F.spacing q) : ℚ) ≤ roundEven (r / 2 ^ F.spacing q) := by
        exact_mod_cast hround
      exact mul_le_mul_of_nonneg_right hcast hpos.le

/-- Rounding goes into the format. -/
theorem representable_nearest (hq : 0 ≤ q) : F.Representable (F.nearest q) := by
  rcases hq.eq_or_lt with rfl | hq
  · rw [nearest_zero]
    exact ⟨0, F.lowest, by positivity, le_rfl, by simp⟩
  · have hpos := two_zpow_pos (F.spacing q)
    have hnonneg := nearest_nonneg (F := F) hq.le
    rw [nearest] at hnonneg
    obtain ⟨m, hm⟩ := Int.eq_ofNat_of_zero_le (a := roundEven (q / 2 ^ F.spacing q))
      (by exact_mod_cast nonneg_of_mul_nonneg_left hnonneg hpos)
    rcases (nearest_le_two_zpow (F := F) q).lt_or_eq with hlt | heq
    · refine ⟨m, F.spacing q, ?_, lowest_le_spacing F q, by rw [nearest, hm]; norm_cast⟩
      rw [nearest, hm, add_assoc, add_comm (F.spacing q), zpow_add₀ (by norm_num)] at hlt
      have hcast := lt_of_mul_lt_mul_right hlt hpos.le
      exact_mod_cast hcast
    · rw [heq]
      exact representable_two_zpow (by have := lowest_le_spacing F q; omega)

theorem nearest_of_near (hf : 0 < f) (h : F.Representable f) (hq : |q - f| < 2 ^ F.spacing f / 4) :
    F.nearest q = f := by
  obtain ⟨hlow, hhigh⟩ := abs_lt.1 hq
  have hpos := two_zpow_pos (F.spacing f)
  obtain ⟨m, hm⟩ := h.multiple hf
  have hm1 : (1 : ℚ) ≤ m := by
    have hmpos : (0 : ℚ) < m := by
      rw [hm] at hf
      exact pos_of_mul_pos_left hf hpos.le
    have hint : 0 < m := by exact_mod_cast hmpos
    exact_mod_cast hint
  have hge : 2 ^ F.spacing f ≤ f := by
    conv_rhs => rw [hm]
    exact le_mul_of_one_le_left hpos.le hm1
  have hqpos : 0 < q := by linarith
  -- the spacing around `q` is that around `f` or half of it
  have hle : F.spacing q ≤ F.spacing f := by
    refine spacing_le hqpos (lowest_le_spacing F f) ?_
    have hend := lt_two_zpow (F := F) f
    rw [add_assoc, add_comm, zpow_add₀ (by norm_num)] at hend ⊢
    have hend' : (m : ℚ) < 2 ^ ((F.fractionBits : ℤ) + 1) :=
      lt_of_mul_lt_mul_right (hm.symm.trans_lt hend) hpos.le
    have hint : m + 1 ≤ 2 ^ (F.fractionBits + 1) := by exact_mod_cast hend'
    have hcast : (m : ℚ) + 1 ≤ 2 ^ ((F.fractionBits : ℤ) + 1) := by exact_mod_cast hint
    have hmul := mul_le_mul_of_nonneg_right hcast hpos.le
    rw [add_mul, ← hm, one_mul] at hmul
    linarith
  have hhalf : F.spacing f - 1 ≤ F.spacing q := by
    by_contra hlt
    rw [not_le] at hlt
    have hstart : (2 : ℚ) ^ (F.spacing f + F.fractionBits) ≤ f :=
      two_zpow_le hf (by have := lowest_le_spacing F q; omega)
    have hmono : (2 : ℚ) ^ F.spacing f ≤ 2 ^ (F.spacing f + F.fractionBits) :=
      zpow_le_zpow_right₀ (by norm_num) (by omega)
    have hdouble : (2 : ℚ) ^ (F.spacing f + F.fractionBits) =
        2 ^ (F.spacing f - 1 + F.fractionBits) * 2 := by
      rw [← zpow_add_one₀ (by norm_num)]
      congr 1
      ring
    exact absurd (le_spacing (F := F) hqpos (e := F.spacing f - 1) (by linarith)) (not_le.2 hlt)
  have hscale : (2 : ℚ) ^ F.spacing f ≤ 2 ^ F.spacing q * 2 := by
    rw [← zpow_add_one₀ (by norm_num)]
    exact zpow_le_zpow_right₀ (by norm_num) (by omega)
  obtain ⟨m', hm'⟩ := exists_multiple (m := m) hle
  have hqscale := two_zpow_pos (F.spacing q)
  have hround : roundEven (q / 2 ^ F.spacing q) = m' := by
    refine roundEven_eq ?_
    have hdiff : q / 2 ^ F.spacing q - m' = (q - f) / 2 ^ F.spacing q := by
      rw [hm, hm', sub_div, mul_div_cancel_right₀ _ hqscale.ne']
    rw [hdiff, abs_div, abs_of_pos hqscale, div_lt_iff₀ hqscale]
    linarith
  rw [nearest, hround, ← hm', ← hm]

theorem nearest_between (hf : F.nearest f = f) {x : ℚ} (hq : 0 ≤ q) (hqf : F.nearest q = f)
    (h : q ≤ x ∧ x ≤ f ∨ 0 ≤ f ∧ f ≤ x ∧ x ≤ q) : F.nearest x = f := by
  rcases h with ⟨hqx, hxf⟩ | ⟨hnonneg, hfx, hxq⟩
  · have hlow := nearest_mono (F := F) hq hqx
    have hhigh := nearest_mono (F := F) (hq.trans hqx) hxf
    rw [hqf] at hlow
    rw [hf] at hhigh
    exact le_antisymm hhigh hlow
  · have hlow := nearest_mono (F := F) hnonneg hfx
    have hhigh := nearest_mono (F := F) (hnonneg.trans hfx) hxq
    rw [hf] at hlow
    rw [hqf] at hhigh
    exact le_antisymm hhigh hlow

/-! ## The shortest decimal number -/

/-- With the exponent `k`, `n` is nearer to `f` than `m`, or as near and even. -/
def Closer (f : ℚ) (k : ℤ) (n m : ℕ) : Prop :=
  |(n : ℚ) * 10 ^ k - f| < |(m : ℚ) * 10 ^ k - f| ∨
    |(n : ℚ) * 10 ^ k - f| = |(m : ℚ) * 10 ^ k - f| ∧ n % 2 = 0 ∧ m % 2 = 1

/-- `q` has the fewest digits of all decimal numbers that are read as `f`, and is nearest
    to `f` among those with as few. -/
def IsShortest (F : FloatFormat) (f q : ℚ) : Prop :=
  ∃ (k : ℤ) (n : ℕ), q = n * 10 ^ k ∧ F.nearest q = f ∧
    (∀ j, k < j → ∀ m : ℕ, F.nearest (m * 10 ^ j) ≠ f) ∧
    ∀ m : ℕ, F.nearest (m * 10 ^ k) = f → m = n ∨ Closer f k n m

/-- The decimal number with the exponent `k` that is written for `f`: one of the two around
    `f`, if it is read as `f`. -/
def pick (F : FloatFormat) (f : ℚ) (k : ℤ) : Option ℚ :=
  let down : ℚ := ⌊f / 10 ^ k⌋₊ * 10 ^ k
  let up : ℚ := ⌈f / 10 ^ k⌉₊ * 10 ^ k
  if F.nearest down = f then
    if F.nearest up = f ∧ (up - f < f - down ∨ up - f = f - down ∧ ⌈f / 10 ^ k⌉₊ % 2 = 0) then some up
    else some down
  else if F.nearest up = f then some up
  else none

/-- The exponents are tried from the top. -/
def search (F : FloatFormat) (f : ℚ) : ℕ → ℤ → Option ℚ
  | 0, _ => none
  | steps + 1, k =>
    match F.pick f k with
    | some q => some q
    | none => F.search f steps (k - 1)

/-- The first exponent is above the number, the last one writes it out. -/
def shortest (F : FloatFormat) (f : ℚ) : ℚ :=
  if f = 0 then 0
  else
    let top := Int.log 10 f + 1
    (F.search f (top + 1 - min F.lowest 0).toNat top).getD f

section Shortest

variable {k : ℤ}

theorem ten_zpow_pos (k : ℤ) : (0 : ℚ) < 10 ^ k := zpow_pos (by norm_num) k

theorem around (hf : 0 ≤ f) (k : ℤ) :
    (⌊f / 10 ^ k⌋₊ : ℚ) * 10 ^ k ≤ f ∧ f ≤ (⌈f / 10 ^ k⌉₊ : ℚ) * 10 ^ k ∧
      (⌊f / 10 ^ k⌋₊ ≤ ⌈f / 10 ^ k⌉₊ ∧ ⌈f / 10 ^ k⌉₊ ≤ ⌊f / 10 ^ k⌋₊ + 1) ∧
      ∀ m : ℕ, m ≤ ⌊f / 10 ^ k⌋₊ ∨ ⌈f / 10 ^ k⌉₊ ≤ m := by
  have hpos := ten_zpow_pos k
  have hdiv : 0 ≤ f / 10 ^ k := div_nonneg hf hpos.le
  refine ⟨?_, ?_, ⟨Nat.floor_le_ceil _, Nat.ceil_le_floor_add_one _⟩, fun m => ?_⟩
  · rw [← le_div_iff₀ hpos]
    exact Nat.floor_le hdiv
  · rw [← div_le_iff₀ hpos]
    exact Nat.le_ceil _
  · rcases le_total (m : ℚ) (f / 10 ^ k) with h | h
    · exact .inl (Nat.le_floor h)
    · exact .inr (Nat.ceil_le.2 h)

variable {m n : ℕ}

theorem mul_le_of_le (h : m ≤ n) : (m : ℚ) * 10 ^ k ≤ n * 10 ^ k :=
  mul_le_mul_of_nonneg_right (by exact_mod_cast h) (ten_zpow_pos k).le

theorem mul_lt_of_lt (h : m < n) : (m : ℚ) * 10 ^ k < n * 10 ^ k :=
  mul_lt_mul_of_pos_right (by exact_mod_cast h) (ten_zpow_pos k)

theorem mul_nonneg_of (m : ℕ) : (0 : ℚ) ≤ m * 10 ^ k :=
  mul_nonneg (Nat.cast_nonneg m) (ten_zpow_pos k).le

theorem nearest_around (hf : 0 ≤ f) (hfix : F.nearest f = f) (hm : F.nearest (m * 10 ^ k) = f) :
    (m ≤ ⌊f / 10 ^ k⌋₊ → F.nearest (⌊f / 10 ^ k⌋₊ * 10 ^ k) = f) ∧
      (⌈f / 10 ^ k⌉₊ ≤ m → F.nearest (⌈f / 10 ^ k⌉₊ * 10 ^ k) = f) := by
  obtain ⟨hdown, hup, -, -⟩ := around hf k
  exact ⟨fun h => nearest_between hfix (mul_nonneg_of m) hm (.inl ⟨mul_le_of_le h, hdown⟩),
    fun h => nearest_between hfix (mul_nonneg_of m) hm (.inr ⟨hf, hup, mul_le_of_le h⟩)⟩

theorem nearest_ne_of_pick (hf : 0 ≤ f) (hfix : F.nearest f = f) (h : F.pick f k = none) (m : ℕ) :
    F.nearest (m * 10 ^ k) ≠ f := by
  intro hm
  obtain ⟨hfloor, hceil⟩ := nearest_around hf hfix hm
  simp only [pick] at h
  split at h
  · split at h <;> cases h
  · next hdown =>
    split at h
    · cases h
    · next hup =>
      rcases (around hf k).2.2.2 m with hle | hle
      · exact hdown (hfloor hle)
      · exact hup (hceil hle)

theorem pick_spec (hf : 0 ≤ f) (hfix : F.nearest f = f) (h : F.pick f k = some q) :
    ∃ n : ℕ, q = n * 10 ^ k ∧ F.nearest q = f ∧
      ∀ m : ℕ, F.nearest (m * 10 ^ k) = f → m = n ∨ Closer f k n m := by
  obtain ⟨hdown, hup, hstep, hsides⟩ := around hf k
  have hfloor : ∀ m : ℕ, m ≤ ⌊f / 10 ^ k⌋₊ → |(m : ℚ) * 10 ^ k - f| = f - m * 10 ^ k := fun m hm => by
    rw [abs_of_nonpos (sub_nonpos.2 ((mul_le_of_le hm).trans hdown)), neg_sub]
  have hceil : ∀ m : ℕ, ⌈f / 10 ^ k⌉₊ ≤ m → |(m : ℚ) * 10 ^ k - f| = m * 10 ^ k - f := fun m hm =>
    abs_of_nonneg (sub_nonneg.2 (hup.trans (mul_le_of_le hm)))
  have hdist := hfloor _ le_rfl
  have hdist' := hceil _ le_rfl
  simp only [pick] at h
  split at h
  · next hread =>
    split at h
    · -- the upper one, which is nearer
      next hchoice =>
        obtain ⟨hread', hnear⟩ := hchoice
        refine ⟨_, (Option.some.inj h).symm, Option.some.inj h ▸ hread', fun m hm => ?_⟩
        rcases hsides m with hle | hle
        · rw [Closer, hfloor m hle, hdist']
          rcases hle.lt_or_eq with hlt | rfl
          · have hlt := mul_lt_of_lt (k := k) hlt
            rcases hnear with hnear | ⟨hnear, -⟩ <;> exact .inr (.inl (by linarith))
          · rcases hnear with hnear | ⟨hnear, heven⟩
            · exact .inr (.inl hnear)
            · by_cases heq : ⌊f / 10 ^ k⌋₊ = ⌈f / 10 ^ k⌉₊
              · exact .inl heq
              · exact .inr (.inr ⟨hnear, heven, by omega⟩)
        · rw [Closer, hceil m hle, hdist']
          rcases hle.lt_or_eq with hlt | rfl
          · exact .inr (.inl (by linarith [mul_lt_of_lt (k := k) hlt]))
          · exact .inl rfl
    · -- the lower one
      next hchoice =>
        refine ⟨_, (Option.some.inj h).symm, Option.some.inj h ▸ hread, fun m hm => ?_⟩
        rcases hsides m with hle | hle
        · rw [Closer, hfloor m hle, hdist]
          rcases hle.lt_or_eq with hlt | rfl
          · exact .inr (.inl (by linarith [mul_lt_of_lt (k := k) hlt]))
          · exact .inl rfl
        · have hread' := (nearest_around hf hfix hm).2 hle
          have hfar := not_and.1 hchoice hread'
          rw [not_or, not_lt, not_and] at hfar
          rw [Closer, hceil m hle, hdist]
          rcases hle.lt_or_eq with hlt | rfl
          · exact .inr (.inl (by linarith [hfar.1, mul_lt_of_lt (k := k) hlt]))
          · rcases hfar.1.lt_or_eq with hlt | heq
            · exact .inr (.inl hlt)
            · have hodd := hfar.2 heq.symm
              by_cases hsame : ⌈f / 10 ^ k⌉₊ = ⌊f / 10 ^ k⌋₊
              · exact .inl hsame
              · exact .inr (.inr ⟨heq, by omega, by omega⟩)
  · -- only the upper one is read as the number
    next hread =>
      split at h
      · next hread' =>
        refine ⟨_, (Option.some.inj h).symm, Option.some.inj h ▸ hread', fun m hm => ?_⟩
        rcases hsides m with hle | hle
        · exact absurd ((nearest_around hf hfix hm).1 hle) hread
        · rw [Closer, hceil m hle, hdist']
          rcases hle.lt_or_eq with hlt | rfl
          · exact .inr (.inl (by linarith [mul_lt_of_lt (k := k) hlt]))
          · exact .inl rfl
      · cases h

theorem search_some {steps : ℕ} (h : F.search f steps k = some q) :
    ∃ j, F.pick f j = some q ∧ ∀ i, j < i → i ≤ k → F.pick f i = none := by
  induction steps generalizing k with
  | zero => cases h
  | succ steps ih =>
    rw [search] at h
    rcases hpick : F.pick f k with _ | r
    · rw [hpick] at h
      obtain ⟨j, hj, habove⟩ := ih h
      refine ⟨j, hj, fun i hji hik => ?_⟩
      rcases hik.lt_or_eq with hlt | rfl
      · exact habove i hji (Int.le_sub_one_of_lt hlt)
      · exact hpick
    · rw [hpick] at h
      obtain rfl : r = q := Option.some.inj h
      exact ⟨k, hpick, fun i hlt hle => absurd hle (not_le.2 hlt)⟩

theorem search_none {steps : ℕ} (h : F.search f steps k = none) :
    ∀ i, k - steps < i → i ≤ k → F.pick f i = none := by
  induction steps generalizing k with
  | zero =>
    intro i hlow hhigh
    push_cast at hlow
    omega
  | succ steps ih =>
    intro i hlow hhigh
    rw [search] at h
    rcases hpick : F.pick f k with _ | r
    · rw [hpick] at h
      rcases hhigh.lt_or_eq with hlt | rfl
      · refine ih h i ?_ (Int.le_sub_one_of_lt hlt)
        push_cast at hlow
        omega
      · exact hpick
    · rw [hpick] at h
      cases h

theorem Representable.decimal (h : F.Representable f) : ∃ n : ℕ, f = n * 10 ^ min F.lowest 0 := by
  obtain ⟨m, e, -, he, rfl⟩ := h
  obtain ⟨d, hd⟩ := Int.le.dest (show min F.lowest 0 ≤ 0 from min_le_right _ _)
  have hbottom : min F.lowest 0 ≤ e := (min_le_left _ _).trans he
  obtain ⟨c, hc⟩ := Int.le.dest hbottom
  -- the power of two goes into the power of ten that is missing
  refine ⟨m * (2 ^ c * 5 ^ d), ?_⟩
  have hten : (10 : ℚ) ^ min F.lowest 0 * (5 ^ d * 2 ^ d) = 1 := by
    rw [← mul_pow, ← zpow_natCast, show (5 : ℚ) * 2 = 10 by norm_num, ← zpow_add₀ (by norm_num), hd,
      zpow_zero]
  have htwo : (2 : ℚ) ^ min F.lowest 0 * 2 ^ d = 1 := by
    rw [← zpow_natCast, ← zpow_add₀ (by norm_num), hd, zpow_zero]
  have hsplit : (2 : ℚ) ^ e = 2 ^ min F.lowest 0 * 2 ^ c := by
    rw [← zpow_natCast, ← zpow_add₀ (by norm_num), hc]
  have hfive : (2 : ℚ) ^ min F.lowest 0 = 5 ^ d * 10 ^ min F.lowest 0 := by
    have hpos : (0 : ℚ) < 2 ^ d := by positivity
    refine mul_right_cancel₀ hpos.ne' ?_
    rw [htwo, ← hten]
    ring
  rw [hsplit, hfive]
  push_cast
  ring

/-- No exponent above the first one writes the number. -/
theorem nearest_ne_of_top (hf : 0 < f) (h : F.Representable f) {j : ℤ} (hj : Int.log 10 f + 1 < j)
    (m : ℕ) : F.nearest (m * 10 ^ j) ≠ f := by
  intro hm
  rcases Nat.eq_zero_or_pos m with rfl | hpos
  · rw [Nat.cast_zero, zero_mul, nearest_zero] at hm
    exact hf.ne hm
  · have hlog : f < 10 ^ (Int.log 10 f + 1) := by
      exact_mod_cast Int.lt_zpow_succ_log_self (b := 10) (by norm_num) f
    have hnext : (10 : ℚ) ^ (Int.log 10 f + 1) * 10 ≤ 10 ^ j := by
      rw [← zpow_add_one₀ (by norm_num)]
      exact zpow_le_zpow_right₀ (by norm_num) (by omega)
    have hmul : (10 : ℚ) ^ j ≤ m * 10 ^ j := by
      have hone : (1 : ℚ) ≤ m := by exact_mod_cast hpos
      exact le_mul_of_one_le_left (ten_zpow_pos j).le hone
    have hdouble : F.Representable (f * 2) := by
      obtain ⟨n, e, hn, he, rfl⟩ := h
      refine ⟨n, e + 1, hn, by omega, ?_⟩
      rw [zpow_add_one₀ (by norm_num), mul_assoc]
    have hmono := nearest_mono (F := F) (q := f * 2) (r := m * 10 ^ j) (by linarith) (by linarith)
    rw [nearest_of_representable hdouble, hm] at hmono
    linarith

theorem isShortest_shortest (hf : 0 < f) (h : F.Representable f) :
    F.IsShortest f (F.shortest f) := by
  have hfix := nearest_of_representable h
  obtain ⟨n, hn⟩ := h.decimal
  have hpos : 0 < n := by
    rcases Nat.eq_zero_or_pos n with rfl | hpos
    · rw [Nat.cast_zero, zero_mul] at hn
      exact absurd hn hf.ne'
    · exact hpos
  have hbottom : min F.lowest 0 ≤ Int.log 10 f := by
    rw [← Int.zpow_le_iff_le_log (b := 10) (by norm_num) hf]
    have hone : (1 : ℚ) ≤ n := by exact_mod_cast hpos
    conv_rhs => rw [hn]
    exact_mod_cast le_mul_of_one_le_left (ten_zpow_pos (min F.lowest 0)).le hone
  rw [shortest, if_neg hf.ne']
  show F.IsShortest f ((F.search f (Int.log 10 f + 1 + 1 - min F.lowest 0).toNat _).getD f)
  rcases hsearch : F.search f (Int.log 10 f + 1 + 1 - min F.lowest 0).toNat (Int.log 10 f + 1)
    with _ | q
  · -- the last exponent writes the number out
    have hlast := search_none hsearch (min F.lowest 0) (by omega) (by omega)
    have hread : F.nearest (n * 10 ^ min F.lowest 0) = f := by rw [← hn, hfix]
    exact absurd hread (nearest_ne_of_pick hf.le hfix hlast n)
  · obtain ⟨k, hpick, habove⟩ := search_some hsearch
    obtain ⟨m, hq, hread, hbest⟩ := pick_spec hf.le hfix hpick
    refine ⟨k, m, hq, hread, fun j hj => ?_, hbest⟩
    rcases le_or_gt j (Int.log 10 f + 1) with hle | hlt
    · exact nearest_ne_of_pick hf.le hfix (habove j hj hle)
    · exact nearest_ne_of_top hf h hlt

theorem IsShortest.unique (hq : F.IsShortest f q) (hr : F.IsShortest f r) : q = r := by
  obtain ⟨k, n, rfl, hread, hmax, hbest⟩ := hq
  obtain ⟨k', n', rfl, hread', hmax', hbest'⟩ := hr
  rcases lt_trichotomy k k' with hlt | rfl | hlt
  · exact absurd hread' (hmax k' hlt n')
  · rcases hbest n' hread' with rfl | hnear
    · rfl
    · rcases hbest' n hread with rfl | hnear'
      · rfl
      · exfalso
        rcases hnear with hnear | ⟨hnear, heven, hodd⟩ <;>
          rcases hnear' with hnear' | ⟨hnear', heven', hodd'⟩
        · linarith
        · linarith
        · linarith
        · omega
  · exact absurd hread (hmax' k hlt n)

theorem shortest_eq_iff (hf : 0 < f) (h : F.Representable f) :
    F.shortest f = q ↔ F.IsShortest f q :=
  ⟨fun heq => heq ▸ isShortest_shortest hf h, fun hq => (isShortest_shortest hf h).unique hq⟩

/-- The text of a number is read as the number. -/
theorem nearest_shortest (h : F.Representable f) : F.nearest (F.shortest f) = f := by
  rcases h.nonneg.eq_or_lt with rfl | hf
  · rw [shortest, if_pos rfl, nearest_zero]
  · obtain ⟨_, _, _, hread, _⟩ := isShortest_shortest hf h
    exact hread

/-! ## Numbers that are written as they were read -/

theorem shortest_pos (hf : 0 < f) (h : F.Representable f) : 0 < F.shortest f := by
  obtain ⟨k, n, hq, hread, -⟩ := isShortest_shortest hf h
  rcases (mul_nonneg_of (k := k) n).lt_or_eq with hlt | heq
  · rwa [hq]
  · rw [hq, ← heq, nearest_zero] at hread
    exact absurd hread hf.ne

theorem shortest_of_few_digits (hn : 0 < n) (hfew : 4 * n < 2 ^ F.fractionBits)
    (hnormal : (2 : ℚ) ^ (F.lowest + F.fractionBits) ≤ n * 10 ^ k) :
    F.shortest (F.nearest (n * 10 ^ k)) = n * 10 ^ k := by
  set q : ℚ := n * 10 ^ k with hq
  set f : ℚ := F.nearest q with hf
  have hten := ten_zpow_pos k
  have hone : (1 : ℚ) ≤ n := by exact_mod_cast hn
  have hqpos : 0 < q := by positivity
  have hqten : (10 : ℚ) ^ k ≤ q := le_mul_of_one_le_left hten.le hone
  -- the digits leave room for one more
  have hroom : ((n : ℚ) + 1) * 4 ≤ 2 ^ F.fractionBits := by
    have hint : (n + 1) * 4 ≤ 2 ^ F.fractionBits := by
      revert hfew
      rcases F.fractionBits with _ | _ | bits
      · omega
      · omega
      · rw [pow_succ, pow_succ]
        omega
    exact_mod_cast hint
  have hroom' : (q + 10 ^ k) * 4 ≤ 2 ^ F.fractionBits * 10 ^ k := by
    have hmul := mul_le_mul_of_nonneg_right hroom hten.le
    linarith
  have hbits : (1 : ℚ) ≤ 2 ^ F.fractionBits := one_le_pow₀ (by norm_num)
  have hspace := two_zpow_pos (F.spacing q)
  have hstart : (2 : ℚ) ^ F.spacing q * 2 ^ F.fractionBits ≤ q := by
    rw [← zpow_natCast, ← zpow_add₀ (by norm_num)]
    rcases (lowest_le_spacing F q).lt_or_eq with hlt | heq
    · exact two_zpow_le hqpos hlt
    · rw [← heq]
      exact hnormal
  have hfine : (2 : ℚ) ^ F.spacing q * 4 ≤ 10 ^ k := by
    have hmul : (2 : ℚ) ^ F.spacing q * 4 * 2 ^ F.fractionBits ≤ 10 ^ k * 2 ^ F.fractionBits := by
      linarith
    exact le_of_mul_le_mul_right hmul (by linarith)
  have herror := abs_le.1 (abs_nearest_sub_le F q)
  rw [← hf] at herror
  have hfpos : 0 < f := by linarith [herror.1]
  have hrep : F.Representable f := representable_nearest hqpos.le
  have hspos := shortest_pos hfpos hrep
  obtain ⟨k', n', hs, hread, hmax, -⟩ := isShortest_shortest hfpos hrep
  set s : ℚ := F.shortest f
  have hk : k ≤ k' := by
    by_contra hlt
    exact hmax k (not_le.1 hlt) n rfl
  obtain ⟨d, hd⟩ := Int.le.dest hk
  have hmultiple : s = (n' * 10 ^ d : ℕ) * 10 ^ k := by
    rw [hs, ← hd, zpow_add₀ (by norm_num), zpow_natCast]
    push_cast
    ring
  have herror' := abs_le.1 (abs_nearest_sub_le F s)
  rw [hread] at herror'
  -- the spacing around the shortest number is fine as well
  have hfine' : (2 : ℚ) ^ F.spacing s ≤ 10 ^ k / 2 := by
    rcases le_or_gt (F.spacing s) (F.spacing q) with hle | hlt
    · have hmono : (2 : ℚ) ^ F.spacing s ≤ 2 ^ F.spacing q := zpow_le_zpow_right₀ (by norm_num) hle
      linarith
    · have hstart' : (2 : ℚ) ^ F.spacing s * 2 ^ F.fractionBits ≤ s := by
        rw [← zpow_natCast, ← zpow_add₀ (by norm_num)]
        exact two_zpow_le hspos ((lowest_le_spacing F q).trans_lt hlt)
      have hmul : (2 : ℚ) ^ F.spacing s * (2 ^ F.fractionBits - 1 / 2) ≤
          10 ^ k / 2 * (2 ^ F.fractionBits - 1 / 2) := by
        have hbits' := mul_le_mul_of_nonneg_right hbits hten.le
        linarith [herror.2, herror'.1]
      exact le_of_mul_le_mul_right hmul (by linarith)
  have hnear : |s - q| < 10 ^ k := by
    rw [abs_lt]
    constructor <;> linarith [herror.1, herror.2, herror'.1, herror'.2]
  have hsame : ((n' * 10 ^ d : ℕ) : ℤ) - n = 0 := by
    have hdiff : s - q = ((((n' * 10 ^ d : ℕ) : ℤ) - n : ℤ) : ℚ) * 10 ^ k := by
      rw [hmultiple, hq]
      push_cast
      ring
    rw [hdiff, abs_mul, abs_of_pos hten] at hnear
    have hlt : |((((n' * 10 ^ d : ℕ) : ℤ) - n : ℤ) : ℚ)| < 1 :=
      lt_of_mul_lt_mul_right (by rwa [one_mul]) hten.le
    exact Int.abs_lt_one_iff.1 (by exact_mod_cast hlt)
  rw [hmultiple, hq]
  congr 1
  exact_mod_cast sub_eq_zero.1 hsame

theorem shortest_natCast (hlow : F.lowest ≤ 0) (hbits : 0 < F.fractionBits)
    (hn : n ≤ 2 ^ (F.fractionBits + 1)) : F.shortest (F.nearest n) = n := by
  have hsmall : ∀ N : ℕ, N ≤ 2 ^ (F.fractionBits + 1) → F.Representable N := by
    intro N hN
    rcases hN.lt_or_eq with hlt | rfl
    · exact ⟨N, 0, hlt, hlow, by simp⟩
    · have hrep := representable_two_zpow (F := F) (e := F.fractionBits + 1) (by omega)
      exact_mod_cast hrep
  have hrep := hsmall n hn
  rw [nearest_of_representable hrep]
  rcases Nat.eq_zero_or_pos n with rfl | hpos
  · exact if_pos Nat.cast_zero
  · obtain ⟨k, m, hs, hread, hmax, hbest⟩ := isShortest_shortest (by exact_mod_cast hpos) hrep
    have hself : F.nearest ((n : ℚ) * 10 ^ (0 : ℤ)) = n := by
      rw [zpow_zero, mul_one, nearest_of_representable hrep]
    have hk : 0 ≤ k := by
      by_contra hlt
      exact hmax 0 (not_le.1 hlt) n hself
    obtain ⟨d, rfl⟩ := Int.eq_ofNat_of_zero_le hk
    have hint : F.shortest n = (m * 10 ^ d : ℕ) := by
      rw [hs]
      push_cast
      rw [zpow_natCast]
    rw [hint] at hread ⊢
    congr 1
    rcases Nat.lt_trichotomy (m * 10 ^ d) (2 ^ (F.fractionBits + 1) + 1) with hlt | heq | hgt
    · rw [nearest_of_representable (hsmall _ (by omega))] at hread
      exact_mod_cast hread
    · -- one above the end is odd, so that it was chosen among all integers
      have hd : d = 0 := by
        rcases d with _ | d
        · rfl
        · rw [pow_succ, ← mul_assoc, pow_succ] at heq
          omega
      subst hd
      rcases hbest n hself with hsame | hnear
      · rw [← hsame, pow_zero, mul_one]
      · have hzero : |(n : ℚ) * 10 ^ ((0 : ℕ) : ℤ) - n| = 0 := by simp
        rw [Closer, hzero] at hnear
        rcases hnear with hlt | ⟨hsame, -⟩
        · exact absurd hlt (not_lt.2 (abs_nonneg _))
        · have hsame := sub_eq_zero.1 (abs_eq_zero.1 hsame)
          rw [Nat.cast_zero, zpow_zero, mul_one] at hsame
          rw [pow_zero, mul_one]
          exact_mod_cast hsame
    · -- two above the end is in the format, and above `n`
      have hnext : F.Representable ((2 ^ (F.fractionBits + 1) + 2 : ℕ) : ℚ) := by
        refine ⟨2 ^ F.fractionBits + 1, 1, ?_, by omega, ?_⟩
        · have htwo : 2 ≤ 2 ^ F.fractionBits := Nat.le_self_pow hbits.ne' 2
          rw [pow_succ]
          omega
        · push_cast
          ring
      have hmono := nearest_mono (F := F) (q := ((2 ^ (F.fractionBits + 1) + 2 : ℕ) : ℚ))
        (r := ((m * 10 ^ d : ℕ) : ℚ)) (Nat.cast_nonneg _) (by exact_mod_cast hgt)
      rw [nearest_of_representable hnext, hread] at hmono
      have hcast : 2 ^ (F.fractionBits + 1) + 2 ≤ n := by exact_mod_cast hmono
      omega

theorem shortest_digits (hf : 0 < f) (h : F.Representable f) :
    ∃ (n : ℕ) (k : ℤ), F.shortest f = n * 10 ^ k ∧ n < 160 * 2 ^ F.fractionBits := by
  obtain ⟨k, n, hs, hread, hmax, -⟩ := isShortest_shortest hf h
  refine ⟨n, k, hs, ?_⟩
  have hten := ten_zpow_pos k
  have hnext : (10 : ℚ) ^ (k + 1) = 10 ^ k * 10 := zpow_add_one₀ (by norm_num) k
  have hspace := two_zpow_pos (F.spacing f)
  -- one digit less would have been read as another number
  have hcoarse : (2 : ℚ) ^ F.spacing f < 10 ^ k * 40 := by
    by_contra hle
    rw [not_lt] at hle
    refine hmax (k + 1) (by omega) ⌊f / 10 ^ (k + 1)⌋₊ (nearest_of_near hf h ?_)
    have hdown := (around hf.le (k + 1)).1
    have hlt := Nat.lt_floor_add_one (f / 10 ^ (k + 1))
    rw [div_lt_iff₀ (ten_zpow_pos (k + 1)), add_mul, one_mul] at hlt
    rw [abs_lt]
    constructor <;> linarith
  have hbelow : F.shortest f < 2 ^ (F.spacing f + F.fractionBits + 2) := by
    by_contra hle
    rw [not_lt] at hle
    have hrep : F.Representable (2 ^ (F.spacing f + F.fractionBits + 2)) :=
      representable_two_zpow (by have := lowest_le_spacing F f; omega)
    have hmono := nearest_mono (F := F) hrep.nonneg hle
    rw [nearest_of_representable hrep, nearest_shortest h] at hmono
    have hend : (2 : ℚ) ^ (F.spacing f + F.fractionBits + 1) ≤
        2 ^ (F.spacing f + F.fractionBits + 2) := zpow_le_zpow_right₀ (by norm_num) (by omega)
    linarith [lt_two_zpow (F := F) f]
  have hsplit : (2 : ℚ) ^ (F.spacing f + F.fractionBits + 2) =
      2 ^ F.spacing f * (2 ^ F.fractionBits * 4) := by
    rw [add_assoc, zpow_add₀ (by norm_num), zpow_add₀ (by norm_num), zpow_natCast]
    norm_num
  have hbits : (0 : ℚ) < 2 ^ F.fractionBits := by positivity
  rw [hs, hsplit] at hbelow
  have hmul : (2 : ℚ) ^ F.spacing f * (2 ^ F.fractionBits * 4) ≤
      10 ^ k * 40 * (2 ^ F.fractionBits * 4) :=
    mul_le_mul_of_nonneg_right hcoarse.le (by linarith)
  have hlt : (n : ℚ) < 160 * 2 ^ F.fractionBits :=
    lt_of_mul_lt_mul_right (by linarith) hten.le
  exact_mod_cast hlt

/-- It is not far below the smallest spacing. -/
theorem lt_shortest (hf : 0 < f) (h : F.Representable f) :
    (2 : ℚ) ^ (F.lowest - 2) < F.shortest f := by
  by_contra hle
  rw [not_lt] at hle
  have hquarter : (2 : ℚ) ^ (F.lowest - 2) / 2 ^ F.lowest = 1 / 4 := by
    rw [← zpow_sub₀ (by norm_num), sub_sub_cancel_left]
    norm_num
  have hspacing : F.spacing (2 ^ (F.lowest - 2)) = F.lowest := by
    refine le_antisymm (spacing_le (two_zpow_pos _) le_rfl ?_) (lowest_le_spacing F _)
    exact zpow_lt_zpow_right₀ (by norm_num) (by omega)
  have hzero : F.nearest (2 ^ (F.lowest - 2)) = 0 := by
    have hround : roundEven (1 / 4 : ℚ) = 0 := roundEven_eq (by norm_num)
    rw [nearest, hspacing, hquarter, hround, Int.cast_zero, zero_mul]
  have hmono := nearest_mono (F := F) (shortest_pos hf h).le hle
  rw [hzero, nearest_shortest h] at hmono
  linarith

theorem shortest_nearest_shortest {G : FloatFormat} (hf : 0 < f) (h : F.Representable f)
    (hbits : 640 * 2 ^ F.fractionBits ≤ 2 ^ G.fractionBits)
    (hlow : G.lowest + G.fractionBits ≤ F.lowest - 2) :
    G.shortest (G.nearest (F.shortest f)) = F.shortest f := by
  obtain ⟨n, k, hs, hn⟩ := shortest_digits hf h
  have hpos := shortest_pos hf h
  have hsmall := lt_shortest hf h
  rw [hs] at hpos hsmall ⊢
  refine shortest_of_few_digits ?_ (by omega) ?_
  · have hcast : (0 : ℚ) < n := pos_of_mul_pos_left hpos (ten_zpow_pos k).le
    exact_mod_cast hcast
  · have hmono : (2 : ℚ) ^ (G.lowest + G.fractionBits) ≤ 2 ^ (F.lowest - 2) :=
      zpow_le_zpow_right₀ (by norm_num) hlow
    linarith

end Shortest

end FloatFormat

end CheatEngine.Lib
