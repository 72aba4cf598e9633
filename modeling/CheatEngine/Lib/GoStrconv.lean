/-
  CheatEngine.Lib.GoStrconv

  Integers of package `strconv`: `ParseUint` and `ParseInt` with base 0, which read
  Go literals with their prefixes and underscores, and the decimal text that
  `FormatInt` writes.  What was written is read back, and nothing is read back
  that does not fit.
-/
import Mathlib.Algebra.Group.Nat.Defs
import Mathlib.Data.List.Basic
import Mathlib.Tactic.IntervalCases

namespace CheatEngine.Lib.Go

/-! ## Reading -/

/-- `ErrSyntax` and `ErrRange`. -/
inductive NumError
  | invalid
  | outOfRange

/-- `lower`: the lower case of a letter, and something else of anything else. -/
def lowerByte (c : UInt8) : UInt8 := c ||| 0x20

def digitValue (c : UInt8) : Option Nat :=
  if 48 ≤ c ∧ c ≤ 57 then some (c.toNat - 48)
  else if 97 ≤ lowerByte c ∧ lowerByte c ≤ 122 then some ((lowerByte c).toNat - 97 + 10)
  else none

/-- The base that the start of a literal tells, and the digits behind it. -/
def literalBase : List UInt8 → Nat × List UInt8
  | 48 :: c :: d :: s =>
    if lowerByte c = 98 then (2, d :: s)
    else if lowerByte c = 111 then (8, d :: s)
    else if lowerByte c = 120 then (16, d :: s)
    else (8, c :: d :: s)
  | 48 :: s => (8, s)
  | s => (10, s)

/-- The digits of a number up to `max`, with underscores between them. -/
def parseDigits (base max : Nat) : Nat → List UInt8 → Except NumError Nat
  | n, [] => .ok n
  | n, c :: s =>
    if c = 95 then parseDigits base max n s
    else
      match digitValue c with
      | none => .error .invalid
      | some d =>
        if base ≤ d then .error .invalid
        else if max < n * base + d then .error .outOfRange
        else parseDigits base max (n * base + d) s

/-- What was seen before a character: a digit, an underscore or something else. -/
inductive Seen
  | start
  | digit
  | underscore
  | other
  deriving DecidableEq, Repr

def underscoresBetween (hex : Bool) : Seen → List UInt8 → Bool
  | seen, [] => seen != .underscore
  | seen, c :: s =>
    if (48 ≤ c ∧ c ≤ 57) ∨ (hex ∧ 97 ≤ lowerByte c ∧ lowerByte c ≤ 102) then
      underscoresBetween hex .digit s
    else if c = 95 then seen == .digit && underscoresBetween hex .underscore s
    else seen != .underscore && underscoresBetween hex .other s

def underscoreOKUnsigned : List UInt8 → Bool
  | 48 :: c :: s =>
    if lowerByte c = 98 ∨ lowerByte c = 111 ∨ lowerByte c = 120 then
      underscoresBetween (lowerByte c = 120) .digit s
    else underscoresBetween false .start (48 :: c :: s)
  | s => underscoresBetween false .start s

def underscoreOK : List UInt8 → Bool
  | 43 :: s => underscoreOKUnsigned s
  | 45 :: s => underscoreOKUnsigned s
  | s => underscoreOKUnsigned s

def parseUint (s : List UInt8) (bits : Nat) : Except NumError Nat :=
  if s = [] then .error .invalid
  else
    match parseDigits (literalBase s).1 (2 ^ bits - 1) 0 (literalBase s).2 with
    | .error e => .error e
    | .ok n =>
      if 95 ∈ (literalBase s).2 ∧ underscoreOK s = false then .error .invalid
      else .ok n

def signOf : List UInt8 → Bool × List UInt8
  | 43 :: s => (false, s)
  | 45 :: s => (true, s)
  | s => (false, s)

def parseInt (s : List UInt8) (bits : Nat) : Except NumError Int :=
  if s = [] then .error .invalid
  else
    match parseUint (signOf s).2 bits with
    | .error e => .error e
    | .ok un =>
      if (signOf s).1 then
        if 2 ^ (bits - 1) < un then .error .outOfRange else .ok (-un)
      else if 2 ^ (bits - 1) ≤ un then .error .outOfRange
      else .ok un

def decimalDigit (d : Nat) : UInt8 := UInt8.ofNat (48 + d)

def decimalNat (n : Nat) : List UInt8 := (Nat.toDigits 10 n).map Char.toUInt8

def decimal (v : Int) : List UInt8 :=
  if v < 0 then 45 :: decimalNat v.natAbs else decimalNat v.natAbs

theorem toUInt8_digitChar {d : Nat} (h : d < 10) : d.digitChar.toUInt8 = decimalDigit d := by
  interval_cases d <;> rfl

theorem decimalNat_eq (n : Nat) :
    decimalNat n = if n < 10 then [decimalDigit n] else decimalNat (n / 10) ++ [decimalDigit (n % 10)] := by
  rw [decimalNat, Nat.toDigits_eq_if (by omega)]
  split
  · next h => rw [List.map_singleton, toUInt8_digitChar h]
  · rw [List.map_append, List.map_singleton, toUInt8_digitChar (Nat.mod_lt n (by omega))]
    rfl

theorem decimalNat_lt {n : Nat} (h : n < 10) : decimalNat n = [decimalDigit n] := by
  rw [decimalNat_eq, if_pos h]

theorem decimalNat_ge {n : Nat} (h : 10 ≤ n) :
    decimalNat n = decimalNat (n / 10) ++ [decimalDigit (n % 10)] := by
  rw [decimalNat_eq, if_neg (by omega)]

/-! ## Reading what was written -/

section Decimal

variable {d : Nat}

theorem digitValue_decimalDigit (h : d < 10) : digitValue (decimalDigit d) = some d := by
  interval_cases d <;> rfl

theorem decimalDigit_ne_underscore (h : d < 10) : decimalDigit d ≠ 95 := by
  interval_cases d <;> decide

theorem parseDigits_append (base max n : Nat) (s t : List UInt8) :
    parseDigits base max n (s ++ t) =
      parseDigits base max n s >>= fun m => parseDigits base max m t := by
  induction s generalizing n with
  | nil => rfl
  | cons c s ih =>
    rw [List.cons_append, parseDigits, parseDigits]
    split
    · exact ih n
    · cases digitValue c with
      | none => rfl
      | some d =>
        simp only
        split
        · rfl
        · split
          · rfl
          · exact ih _

theorem parseDigits_digit (max n : Nat) (h : d < 10) :
    parseDigits 10 max n [decimalDigit d] =
      if max < n * 10 + d then .error .outOfRange else .ok (n * 10 + d) := by
  rw [parseDigits, if_neg (decimalDigit_ne_underscore h), digitValue_decimalDigit h]
  simp only [if_neg (Nat.not_le.2 h), parseDigits]

theorem parseDigits_decimalNat (max n : Nat) :
    parseDigits 10 max 0 (decimalNat n) = if max < n then .error .outOfRange else .ok n := by
  induction n using Nat.strongRecOn with
  | _ n ih =>
    by_cases hlt : n < 10
    · rw [decimalNat_lt hlt, parseDigits_digit max 0 hlt, Nat.zero_mul, Nat.zero_add]
    · rw [decimalNat_ge (Nat.le_of_not_lt hlt), parseDigits_append,
        ih (n / 10) (Nat.div_lt_self (by omega) (by omega))]
      by_cases hmax : max < n / 10
      · rw [if_pos hmax, if_pos (by omega)]
        rfl
      · rw [if_neg hmax]
        show parseDigits 10 max (n / 10) [decimalDigit (n % 10)] = _
        rw [parseDigits_digit max (n / 10) (Nat.mod_lt n (by omega)), Nat.div_add_mod']

variable {n : Nat}

theorem decimalNat_head (h : 0 < n) : ∃ d s, decimalNat n = decimalDigit d :: s ∧
    0 < d ∧ d < 10 := by
  induction n using Nat.strongRecOn with
  | _ n ih =>
    by_cases hlt : n < 10
    · exact ⟨n, [], decimalNat_lt hlt, h, hlt⟩
    · obtain ⟨d, s, hds, hd⟩ := ih (n / 10) (Nat.div_lt_self h (by omega)) (by omega)
      exact ⟨d, s ++ [decimalDigit (n % 10)], by
        rw [decimalNat_ge (Nat.le_of_not_lt hlt), hds, List.cons_append], hd⟩

theorem mem_decimalNat {c : UInt8} (h : c ∈ decimalNat n) :
    ∃ d, d < 10 ∧ c = decimalDigit d := by
  induction n using Nat.strongRecOn with
  | _ n ih =>
    by_cases hlt : n < 10
    · rw [decimalNat_lt hlt, List.mem_singleton] at h
      exact ⟨n, hlt, h⟩
    · rw [decimalNat_ge (Nat.le_of_not_lt hlt), List.mem_append, List.mem_singleton] at h
      rcases h with h | h
      · exact ih (n / 10) (Nat.div_lt_self (by omega) (by omega)) h
      · exact ⟨n % 10, Nat.mod_lt n (by omega), h⟩

theorem decimalNat_ne_nil (n : Nat) : decimalNat n ≠ [] := by
  rw [decimalNat_eq]
  split <;> simp

theorem literalBase_decimalNat (h : 0 < n) : literalBase (decimalNat n) = (10, decimalNat n) := by
  obtain ⟨d, s, hds, hpos, hlt⟩ := decimalNat_head h
  rw [hds]
  interval_cases d <;> rfl

theorem parseUint_decimalNat (n bits : Nat) :
    parseUint (decimalNat n) bits = if n < 2 ^ bits then .ok n else .error .outOfRange := by
  have hpow : 0 < 2 ^ bits := Nat.two_pow_pos bits
  rw [parseUint, if_neg (decimalNat_ne_nil n)]
  rcases Nat.eq_zero_or_pos n with rfl | hpos
  · rw [if_pos hpow]
    rfl
  · have hnone : 95 ∉ decimalNat n := by
      intro h
      obtain ⟨d, hd, hc⟩ := mem_decimalNat h
      exact decimalDigit_ne_underscore hd hc.symm
    rw [literalBase_decimalNat hpos, parseDigits_decimalNat]
    by_cases hfit : n < 2 ^ bits
    · rw [if_neg (by omega), if_pos hfit]
      exact if_neg fun h => hnone h.1
    · rw [if_pos (by omega), if_neg hfit]

theorem parseUint_minus (s : List UInt8) (bits : Nat) :
    parseUint (45 :: s) bits = .error .invalid := rfl

theorem signOf_decimalNat (n : Nat) : signOf (decimalNat n) = (false, decimalNat n) := by
  rcases Nat.eq_zero_or_pos n with rfl | hpos
  · rfl
  · obtain ⟨d, s, hds, hpos, hlt⟩ := decimalNat_head hpos
    rw [hds]
    interval_cases d <;> rfl

theorem parseInt_decimal (v : Int) {bits : Nat} (hbits : 0 < bits) :
    parseInt (decimal v) bits =
      if -2 ^ (bits - 1) ≤ v ∧ v < 2 ^ (bits - 1) then .ok v else .error .outOfRange := by
  have hpow : 2 ^ (bits - 1) < 2 ^ bits := Nat.pow_lt_pow_right (by omega) (by omega)
  have hcast : ((2 ^ (bits - 1) : Nat) : Int) = 2 ^ (bits - 1) := by norm_cast
  rw [decimal]
  split
  · next hneg =>
    rw [parseInt, if_neg (List.cons_ne_nil _ _)]
    show (match parseUint (decimalNat v.natAbs) bits with
      | .error e => Except.error e
      | .ok un => if 2 ^ (bits - 1) < un then .error .outOfRange else .ok (-(un : Int))) = _
    rw [parseUint_decimalNat]
    by_cases hfit : v.natAbs < 2 ^ bits
    · rw [if_pos hfit]
      simp only
      by_cases hlow : 2 ^ (bits - 1) < v.natAbs
      · rw [if_pos hlow, if_neg (by omega)]
      · rw [if_neg hlow, if_pos (by omega)]
        congr 1
        omega
    · rw [if_neg hfit, if_neg (by omega)]
  · next hneg =>
    rw [parseInt, if_neg (decimalNat_ne_nil _), signOf_decimalNat, parseUint_decimalNat]
    by_cases hfit : v.natAbs < 2 ^ bits
    · rw [if_pos hfit]
      simp only [Bool.false_eq_true, if_false]
      by_cases hhigh : 2 ^ (bits - 1) ≤ v.natAbs
      · rw [if_pos hhigh, if_neg (by omega)]
      · rw [if_neg hhigh, if_pos (by omega)]
        congr 1
        omega
    · rw [if_neg hfit, if_neg (by omega)]

end Decimal

end CheatEngine.Lib.Go
