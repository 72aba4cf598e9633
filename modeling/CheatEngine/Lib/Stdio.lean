/-
  CheatEngine.Lib.Stdio

  Texts as the C library reads and writes them: `fgets` on a stream, the conversions
  `%llx`, `%s` and `%d` of `sscanf`, and numbers in hexadecimal with leading zeros and
  in decimal.

  A character is one byte, in the "C" locale.
-/
import Mathlib.Algebra.Group.Nat.Defs
import Mathlib.Data.List.Basic
import Mathlib.Tactic.IntervalCases

namespace CheatEngine.Lib

/-- At most `n` characters, up to a newline; and what is left of the stream. -/
def fgetsLine : Nat → List Char → List Char × List Char
  | 0, s => ([], s)
  | _ + 1, [] => ([], [])
  | n + 1, c :: s =>
    if c = '\n' then ([c], s) else (c :: (fgetsLine n s).1, (fgetsLine n s).2)

/-- `fgets` with a buffer of `size` characters, the last one for the NUL. -/
def fgets (size : Nat) (s : List Char) : Option (List Char × List Char) :=
  if s = [] then none else some (fgetsLine (size - 1) s)

theorem fgetsLine_short {body : List Char} (hbody : '\n' ∉ body) (s : List Char) :
    ∀ n, body.length < n → fgetsLine n (body ++ '\n' :: s) = (body ++ ['\n'], s) := by
  induction body with
  | nil =>
    intro n hn
    obtain ⟨n, rfl⟩ : ∃ k, n = k + 1 := ⟨n - 1, by omega⟩
    rfl
  | cons c body ih =>
    intro n hn
    obtain ⟨n, rfl⟩ : ∃ k, n = k + 1 := ⟨n - 1, by omega⟩
    rw [List.mem_cons, not_or] at hbody
    have hrest := ih hbody.2 n (by rw [List.length_cons] at hn; omega)
    rw [List.cons_append, fgetsLine, if_neg (fun h => hbody.1 h.symm), hrest]
    rfl

theorem fgetsLine_long {body : List Char} (hbody : '\n' ∉ body) (s : List Char) :
    ∀ n, n ≤ body.length → fgetsLine n (body ++ s) = (body.take n, body.drop n ++ s) := by
  induction body with
  | nil =>
    intro n hn
    obtain rfl : n = 0 := by rw [List.length_nil] at hn; omega
    rfl
  | cons c body ih =>
    intro n hn
    cases n with
    | zero => rfl
    | succ n =>
      rw [List.mem_cons, not_or] at hbody
      have hrest := ih hbody.2 n (by rw [List.length_cons] at hn; omega)
      rw [List.cons_append, fgetsLine, if_neg (fun h => hbody.1 h.symm), hrest]
      rfl

theorem length_fgetsLine (n : Nat) (s : List Char) :
    (fgetsLine n s).1.length + (fgetsLine n s).2.length = s.length := by
  induction n generalizing s with
  | zero => simp [fgetsLine]
  | succ n ih =>
    cases s with
    | nil => rfl
    | cons c s =>
      rw [fgetsLine]
      split
      · simp; omega
      · have hrest := ih s
        simp only [List.length_cons]
        omega

variable {s : List Char}

/-- What is read and what is left are the stream, and something is read. -/
theorem length_fgets {size : Nat} {x rest : List Char} (hsize : 2 ≤ size)
    (h : fgets size s = some (x, rest)) : x.length + rest.length = s.length ∧ 0 < x.length := by
  obtain ⟨n, rfl⟩ : ∃ n, size = n + 2 := ⟨size - 2, by omega⟩
  cases s with
  | nil => cases h
  | cons c s =>
    have hlen := length_fgetsLine (n + 1) (c :: s)
    have hone : 0 < (fgetsLine (n + 1) (c :: s)).1.length := by
      rw [fgetsLine]
      split <;> simp
    have hread : fgetsLine (n + 1) (c :: s) = (x, rest) := Option.some.inj h
    rw [hread] at hlen hone
    exact ⟨hlen, hone⟩

/-- `isspace`. -/
def isSpace (c : Char) : Bool := c = ' ' || (9 ≤ c.toNat && c.toNat ≤ 13)

def hexValue (c : Char) : Option Nat :=
  if 48 ≤ c.toNat ∧ c.toNat ≤ 57 then some (c.toNat - 48)
  else if 97 ≤ c.toNat ∧ c.toNat ≤ 102 then some (c.toNat - 87)
  else if 65 ≤ c.toNat ∧ c.toNat ≤ 70 then some (c.toNat - 55)
  else none

/-- The digits from here on, behind the number `acc`. -/
def hexDigits : Nat → List Char → Nat × List Char
  | acc, [] => (acc, [])
  | acc, c :: s =>
    match hexValue c with
    | some d => hexDigits (16 * acc + d) s
    | none => (acc, c :: s)

def skipSign : List Char → Bool × List Char
  | '-' :: s => (true, s)
  | '+' :: s => (false, s)
  | s => (false, s)

/-- `0x` in front of a number. -/
def skipPrefix : List Char → List Char
  | '0' :: x :: s => if x = 'x' ∨ x = 'X' then s else '0' :: x :: s
  | s => s

/-- What `strtoull` makes of a number. -/
def toULongLong (negative : Bool) (v : Nat) : Nat :=
  if 2 ^ 64 ≤ v then 2 ^ 64 - 1 else if negative then (2 ^ 64 - v) % 2 ^ 64 else v

/-- `%llx`, with what is left of the text. -/
def scanHex (s : List Char) : Option (Nat × List Char) :=
  let (negative, s) := skipSign (s.dropWhile isSpace)
  let s := skipPrefix s
  match s with
  | [] => none
  | c :: _ =>
    if (hexValue c).isSome then
      some (toULongLong negative (hexDigits 0 s).1, (hexDigits 0 s).2)
    else none

def scanWord (s : List Char) : Option (List Char) :=
  let word := (s.dropWhile isSpace).takeWhile (fun c => !isSpace c)
  if word = [] then none else some word

/-- `%d`: `strtol`, and the low 32 bits of it. -/
def scanInt (s : List Char) : Option Int :=
  let (negative, s) := skipSign (s.dropWhile isSpace)
  let digits := s.takeWhile Char.isDigit
  if digits = [] then none
  else
    let v : Int := digits.foldl (fun acc c => 10 * acc + (c.toNat - 48)) 0
    let long := if negative then max (-v) (-2 ^ 63) else min v (2 ^ 63 - 1)
    some (Int.bmod long (2 ^ 32))

def scanUntilColon (n : Nat) (s : List Char) : Option (List Char × List Char) :=
  let name := (s.takeWhile (· ≠ ':')).take n
  if name = [] then none else some (name, s.drop name.length)

theorem toULongLong_lt (negative : Bool) (v : Nat) : toULongLong negative v < 2 ^ 64 := by
  unfold toULongLong
  split
  · decide
  · split
    · exact Nat.mod_lt _ (by decide)
    · omega

variable {v : Nat}

theorem scanHex_lt {t : List Char} (h : scanHex s = some (v, t)) : v < 2 ^ 64 := by
  unfold scanHex at h
  dsimp only at h
  split at h
  · cases h
  · split at h
    · cases h
      exact toULongLong_lt _ _
    · cases h

/-! ## Hexadecimal numbers -/

/-- `%0wx` -/
def putHex (w v : Nat) : List Char := (Nat.toDigits 16 v).leftpad w '0'

theorem hexValue_digitChar {d : Nat} (h : d < 16) : hexValue d.digitChar = some d := by
  interval_cases d <;> rfl

variable {c : Char}

theorem hexDigits_cons {d : Nat} (h : hexValue c = some d) (acc : Nat) (s : List Char) :
    hexDigits acc (c :: s) = hexDigits (16 * acc + d) s := by
  rw [hexDigits, h]

theorem hexDigits_zeros (k : Nat) (s : List Char) :
    hexDigits 0 (List.replicate k '0' ++ s) = hexDigits 0 s := by
  induction k with
  | zero => rfl
  | succ k ih =>
    have hzero : hexValue '0' = some 0 := rfl
    rw [List.replicate_succ, List.cons_append, hexDigits_cons hzero, Nat.mul_zero, Nat.add_zero, ih]

/-- The digits are read from the front: by induction on the number, its last digit comes last. -/
theorem hexDigits_toDigits (v : Nat) (s : List Char) :
    hexDigits 0 (Nat.toDigits 16 v ++ s) = hexDigits v s := by
  induction v using Nat.strongRecOn generalizing s with
  | ind v ih =>
    by_cases hsmall : v < 16
    · rw [Nat.toDigits_of_lt_base hsmall, List.singleton_append,
        hexDigits_cons (hexValue_digitChar hsmall), Nat.mul_zero, Nat.zero_add]
    · have hfront := ih (v / 16) (by omega) ((v % 16).digitChar :: s)
      have hlast : hexValue (v % 16).digitChar = some (v % 16) :=
        hexValue_digitChar (Nat.mod_lt _ (by decide))
      rw [Nat.toDigits_of_base_le (by decide) (by omega), List.append_assoc,
        List.singleton_append, hfront, hexDigits_cons hlast, Nat.div_add_mod]

theorem hexDigits_putHex (w v : Nat) (s : List Char) :
    hexDigits 0 (putHex w v ++ s) = hexDigits v s := by
  rw [putHex, List.leftpad, List.append_assoc, hexDigits_zeros, hexDigits_toDigits]

theorem hexValue_toDigits : ∀ c ∈ Nat.toDigits 16 v, (hexValue c).isSome := by
  induction v using Nat.strongRecOn with
  | ind v ih =>
    intro c hc
    by_cases hsmall : v < 16
    · rw [Nat.toDigits_of_lt_base hsmall, List.mem_singleton] at hc
      rw [hc, hexValue_digitChar hsmall]
      rfl
    · rw [Nat.toDigits_of_base_le (by decide) (by omega), List.mem_append,
        List.mem_singleton] at hc
      rcases hc with hc | rfl
      · exact ih (v / 16) (by omega) c hc
      · rw [hexValue_digitChar (Nat.mod_lt _ (by decide))]
        rfl

theorem hexValue_putHex {w : Nat} (h : c ∈ putHex w v) : (hexValue c).isSome := by
  rw [putHex, List.leftpad, List.mem_append] at h
  rcases h with h | h
  · rw [List.eq_of_mem_replicate h]
    rfl
  · exact hexValue_toDigits c h

theorem putHex_ne_nil (w v : Nat) : putHex w v ≠ [] := by
  rw [putHex, List.leftpad]
  simp [Nat.toDigits_ne_nil]

theorem hexValue_special (h : (hexValue c).isSome) :
    isSpace c = false ∧ c ≠ '-' ∧ c ≠ '+' ∧ c ≠ 'x' ∧ c ≠ 'X' ∧ c ≠ '\n' ∧ c ≠ ':' := by
  refine ⟨?_, ?_, ?_, ?_, ?_, ?_, ?_⟩
  · by_contra hspace
    rw [Bool.not_eq_false, isSpace, Bool.or_eq_true, decide_eq_true_eq, Bool.and_eq_true,
      decide_eq_true_eq, decide_eq_true_eq] at hspace
    rcases hspace with rfl | hspace
    · cases h
    · rw [hexValue, if_neg (by omega), if_neg (by omega), if_neg (by omega)] at h
      cases h
  all_goals rintro rfl; cases h

theorem skipSign_eq (hminus : c ≠ '-') (hplus : c ≠ '+') (s : List Char) :
    skipSign (c :: s) = (false, c :: s) := by
  unfold skipSign
  split
  · rename_i h
    cases h
    exact absurd rfl hminus
  · rename_i h
    cases h
    exact absurd rfl hplus
  · rfl

theorem skipPrefix_eq {x : Char} (hx : x ≠ 'x') (hX : x ≠ 'X') (s : List Char) :
    skipPrefix (c :: x :: s) = c :: x :: s := by
  unfold skipPrefix
  split
  · rename_i h
    cases h
    rw [if_neg (by simp [hx, hX])]
  · rfl

/-- A number that was written is read again, up to a character that is no digit. -/
theorem scanHex_putHex {w : Nat} (hv : v < 2 ^ 64) (hc : hexValue c = none)
    (hx : c ≠ 'x' ∧ c ≠ 'X') (s : List Char) :
    scanHex (putHex w v ++ c :: s) = some (v, c :: s) := by
  have hvalue : hexDigits 0 (putHex w v ++ c :: s) = (v, c :: s) := by
    rw [hexDigits_putHex, hexDigits, hc]
  -- the first digit, and the character behind it
  obtain ⟨d, digits, hput⟩ := List.exists_cons_of_ne_nil (putHex_ne_nil w v)
  have hd : (hexValue d).isSome := hexValue_putHex (by rw [hput]; exact List.mem_cons_self)
  obtain ⟨hspace, hminus, hplus, -⟩ := hexValue_special hd
  have hskip : skipPrefix (d :: (digits ++ c :: s)) = d :: (digits ++ c :: s) := by
    cases digits with
    | nil => exact skipPrefix_eq hx.1 hx.2 s
    | cons e digits =>
      have he : (hexValue e).isSome := hexValue_putHex (w := w) (v := v) (by rw [hput]; simp)
      obtain ⟨-, -, -, hnx, hnX, -⟩ := hexValue_special he
      exact skipPrefix_eq hnx hnX _
  rw [hput, List.cons_append] at hvalue ⊢
  rw [scanHex, List.dropWhile_cons, hspace, if_neg Bool.false_ne_true, skipSign_eq hminus hplus]
  dsimp only
  rw [hskip]
  dsimp only
  rw [if_pos hd, hvalue, toULongLong, if_neg (by omega)]
  rfl

/-! ## Decimal numbers -/

/-- `%d` of `printf` -/
def putDec (v : Int) : List Char :=
  if v < 0 then '-' :: Nat.toDigits 10 v.natAbs else Nat.toDigits 10 v.natAbs

def atoi (s : List Char) : Int := (scanInt s).getD 0

theorem isDigit_range (h : c.isDigit = true) : 48 ≤ c.toNat ∧ c.toNat ≤ 57 := by
  rw [Char.isDigit, Bool.and_eq_true, decide_eq_true_eq, decide_eq_true_eq] at h
  exact h

theorem decDigits_eq {digits : List Char} (h : ∀ c ∈ digits, c.isDigit = true) (n : Nat) :
    digits.foldl (fun (acc : Int) c => 10 * acc + (c.toNat - 48)) n =
      (Nat.ofDigitChars 10 digits n : Nat) := by
  induction digits generalizing n with
  | nil => rfl
  | cons c digits ih =>
    obtain ⟨hc, hrest⟩ := List.forall_mem_cons.mp h
    have hlow := (isDigit_range hc).1
    have hstep : (10 * (n : Int) + (c.toNat - 48)) = ((10 * n + (c.toNat - 48) : Nat) : Int) := by
      omega
    rw [List.foldl_cons, hstep, ih hrest]
    rfl

theorem toDigits_isDigit : ∀ c ∈ Nat.toDigits 10 v, c.isDigit = true :=
  fun _ hc => Nat.isDigit_of_mem_toDigits (by decide) (by decide) hc

theorem isDigit_special (h : c.isDigit = true) :
    isSpace c = false ∧ c ≠ '-' ∧ c ≠ '+' := by
  have hrange := isDigit_range h
  refine ⟨?_, ?_, ?_⟩
  · by_contra hspace
    rw [Bool.not_eq_false, isSpace, Bool.or_eq_true, decide_eq_true_eq, Bool.and_eq_true,
      decide_eq_true_eq, decide_eq_true_eq] at hspace
    rcases hspace with rfl | hspace
    · cases h
    · omega
  all_goals rintro rfl; cases h

theorem scanInt_of_sign {digits : List Char} {negative : Bool} (hne : digits ≠ [])
    (hdigits : ∀ c ∈ digits, c.isDigit = true)
    (hsign : skipSign (s.dropWhile isSpace) = (negative, digits)) :
    scanInt s = some (Int.bmod (if negative then max (-(Nat.ofDigitChars 10 digits 0 : Nat)) (-2 ^ 63)
      else min (Nat.ofDigitChars 10 digits 0 : Nat) (2 ^ 63 - 1)) (2 ^ 32)) := by
  have hall : digits.takeWhile Char.isDigit = digits := by
    rw [← List.append_nil digits, List.takeWhile_append_of_pos hdigits]
    rfl
  have hvalue := decDigits_eq hdigits 0
  rw [scanInt, hsign]
  dsimp only
  rw [hall, if_neg hne]
  exact congrArg some (congrArg (fun v => Int.bmod (if negative = true then max (-v) (-2 ^ 63)
    else min v (2 ^ 63 - 1)) (2 ^ 32)) hvalue)

theorem scanInt_putDec {v : Int} (hlow : -2 ^ 31 ≤ v) (hhigh : v < 2 ^ 31) :
    scanInt (putDec v) = some v := by
  have hdigits := toDigits_isDigit (v := v.natAbs)
  have hne : Nat.toDigits 10 v.natAbs ≠ [] := Nat.toDigits_ne_nil
  obtain ⟨d, ds, hd⟩ := List.exists_cons_of_ne_nil hne
  obtain ⟨hspace, hminus, hplus⟩ := isDigit_special (hdigits d (by rw [hd]; exact List.mem_cons_self))
  rw [putDec]
  split
  next hneg =>
    have hsign : skipSign (('-' :: Nat.toDigits 10 v.natAbs).dropWhile isSpace) =
        (true, Nat.toDigits 10 v.natAbs) := rfl
    rw [scanInt_of_sign hne hdigits hsign, Nat.ofDigitChars_ten_toDigits, if_pos rfl]
    have hclamp : max (-(v.natAbs : Int)) (-2 ^ 63) = v := by omega
    rw [hclamp, Int.bmod_eq_of_le (by omega) (by omega)]
  next hneg =>
    have hsign : skipSign ((Nat.toDigits 10 v.natAbs).dropWhile isSpace) =
        (false, Nat.toDigits 10 v.natAbs) := by
      rw [hd, List.dropWhile_cons, hspace, if_neg Bool.false_ne_true, skipSign_eq hminus hplus]
    rw [scanInt_of_sign hne hdigits hsign, Nat.ofDigitChars_ten_toDigits,
      if_neg Bool.false_ne_true]
    have hclamp : min (v.natAbs : Int) (2 ^ 63 - 1) = v := by omega
    rw [hclamp, Int.bmod_eq_of_le (by omega) (by omega)]

theorem atoi_putDec {v : Int} (hlow : -2 ^ 31 ≤ v) (hhigh : v < 2 ^ 31) : atoi (putDec v) = v := by
  rw [atoi, scanInt_putDec hlow hhigh, Option.getD_some]

theorem length_putDec {v : Int} (hlow : -2 ^ 31 ≤ v) (hhigh : v < 2 ^ 31) :
    (putDec v).length ≤ 11 := by
  have hdigits : (Nat.toDigits 10 v.natAbs).length ≤ 10 :=
    (Nat.length_toDigits_le_iff (by decide) (by decide)).mpr (by omega)
  rw [putDec]
  split
  · rw [List.length_cons]
    omega
  · omega

theorem putDec_ascii {v : Int} : ∀ c ∈ putDec v, 0 < c.toNat ∧ c.toNat < 128 := by
  have hdigit : ∀ c ∈ Nat.toDigits 10 v.natAbs, 0 < c.toNat ∧ c.toNat < 128 := by
    intro c hc
    have hrange := isDigit_range (toDigits_isDigit c hc)
    omega
  rw [putDec]
  split
  · exact List.forall_mem_cons.mpr ⟨by decide, hdigit⟩
  · exact hdigit

end CheatEngine.Lib
