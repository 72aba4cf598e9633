/-
  CheatEngine.Lib.Bytes

  Little-endian byte strings: the layer every wire format of the development
  sits on.  `leBytes n v` writes the low `n` bytes of `v`, `leNat` reads a byte
  list back, and the fixed-width writers (`u8`, `u16`, `u32`, `u64`, `i32`,
  `i64`) are paired with readers at a byte offset (`u32At bs 4`, ...), which is
  how both a packed C struct and a Go `header[4:8]` slice address their fields.

  The `_at` simp lemmas evaluate a reader over a concatenation of writers: a
  reader at offset 0 meets its own writer, a reader further right skips the
  writer in front of it.
-/
import Mathlib.Data.List.Basic
import Mathlib.Tactic.Ring

namespace CheatEngine.Lib

/-! ## Little-endian lists -/

/-- The low `n` bytes of `v`, least significant first. -/
def leBytes : Nat → Nat → List UInt8
  | 0, _ => []
  | n + 1, v => UInt8.ofNat v :: leBytes n (v / 256)

/-- Little-endian value of a byte list. -/
def leNat : List UInt8 → Nat
  | [] => 0
  | b :: rest => b.toNat + 256 * leNat rest

attribute [local simp] leBytes leNat

@[simp] theorem leBytes_length (n v : Nat) : (leBytes n v).length = n := by
  induction n generalizing v with
  | zero => rfl
  | succ n ih => simp [leBytes, ih]

theorem leNat_leBytes (n v : Nat) : leNat (leBytes n v) = v % 256 ^ n := by
  induction n generalizing v with
  | zero => simp [leBytes, leNat, Nat.mod_one]
  | succ n ih =>
    have hb : (UInt8.ofNat v).toNat = v % 256 := UInt8.toNat_ofNat'
    rw [leBytes, leNat, ih, hb, Nat.pow_succ, Nat.mul_comm (256 ^ n) 256, Nat.mod_mul]

theorem leBytes_leNat (bs : List UInt8) : leBytes bs.length (leNat bs) = bs := by
  induction bs with
  | nil => rfl
  | cons b bs ih =>
    have hb := b.toNat_lt
    have hlow : UInt8.ofNat (b.toNat + 256 * leNat bs) = b := by
      rw [← UInt8.toNat_inj, UInt8.toNat_ofNat']
      omega
    have hhigh : (b.toNat + 256 * leNat bs) / 256 = leNat bs := by omega
    rw [List.length_cons, leNat, leBytes, hlow, hhigh, ih]

theorem take_leBytes (n v k : Nat) : (leBytes n v).take k = leBytes (min k n) v := by
  induction n generalizing v k with
  | zero => rw [leBytes, List.take_nil, Nat.min_zero, leBytes]
  | succ n ih =>
    cases k with
    | zero => rw [List.take_zero, Nat.zero_min, leBytes]
    | succ k => rw [leBytes, List.take_succ_cons, ih, Nat.succ_min_succ, leBytes]

theorem leNat_zeros (bs : List UInt8) (n : Nat) : leNat (bs ++ List.replicate n 0) = leNat bs := by
  induction bs with
  | nil =>
    induction n with
    | zero => rfl
    | succ n ih =>
      show 0 + 256 * leNat ([] ++ List.replicate n 0) = leNat []
      rw [ih]
      rfl
  | cons b bs ih => rw [List.cons_append, leNat, ih, leNat]

theorem leNat_lt (bs : List UInt8) : leNat bs < 256 ^ bs.length := by
  induction bs with
  | nil => simp [leNat]
  | cons b rest ih =>
    have hb : b.toNat < 256 := b.toNat_lt
    simp only [leNat, List.length_cons, Nat.pow_succ]
    omega

/-- One byte. -/
def u8 (v : UInt8) : List UInt8 := [v]

/-- An unsigned 16-bit value, little endian. -/
def u16 (v : UInt16) : List UInt8 := leBytes 2 v.toNat

/-- An unsigned 32-bit value, little endian. -/
def u32 (v : UInt32) : List UInt8 := leBytes 4 v.toNat

/-- An unsigned 64-bit value, little endian. -/
def u64 (v : UInt64) : List UInt8 := leBytes 8 v.toNat

/-- A signed 32-bit value in two's complement, little endian. -/
def i32 (v : Int32) : List UInt8 := u32 v.toUInt32

/-- A signed 64-bit value in two's complement, little endian. -/
def i64 (v : Int64) : List UInt8 := u64 v.toUInt64

@[simp] theorem u8_length (v : UInt8) : (u8 v).length = 1 := rfl
@[simp] theorem u16_length (v : UInt16) : (u16 v).length = 2 := leBytes_length 2 _
@[simp] theorem u32_length (v : UInt32) : (u32 v).length = 4 := leBytes_length 4 _
@[simp] theorem u64_length (v : UInt64) : (u64 v).length = 8 := leBytes_length 8 _
@[simp] theorem i32_length (v : Int32) : (i32 v).length = 4 := u32_length _
@[simp] theorem i64_length (v : Int64) : (i64 v).length = 8 := u64_length _

theorem toInt_toInt32 {n : UInt32} (h : n.toNat < 2 ^ 31) : n.toInt32.toInt = n.toNat := by
  have hn : n = UInt32.ofNat n.toNat := by simp
  rw [hn, UInt32.toInt32_ofNat', Int32.toInt_ofNat_of_lt (by simpa using h)]
  simp

section

variable (bs : List UInt8) (off : Nat)

/-- The byte at offset `off` (0 past the end). -/
def u8At : UInt8 := (bs.drop off).headD 0

def u16At : UInt16 := UInt16.ofNat (leNat ((bs.drop off).take 2))

def u32At : UInt32 := UInt32.ofNat (leNat ((bs.drop off).take 4))

def u64At : UInt64 := UInt64.ofNat (leNat ((bs.drop off).take 8))

/-- The signed 32-bit field at offset `off`. -/
def i32At : Int32 := (u32At bs off).toInt32

/-- The signed 64-bit field at offset `off`. -/
def i64At : Int64 := (u64At bs off).toInt64

end

@[simp] theorem u8At_u8 (v : UInt8) (rest : List UInt8) : u8At (u8 v ++ rest) 0 = v := rfl

@[simp] theorem u16At_u16 (v : UInt16) (rest : List UInt8) : u16At (u16 v ++ rest) 0 = v := by
  have h : (u16 v ++ rest).take 2 = u16 v := rfl
  have hlt : v.toNat < 256 ^ 2 := v.toNat_lt
  rw [u16At, List.drop_zero, h, u16, leNat_leBytes, Nat.mod_eq_of_lt hlt, UInt16.ofNat_toNat]

@[simp] theorem u32At_u32 (v : UInt32) (rest : List UInt8) : u32At (u32 v ++ rest) 0 = v := by
  have h : (u32 v ++ rest).take 4 = u32 v := rfl
  have hlt : v.toNat < 256 ^ 4 := v.toNat_lt
  rw [u32At, List.drop_zero, h, u32, leNat_leBytes, Nat.mod_eq_of_lt hlt, UInt32.ofNat_toNat]

@[simp] theorem u64At_u64 (v : UInt64) (rest : List UInt8) : u64At (u64 v ++ rest) 0 = v := by
  have h : (u64 v ++ rest).take 8 = u64 v := rfl
  have hlt : v.toNat < 256 ^ 8 := v.toNat_lt
  rw [u64At, List.drop_zero, h, u64, leNat_leBytes, Nat.mod_eq_of_lt hlt, UInt64.ofNat_toNat]

@[simp] theorem i32At_u32 (v : UInt32) (rest : List UInt8) :
    i32At (u32 v ++ rest) 0 = v.toInt32 := by
  rw [i32At, u32At_u32]

@[simp] theorem u32At_i32 (v : Int32) (rest : List UInt8) :
    u32At (i32 v ++ rest) 0 = v.toUInt32 := u32At_u32 _ _

@[simp] theorem i32At_i32 (v : Int32) (rest : List UInt8) : i32At (i32 v ++ rest) 0 = v := by
  rw [i32At, u32At_i32]; rfl

@[simp] theorem i64At_i64 (v : Int64) (rest : List UInt8) : i64At (i64 v ++ rest) 0 = v := by
  rw [i64At, i64, u64At_u64]; rfl

@[simp] theorem u64At_i64 (v : Int64) (rest : List UInt8) :
    u64At (i64 v ++ rest) 0 = v.toUInt64 := u64At_u64 _ _

/-! The same for a field that ends its list. -/

@[simp] theorem u8At_u8_last (v : UInt8) : u8At (u8 v) 0 = v := rfl

@[simp] theorem u16At_u16_last (v : UInt16) : u16At (u16 v) 0 = v := by
  simpa using u16At_u16 v []

@[simp] theorem u32At_u32_last (v : UInt32) : u32At (u32 v) 0 = v := by
  simpa using u32At_u32 v []

@[simp] theorem u64At_u64_last (v : UInt64) : u64At (u64 v) 0 = v := by
  simpa using u64At_u64 v []

@[simp] theorem i32At_i32_last (v : Int32) : i32At (i32 v) 0 = v := by
  simpa using i32At_i32 v []

@[simp] theorem i32At_u32_last (v : UInt32) : i32At (u32 v) 0 = v.toInt32 := by
  simpa using i32At_u32 v []

@[simp] theorem u32At_i32_last (v : Int32) : u32At (i32 v) 0 = v.toUInt32 := by
  simpa using u32At_i32 v []

section Skip

variable (rest : List UInt8) (n : Nat)

@[simp] theorem drop_u8 (v : UInt8) : (u8 v ++ rest).drop (n + 1) = rest.drop n := rfl
@[simp] theorem drop_u16 (v : UInt16) : (u16 v ++ rest).drop (n + 2) = rest.drop n := rfl
@[simp] theorem drop_u32 (v : UInt32) : (u32 v ++ rest).drop (n + 4) = rest.drop n := rfl
@[simp] theorem drop_u64 (v : UInt64) : (u64 v ++ rest).drop (n + 8) = rest.drop n := rfl
@[simp] theorem drop_i32 (v : Int32) : (i32 v ++ rest).drop (n + 4) = rest.drop n := rfl
@[simp] theorem drop_i64 (v : Int64) : (i64 v ++ rest).drop (n + 8) = rest.drop n := rfl

@[simp] theorem u8At_skip_u8 (v : UInt8) : u8At (u8 v ++ rest) (n + 1) = u8At rest n := rfl
@[simp] theorem u8At_skip_u16 (v : UInt16) : u8At (u16 v ++ rest) (n + 2) = u8At rest n := rfl
@[simp] theorem u8At_skip_u32 (v : UInt32) : u8At (u32 v ++ rest) (n + 4) = u8At rest n := rfl
@[simp] theorem u8At_skip_u64 (v : UInt64) : u8At (u64 v ++ rest) (n + 8) = u8At rest n := rfl
@[simp] theorem u8At_skip_i32 (v : Int32) : u8At (i32 v ++ rest) (n + 4) = u8At rest n := rfl

@[simp] theorem u32At_skip_u8 (v : UInt8) : u32At (u8 v ++ rest) (n + 1) = u32At rest n := rfl
@[simp] theorem u32At_skip_u32 (v : UInt32) : u32At (u32 v ++ rest) (n + 4) = u32At rest n := rfl
@[simp] theorem u32At_skip_u64 (v : UInt64) : u32At (u64 v ++ rest) (n + 8) = u32At rest n := rfl
@[simp] theorem u32At_skip_i32 (v : Int32) : u32At (i32 v ++ rest) (n + 4) = u32At rest n := rfl
@[simp] theorem u32At_skip_i64 (v : Int64) : u32At (i64 v ++ rest) (n + 8) = u32At rest n := rfl

@[simp] theorem i32At_skip_u8 (v : UInt8) : i32At (u8 v ++ rest) (n + 1) = i32At rest n := rfl
@[simp] theorem i32At_skip_u32 (v : UInt32) : i32At (u32 v ++ rest) (n + 4) = i32At rest n := rfl
@[simp] theorem i32At_skip_u64 (v : UInt64) : i32At (u64 v ++ rest) (n + 8) = i32At rest n := rfl
@[simp] theorem i32At_skip_i32 (v : Int32) : i32At (i32 v ++ rest) (n + 4) = i32At rest n := rfl
@[simp] theorem i32At_skip_i64 (v : Int64) : i32At (i64 v ++ rest) (n + 8) = i32At rest n := rfl

@[simp] theorem u64At_skip_u8 (v : UInt8) : u64At (u8 v ++ rest) (n + 1) = u64At rest n := rfl
@[simp] theorem u64At_skip_u32 (v : UInt32) : u64At (u32 v ++ rest) (n + 4) = u64At rest n := rfl
@[simp] theorem u64At_skip_u64 (v : UInt64) : u64At (u64 v ++ rest) (n + 8) = u64At rest n := rfl
@[simp] theorem u64At_skip_i32 (v : Int32) : u64At (i32 v ++ rest) (n + 4) = u64At rest n := rfl

@[simp] theorem i64At_skip_i32 (v : Int32) : i64At (i32 v ++ rest) (n + 4) = i64At rest n := rfl

end Skip

example (h : UInt32) (a : UInt64) (s : UInt32) :
    u32At (u32 h ++ (u64 a ++ u32 s)) 12 = s := by simp

end CheatEngine.Lib
