/-
  CheatEngine.Cli.Value

  Typed values on the command line (internal/memory/value.go): what `--value` is
  encoded to and what the bytes of a read are decoded to.

  The eight integer types are one codec with a sign and a width.  Text that was
  written for a number is encoded to its bytes and decoded to the number again,
  for every spelling of the type; `ByteSize` knows only the spellings without white
  space around them.
-/
import Mathlib.Tactic.NormNum
import CheatEngine.Client.Net
import CheatEngine.Lib.GoStrings
import CheatEngine.Lib.GoStrconv

namespace CheatEngine.Cli

open CheatEngine.Lib CheatEngine.Lib.Go
open CheatEngine.Client (Message FmtArg text)

inductive ValueType
  | u8 | i8 | u16 | i16 | u32 | i32 | u64 | i64 | f32 | f64 | utf8 | utf16le | hex

namespace ValueType

def name : ValueType → List UInt8
  | u8 => ascii "u8"
  | i8 => ascii "i8"
  | u16 => ascii "u16"
  | i16 => ascii "i16"
  | u32 => ascii "u32"
  | i32 => ascii "i32"
  | u64 => ascii "u64"
  | i64 => ascii "i64"
  | f32 => ascii "f32"
  | f64 => ascii "f64"
  | utf8 => ascii "utf8"
  | utf16le => ascii "utf16le"
  | hex => ascii "hex"

end ValueType

def supportedTypes : List ValueType :=
  [.u8, .i8, .u16, .i16, .u32, .i32, .u64, .i64, .f32, .f64, .utf8, .utf16le, .hex]

/-- The case of `switch valueType` that a string takes. -/
def typeNamed (s : List UInt8) : Option ValueType :=
  supportedTypes.find? fun ty => ty.name = s

/-- A decoded value: an integer, the bits of a floating-point number, or a string. -/
inductive Value
  | int (v : Int)
  | float32 (bits : UInt32)
  | float64 (bits : UInt64)
  | string (s : List UInt8)
  deriving DecidableEq, Repr

/-- `unsupported value type`, for both directions. -/
def unsupportedType (valueType : List UInt8) : Message :=
  ⟨"unsupported value type %q; supported: %s",
    [.str valueType, .str (ascii "u8, i8, u16, i16, u32, i32, u64, i64, f32, f64, utf8, utf16le, hex")]⟩

/-- The text of a `strconv` error behind its prefix. -/
def numErrorText : NumError → List UInt8
  | .invalid => ascii "invalid syntax"
  | .outOfRange => ascii "value out of range"

def wrapParse (e : NumError) (valueType value : List UInt8) : Message :=
  ⟨"invalid %s value %q: %w", [.str valueType, .str value, .str (numErrorText e)]⟩

def requireSize (data : List UInt8) (size : Nat) : Except Message Unit :=
  if data.length < size then
    .error ⟨"need at least %d bytes, got %d", [.int size, .int data.length]⟩
  else .ok ()

/-- Sign and width of an integer type. -/
structure IntKind where
  signed : Bool
  bytes : Nat

namespace IntKind

section

variable (k : IntKind)

def bits : Nat := 8 * k.bytes

/-- The values of the type. -/
def InRange (v : Int) : Prop :=
  if k.signed then -2 ^ (k.bits - 1) ≤ v ∧ v < 2 ^ (k.bits - 1) else 0 ≤ v ∧ v < 2 ^ k.bits

/-- `strconv.ParseInt` or `strconv.ParseUint` of the width. -/
def parse (value : List UInt8) : Except NumError Int :=
  if k.signed then parseInt value k.bits
  else
    match parseUint value k.bits with
    | .ok n => .ok n
    | .error e => .error e

def ofNat (n : Nat) : Int :=
  if k.signed then (n : Int).bmod (2 ^ k.bits) else n

def toNat (v : Int) : Nat := (v % 2 ^ k.bits).toNat

def encode (valueType value : List UInt8) : Except Message (List UInt8) :=
  match k.parse value with
  | .ok v => .ok (leBytes k.bytes (k.toNat v))
  | .error e => .error (wrapParse e valueType value)

def decode (data : List UInt8) : Except Message Value := do
  requireSize data k.bytes
  return .int (k.ofNat (leNat (data.take k.bytes)))

end

end IntKind

/-- `utf8.DecodeRune`: the rune and its width; an invalid byte is U+FFFD. -/
def decodeRune : List UInt8 → Nat × Nat
  | [] => (0xFFFD, 0)
  | b :: s =>
    let next (i : Nat) : Nat := (s.getD i 0).toNat
    let continues (i : Nat) (low high : Nat) : Bool := i < s.length && low ≤ next i && next i ≤ high
    let n := b.toNat
    if n < 0x80 then (n, 1)
    else if 0xC2 ≤ n ∧ n ≤ 0xDF ∧ continues 0 0x80 0xBF then
      (n % 0x20 * 0x40 + next 0 % 0x40, 2)
    else if 0xE0 ≤ n ∧ n ≤ 0xEF ∧
        continues 0 (if n = 0xE0 then 0xA0 else 0x80) (if n = 0xED then 0x9F else 0xBF) ∧
        continues 1 0x80 0xBF then
      (n % 0x10 * 0x1000 + next 0 % 0x40 * 0x40 + next 1 % 0x40, 3)
    else if 0xF0 ≤ n ∧ n ≤ 0xF4 ∧
        continues 0 (if n = 0xF0 then 0x90 else 0x80) (if n = 0xF4 then 0x8F else 0xBF) ∧
        continues 1 0x80 0xBF ∧ continues 2 0x80 0xBF then
      (n % 8 * 0x40000 + next 0 % 0x40 * 0x1000 + next 1 % 0x40 * 0x40 + next 2 % 0x40, 4)
    else (0xFFFD, 1)

/-- `[]rune(value)`; the first argument is how much of a rune is left. -/
def runesFrom : Nat → List UInt8 → List Nat
  | _, [] => []
  | skip + 1, _ :: s => runesFrom skip s
  | 0, b :: s => (decodeRune (b :: s)).1 :: runesFrom ((decodeRune (b :: s)).2 - 1) s

def encodeRune (r : Nat) : List UInt8 :=
  if r < 0x80 then [UInt8.ofNat r]
  else if r < 0x800 then [UInt8.ofNat (0xC0 + r / 0x40), UInt8.ofNat (0x80 + r % 0x40)]
  else if r < 0x10000 then
    [UInt8.ofNat (0xE0 + r / 0x1000), UInt8.ofNat (0x80 + r / 0x40 % 0x40),
      UInt8.ofNat (0x80 + r % 0x40)]
  else
    [UInt8.ofNat (0xF0 + r / 0x40000), UInt8.ofNat (0x80 + r / 0x1000 % 0x40),
      UInt8.ofNat (0x80 + r / 0x40 % 0x40), UInt8.ofNat (0x80 + r % 0x40)]

def encodeUtf16 (r : Nat) : List UInt16 :=
  if r < 0x10000 then [UInt16.ofNat r]
  else [UInt16.ofNat (0xD800 + (r - 0x10000) / 0x400), UInt16.ofNat (0xDC00 + (r - 0x10000) % 0x400)]

/-- `utf16.Decode`; half of a pair alone is U+FFFD. -/
def decodeUtf16 : List UInt16 → List Nat
  | [] => []
  | [u] => [if 0xD800 ≤ u.toNat ∧ u.toNat < 0xE000 then 0xFFFD else u.toNat]
  | u :: v :: units =>
    let n := u.toNat
    if n < 0xD800 ∨ 0xE000 ≤ n then n :: decodeUtf16 (v :: units)
    -- a high half takes the low half behind it
    else if n < 0xDC00 ∧ 0xDC00 ≤ v.toNat ∧ v.toNat < 0xE000 then
      (0x10000 + (n - 0xD800) * 0x400 + (v.toNat - 0xDC00)) :: decodeUtf16 units
    else 0xFFFD :: decodeUtf16 (v :: units)

def codeUnits : List UInt8 → List UInt16
  | a :: b :: data => u16At [a, b] 0 :: codeUnits data
  | _ => []

def hexDigitValue (c : UInt8) : Option Nat :=
  if 48 ≤ c ∧ c ≤ 57 then some (c.toNat - 48)
  else if 97 ≤ c ∧ c ≤ 102 then some (c.toNat - 87)
  else if 65 ≤ c ∧ c ≤ 70 then some (c.toNat - 55)
  else none

/-- `hex.DecodeString`; `none` for a character that is no digit and for an odd
    length. -/
def hexDecode : List UInt8 → Option (List UInt8)
  | [] => some []
  | [_] => none
  | a :: b :: s =>
    match hexDigitValue a, hexDigitValue b, hexDecode s with
    | some x, some y, some bytes => some (UInt8.ofNat (16 * x + y) :: bytes)
    | _, _, _ => none

def hexDigit (d : Nat) : UInt8 := UInt8.ofNat (if d < 10 then 48 + d else 55 + d)

def hexEncode (data : List UInt8) : List UInt8 :=
  data.flatMap fun b => [hexDigit (b.toNat / 16), hexDigit (b.toNat % 16)]

/-- The replacer of `ParseHex`: separators and `0x` are taken out. -/
def hexSeparators : List UInt8 → List UInt8
  | [] => []
  | [c] => if c = 32 ∨ c = 9 ∨ c = 10 ∨ c = 95 then [] else [c]
  | c :: d :: s =>
    if c = 32 ∨ c = 9 ∨ c = 10 ∨ c = 95 then hexSeparators (d :: s)
    else if c = 48 ∧ (d = 120 ∨ d = 88) then hexSeparators s
    else c :: hexSeparators (d :: s)

def parseHex (value : List UInt8) : Except Message (List UInt8) :=
  let normalized := hexSeparators value
  if normalized = [] then .error (text "hex value is empty")
  else if normalized.length % 2 ≠ 0 then
    .error (text "hex value must contain an even number of digits")
  else
    match hexDecode normalized with
    | some bytes => .ok bytes
    | none => .error (text "invalid hex value: %w")

/-- `strconv.ParseFloat` with the bits of its result. -/
structure FloatParser where
  float32 : List UInt8 → Except NumError UInt32
  float64 : List UInt8 → Except NumError UInt64

def encode (floats : FloatParser) (valueType value : List UInt8) : Except Message (List UInt8) :=
  let valueType := toLower (trimSpace valueType)
  match typeNamed valueType with
  | some .u8 => IntKind.encode ⟨false, 1⟩ valueType value
  | some .i8 => IntKind.encode ⟨true, 1⟩ valueType value
  | some .u16 => IntKind.encode ⟨false, 2⟩ valueType value
  | some .i16 => IntKind.encode ⟨true, 2⟩ valueType value
  | some .u32 => IntKind.encode ⟨false, 4⟩ valueType value
  | some .i32 => IntKind.encode ⟨true, 4⟩ valueType value
  | some .u64 => IntKind.encode ⟨false, 8⟩ valueType value
  | some .i64 => IntKind.encode ⟨true, 8⟩ valueType value
  | some .f32 =>
    match floats.float32 value with
    | .ok bits => .ok (Lib.u32 bits)
    | .error e => .error (wrapParse e valueType value)
  | some .f64 =>
    match floats.float64 value with
    | .ok bits => .ok (Lib.u64 bits)
    | .error e => .error (wrapParse e valueType value)
  | some .utf8 => .ok value
  | some .utf16le => .ok ((runesFrom 0 value).flatMap fun r => (encodeUtf16 r).flatMap Lib.u16)
  | some .hex => parseHex value
  | none => .error (unsupportedType valueType)

def decode (valueType data : List UInt8) : Except Message Value :=
  let valueType := toLower (trimSpace valueType)
  match typeNamed valueType with
  | some .u8 => IntKind.decode ⟨false, 1⟩ data
  | some .i8 => IntKind.decode ⟨true, 1⟩ data
  | some .u16 => IntKind.decode ⟨false, 2⟩ data
  | some .i16 => IntKind.decode ⟨true, 2⟩ data
  | some .u32 => IntKind.decode ⟨false, 4⟩ data
  | some .i32 => IntKind.decode ⟨true, 4⟩ data
  | some .u64 => IntKind.decode ⟨false, 8⟩ data
  | some .i64 => IntKind.decode ⟨true, 8⟩ data
  | some .f32 => do
    requireSize data 4
    return .float32 (u32At data 0)
  | some .f64 => do
    requireSize data 8
    return .float64 (u64At data 0)
  | some .utf8 => .ok (.string data)
  | some .utf16le =>
    if data.length % 2 ≠ 0 then
      .error ⟨"UTF-16LE data length must be even, got %d", [.int data.length]⟩
    else .ok (.string ((decodeUtf16 (codeUnits data)).flatMap encodeRune))
  | some .hex => .ok (.string (hexEncode data))
  | none => .error (unsupportedType valueType)

def parseAddress (value : List UInt8) : Except Message Nat :=
  let normalized := (trimSpace value).filter fun c => c ≠ 95
  if normalized = [] then .error (text "address is empty")
  else
    match parseUint normalized 64 with
    | .ok address => .ok address
    | .error e => .error ⟨"invalid address %q: %w", [.str value, .str (numErrorText e)]⟩

def byteSize (valueType : List UInt8) : Option Nat :=
  match typeNamed (toLower valueType) with
  | some .u8 | some .i8 => some 1
  | some .u16 | some .i16 => some 2
  | some .u32 | some .i32 | some .f32 => some 4
  | some .u64 | some .i64 | some .f64 => some 8
  | _ => none

/-- The integer types. -/
def ValueType.kind : ValueType → Option IntKind
  | .u8 => some ⟨false, 1⟩
  | .i8 => some ⟨true, 1⟩
  | .u16 => some ⟨false, 2⟩
  | .i16 => some ⟨true, 2⟩
  | .u32 => some ⟨false, 4⟩
  | .i32 => some ⟨true, 4⟩
  | .u64 => some ⟨false, 8⟩
  | .i64 => some ⟨true, 8⟩
  | _ => none

/-- The name of a type in any case, with white space around it. -/
def Spells (ty : ValueType) (t : List UInt8) : Prop :=
  ∃ gap word gap', Blank gap ∧ Blank gap' ∧ t = gap ++ (word ++ gap') ∧ toLower word = ty.name

section Spellings

variable {ty : ValueType} {k : IntKind} {t : List UInt8}

theorem typeNamed_name (ty : ValueType) : typeNamed ty.name = some ty := by
  cases ty <;> rfl

theorem name_of_typeNamed (h : typeNamed t = some ty) : ty.name = t := by
  rw [typeNamed] at h
  have hname := List.find?_some h
  exact of_decide_eq_true hname

theorem visible_name (ty : ValueType) : Visible ty.name := by
  cases ty <;> exact visible_of_all rfl

theorem noSpace_of_named (h : toLower t = ty.name) : NoSpace t :=
  noSpace_of_toLower (h ▸ visible_name ty)

theorem typeNamed_iff : typeNamed (toLower (trimSpace t)) = some ty ↔ Spells ty t := by
  constructor
  · intro h
    obtain ⟨gap, gap', hgap, hgap', hsplit⟩ := trimSpace_spec t
    exact ⟨gap, trimSpace t, gap', hgap, hgap', hsplit, (name_of_typeNamed h).symm⟩
  · rintro ⟨gap, word, gap', hgap, hgap', rfl, hword⟩
    have hne : word ≠ [] := by
      rintro rfl
      cases ty <;> exact absurd hword (by decide)
    rw [trimSpace_word hgap hgap' (noSpace_of_named hword) hne, hword, typeNamed_name]

theorem typeNamed_toLower (h : typeNamed (toLower t) = some ty) : trimSpace t = t ∧ Spells ty t := by
  have htrim : trimSpace t = t :=
    trimSpace_of_noSpace (noSpace_of_named (name_of_typeNamed h).symm)
  exact ⟨htrim, typeNamed_iff.1 (htrim.symm ▸ h)⟩

theorem byteSize_spells {n : Nat} (h : byteSize t = some n) : ∃ ty, Spells ty t := by
  rcases hty : typeNamed (toLower t) with _ | ty
  · rw [byteSize, hty] at h
    cases h
  · exact ⟨ty, (typeNamed_toLower hty).2⟩

theorem byteSize_iff (hkind : ty.kind = some k) (h : Spells ty t) :
    byteSize t = some k.bytes ↔ trimSpace t = t := by
  constructor
  · intro hsize
    rcases hty : typeNamed (toLower t) with _ | ty'
    · rw [byteSize, hty] at hsize
      cases hsize
    · exact (typeNamed_toLower hty).1
  · intro htrim
    have hty : typeNamed (toLower t) = some ty := htrim ▸ typeNamed_iff.2 h
    rw [byteSize, hty]
    cases ty <;> cases hkind <;> rfl

theorem encode_eq (floats : FloatParser) (hkind : ty.kind = some k) (h : Spells ty t)
    (value : List UInt8) : encode floats t value = k.encode (toLower (trimSpace t)) value := by
  rw [encode, typeNamed_iff.2 h]
  cases ty <;> cases hkind <;> rfl

theorem decode_eq (hkind : ty.kind = some k) (h : Spells ty t) (data : List UInt8) :
    decode t data = k.decode data := by
  rw [decode, typeNamed_iff.2 h]
  cases ty <;> cases hkind <;> rfl

theorem kind_bytes (hkind : ty.kind = some k) : 0 < k.bytes := by
  cases ty <;> cases hkind <;> exact Nat.succ_pos _

end Spellings

/-! ## The integer codec -/

namespace IntKind

variable {k : IntKind}

theorem bits_pos (hk : 0 < k.bytes) : 0 < k.bits := Nat.mul_pos (by omega) hk

theorem pow_bits (k : IntKind) : 2 ^ k.bits = 256 ^ k.bytes := by
  rw [bits, Nat.pow_mul]

theorem two_pow_bits (hk : 0 < k.bytes) : 2 ^ k.bits = 2 * 2 ^ (k.bits - 1) := by
  have hbits := bits_pos hk
  rw [← Nat.pow_succ', Nat.sub_one, Nat.succ_pred_eq_of_pos hbits]

theorem inRange_iff (hk : 0 < k.bytes) (v : Int) : k.InRange v ↔
    if k.signed then -((2 ^ k.bits : Nat) : Int) ≤ v * 2 ∧ v * 2 < ((2 ^ k.bits : Nat) : Int)
    else 0 ≤ v ∧ v < ((2 ^ k.bits : Nat) : Int) := by
  have hcast : ((2 ^ (k.bits - 1) : Nat) : Int) = 2 ^ (k.bits - 1) := by norm_cast
  have hcast' : ((2 ^ k.bits : Nat) : Int) = 2 ^ k.bits := by norm_cast
  have htwo := two_pow_bits hk
  rw [InRange]
  split
  · omega
  · omega

theorem parse_decimal (hk : 0 < k.bytes) (v : Int) :
    (k.InRange v → k.parse (decimal v) = .ok v) ∧
      (¬ k.InRange v → ∃ e, k.parse (decimal v) = .error e) := by
  rw [InRange, parse]
  split
  · -- signed
    rw [parseInt_decimal v (bits_pos hk)]
    exact ⟨fun h => if_pos h, fun h => ⟨.outOfRange, if_neg h⟩⟩
  · -- unsigned: the sign of a negative number is no digit
    have hcast : ((2 ^ k.bits : Nat) : Int) = 2 ^ k.bits := by norm_cast
    by_cases hneg : v < 0
    · rw [decimal, if_pos hneg, parseUint_minus]
      exact ⟨fun h => absurd h.1 (by omega), fun _ => ⟨.invalid, rfl⟩⟩
    · rw [decimal, if_neg hneg, parseUint_decimalNat]
      constructor
      · intro h
        rw [if_pos (by omega)]
        have hv : ((v.natAbs : Nat) : Int) = v := by omega
        simp [hv]
      · intro h
        rw [if_neg (by omega)]
        exact ⟨.outOfRange, rfl⟩

theorem toNat_lt (k : IntKind) (v : Int) : k.toNat v < 256 ^ k.bytes := by
  have hpos : 0 < 2 ^ k.bits := Nat.two_pow_pos _
  have hcast : ((2 ^ k.bits : Nat) : Int) = 2 ^ k.bits := by norm_cast
  have hlt : v % 2 ^ k.bits < 2 ^ k.bits := Int.emod_lt_of_pos v (by omega)
  have hnonneg : 0 ≤ v % 2 ^ k.bits := Int.emod_nonneg v (by omega)
  rw [toNat, ← pow_bits]
  omega

theorem ofNat_toNat (hk : 0 < k.bytes) {v : Int} (h : k.InRange v) : k.ofNat (k.toNat v) = v := by
  have hpos : 0 < 2 ^ k.bits := Nat.two_pow_pos _
  have hcast : ((2 ^ k.bits : Nat) : Int) = 2 ^ k.bits := by norm_cast
  have hpattern : ((k.toNat v : Nat) : Int) = v % ((2 ^ k.bits : Nat) : Int) := by
    rw [toNat, hcast]
    exact Int.toNat_of_nonneg (Int.emod_nonneg v (by omega))
  rw [inRange_iff hk] at h
  rw [ofNat, hpattern]
  split at h
  · next hsigned =>
    rw [if_pos hsigned, Int.emod_bmod]
    exact Int.bmod_eq_of_le_mul_two h.1 h.2
  · next hsigned => rw [if_neg hsigned, Int.emod_eq_of_lt h.1 h.2]

theorem inRange_ofNat (hk : 0 < k.bytes) {n : Nat} (h : n < 256 ^ k.bytes) :
    k.InRange (k.ofNat n) := by
  rw [← pow_bits] at h
  have htwo := two_pow_bits hk
  rw [inRange_iff hk, ofNat]
  split
  · have hlow := Int.le_bmod (x := (n : Int)) (m := 2 ^ k.bits) (Nat.two_pow_pos _)
    have hhigh := Int.bmod_lt (x := (n : Int)) (m := 2 ^ k.bits) (Nat.two_pow_pos _)
    omega
  · omega

theorem toNat_ofNat {n : Nat} (h : n < 256 ^ k.bytes) : k.toNat (k.ofNat n) = n := by
  rw [← pow_bits] at h
  have hcast : ((2 ^ k.bits : Nat) : Int) = 2 ^ k.bits := by norm_cast
  have hpattern : k.ofNat n % ((2 ^ k.bits : Nat) : Int) = n := by
    rw [ofNat]
    split
    · rw [Int.bmod_emod]
      exact Int.emod_eq_of_lt (by omega) (by omega)
    · exact Int.emod_eq_of_lt (by omega) (by omega)
  rw [toNat, ← hcast, hpattern]
  rfl

theorem encode_decimal (hk : 0 < k.bytes) (t : List UInt8) {v : Int} (h : k.InRange v) :
    k.encode t (decimal v) = .ok (leBytes k.bytes (k.toNat v)) := by
  rw [encode, (parse_decimal hk v).1 h]

theorem decode_append (k : IntKind) {data : List UInt8} (hdata : data.length = k.bytes)
    (rest : List UInt8) : k.decode (data ++ rest) = .ok (.int (k.ofNat (leNat data))) := by
  have hsize : requireSize (data ++ rest) k.bytes = .ok () := by
    rw [requireSize, if_neg]
    rw [List.length_append]
    omega
  rw [decode, hsize, ← hdata, List.take_left]
  rfl

end IntKind

/-- What the codec promises of a spelling `t` of an integer type. -/
structure IntegerCodec (floats : FloatParser) (k : IntKind) (t : List UInt8) : Prop where
  size : byteSize t = some k.bytes
  /-- The little-endian bytes of a number are as many, and are read as the number. -/
  roundTrip (v : Int) : k.InRange v → ∃ bytes, encode floats t (decimal v) = .ok bytes ∧
    bytes = leBytes k.bytes (k.toNat v) ∧ ∀ rest, decode t (bytes ++ rest) = .ok (.int v)
  refused (v : Int) : ¬ k.InRange v → ∃ e, encode floats t (decimal v) = .error e
  /-- Bytes that were read are written again. -/
  restored (data : List UInt8) : data.length = k.bytes →
    ∃ v, decode t data = .ok (.int v) ∧ encode floats t (decimal v) = .ok data

section Codec

variable {floats : FloatParser} {ty : ValueType} {k : IntKind} {t : List UInt8}

theorem integerCodec_iff (hkind : ty.kind = some k) (hspells : Spells ty t) :
    IntegerCodec floats k t ↔ byteSize t = some k.bytes := by
  have hk := kind_bytes hkind
  constructor
  · exact fun h => h.size
  · intro hsize
    refine ⟨hsize, fun v hv => ?_, fun v hv => ?_, fun data hdata => ?_⟩
    · refine ⟨leBytes k.bytes (k.toNat v), ?_, rfl, fun rest => ?_⟩
      · rw [encode_eq floats hkind hspells, IntKind.encode_decimal hk _ hv]
      · rw [decode_eq hkind hspells, k.decode_append (leBytes_length _ _), leNat_leBytes,
          Nat.mod_eq_of_lt (k.toNat_lt v), IntKind.ofNat_toNat hk hv]
    · obtain ⟨e, he⟩ := (IntKind.parse_decimal hk v).2 hv
      rw [encode_eq floats hkind hspells, IntKind.encode, he]
      exact ⟨_, rfl⟩
    · have hlt : leNat data < 256 ^ k.bytes := hdata ▸ leNat_lt data
      have hread := k.decode_append hdata []
      rw [List.append_nil] at hread
      refine ⟨k.ofNat (leNat data), (decode_eq hkind hspells data).trans hread, ?_⟩
      rw [encode_eq floats hkind hspells, IntKind.encode_decimal hk _ (IntKind.inRange_ofNat hk hlt),
        IntKind.toNat_ofNat hlt, ← hdata, leBytes_leNat]

end Codec

/-- The codec keeps its promise, and `ByteSize` knows no other spellings than `Encode` and
    `Decode`, for every string that does not spell an integer type with white space around
    it. -/
theorem integerCodec (floats : FloatParser) (t : List UInt8) :
    ((∀ ty k, ty.kind = some k → Spells ty t → IntegerCodec floats k t) ∧
        ∀ n, byteSize t = some n → ∃ ty, Spells ty t) ↔
      (trimSpace t = t ∨ ∀ ty, Spells ty t → ty.kind = none) := by
  constructor
  · rintro ⟨hcodec, _⟩
    by_cases htrim : trimSpace t = t
    · exact .inl htrim
    · refine .inr fun ty hspells => ?_
      rcases hkind : ty.kind with _ | k
      · rfl
      · have hsize := (integerCodec_iff hkind hspells).1 (hcodec ty k hkind hspells)
        exact absurd ((byteSize_iff hkind hspells).1 hsize) htrim
  · rintro hor
    refine ⟨fun ty k hkind hspells => ?_, fun n => byteSize_spells⟩
    rw [integerCodec_iff hkind hspells, byteSize_iff hkind hspells]
    refine hor.resolve_right fun hnone => ?_
    rw [hnone ty hspells] at hkind
    cases hkind

/-- ` u8` encodes and decodes, and has no size. -/
theorem integerCodec_space :
    let floats : FloatParser := ⟨fun _ => .error .invalid, fun _ => .error .invalid⟩
    encode floats (ascii " u8") (decimal 255) = .ok [255] ∧
      decode (ascii " u8") [255] = .ok (.int 255) ∧ byteSize (ascii " u8") = none ∧
      ¬ ∀ ty k, ty.kind = some k → Spells ty (ascii " u8") →
        IntegerCodec floats k (ascii " u8") := by
  have hblank : Blank (ascii " ") := Blank.rune (by decide) Blank.nil
  have hspells : Spells .u8 (ascii " u8") :=
    ⟨ascii " ", ascii "u8", [], hblank, Blank.nil, by decide, by decide⟩
  have hsize : byteSize (ascii " u8") = none := by decide
  refine ⟨by decide, by decide, hsize, fun h => ?_⟩
  have hcodec := (h .u8 ⟨false, 1⟩ rfl hspells).size
  rw [hsize] at hcodec
  cases hcodec

end CheatEngine.Cli
