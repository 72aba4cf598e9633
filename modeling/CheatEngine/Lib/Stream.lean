/-
  CheatEngine.Lib.Stream

  Reading a byte stream.  A `Reader` takes bytes from the front of what has
  arrived, and fails when there are not enough.  `Reads r bs x` says that `r` takes
  exactly the bytes `bs`, whatever follows them, returns `x`, and fails when only a
  part of them arrives; it composes along `bind`.
-/
import CheatEngine.Lib.Bytes

namespace CheatEngine.Lib

/-- A reader of a byte stream. -/
abbrev Reader (α : Type) : Type := StateT (List UInt8) Option α

namespace Reader

variable {α β : Type}

def bytes (n : Nat) : Reader (List UInt8) := fun bs =>
  if n ≤ bs.length then some (bs.take n, bs.drop n) else none

def byte : Reader UInt8 := (u8At · 0) <$> bytes 1

def word : Reader UInt16 := (u16At · 0) <$> bytes 2

def dword : Reader UInt32 := (u32At · 0) <$> bytes 4

def qword : Reader UInt64 := (u64At · 0) <$> bytes 8

/-- One after another, `n` times. -/
def many (r : Reader α) : Nat → Reader (List α)
  | 0 => pure []
  | n + 1 => do
    let x ← r
    let xs ← many r n
    pure (x :: xs)

/-- The reader takes exactly the bytes `bs`, and needs them all. -/
structure Reads (r : Reader α) (bs : List UInt8) (x : α) : Prop where
  whole : ∀ rest, r (bs ++ rest) = some (x, rest)
  part : ∀ n < bs.length, r (bs.take n) = none

theorem bind_eq (r : Reader α) (f : α → Reader β) (bs : List UInt8) :
    (r >>= f) bs = (r bs).bind fun p => f p.1 p.2 := rfl

theorem map_eq (f : α → β) (r : Reader α) (bs : List UInt8) :
    (f <$> r) bs = (r bs).map fun p => (f p.1, p.2) := by
  cases h : r bs <;> simp [Functor.map, StateT.map, h]

namespace Reads

variable {r : Reader α} {bs cs : List UInt8} {x : α}

theorem pure (x : α) : Reads (pure x : Reader α) [] x :=
  ⟨fun _ => rfl, fun n hn => absurd hn (Nat.not_lt_zero n)⟩

theorem map (h : Reads r bs x) (f : α → β) : Reads (f <$> r) bs (f x) where
  whole rest := by rw [map_eq, h.whole]; rfl
  part n hn := by rw [map_eq, h.part n hn]; rfl

theorem bind {f : α → Reader β} {y : β} (h : Reads r bs x) (h' : Reads (f x) cs y) :
    Reads (r >>= f) (bs ++ cs) y where
  whole rest := by
    rw [bind_eq, List.append_assoc, h.whole]
    exact h'.whole rest
  part n hn := by
    rw [bind_eq]
    by_cases hlt : n < bs.length
    · rw [List.take_append_of_le_length (Nat.le_of_lt hlt), h.part n hlt]
      rfl
    · -- the first part has arrived
      have hrest : n - bs.length < cs.length := by
        rw [List.length_append] at hn
        omega
      rw [List.take_append, List.take_of_length_le (by omega), h.whole]
      exact h'.part _ hrest

theorem bind_pure {f : α → β} (h : Reads r bs x) :
    Reads (r >>= fun x => (Pure.pure (f x) : Reader β)) bs (f x) := by
  have hbind : Reads (r >>= fun x => (Pure.pure (f x) : Reader β)) (bs ++ []) (f x) :=
    h.bind (pure (f x))
  rwa [List.append_nil] at hbind

theorem bytes (bs : List UInt8) : Reads (Reader.bytes bs.length) bs bs where
  whole rest := by
    have hle : bs.length ≤ (bs ++ rest).length := by simp
    rw [Reader.bytes, if_pos hle, List.take_left, List.drop_left]
  part n hn := by
    have hlt : ¬ bs.length ≤ (bs.take n).length := by
      rw [List.length_take]
      omega
    rw [Reader.bytes, if_neg hlt]

theorem byte (v : UInt8) : Reads Reader.byte (u8 v) v :=
  (bytes (u8 v)).map _

theorem word (v : UInt16) : Reads Reader.word (u16 v) v := by
  have h := (bytes (u16 v)).map (u16At · 0)
  rwa [u16_length, u16At_u16_last] at h

theorem dword (v : UInt32) : Reads Reader.dword (u32 v) v := by
  have h := (bytes (u32 v)).map (u32At · 0)
  rwa [u32_length, u32At_u32_last] at h

theorem qword (v : UInt64) : Reads Reader.qword (u64 v) v := by
  have h := (bytes (u64 v)).map (u64At · 0)
  rwa [u64_length, u64At_u64_last] at h

/-- One after another. -/
theorem many {γ : Type} {write : γ → List UInt8} (value : γ → α)
    (h : ∀ c, Reads r (write c) (value c)) (cs : List γ) :
    Reads (Reader.many r cs.length) (cs.flatMap write) (cs.map value) := by
  induction cs with
  | nil => exact pure []
  | cons c cs ih => exact (h c).bind ih.bind_pure

end Reads

end Reader

end CheatEngine.Lib
