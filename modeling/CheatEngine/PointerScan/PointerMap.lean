/-
  CheatEngine.PointerScan.PointerMap

  The pointer map of a scan (pointervaluelist.pas): for every value that was found
  in memory, the addresses that hold it.  The lists are the leaves of a tree with
  one hexadecimal digit of the value at each level, linked in the order of their
  values.  Here they stand in that order, the largest value first, so that a list
  with the lists before it is a suffix.
-/
import Mathlib.Algebra.Group.Nat.Defs
import Mathlib.Data.List.Basic

namespace CheatEngine.PointerScan

/-- `TStaticData`. -/
structure StaticData where
  moduleindex : Int
  offset : UInt64
  deriving DecidableEq, Repr

/-- An address that holds the value; `staticdata` is `none` for `nil`. -/
structure PointerEntry where
  address : UInt64
  staticdata : Option StaticData
  deriving DecidableEq, Repr

/-- `TPointerList`: `list` with its `pos` entries. -/
structure PointerList where
  pointervalue : UInt64
  list : List PointerEntry
  deriving DecidableEq, Repr

/-- `TReversePointerListHandler`: `maxlevel` is 7 for a 32-bit target and 15 for a
    64-bit one; the lists are linked by `previous` from the first to the last. -/
structure PointerMap where
  maxlevel : Nat
  lists : List PointerList
  deriving DecidableEq, Repr

namespace PointerMap

def entrynr (m : PointerMap) (level : Nat) (value : UInt64) : Nat :=
  value.toNat / 16 ^ (m.maxlevel - level) % 16

/-- The first `level` digits of the two values are the same. -/
def SharesPath (m : PointerMap) (level : Nat) (value other : UInt64) : Prop :=
  ∀ i < level, m.entrynr i value = m.entrynr i other

instance (m : PointerMap) (level : Nat) (value other : UInt64) :
    Decidable (m.SharesPath level value other) :=
  inferInstanceAs (Decidable (∀ i < level, m.entrynr i value = m.entrynr i other))

/-- The last element that satisfies `P`, with those after it. -/
def fromLast {α : Type} (P : α → Bool) : List α → List α
  | [] => []
  | x :: xs =>
    match fromLast P xs with
    | [] => if P x then x :: xs else []
    | y :: ys => y :: ys

def firstPointerValue (m : PointerMap) : List PointerList := m.lists.drop (m.lists.length - 1)

/-- The end of `findClosestPointer`: back along `previous`, or else the first. -/
def notAbove (m : PointerMap) (maxvalue : UInt64) (lists : List PointerList) :
    List PointerList :=
  match lists.dropWhile fun l => maxvalue < l.pointervalue with
  | [] => m.firstPointerValue
  | l :: previous => l :: previous

/-- `findClosestPointer` in the array at `level` that the digits of `maxvalue` lead
    to: first the entries above its digit, then those below. -/
def findClosestPointer (m : PointerMap) (level : Nat) (maxvalue : UInt64) : List PointerList :=
  let above := fromLast (fun l => m.SharesPath level l.pointervalue maxvalue ∧
    m.entrynr level maxvalue < m.entrynr level l.pointervalue) m.lists
  let below := m.lists.dropWhile fun l => ¬ (m.SharesPath level l.pointervalue maxvalue ∧
    m.entrynr level l.pointervalue < m.entrynr level maxvalue)
  match above with
  | [] => match below with
    | [] => []
    | l :: previous => m.notAbove maxvalue (l :: previous)
  | l :: previous => m.notAbove maxvalue (l :: previous)

/-- The loop of `findPointerValue` over the levels that are left. -/
def descend (m : PointerMap) (stopvalue : UInt64) : Nat → Nat → List PointerList
  | 0, _ => m.lists.dropWhile fun l => ¬ m.SharesPath (m.maxlevel + 1) l.pointervalue stopvalue
  | n + 1, level =>
    if m.lists.any fun l => m.SharesPath (level + 1) l.pointervalue stopvalue then
      descend m stopvalue n (level + 1)
    else m.findClosestPointer level stopvalue

/-- `findPointerValue`: the list that is found, with those before it; its value is
    the new `stopvalue`. -/
def findPointerValue (m : PointerMap) (startvalue stopvalue : UInt64) : List PointerList :=
  match m.descend stopvalue (m.maxlevel + 1) 0 with
  | [] => []
  | l :: previous => if l.pointervalue < startvalue then [] else l :: previous

end PointerMap

end CheatEngine.PointerScan
