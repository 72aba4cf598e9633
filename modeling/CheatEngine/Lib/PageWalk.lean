/-
  CheatEngine.Lib.PageWalk

  Translation of addresses by a tree of tables.  Each level takes some bits of the address as
  the index of an entry, which is absent, maps a page, or leads to the table of the next level.
-/
import Mathlib.Algebra.Group.Nat.Defs
import Mathlib.Data.List.Basic

namespace CheatEngine.Lib.PageWalk

/-- A level of the tables: `shift` bits of an address are below its index of `bits` bits. -/
structure Level (ε : Type) where
  shift : Nat
  bits : Nat
  entry : (table index : Nat) → ε
  present : ε → Bool
  /-- The address of the page that an entry maps, if it maps one. -/
  page : ε → Option Nat
  table : ε → Nat

variable {ε : Type}

def Level.at (l : Level ε) (table address : Nat) : ε :=
  l.entry table (address / 2 ^ l.shift % 2 ^ l.bits)

/-- The address to which the tables translate one. -/
def walk : List (Level ε) → (table address : Nat) → Option Nat
  | [], _, _ => none
  | l :: levels, table, address =>
    let e := l.at table address
    if l.present e then
      match l.page e with
      | some base => some (base + address % 2 ^ l.shift)
      | none => walk levels (l.table e) address
    else none

def path : List (Level ε) → (table address : Nat) → List Bool
  | [], _, _ => []
  | l :: levels, table, address =>
    let e := l.at table address
    l.present e ::
      if l.present e ∧ l.page e = none then path levels (l.table e) address else []

/-- An entry of the last level maps a page. -/
def Ends : List (Level ε) → Prop
  | [] => False
  | [l] => ∀ e, l.page e ≠ none
  | _ :: l :: levels => Ends (l :: levels)

theorem walk_eq_none_iff {levels : List (Level ε)} (hends : Ends levels) (table address : Nat) :
    walk levels table address = none ↔ false ∈ path levels table address := by
  induction levels generalizing table with
  | nil => exact hends.elim
  | cons l levels ih =>
    rw [walk, path]
    cases hpresent : l.present (l.at table address) with
    | false => simp
    | true =>
      cases hpage : l.page (l.at table address) with
      | some base => simp
      | none =>
        cases levels with
        | nil => exact absurd hpage (hends _)
        | cons l' levels => simpa using ih hends (l.table (l.at table address))

end CheatEngine.Lib.PageWalk
