/-
  CheatEngine.Lib.Slots

  Lists of slots that are taken and given back.  A new value goes into the
  first slot that is free, or into a new slot at the end.  A total over the slots
  changes by what one of them changes.
-/
import Mathlib.Algebra.BigOperators.Group.List.Basic

namespace CheatEngine.Lib

variable {α : Type} (free : α → Bool) {l : List α} {a : α} {j : Nat}

def freeSlot (l : List α) : Nat := l.findIdx free

/-- Put a value into the first slot that is free, or into a new one. -/
def putFree (l : List α) (a : α) : List α :=
  if freeSlot free l < l.length then l.set (freeSlot free l) a else l ++ [a]

theorem getElem?_putFree (l : List α) (a : α) (j : Nat) :
    (putFree free l a)[j]? = if j = freeSlot free l then some a else l[j]? := by
  have hle : freeSlot free l ≤ l.length := List.findIdx_le_length
  unfold putFree
  generalize freeSlot free l = i at hle
  split
  · next hlt =>
    rw [List.getElem?_set]
    by_cases hj : i = j
    · rw [if_pos hj, if_pos hlt, if_pos hj.symm]
    · rw [if_neg hj, if_neg (Ne.symm hj)]
  · next hge =>
    have heq : i = l.length := by omega
    subst heq
    by_cases hj : j = l.length
    · rw [if_pos hj, hj, List.getElem?_concat_length]
    · rw [if_neg hj, List.getElem?_append]
      split
      · rfl
      · have hout : [a].length ≤ j - l.length := by
          rw [List.length_singleton]
          omega
        rw [List.getElem?_eq_none hout, List.getElem?_eq_none (by omega)]

theorem ne_freeSlot (hget : l[j]? = some a) (htaken : free a = false) : j ≠ freeSlot free l := by
  rintro rfl
  obtain ⟨hlt, hsame⟩ := List.getElem?_eq_some_iff.1 hget
  have hfree := List.findIdx_getElem (p := free) (w := hlt)
  have hthis : l[l.findIdx free] = a := hsame
  rw [hthis, htaken] at hfree
  exact absurd hfree Bool.false_ne_true

theorem sum_map_set {M : Type} [AddCommMonoid M] (f : α → M) {l : List α} {i : Nat} {x : α}
    (h : l[i]? = some x) (y : α) : ((l.set i y).map f).sum + f x = (l.map f).sum + f y := by
  induction l generalizing i with
  | nil => exact nomatch h
  | cons z l ih =>
    cases i with
    | zero =>
      have hz : z = x := Option.some.inj h
      subst hz
      simp only [List.set_cons_zero, List.map_cons, List.sum_cons]
      rw [add_right_comm, add_comm (f y), add_right_comm]
    | succ i =>
      simp only [List.set_cons_succ, List.map_cons, List.sum_cons, add_assoc]
      rw [ih (i := i) h]

end CheatEngine.Lib
