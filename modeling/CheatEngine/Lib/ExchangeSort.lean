/-
  CheatEngine.Lib.ExchangeSort

  Sorting by exchanges: for every place `i`, every later place `j` with a smaller key is
  exchanged with it.  The result is a permutation that ascends by the key.
-/
import Mathlib.Data.List.Basic
import Mathlib.Algebra.Group.Nat.Defs

namespace CheatEngine.Lib

variable {α : Type}

def exchange (key : α → Nat) (i : Nat) (l : List α) (j : Nat) : List α :=
  match l[i]?, l[j]? with
  | some x, some y => if key y < key x then (l.set i y).set j x else l
  | _, _ => l

def exchangePass (key : α → Nat) (n : Nat) (l : List α) (i : Nat) : List α :=
  (List.range' i (n - i)).foldl (exchange key i) l

def exchangeSort (key : α → Nat) (l : List α) : List α :=
  (List.range l.length).foldl (exchangePass key l.length) l

variable {key : α → Nat} {l : List α} {i j : Nat}

/-- The places before `i` have no larger key than any place behind them. -/
def SortedTo (key : α → Nat) (i : Nat) (l : List α) : Prop :=
  ∀ k m x y, k < i → k < m → l[k]? = some x → l[m]? = some y → key x ≤ key y

/-- Place `i` has the least key of the places from `i` to before `j`. -/
def LeastTo (key : α → Nat) (i j : Nat) (l : List α) : Prop :=
  ∀ k x y, i ≤ k → k < j → l[i]? = some x → l[k]? = some y → key x ≤ key y

theorem exchange_cases (key : α → Nat) (l : List α) (i j : Nat) :
    (exchange key i l j = l ∧ ∀ x y, l[i]? = some x → l[j]? = some y → key x ≤ key y) ∨
      ∃ (hi : i < l.length) (hj : j < l.length), key l[j] < key l[i] ∧
        exchange key i l j = (l.set i l[j]).set j l[i] := by
  unfold exchange
  by_cases hi : i < l.length
  · by_cases hj : j < l.length
    · rw [List.getElem?_eq_getElem hi, List.getElem?_eq_getElem hj]
      dsimp only
      split
      · next hlt => exact .inr ⟨hi, hj, hlt, rfl⟩
      · next hge =>
        refine .inl ⟨rfl, fun x y hx hy => ?_⟩
        rw [← Option.some.inj hx, ← Option.some.inj hy]
        exact Nat.le_of_not_lt hge
    · have hnone : l[j]? = none := List.getElem?_eq_none (Nat.le_of_not_lt hj)
      rw [hnone]
      refine .inl ⟨?_, fun x y _ hy => nomatch hy⟩
      cases l[i]? <;> rfl
  · have hnone : l[i]? = none := List.getElem?_eq_none (Nat.le_of_not_lt hi)
    rw [hnone]
    exact .inl ⟨rfl, fun x y hx _ => nomatch hx⟩

theorem exchange_perm (key : α → Nat) (l : List α) (i j : Nat) : (exchange key i l j).Perm l := by
  rcases exchange_cases key l i j with ⟨heq, -⟩ | ⟨hi, hj, -, heq⟩
  · rw [heq]
  · rw [heq]
    exact List.set_set_perm hi hj

theorem getElem?_swap (hi : i < l.length) (hj : j < l.length) (k : Nat) :
    ((l.set i l[j]).set j l[i])[k]? =
      if k = j then some l[i] else if k = i then some l[j] else l[k]? := by
  rw [List.getElem?_set, List.length_set]
  by_cases hkj : j = k
  · subst hkj
    rw [if_pos rfl, if_pos rfl, if_pos hj]
  · rw [if_neg hkj, if_neg (Ne.symm hkj), List.getElem?_set]
    by_cases hki : i = k
    · subst hki
      rw [if_pos rfl, if_pos rfl, if_pos hi]
    · rw [if_neg hki, if_neg (Ne.symm hki)]

theorem SortedTo.exchange (h : SortedTo key i l) (hij : i ≤ j) :
    SortedTo key i (exchange key i l j) := by
  rcases exchange_cases key l i j with ⟨heq, -⟩ | ⟨hi, hj, -, heq⟩
  · rw [heq]
    exact h
  · intro k m x y hk hkm hx hy
    rw [heq, getElem?_swap hi hj, if_neg (by omega), if_neg (by omega)] at hx
    rw [heq, getElem?_swap hi hj] at hy
    -- behind the places before `i` the same entries stand in another order
    split at hy
    · exact h k i x y hk hk hx (by rw [List.getElem?_eq_getElem hi]; exact hy)
    · split at hy
      · exact h k j x y hk (by omega) hx (by rw [List.getElem?_eq_getElem hj]; exact hy)
      · exact h k m x y hk hkm hx hy

theorem LeastTo.exchange (h : LeastTo key i j l) (hij : i ≤ j) :
    LeastTo key i (j + 1) (exchange key i l j) := by
  rcases exchange_cases key l i j with ⟨heq, hle⟩ | ⟨hi, hj, hlt, heq⟩
  · rw [heq]
    intro k x y hik hk hx hy
    by_cases hkj : k = j
    · subst hkj
      exact hle x y hx hy
    · exact h k x y hik (by omega) hx hy
  · have hne : i ≠ j := by
      rintro rfl
      exact Nat.lt_irrefl _ hlt
    intro k x y hik hk hx hy
    rw [heq, getElem?_swap hi hj, if_neg hne, if_pos rfl] at hx
    rw [heq, getElem?_swap hi hj] at hy
    obtain rfl := Option.some.inj hx
    split at hy
    · obtain rfl := Option.some.inj hy
      exact Nat.le_of_lt hlt
    · split at hy
      · obtain rfl := Option.some.inj hy
        exact Nat.le_refl _
      · have hold := h k l[i] y hik (by omega) (List.getElem?_eq_getElem hi) hy
        exact Nat.le_trans (Nat.le_of_lt hlt) hold

theorem exchangePass_loop (count : Nat) (hij : i ≤ j) (hsorted : SortedTo key i l)
    (hleast : LeastTo key i j l) :
    ((List.range' j count).foldl (exchange key i) l).Perm l ∧
      SortedTo key i ((List.range' j count).foldl (exchange key i) l) ∧
      LeastTo key i (j + count) ((List.range' j count).foldl (exchange key i) l) := by
  induction count generalizing j l with
  | zero => exact ⟨List.Perm.refl _, hsorted, hleast⟩
  | succ count ih =>
    rw [List.range'_succ, List.foldl_cons]
    obtain ⟨hperm, hsorted', hleast'⟩ := ih (j := j + 1) (by omega) (hsorted.exchange hij)
      (hleast.exchange hij)
    refine ⟨hperm.trans (exchange_perm key l i j), hsorted', ?_⟩
    rwa [show j + (count + 1) = j + 1 + count by omega]

theorem exchangePass_spec (hlen : l.length = j) (hsorted : SortedTo key i l) :
    (exchangePass key j l i).Perm l ∧ SortedTo key (i + 1) (exchangePass key j l i) := by
  have hstart : LeastTo key i i l := fun k _ _ hik hk => absurd hk (Nat.not_lt.2 hik)
  obtain ⟨hperm, hsorted', hleast⟩ :=
    exchangePass_loop (j - i) (Nat.le_refl i) hsorted hstart
  refine ⟨hperm, fun k m x y hk hkm hx hy => ?_⟩
  by_cases hki : k = i
  · subst hki
    have hm : m < j := by
      have hlt := (List.getElem?_eq_some_iff.1 hy).1
      have hlength := hperm.length_eq
      unfold exchangePass at hlt
      omega
    exact hleast m x y (by omega) (by omega) hx hy
  · exact hsorted' k m x y (by omega) hkm hx hy

theorem exchangeSort_loop (key : α → Nat) (l : List α) (count : Nat) :
    ((List.range count).foldl (exchangePass key l.length) l).Perm l ∧
      SortedTo key count ((List.range count).foldl (exchangePass key l.length) l) := by
  induction count with
  | zero => exact ⟨List.Perm.refl _, fun k _ _ _ hk => absurd hk (Nat.not_lt_zero k)⟩
  | succ count ih =>
    rw [List.range_succ, List.foldl_append, List.foldl_cons, List.foldl_nil]
    obtain ⟨hperm, hsorted⟩ := ih
    obtain ⟨hperm', hsorted'⟩ := exchangePass_spec hperm.length_eq hsorted
    exact ⟨hperm'.trans hperm, hsorted'⟩

theorem exchangeSort_perm (key : α → Nat) (l : List α) : (exchangeSort key l).Perm l :=
  (exchangeSort_loop key l l.length).1

theorem exchangeSort_sorted (key : α → Nat) (l : List α) :
    (exchangeSort key l).Pairwise fun x y => key x ≤ key y := by
  rw [List.pairwise_iff_getElem]
  intro i j hi hj hij
  have hlength := (exchangeSort_perm key l).length_eq
  exact (exchangeSort_loop key l l.length).2 i j _ _ (by omega) hij
    (List.getElem?_eq_getElem hi) (List.getElem?_eq_getElem hj)

end CheatEngine.Lib
