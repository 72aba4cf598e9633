/-
  CheatEngine.Lib.SortedArray

  Arrays whose first entries ascend by a key: the search for a place by halving, and the
  insertion of an entry by moving the entries behind its place.  An array is a function
  of the index; what stands behind the first entries does not matter.
-/
import Mathlib.Logic.Function.Basic
import Mathlib.Algebra.Group.Nat.Defs

namespace CheatEngine.Lib

variable {α : Type}

/-- The first `n` keys ascend. -/
def AscendingKeys (key : Nat → Nat) (n : Nat) : Prop := ∀ i j, i < j → j < n → key i < key j

/-- Halve between `low` and `high`, which is not included, until the key is found or the
    place where it belongs. -/
def lowerBound (key : Nat → Nat) (a : Nat) : (fuel low high : Nat) → Nat
  | 0, low, _ => low
  | fuel + 1, low, high =>
    if low < high then
      let mid := low + (high - 1 - low) / 2
      if a = key mid then mid
      else if key mid < a then lowerBound key a fuel (mid + 1) high
      else lowerBound key a fuel low mid
    else low

/-- `for (i = n; i > s; i--) items[i] = items[i-1]`. -/
def moveUp (s : Nat) : (n : Nat) → (Nat → α) → Nat → α
  | 0, items => items
  | n + 1, items =>
    if s < n + 1 then moveUp s n (Function.update items (n + 1) (items n)) else items

/-- The place of a key: all before it are less, none from it on is. -/
structure IsPlace (key : Nat → Nat) (a n r : Nat) : Prop where
  le : r ≤ n
  below : ∀ k, k < r → key k < a
  above : ∀ k, r ≤ k → k < n → a ≤ key k

variable {key : Nat → Nat} {a n : Nat}

theorem AscendingKeys.le {i j : Nat} (h : AscendingKeys key n) (hij : i ≤ j) (hj : j < n) :
    key i ≤ key j := by
  rcases Nat.lt_or_eq_of_le hij with hlt | rfl
  · exact Nat.le_of_lt (h i j hlt hj)
  · exact Nat.le_refl _

theorem AscendingKeys.inj {i j : Nat} (h : AscendingKeys key n) (hi : i < n) (hj : j < n)
    (heq : key i = key j) : i = j := by
  rcases Nat.lt_trichotomy i j with hlt | heq | hgt
  · exact absurd heq (Nat.ne_of_lt (h i j hlt hj))
  · exact heq
  · exact absurd heq.symm (Nat.ne_of_lt (h j i hgt hi))

theorem lowerBound_spec (h : AscendingKeys key n) (fuel low high : Nat)
    (hfuel : high - low ≤ fuel) (hle : low ≤ high) (hhigh : high ≤ n)
    (hbelow : ∀ k, k < low → key k < a) (habove : ∀ k, high ≤ k → k < n → a ≤ key k) :
    IsPlace key a n (lowerBound key a fuel low high) := by
  induction fuel generalizing low high with
  | zero =>
    have heq : low = high := by omega
    subst heq
    exact ⟨hhigh, hbelow, habove⟩
  | succ fuel ih =>
    rw [lowerBound]
    by_cases hlt : low < high
    · rw [if_pos hlt]
      obtain ⟨mid, hmid⟩ : ∃ mid, mid = low + (high - 1 - low) / 2 := ⟨_, rfl⟩
      have hlow : low ≤ mid := by omega
      have hmidhigh : mid < high := by omega
      have hn : mid < n := Nat.lt_of_lt_of_le hmidhigh hhigh
      dsimp only
      rw [← hmid]
      split
      · next heq =>
        refine ⟨Nat.le_of_lt hn, fun k hk => ?_, fun k hk hkn => ?_⟩
        · rw [heq]
          exact h k mid hk hn
        · rw [heq]
          exact h.le hk hkn
      · split
        · next hne hless =>
          refine ih (mid + 1) high (by omega) (by omega) hhigh (fun k hk => ?_) habove
          exact Nat.lt_of_le_of_lt (h.le (Nat.le_of_lt_succ hk) hn) hless
        · next hne hge =>
          refine ih low mid (by omega) hlow (Nat.le_of_lt hn) hbelow fun k hk hkn => ?_
          exact Nat.le_trans (by omega) (h.le hk hkn)
    · rw [if_neg hlt]
      have heq : low = high := by omega
      subst heq
      exact ⟨hhigh, hbelow, habove⟩

theorem moveUp_apply {s : Nat} (hs : s ≤ n) (items : Nat → α) (k : Nat) :
    moveUp s n items k = if s < k ∧ k ≤ n then items (k - 1) else items k := by
  induction n generalizing items with
  | zero =>
    rw [moveUp, if_neg (by omega)]
  | succ n ih =>
    rw [moveUp]
    by_cases hlt : s < n + 1
    · rw [if_pos hlt, ih (by omega)]
      by_cases hk : k = n + 1
      · subst hk
        rw [if_neg (by omega), if_pos (by omega), Function.update_self, Nat.add_sub_cancel]
      · by_cases hin : s < k ∧ k ≤ n
        · have hpred : k - 1 ≠ n + 1 := by omega
          rw [if_pos hin, if_pos (by omega), Function.update_of_ne hpred]
        · rw [if_neg hin, if_neg (by omega), Function.update_of_ne hk]
    · rw [if_neg hlt, if_neg (by omega)]

section Insert

variable {items : Nat → α} {f : α → Nat} {r : Nat} {x : α}

theorem AscendingKeys.replace (h : AscendingKeys (fun i => f (items i)) n)
    (hr : IsPlace (fun i => f (items i)) (f x) n r) :
    AscendingKeys (fun i => f (Function.update items r x i)) n := by
  intro i j hij hj
  dsimp only
  by_cases hi : i = r
  · subst hi
    rw [Function.update_self, Function.update_of_ne (Nat.ne_of_gt hij)]
    exact Nat.lt_of_le_of_lt (hr.above i (Nat.le_refl _) (by omega)) (h i j hij hj)
  · rw [Function.update_of_ne hi]
    by_cases hjr : j = r
    · subst hjr
      rw [Function.update_self]
      exact hr.below i hij
    · rw [Function.update_of_ne hjr]
      exact h i j hij hj

/-- What stands where after an insertion. -/
theorem insert_apply (hr : r ≤ n) (k : Nat) :
    Function.update (moveUp r n items) r x k =
      if k < r then items k else if k = r then x else if k ≤ n then items (k - 1) else items k := by
  by_cases hk : k = r
  · subst hk
    rw [Function.update_self, if_neg (Nat.lt_irrefl _), if_pos rfl]
  · rw [Function.update_of_ne hk, moveUp_apply hr]
    by_cases hlt : k < r
    · rw [if_neg (by omega), if_pos hlt]
    · rw [if_neg hlt, if_neg hk]
      by_cases hn : k ≤ n
      · rw [if_pos (by omega), if_pos hn]
      · rw [if_neg (by omega), if_neg hn]

theorem AscendingKeys.insert (h : AscendingKeys (fun i => f (items i)) n)
    (hr : IsPlace (fun i => f (items i)) (f x) n r) (hnew : r < n → f (items r) ≠ f x) :
    AscendingKeys (fun i => f (Function.update (moveUp r n items) r x i)) (n + 1) := by
  -- the entries from the place on are above the new one
  have habove : ∀ k, r ≤ k → k < n → f x < f (items k) := by
    intro k hk hkn
    have hfirst : f x < f (items r) :=
      Nat.lt_of_le_of_ne (hr.above r (Nat.le_refl _) (by omega)) (hnew (by omega)).symm
    exact Nat.lt_of_lt_of_le hfirst (h.le hk hkn)
  intro i j hij hj
  dsimp only
  rw [insert_apply hr.le, insert_apply hr.le]
  rcases Nat.lt_trichotomy i r with hi | rfl | hi
  · rw [if_pos hi]
    rcases Nat.lt_trichotomy j r with hjr | rfl | hjr
    · rw [if_pos hjr]
      exact h i j hij (by have := hr.le; omega)
    · rw [if_neg (Nat.lt_irrefl _), if_pos rfl]
      exact hr.below i hi
    · rw [if_neg (by omega), if_neg (by omega), if_pos (by omega)]
      exact h i (j - 1) (by omega) (by omega)
  · rw [if_neg (Nat.lt_irrefl _), if_pos rfl, if_neg (by omega), if_neg (by omega),
      if_pos (by omega)]
    exact habove (j - 1) (by omega) (by omega)
  · rw [if_neg (by omega), if_neg (by omega), if_pos (by omega), if_neg (by omega),
      if_neg (by omega), if_pos (by omega)]
    exact h (i - 1) (j - 1) (by omega) (by omega)

/-- The entries after an insertion: the new one and those from before. -/
theorem exists_insert_iff (hr : r ≤ n) {p : α → Prop} :
    (∃ i, i < n + 1 ∧ p (Function.update (moveUp r n items) r x i)) ↔
      p x ∨ ∃ i, i < n ∧ p (items i) := by
  constructor
  · rintro ⟨i, hi, hp⟩
    rw [insert_apply hr] at hp
    split at hp
    · exact .inr ⟨i, by omega, hp⟩
    · split at hp
      · exact .inl hp
      · rw [if_pos (by omega)] at hp
        exact .inr ⟨i - 1, by omega, hp⟩
  · rintro (hx | ⟨i, hi, hp⟩)
    · refine ⟨r, by omega, ?_⟩
      rw [insert_apply hr, if_neg (Nat.lt_irrefl _), if_pos rfl]
      exact hx
    · by_cases hlt : i < r
      · refine ⟨i, by omega, ?_⟩
        rw [insert_apply hr, if_pos hlt]
        exact hp
      · refine ⟨i + 1, by omega, ?_⟩
        rw [insert_apply hr, if_neg (by omega), if_neg (by omega), if_pos (by omega)]
        exact hp

end Insert

end CheatEngine.Lib
