/-
  CheatEngine.Lib.Windows

  A bounded row of windows onto memory.  A window is closed, or open onto a page, and the
  first one that is closed is the next to be opened.  What was opened and closed again is
  as it was before.
-/
import Mathlib.Logic.Function.Basic
import Mathlib.Data.List.Basic

namespace CheatEngine.Lib

/-- The page that each window shows, when it is open. -/
abbrev Windows (π : Type) : Type := Nat → Option π

namespace Windows

variable {π : Type}

/-- Open windows onto pages; of two for one window the first counts. -/
def opened (w : Windows π) : List (Nat × π) → Windows π
  | [] => w
  | (i, p) :: l => Function.update (w.opened l) i (some p)

def closed (w : Windows π) (is : List Nat) : Windows π := fun i => if i ∈ is then none else w i

@[simp] theorem opened_self (w : Windows π) (i : Nat) (p : π) (l : List (Nat × π)) :
    w.opened ((i, p) :: l) i = some p := by
  simp [opened]

variable {i j : Nat}

theorem opened_of_ne (w : Windows π) (h : j ≠ i) (p : π) (l : List (Nat × π)) :
    w.opened ((i, p) :: l) j = w.opened l j := by
  simp [opened, h]

variable {l : List (Nat × π)}

theorem opened_of_not_mem (w : Windows π) (h : j ∉ l.map Prod.fst) : w.opened l j = w j := by
  induction l with
  | nil => rfl
  | cons x l ih =>
      obtain ⟨i, p⟩ := x
      rw [List.map_cons, List.mem_cons, not_or] at h
      rw [opened_of_ne w h.1 p l, ih h.2]

variable {w : Windows π}

theorem not_mem_of_closed (h : w.opened l j = none) : j ∉ l.map Prod.fst := by
  induction l with
  | nil => exact List.not_mem_nil
  | cons x l ih =>
      obtain ⟨i, p⟩ := x
      by_cases hj : j = i
      · rw [hj, opened_self] at h
        cases h
      · rw [opened_of_ne w hj p l] at h
        rw [List.map_cons, List.mem_cons, not_or]
        exact ⟨hj, ih h⟩

theorem closed_of_opened (h : w.opened l j = none) : w j = none := by
  rw [← opened_of_not_mem w (not_mem_of_closed h), h]

theorem closed_opened {is : List Nat}
    (hclosed : ∀ x ∈ l, w x.1 = none) (hmem : ∀ i, i ∈ is ↔ i ∈ l.map Prod.fst) :
    (w.opened l).closed is = w := by
  funext i
  unfold closed
  by_cases hi : i ∈ l.map Prod.fst
  · rw [if_pos ((hmem i).2 hi)]
    obtain ⟨x, hx, rfl⟩ := List.mem_map.1 hi
    exact (hclosed x hx).symm
  · rw [if_neg (fun h => hi ((hmem i).1 h)), opened_of_not_mem w hi]

theorem closed_opened_one (hclosed : w i = none) (p : π) :
    (w.opened [(i, p)]).closed [i] = w :=
  closed_opened (by simpa using hclosed) (by simp)

@[simp] theorem closed_nil (w : Windows π) : w.closed [] = w := by
  funext i
  simp [closed]

theorem closed_closed (w : Windows π) (is js : List Nat) :
    (w.closed is).closed js = w.closed (is ++ js) := by
  funext i
  by_cases hi : i ∈ is <;> by_cases hj : i ∈ js <;> simp [closed, hi, hj]

variable {n : Nat}

def firstClosed (n : Nat) (w : Windows π) : Option Nat :=
  (List.range n).find? fun i => (w i).isNone

def closedCount (n : Nat) (w : Windows π) : Nat := (List.range n).countP fun i => (w i).isNone

theorem firstClosed_eq_some (h : firstClosed n w = some i) :
    i < n ∧ w i = none ∧ ∀ j < i, w j ≠ none := by
  unfold firstClosed at h
  have hmem := List.mem_of_find?_eq_some h
  have hnone := List.find?_some h
  refine ⟨List.mem_range.1 hmem, Option.isNone_iff_eq_none.1 hnone, fun j hj hjnone => ?_⟩
  rw [List.find?_range_eq_some] at h
  have hbefore := h.2.2 j hj
  rw [hjnone] at hbefore
  exact absurd hbefore (by simp)

theorem firstClosed_eq_none : firstClosed n w = none ↔ closedCount n w = 0 := by
  unfold firstClosed closedCount
  rw [List.find?_eq_none, List.countP_eq_zero]

theorem closedCount_update (hi : i < n) (hnone : w i = none) (p : π) :
    closedCount n (Function.update w i (some p)) + 1 = closedCount n w := by
  unfold closedCount
  induction n with
  | zero => omega
  | succ n ih =>
      rw [List.range_succ, List.countP_append, List.countP_append, List.countP_singleton,
        List.countP_singleton]
      by_cases hin : i = n
      · -- the last one is opened, those before it are as they were
        subst hin
        have hsame : (List.range i).countP (fun j => (Function.update w i (some p) j).isNone) =
            (List.range i).countP fun j => (w j).isNone := by
          refine List.countP_congr fun j hj => ?_
          have hji : j ≠ i := Nat.ne_of_lt (List.mem_range.1 hj)
          rw [Function.update_of_ne hji]
        simp [hsame, hnone]
      · have hni : n ≠ i := fun h => hin h.symm
        rw [Function.update_of_ne hni, ← ih (by omega)]
        omega

theorem closedCount_opened (hi : i < n) (hnone : w.opened l i = none) (p : π) :
    closedCount n (w.opened ((i, p) :: l)) + 1 = closedCount n (w.opened l) :=
  closedCount_update hi hnone p

end Windows

end CheatEngine.Lib
