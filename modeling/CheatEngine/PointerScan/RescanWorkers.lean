/-
  CheatEngine.PointerScan.RescanWorkers

  `TRescanpointers.execute` (pointerscannerfrm.pas) divides the results among its
  workers.  The blocks always cover every result once; but while it waits for the
  workers, the progress is divided by a hundredth of their number.
-/
import Mathlib.Algebra.Group.Nat.Defs
import Mathlib.Data.List.Basic

namespace CheatEngine.PointerScan

/-- The loop of `TRescanWorker.execute`: the entries for which `getPointer` is not
    `nil`, and that can so be stored. -/
def checkEntries (count : Nat) : Nat → Nat → List Nat
  | 0, _ => []
  | entriesToCheck + 1, currentEntry =>
    let rest := checkEntries count entriesToCheck (currentEntry + 1)
    if currentEntry < count then currentEntry :: rest else rest

def rescanWorker (count startEntry entriesToCheck : Nat) : List Nat :=
  if count < startEntry then [] else checkEntries count entriesToCheck startEntry

/-- `entriestocheck` of the last worker is a difference of two `qword`s. -/
def rescanWorkers (total rescanworkercount : Nat) : List (List Nat) :=
  let blocksize := max (total / rescanworkercount) 8
  (List.range rescanworkercount).map fun i =>
    let startEntry := blocksize * i
    rescanWorker total startEntry
      (if i = rescanworkercount - 1 then (total + 2 ^ 64 - startEntry) % 2 ^ 64 else blocksize)

/-- `EDivByZero`. -/
inductive RescanError where
  | divByZero

def divide (a b : Nat) : Except RescanError Nat :=
  if b = 0 then .error .divByZero else .ok (a / b)

/-- What the workers check, when the renaming of their files is reached: each time
    that the wait for them times out the progress is shown, from the number of
    entries evaluated then. -/
def rescanExecute (total rescanworkercount : Nat) (timeouts : List Nat) :
    Except RescanError (List (List Nat)) := do
  let workers := rescanWorkers total rescanworkercount
  let _ ← timeouts.mapM fun pointersEvaluated => divide pointersEvaluated (total / 100)
  return workers

/-- Every result is checked once, in ascending order over the workers, and the renaming
    is reached. -/
def CoversOnce (total rescanworkercount : Nat) (timeouts : List Nat) : Prop :=
  ∃ workers, rescanExecute total rescanworkercount timeouts = .ok workers ∧
    workers.length = rescanworkercount ∧ workers.flatten = List.range total

theorem checkEntries_eq (count entriesToCheck currentEntry : Nat) :
    checkEntries count entriesToCheck currentEntry =
      List.range' currentEntry (min entriesToCheck (count - currentEntry)) := by
  induction entriesToCheck generalizing currentEntry with
  | zero => rw [Nat.zero_min]; rfl
  | succ k ih =>
    rw [checkEntries, ih]
    split
    · next hlt =>
      have hmin : min (k + 1) (count - currentEntry) =
          min k (count - (currentEntry + 1)) + 1 := by omega
      rw [hmin, List.range'_succ]
    · next hge =>
      have hnone : count - (currentEntry + 1) = 0 ∧ count - currentEntry = 0 := by omega
      rw [hnone.1, hnone.2, Nat.min_zero, Nat.min_zero]
      rfl

/-- The part of the results in a block. -/
theorem rescanWorker_eq (count startEntry entriesToCheck : Nat) :
    rescanWorker count startEntry entriesToCheck = List.range' (min startEntry count)
      (min (startEntry + entriesToCheck) count - min startEntry count) := by
  unfold rescanWorker
  split
  · next hlt =>
    have hnone : min (startEntry + entriesToCheck) count - min startEntry count = 0 := by omega
    rw [hnone]
    rfl
  · next hle =>
    have hle' := Nat.le_of_not_lt hle
    rw [checkEntries_eq, Nat.min_eq_left hle']
    congr 1
    omega

theorem range_append_range' {a b : Nat} (h : a ≤ b) :
    List.range a ++ List.range' a (b - a) = List.range b := by
  have hsum : b = a + (b - a) := by omega
  conv_rhs => rw [hsum, List.range_add]
  rw [List.range'_eq_map_range]

theorem flatten_blocks (count blocksize n : Nat) :
    ((List.range n).map fun i => rescanWorker count (blocksize * i) blocksize).flatten =
      List.range (min (blocksize * n) count) := by
  induction n with
  | zero => rw [Nat.mul_zero, Nat.zero_min]; rfl
  | succ n ih =>
    rw [List.range_succ, List.map_append, List.flatten_append, ih, List.map_singleton,
      List.flatten_singleton, rescanWorker_eq, Nat.mul_succ]
    exact range_append_range' (by omega)

variable {total rescanworkercount : Nat}

theorem rescanWorkers_flatten (htotal : total < 2 ^ 64) (hcount : 1 ≤ rescanworkercount) :
    (rescanWorkers total rescanworkercount).flatten = List.range total := by
  obtain ⟨n, rfl⟩ := Nat.exists_eq_add_of_le' hcount
  simp only [rescanWorkers, Nat.add_sub_cancel]
  generalize max (total / (n + 1)) 8 = blocksize
  have hblocks : (List.range n).map (fun i => rescanWorker total (blocksize * i)
      (if i = n then (total + 2 ^ 64 - blocksize * i) % 2 ^ 64 else blocksize)) =
      (List.range n).map fun i => rescanWorker total (blocksize * i) blocksize := by
    apply List.map_congr_left
    intro i hi
    rw [if_neg (Nat.ne_of_lt (List.mem_range.1 hi))]
  have hlast : rescanWorker total (blocksize * n) ((total + 2 ^ 64 - blocksize * n) % 2 ^ 64) =
      List.range' (min (blocksize * n) total) (total - min (blocksize * n) total) := by
    by_cases hle : blocksize * n ≤ total
    · have hleft : (total + 2 ^ 64 - blocksize * n) % 2 ^ 64 = total - blocksize * n := by
        rw [Nat.sub_add_comm hle, Nat.add_mod_right]
        exact Nat.mod_eq_of_lt (by omega)
      rw [hleft, rescanWorker_eq, Nat.add_sub_cancel' hle, Nat.min_self]
    · -- the difference wraps, but this worker leaves at once
      rw [rescanWorker, if_pos (Nat.lt_of_not_le hle), Nat.min_eq_right (Nat.le_of_not_le hle),
        Nat.sub_self]
      rfl
  rw [List.range_succ, List.map_append, List.flatten_append, hblocks, flatten_blocks,
    List.map_singleton, List.flatten_singleton, if_pos rfl, hlast]
  exact range_append_range' (Nat.min_le_right _ _)

theorem rescanExecute_eq (timeouts : List Nat) :
    rescanExecute total rescanworkercount timeouts =
      if 100 ≤ total ∨ timeouts = [] then .ok (rescanWorkers total rescanworkercount)
      else .error .divByZero := by
  unfold rescanExecute
  by_cases hmany : 100 ≤ total
  · have hpos : total / 100 ≠ 0 := Nat.ne_of_gt (Nat.div_pos hmany (by decide))
    have hok : timeouts.mapM (fun evaluated => divide evaluated (total / 100)) =
        .ok (timeouts.map fun evaluated => evaluated / (total / 100)) := by
      induction timeouts with
      | nil => rfl
      | cons evaluated rest ih =>
        rw [List.mapM_cons, ih, divide, if_neg hpos]
        rfl
    rw [if_pos (.inl hmany), hok]
    rfl
  · have hzero : total / 100 = 0 := Nat.div_eq_of_lt (Nat.lt_of_not_le hmany)
    cases timeouts with
    | nil => rw [if_pos (.inr rfl)]; rfl
    | cons evaluated rest =>
      rw [if_neg (not_or.2 ⟨hmany, List.cons_ne_nil _ _⟩), List.mapM_cons, divide, if_pos hzero]
      rfl

/-- The results are covered, and the renaming is reached unless fewer than 100 results
    take longer than the first wait. -/
theorem coversOnce_iff (total rescanworkercount : Nat) (htotal : total < 2 ^ 64)
    (hcount : 1 ≤ rescanworkercount) (timeouts : List Nat) :
    CoversOnce total rescanworkercount timeouts ↔ 100 ≤ total ∨ timeouts = [] := by
  unfold CoversOnce
  rw [rescanExecute_eq]
  split
  · next hreached =>
    refine iff_of_true ⟨_, rfl, ?_, rescanWorkers_flatten htotal hcount⟩ hreached
    rw [rescanWorkers, List.length_map, List.length_range]
  · next hfails => exact iff_of_false (fun ⟨_, hok, _⟩ => nomatch hok) hfails

theorem coversOnce_iff_few : CoversOnce 5 4 [] ↔ 100 ≤ 5 ∨ ([] : List Nat) = [] :=
  coversOnce_iff 5 4 (by decide) (by decide) []

/-- 99 results, 40 of them evaluated after the first 250 ms. -/
theorem ninetyNine_not_coversOnce : ¬ CoversOnce 99 4 [40] := by
  rintro ⟨workers, hok, -⟩
  have herror : rescanExecute 99 4 [40] = .error .divByZero := rfl
  exact nomatch herror.symm.trans hok

end CheatEngine.PointerScan
