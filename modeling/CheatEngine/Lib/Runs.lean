/-
  CheatEngine.Lib.Runs

  The set bits of a row as runs: intervals that are disjoint, ascending and together just
  the set bits.  A row may be scanned in pieces; a run that goes on over the border of two
  pieces is then two runs.
-/
import Mathlib.Algebra.Group.Nat.Defs
import Mathlib.Data.List.Basic

namespace CheatEngine.Lib

/-- An interval of places. -/
structure Span where
  first : Nat
  count : Nat

namespace Span

def Mem (r : Span) (n : Nat) : Prop := r.first ≤ n ∧ n < r.first + r.count

instance (r : Span) (n : Nat) : Decidable (r.Mem n) :=
  inferInstanceAs (Decidable (r.first ≤ n ∧ n < r.first + r.count))

/-- The first run ends before the second starts. -/
def Before (r r' : Span) : Prop := r.first + r.count ≤ r'.first

end Span

/-- The runs are the places in `[lo, hi)` with `p`. -/
structure Runs (p : Nat → Bool) (lo hi : Nat) (runs : List Span) : Prop where
  mem_iff : ∀ n, (∃ r ∈ runs, r.Mem n) ↔ lo ≤ n ∧ n < hi ∧ p n = true
  ascending : runs.Pairwise Span.Before
  within : ∀ r ∈ runs, lo ≤ r.first ∧ 0 < r.count ∧ r.first + r.count ≤ hi

/-- The runs of a row that starts at the place `i`; `start` is where the run that is open
    began. -/
def runsOf : List Bool → Nat → Option Nat → List Span
  | [], _, none => []
  | [], i, some start => [⟨start, i - start⟩]
  | true :: row, i, start => runsOf row (i + 1) (some (start.getD i))
  | false :: row, i, none => runsOf row (i + 1) none
  | false :: row, i, some start => ⟨start, i - start⟩ :: runsOf row (i + 1) none

namespace Runs

variable {p : Nat → Bool} {lo mid hi : Nat} {runs runs' : List Span}

theorem nil (h : ∀ n, lo ≤ n → n < hi → p n = false) : Runs p lo hi [] := by
  refine ⟨fun n => ?_, List.Pairwise.nil, fun r hr => absurd hr List.not_mem_nil⟩
  constructor
  · rintro ⟨r, hr, -⟩
    exact absurd hr List.not_mem_nil
  · rintro ⟨hlow, hhigh, hp⟩
    rw [h n hlow hhigh] at hp
    cases hp

theorem singleton (hlt : lo < hi) (h : ∀ n, lo ≤ n → n < hi → p n = true) :
    Runs p lo hi [⟨lo, hi - lo⟩] := by
  refine ⟨fun n => ?_, List.pairwise_singleton _ _, ?_⟩
  · simp only [List.mem_singleton, exists_eq_left, Span.Mem]
    constructor
    · rintro ⟨hlow, hhigh⟩
      exact ⟨hlow, by omega, h n hlow (by omega)⟩
    · rintro ⟨hlow, hhigh, -⟩
      exact ⟨hlow, by omega⟩
  · intro r hr
    obtain rfl := List.mem_singleton.1 hr
    exact ⟨Nat.le_refl _, by simp only; omega, by simp only; omega⟩

/-- Two rows, one behind the other. -/
theorem append (hle : lo ≤ mid) (hle' : mid ≤ hi) (h : Runs p lo mid runs)
    (h' : Runs p mid hi runs') : Runs p lo hi (runs ++ runs') := by
  refine ⟨fun n => ?_, List.pairwise_append.2 ⟨h.ascending, h'.ascending, ?_⟩, ?_⟩
  · constructor
    · rintro ⟨r, hr, hn⟩
      rcases List.mem_append.1 hr with hr | hr
      · obtain ⟨hlow, hhigh, hp⟩ := (h.mem_iff n).1 ⟨r, hr, hn⟩
        exact ⟨hlow, by omega, hp⟩
      · obtain ⟨hlow, hhigh, hp⟩ := (h'.mem_iff n).1 ⟨r, hr, hn⟩
        exact ⟨by omega, hhigh, hp⟩
    · rintro ⟨hlow, hhigh, hp⟩
      by_cases hn : n < mid
      · obtain ⟨r, hr, hmem⟩ := (h.mem_iff n).2 ⟨hlow, hn, hp⟩
        exact ⟨r, List.mem_append_left _ hr, hmem⟩
      · obtain ⟨r, hr, hmem⟩ := (h'.mem_iff n).2 ⟨by omega, hhigh, hp⟩
        exact ⟨r, List.mem_append_right _ hr, hmem⟩
  · intro r hr r' hr'
    have hend := (h.within r hr).2.2
    have hstart := (h'.within r' hr').1
    exact Nat.le_trans hend hstart
  · intro r hr
    rcases List.mem_append.1 hr with hr | hr
    · obtain ⟨hlow, hpos, hhigh⟩ := h.within r hr
      exact ⟨hlow, hpos, by omega⟩
    · obtain ⟨hlow, hpos, hhigh⟩ := h'.within r hr
      exact ⟨by omega, hpos, hhigh⟩

theorem of_row (row : List Bool) (i : Nat) (start : Option Nat)
    (hrow : ∀ j, (hj : j < row.length) → p (i + j) = row[j])
    (hstart : ∀ s, start = some s → s < i ∧ ∀ n, s ≤ n → n < i → p n = true) :
    Runs p (start.getD i) (i + row.length) (runsOf row i start) := by
  induction row generalizing i start with
  | nil =>
    cases start with
    | none => exact nil fun n hlow hhigh => by simp at hlow hhigh; omega
    | some s =>
      obtain ⟨hlt, hset⟩ := hstart s rfl
      exact singleton hlt hset
  | cons b row ih =>
    have hfirst : p i = b := hrow 0 (by simp)
    have hrest : ∀ j, (hj : j < row.length) → p (i + 1 + j) = row[j] := by
      intro j hj
      have hnext := hrow (j + 1) (by simpa using hj)
      rw [Nat.add_assoc, Nat.add_comm 1 j]
      simpa using hnext
    have hend : i + (b :: row).length = i + 1 + row.length := by
      rw [List.length_cons]
      omega
    rw [hend]
    cases b with
    | true =>
      -- the open run goes on, or a new one is opened
      refine ih (i + 1) (some (start.getD i)) hrest ?_
      rintro s ⟨rfl⟩
      cases start with
      | none =>
        refine ⟨Nat.lt_succ_self i, fun n hlow hhigh => ?_⟩
        obtain rfl : n = i := by simp at hlow; omega
        exact hfirst
      | some s =>
        obtain ⟨hlt, hset⟩ := hstart s rfl
        refine ⟨Nat.lt_succ_of_lt hlt, fun n hlow hhigh => ?_⟩
        rcases Nat.lt_succ_iff_lt_or_eq.1 hhigh with hn | rfl
        · exact hset n hlow hn
        · exact hfirst
    | false =>
      have htail := ih (i + 1) none hrest (fun s h => nomatch h)
      have hgap : Runs p i (i + 1) [] := nil fun n hlow hhigh => by
        obtain rfl : n = i := by omega
        exact hfirst
      have hbehind := append (Nat.le_succ i) (Nat.le_add_right _ _) hgap htail
      cases start with
      | none => exact hbehind
      | some s =>
        obtain ⟨hlt, hset⟩ := hstart s rfl
        exact append (Nat.le_of_lt hlt) (by omega) (singleton hlt hset) hbehind

end Runs

end CheatEngine.Lib
