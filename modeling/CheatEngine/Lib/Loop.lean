/-
  CheatEngine.Lib.Loop

  Loops that leave from the middle, such as `while (1)` with a `break`.  One turn
  goes on with a state or leaves with a result; a bound on the turns makes the loop
  a function, and a loop leaves with a result when some bound is enough for it.
-/
namespace CheatEngine.Lib

variable {σ ρ : Type} {turn : σ → σ ⊕ ρ} {s s' : σ} {r r' : ρ}

def loop (turn : σ → σ ⊕ ρ) : Nat → σ → Option ρ
  | 0, _ => none
  | fuel + 1, s =>
    match turn s with
    | .inl s' => loop turn fuel s'
    | .inr r => some r

def LeavesWith (turn : σ → σ ⊕ ρ) (s : σ) (r : ρ) : Prop := ∃ fuel, loop turn fuel s = some r

theorem loop_go (h : turn s = .inl s') (fuel : Nat) :
    loop turn (fuel + 1) s = loop turn fuel s' := by
  rw [loop, h]

theorem loop_leave (h : turn s = .inr r) (fuel : Nat) : loop turn (fuel + 1) s = some r := by
  rw [loop, h]

/-- More turns than enough change nothing. -/
theorem loop_mono {fuel fuel' : Nat} (hle : fuel ≤ fuel') (h : loop turn fuel s = some r) :
    loop turn fuel' s = some r := by
  induction fuel generalizing fuel' s with
  | zero => cases h
  | succ fuel ih =>
    obtain ⟨more, rfl⟩ : ∃ more, fuel' = more + 1 := ⟨fuel' - 1, by omega⟩
    cases hturn : turn s with
    | inl s' =>
      rw [loop_go hturn] at h ⊢
      exact ih (by omega) h
    | inr r' =>
      rw [loop_leave hturn] at h ⊢
      exact h

namespace LeavesWith

theorem leave (h : turn s = .inr r) : LeavesWith turn s r := ⟨1, loop_leave h 0⟩

theorem go (h : turn s = .inl s') (hend : LeavesWith turn s' r) : LeavesWith turn s r := by
  obtain ⟨fuel, hfuel⟩ := hend
  exact ⟨fuel + 1, (loop_go h fuel).trans hfuel⟩

/-- A loop has one result. -/
theorem unique (h : LeavesWith turn s r) (h' : LeavesWith turn s r') : r = r' := by
  obtain ⟨fuel, hfuel⟩ := h
  obtain ⟨fuel', hfuel'⟩ := h'
  have hmax := loop_mono (Nat.le_max_left fuel fuel') hfuel
  rw [loop_mono (Nat.le_max_right fuel fuel') hfuel'] at hmax
  exact (Option.some.inj hmax).symm

end LeavesWith

/-- The states that the loop comes to. -/
inductive Visits (turn : σ → σ ⊕ ρ) (s : σ) : σ → Prop
  | start : Visits turn s s
  | go {s' s'' : σ} : Visits turn s s' → turn s' = .inl s'' → Visits turn s s''

/-- The states that the loop comes to, as far as the turns go. -/
def visited (turn : σ → σ ⊕ ρ) : Nat → σ → List σ
  | 0, s => [s]
  | fuel + 1, s =>
    s :: match turn s with
      | .inl s' => visited turn fuel s'
      | .inr _ => []

theorem Visits.head (h : Visits turn s s') :
    s' = s ∨ ∃ s'', turn s = .inl s'' ∧ Visits turn s'' s' := by
  induction h with
  | start => exact .inl rfl
  | go hvisits hturn ih =>
    rcases ih with rfl | ⟨first, hfirst, hrest⟩
    · exact .inr ⟨_, hturn, .start⟩
    · exact .inr ⟨first, hfirst, hrest.go hturn⟩

theorem mem_visited {fuel : Nat} (h : loop turn fuel s = some r) (hvisits : Visits turn s s') :
    s' ∈ visited turn fuel s := by
  induction fuel generalizing s with
  | zero => cases h
  | succ fuel ih =>
    rw [visited]
    rcases hvisits.head with rfl | ⟨first, hfirst, hrest⟩
    · exact List.mem_cons_self
    · rw [loop_go hfirst] at h
      rw [hfirst]
      exact List.mem_cons_of_mem _ (ih h hrest)

variable {I : σ → Prop}

/-- Invariant rule: a loop that goes on from every state of an invariant, into the
    invariant, is never left. -/
theorem loop_spins (hgo : ∀ s, I s → ∃ s', turn s = .inl s' ∧ I s') (hs : I s)
    (fuel : Nat) : loop turn fuel s = none := by
  induction fuel generalizing s with
  | zero => rfl
  | succ fuel ih =>
    obtain ⟨s', hturn, hs'⟩ := hgo s hs
    rw [loop_go hturn]
    exact ih hs'

/-- Invariant rule with a measure: a loop is left that keeps an invariant and takes
    something off the measure for as long as it goes on, and the measure bounds its turns. -/
theorem loop_of_measure {Q : ρ → Prop} (μ : σ → Nat)
    (hturn : ∀ s, I s →
      (∃ s', turn s = .inl s' ∧ I s' ∧ μ s' < μ s) ∨ ∃ r, turn s = .inr r ∧ Q r)
    (hs : I s) : ∃ r, loop turn (μ s + 1) s = some r ∧ Q r := by
  -- induction on a bound for the measure
  suffices h : ∀ n s, μ s < n → I s → ∃ r, loop turn n s = some r ∧ Q r from
    h (μ s + 1) s (Nat.lt_succ_self _) hs
  intro n
  induction n with
  | zero =>
    intro s hlt _
    exact absurd hlt (Nat.not_lt_zero _)
  | succ n ih =>
    intro s hlt hI
    rcases hturn s hI with ⟨s', hgo, hI', hless⟩ | ⟨r, hleave, hq⟩
    · obtain ⟨r, hend, hq⟩ := ih s' (by omega) hI'
      exact ⟨r, (loop_go hgo n).trans hend, hq⟩
    · exact ⟨r, loop_leave hleave n, hq⟩

theorem leaves_of_measure {Q : ρ → Prop} (μ : σ → Nat)
    (hturn : ∀ s, I s →
      (∃ s', turn s = .inl s' ∧ I s' ∧ μ s' < μ s) ∨ ∃ r, turn s = .inr r ∧ Q r)
    (hs : I s) : ∃ r, LeavesWith turn s r ∧ Q r := by
  obtain ⟨r, hr, hq⟩ := loop_of_measure μ hturn hs
  exact ⟨r, ⟨_, hr⟩, hq⟩

end CheatEngine.Lib
