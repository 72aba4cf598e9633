/-
  CheatEngine.Lib.Run

  Runs of a deterministic machine on a list of inputs.  `exec` is the state a
  run ends in; `Along` states a property of every step of a run.  What the
  environment decides is part of the input, so a statement for every input
  list is a statement for every run.
-/
import Mathlib.Algebra.Group.Nat.Defs
import Mathlib.Data.List.Basic

namespace CheatEngine.Lib

variable {σ ι : Type}

/-- The state after the inputs, in order. -/
def exec (step : σ → ι → σ) : σ → List ι → σ
  | s, [] => s
  | s, i :: is => exec step (step s i) is

/-- Every step of the run satisfies `P` of the state it starts from and its
    input. -/
def Along (step : σ → ι → σ) (P : σ → ι → Prop) : σ → List ι → Prop
  | _, [] => True
  | s, i :: is => P s i ∧ Along step P (step s i) is

section Run

variable {step : σ → ι → σ} {P Q : σ → ι → Prop} {I : σ → Prop} {s : σ}

@[simp] theorem exec_nil : exec step s [] = s := rfl

@[simp] theorem exec_cons (i : ι) (is : List ι) :
    exec step s (i :: is) = exec step (step s i) is := rfl

theorem exec_append (is js : List ι) : exec step s (is ++ js) = exec step (exec step s is) js := by
  induction is generalizing s with
  | nil => rfl
  | cons i is ih => exact ih

@[simp] theorem along_nil : Along step P s [] ↔ True := Iff.rfl

@[simp] theorem along_cons (i : ι) (is : List ι) :
    Along step P s (i :: is) ↔ P s i ∧ Along step P (step s i) is := Iff.rfl

/-- A property that can be decided of every step can be decided of a run. -/
instance decidableAlong [h : ∀ s i, Decidable (P s i)] :
    (s : σ) → (is : List ι) → Decidable (Along step P s is)
  | _, [] => inferInstanceAs (Decidable True)
  | s, i :: is => @instDecidableAnd _ _ (h s i) (decidableAlong (step s i) is)

section

variable (hstep : ∀ s i, I s → P s i → I (step s i))
include hstep

theorem exec_invariant (hs : I s)
    {is : List ι} (hrun : Along step P s is) : I (exec step s is) := by
  induction is generalizing s with
  | nil => exact hs
  | cons i is ih => exact ih (hstep s i hs hrun.1) hrun.2

/-- Under an invariant that good steps keep, a property that good steps have
    holds along every good run. -/
theorem Along.imp (himp : ∀ s i, I s → P s i → Q s i) (hs : I s) {is : List ι}
    (hrun : Along step P s is) : Along step Q s is := by
  induction is generalizing s with
  | nil => trivial
  | cons i is ih => exact ⟨himp s i hs hrun.1, ih (hstep s i hs hrun.1) hrun.2⟩

/-- Two properties that agree on every state of an invariant they keep agree
    along every run. -/
theorem along_congr (hiff : ∀ s i, I s → (P s i ↔ Q s i)) (hs : I s) (is : List ι) :
    Along step P s is ↔ Along step Q s is := by
  constructor
  · exact Along.imp hstep (fun s i hi => (hiff s i hi).1) hs
  · refine Along.imp (fun s i hi hq => hstep s i hi ((hiff s i hi).2 hq)) ?_ hs
    exact fun s i hi => (hiff s i hi).2

end

end Run

/-- The state after the inputs, or `none` when a step does not return. -/
def execM (step : σ → ι → Option σ) (s : σ) (is : List ι) : Option σ := is.foldlM step s

/-- Every step of the run that is reached satisfies `P`. -/
def AlongM (step : σ → ι → Option σ) (P : σ → ι → Prop) : σ → List ι → Prop
  | _, [] => True
  | s, i :: is => P s i ∧ ∀ s', step s i = some s' → AlongM step P s' is

/-- A property that can be decided of every step can be decided of a run. -/
instance decidableAlongM {step : σ → ι → Option σ} {P : σ → ι → Prop}
    [h : ∀ s i, Decidable (P s i)] : (s : σ) → (is : List ι) → Decidable (AlongM step P s is)
  | _, [] => inferInstanceAs (Decidable True)
  | s, i :: is =>
    match hstep : step s i with
    | none => decidable_of_iff (P s i) ⟨fun hp => ⟨hp, fun _ hs' => nomatch hstep ▸ hs'⟩, And.left⟩
    | some s' =>
      have : Decidable (AlongM step P s' is) := decidableAlongM s' is
      decidable_of_iff (P s i ∧ AlongM step P s' is)
        ⟨fun hp => ⟨hp.1, fun _ hs' => Option.some.inj (hstep.symm.trans hs') ▸ hp.2⟩,
          fun hp => ⟨hp.1, hp.2 s' hstep⟩⟩

theorem execM_cons (step : σ → ι → Option σ) (s : σ) (i : ι) (is : List ι) :
    execM step s (i :: is) = (step s i).bind fun s => execM step s is := rfl

variable {is : List ι}

theorem execM_invariant {step : σ → ι → Option σ} {P : σ → ι → Prop} {I : σ → Prop} {s : σ}
    (hstep : ∀ s i, I s → P s i → ∃ s', step s i = some s' ∧ I s') (hs : I s)
    (hrun : AlongM step P s is) : ∃ s', execM step s is = some s' ∧ I s' := by
  induction is generalizing s with
  | nil => exact ⟨s, rfl, hs⟩
  | cons i is ih =>
    obtain ⟨s', hs', hI⟩ := hstep s i hs hrun.1
    obtain ⟨s'', hs'', hI'⟩ := ih hI (hrun.2 s' hs')
    refine ⟨s'', ?_, hI'⟩
    rw [execM_cons, hs']
    exact hs''

/-- Invariant rule: what every good step that returns keeps holds at the end of a
    good run that returns. -/
theorem execM_preserves_along {step : σ → ι → Option σ} {P : σ → ι → Prop} {I : σ → Prop}
    {s s' : σ} (hstep : ∀ s i s', I s → P s i → step s i = some s' → I s') (hs : I s)
    (hgood : AlongM step P s is) (hrun : execM step s is = some s') : I s' := by
  induction is generalizing s with
  | nil => exact Option.some.inj hrun ▸ hs
  | cons i is ih =>
    rw [execM_cons, Option.bind_eq_some_iff] at hrun
    obtain ⟨s₁, hs₁, hrest⟩ := hrun
    exact ih (hstep s i s₁ hs hgood.1 hs₁) (hgood.2 s₁ hs₁) hrest

/-- Under an invariant that good steps keep, a property that good steps have holds
    along every good run. -/
theorem AlongM.imp {step : σ → ι → Option σ} {P Q : σ → ι → Prop} {I : σ → Prop} {s : σ}
    (hstep : ∀ s i, I s → P s i → Q s i ∧ ∀ s', step s i = some s' → I s') (hs : I s)
    (hrun : AlongM step P s is) : AlongM step Q s is := by
  induction is generalizing s with
  | nil => trivial
  | cons i is ih =>
    obtain ⟨hq, hI⟩ := hstep s i hs hrun.1
    exact ⟨hq, fun s' hs' => ih (hI s' hs') (hrun.2 s' hs')⟩

theorem alongM_of_forall {step : σ → ι → Option σ} {P : σ → ι → Prop} {s : σ}
    (h : ∀ s, ∀ i ∈ is, P s i) : AlongM step P s is := by
  induction is generalizing s with
  | nil => trivial
  | cons i is ih =>
    refine ⟨h s i List.mem_cons_self, fun s' _ => ih ?_⟩
    exact fun s j hj => h s j (List.mem_cons_of_mem i hj)

/-- Invariant rule: what every step that returns keeps holds at the end of a run
    that returns. -/
theorem execM_preserves {step : σ → ι → Option σ} {I : σ → Prop} {s s' : σ}
    (hstep : ∀ s i s', I s → step s i = some s' → I s') (hs : I s)
    (hrun : execM step s is = some s') : I s' :=
  execM_preserves_along (fun s i s' hI _ => hstep s i s' hI) hs
    (alongM_of_forall (P := fun _ _ => True) fun _ _ _ => trivial) hrun

end CheatEngine.Lib
