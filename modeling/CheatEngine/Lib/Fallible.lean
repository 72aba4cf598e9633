/-
  CheatEngine.Lib.Fallible

  Programs that may fail, `ExceptT ε (Prog S) α`: after an error nothing more is done.

  `Gives H x s r s'` says that in the environment `H` the program goes from the state
  `s` to `s'` and returns `r`.  `Performs P x` says that in any environment the program
  performs only operations that satisfy `P`.  `CanGive` is `Gives` for an environment that
  leaves a choice.  `Succeeds P Q x` is `Performs P x`, and that the program
  ends with a value as long as `Q` holds of the answers.
-/
import CheatEngine.Lib.Program

namespace CheatEngine.Lib

section Gives

variable {S : Sig} {ε α β σ : Type} {H : (o : S.Op) → σ → Option (S.Res o × σ)}
  {s s' : σ}

/-- The program goes from `s` to `s'` and returns `r`. -/
def Gives (H : (o : S.Op) → σ → Option (S.Res o × σ)) (x : ExceptT ε (Prog S) α) (s : σ)
    (r : Except ε α) (s' : σ) : Prop :=
  Prog.interp H x.run s = some (r, s')

variable {r : Except ε α} {x : ExceptT ε (Prog S) α}

/-- An environment answers in one way. -/
theorem Gives.unique {r' : Except ε α} {s₁ s₂ : σ}
    (h : Gives H x s r s₁) (h' : Gives H x s r' s₂) : r = r' ∧ s₁ = s₂ :=
  Prod.mk.inj (Option.some.inj (h.symm.trans h'))

theorem gives_result {a : Except ε α} :
    Gives H (ExceptT.mk (pure a) : ExceptT ε (Prog S) α) s r s' ↔ r = a ∧ s' = s := by
  constructor
  · intro h
    obtain ⟨hr, hs⟩ := Prod.mk.inj (Option.some.inj h)
    exact ⟨hr.symm, hs.symm⟩
  · rintro ⟨rfl, rfl⟩
    rfl

theorem gives_pure {a : α} :
    Gives H (pure a : ExceptT ε (Prog S) α) s r s' ↔ r = .ok a ∧ s' = s := gives_result

theorem gives_throw {e : ε} :
    Gives H (throw e : ExceptT ε (Prog S) α) s r s' ↔ r = .error e ∧ s' = s := gives_result

variable {f : α → ExceptT ε (Prog S) β}

/-- A sequence ends in its first part, or goes on from the value of that. -/
theorem gives_bind {r : Except ε β} :
    Gives H (x >>= f) s r s' ↔
      (∃ e, Gives H x s (.error e) s' ∧ r = .error e) ∨
        ∃ a s₁, Gives H x s (.ok a) s₁ ∧ Gives H (f a) s₁ r s' := by
  have hrun : (x >>= f).run = x.run >>= ExceptT.bindCont f := rfl
  rw [Gives, hrun, Prog.interp_bind, Option.bind_eq_some_iff]
  constructor
  · rintro ⟨⟨result, s₁⟩, hx, hf⟩
    cases result with
    | error e =>
      obtain ⟨rfl, rfl⟩ := Prod.mk.inj (Option.some.inj hf)
      exact .inl ⟨e, hx, rfl⟩
    | ok a => exact .inr ⟨a, s₁, hx, hf⟩
  · rintro (⟨e, hx, rfl⟩ | ⟨a, s₁, hx, hf⟩)
    · exact ⟨(.error e, s'), hx, rfl⟩
    · exact ⟨(.ok a, s₁), hx, hf⟩

/-- A sequence whose first part is known to succeed. -/
theorem Gives.bind_iff {r : Except ε β} {a : α} {s₁ : σ} (hx : Gives H x s (.ok a) s₁) :
    Gives H (x >>= f) s r s' ↔ Gives H (f a) s₁ r s' := by
  rw [gives_bind]
  constructor
  · rintro (⟨e, he, -⟩ | ⟨a', s₂, ha, hf⟩)
    · cases (hx.unique he).1
    · obtain ⟨hr, rfl⟩ := hx.unique ha
      obtain rfl := Except.ok.inj hr
      exact hf
  · exact fun hf => .inr ⟨a, s₁, hx, hf⟩

/-- A value at the end comes from a value in the middle. -/
theorem gives_bind_ok {b : β} :
    Gives H (x >>= f) s (.ok b) s' ↔
      ∃ a s₁, Gives H x s (.ok a) s₁ ∧ Gives H (f a) s₁ (.ok b) s' := by
  rw [gives_bind]
  constructor
  · rintro (⟨e, -, he⟩ | h)
    · cases he
    · exact h
  · exact .inr

end Gives

section CanGive

variable {S : Sig} {ε α β σ : Type} {step : (o : S.Op) → σ → S.Res o → σ → Prop} {s s' : σ}

/-- The program can go from `s` to `s'` and return `r`. -/
def CanGive (step : (o : S.Op) → σ → S.Res o → σ → Prop) (x : ExceptT ε (Prog S) α) (s : σ)
    (r : Except ε α) (s' : σ) : Prop :=
  Prog.Ends step x.run s r s'

variable {r : Except ε α}

theorem canGive_result {a : Except ε α} :
    CanGive step (ExceptT.mk (pure a) : ExceptT ε (Prog S) α) s r s' ↔ r = a ∧ s' = s := by
  constructor
  · rintro ⟨rfl, rfl⟩
    exact ⟨rfl, rfl⟩
  · rintro ⟨rfl, rfl⟩
    exact ⟨rfl, rfl⟩

theorem canGive_pure {a : α} :
    CanGive step (pure a : ExceptT ε (Prog S) α) s r s' ↔ r = .ok a ∧ s' = s := canGive_result

theorem canGive_throw {e : ε} :
    CanGive step (throw e : ExceptT ε (Prog S) α) s r s' ↔ r = .error e ∧ s' = s := canGive_result

/-- A sequence ends in its first part, or goes on from the value of that. -/
theorem canGive_bind {x : ExceptT ε (Prog S) α} {f : α → ExceptT ε (Prog S) β} {r : Except ε β} :
    CanGive step (x >>= f) s r s' ↔
      (∃ e, CanGive step x s (.error e) s' ∧ r = .error e) ∨
        ∃ a s₁, CanGive step x s (.ok a) s₁ ∧ CanGive step (f a) s₁ r s' := by
  have hrun : (x >>= f).run = x.run >>= ExceptT.bindCont f := rfl
  rw [CanGive, hrun, Prog.ends_bind]
  constructor
  · rintro ⟨result, s₁, hx, hf⟩
    cases result with
    | error e =>
      obtain ⟨rfl, rfl⟩ := hf
      exact .inl ⟨e, hx, rfl⟩
    | ok a => exact .inr ⟨a, s₁, hx, hf⟩
  · rintro (⟨e, hx, rfl⟩ | ⟨a, s₁, hx, hf⟩)
    · exact ⟨.error e, s', hx, rfl, rfl⟩
    · exact ⟨.ok a, s₁, hx, hf⟩

/-- What was computed, and then the rest. -/
theorem canGive_result_bind {a : Except ε α} {f : α → ExceptT ε (Prog S) β} {r : Except ε β} :
    CanGive step ((ExceptT.mk (pure a) : ExceptT ε (Prog S) α) >>= f) s r s' ↔
      (∃ e, a = .error e ∧ r = .error e ∧ s' = s) ∨ ∃ x, a = .ok x ∧ CanGive step (f x) s r s' := by
  rw [canGive_bind]
  constructor
  · rintro (⟨e, he, rfl⟩ | ⟨x, s₁, hx, hf⟩)
    · obtain ⟨hae, rfl⟩ := canGive_result.1 he
      exact .inl ⟨e, hae.symm, rfl, rfl⟩
    · obtain ⟨hax, rfl⟩ := canGive_result.1 hx
      exact .inr ⟨x, hax.symm, hf⟩
  · rintro (⟨e, rfl, rfl, rfl⟩ | ⟨x, rfl, hf⟩)
    · exact .inl ⟨e, canGive_result.2 ⟨rfl, rfl⟩, rfl⟩
    · exact .inr ⟨x, s, canGive_result.2 ⟨rfl, rfl⟩, hf⟩

theorem canGive_lift_bind {o : S.Op} {f : S.Res o → ExceptT ε (Prog S) β} {r : Except ε β} :
    CanGive step (ExceptT.lift (Prog.perform o) >>= f) s r s' ↔
      ∃ a s₁, step o s a s₁ ∧ CanGive step (f a) s₁ r s' := Iff.rfl

theorem canGive_ite {c : Prop} [Decidable c] {x y : ExceptT ε (Prog S) α} :
    CanGive step (if c then x else y) s r s' ↔
      (c ∧ CanGive step x s r s') ∨ (¬ c ∧ CanGive step y s r s') := by
  by_cases hc : c <;> simp [hc]

end CanGive

namespace Prog

/-- Whatever the environment answers, each operation satisfies `P`. -/
def Performs {S : Sig} {α : Type} (P : S.Op → Prop) : Prog S α → Prop
  | .pure _ => True
  | .op o k => P o ∧ ∀ r, (k r).Performs P

section Performs

variable {S T : Sig} {α β : Type} {P : S.Op → Prop}

theorem Performs.of_forall (hp : ∀ o, P o) (x : Prog S α) : x.Performs P := by
  induction x with
  | pure a => trivial
  | op o k ih => exact ⟨hp o, ih⟩

variable {x : Prog S α}

theorem Performs.bind {f : α → Prog S β} (hx : x.Performs P)
    (hf : ∀ a, (f a).Performs P) : (x >>= f).Performs P := by
  induction x with
  | pure a => exact hf a
  | op o k ih => exact ⟨hx.1, fun r => ih r (hx.2 r)⟩

theorem Performs.of_safe {R : List (Event S) → S.Op → Prop} {Q : List (Event S) → α → Prop}
    (hR : ∀ h o, R h o → P o) {h : List (Event S)} (hx : Safe R Q h x) :
    x.Performs P := by
  induction x generalizing h with
  | pure a => trivial
  | op o k ih => exact ⟨hR h o hx.1, fun r => ih r (hx.2 r)⟩

/-- A program over another signature: what its operations may do there. -/
theorem Performs.handle {Q : T.Op → Prop} {f : (o : S.Op) → Prog T (S.Res o)}
    (hf : ∀ o, P o → (f o).Performs Q) (hx : x.Performs P) :
    (x.handle f).Performs Q := by
  induction x with
  | pure a => trivial
  | op o k ih => exact (hf o hx.1).bind fun r => ih r (hx.2 r)

/-- Nothing more is done after an error. -/
theorem Performs.bindExcept {ε : Type} {x : ExceptT ε (Prog S) α} {f : α → ExceptT ε (Prog S) β}
    (hx : x.run.Performs P) (hf : ∀ a, (f a).run.Performs P) : (x >>= f).run.Performs P := by
  refine Performs.bind hx fun result => ?_
  cases result with
  | error e => trivial
  | ok a => exact hf a

end Performs

/-- The program performs only operations that satisfy `P`, and as long as `Q` holds of the
    answers it ends with a value. -/
def Succeeds {S : Sig} {ε α : Type} (P : S.Op → Prop) (Q : (o : S.Op) → S.Res o → Prop) :
    Prog S (Except ε α) → Prop
  | .pure r => ∃ a, r = .ok a
  | .op o k => P o ∧ ∀ r, Q o r → (k r).Succeeds P Q

theorem Succeeds.bind {S : Sig} {ε α β : Type} {P : S.Op → Prop} {Q : (o : S.Op) → S.Res o → Prop}
    {x : ExceptT ε (Prog S) α} {f : α → ExceptT ε (Prog S) β} (hx : x.run.Succeeds P Q)
    (hf : ∀ a, (f a).run.Succeeds P Q) : (x >>= f).run.Succeeds P Q := by
  show (x.run >>= ExceptT.bindCont f).Succeeds P Q
  revert hx
  generalize x.run = y
  intro hy
  induction y with
  | pure r =>
    obtain ⟨a, rfl⟩ := hy
    exact hf a
  | op o k ih => exact ⟨hy.1, fun r hr => ih r (hy.2 r hr)⟩

end Prog

end CheatEngine.Lib
