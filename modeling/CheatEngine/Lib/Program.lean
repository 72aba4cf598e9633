/-
  CheatEngine.Lib.Program

  Programs as trees of operations.  A `Sig` names the operations a program may
  perform and the type of each response; `Prog S α` is the free monad over it.
  The tree fixes what the program does for *every* response, so

    * `interp H` runs a program against a concrete, deterministic environment
      `H` that may get stuck (`none`);
    * `Safe P Q h` is a partial-correctness judgement over *all* environments:
      every operation performed satisfies `P` of the history so far, every
      result satisfies `Q`; and
    * `Always step Q` is the same judgement for an environment with a state, which
      `step` leaves a choice.
-/
import Mathlib.Algebra.Group.Nat.Defs
import Mathlib.Data.List.Basic

namespace CheatEngine.Lib

/-- An operation signature: operations, each with the type of its response. -/
structure Sig where
  /-- The operations. -/
  Op : Type
  /-- The response type of an operation. -/
  Res : Op → Type

/-- A program over the signature `S` with results in `α`. -/
inductive Prog (S : Sig) (α : Type) : Type
  | pure (a : α) : Prog S α
  | op (o : S.Op) (next : S.Res o → Prog S α) : Prog S α

namespace Prog

variable {S : Sig} {α β γ σ : Type}

/-! ## The monad -/

/-- Sequential composition: graft `f` at the leaves. -/
def bind : Prog S α → (α → Prog S β) → Prog S β
  | .pure a, f => f a
  | .op o k, f => .op o fun r => (k r).bind f

instance : Monad (Prog S) where
  pure := Prog.pure
  bind := Prog.bind

/-- Perform one operation and return its response. -/
def perform (o : S.Op) : Prog S (S.Res o) := .op o .pure

@[simp] theorem pure_bind' (a : α) (f : α → Prog S β) : (Pure.pure a : Prog S α) >>= f = f a := rfl

@[simp] theorem op_bind (o : S.Op) (k : S.Res o → Prog S α) (f : α → Prog S β) :
    Prog.op o k >>= f = .op o fun r => k r >>= f := rfl

@[simp] theorem perform_bind (o : S.Op) (f : S.Res o → Prog S β) :
    perform o >>= f = .op o f := rfl

theorem bind_pure' (x : Prog S α) : x >>= (Pure.pure : α → Prog S α) = x := by
  induction x with
  | pure a => rfl
  | op o k ih => exact congrArg (Prog.op o) (funext ih)

theorem bind_assoc' (x : Prog S α) (f : α → Prog S β) (g : β → Prog S γ) :
    x >>= f >>= g = x >>= fun a => f a >>= g := by
  induction x with
  | pure a => rfl
  | op o k ih => exact congrArg (Prog.op o) (funext ih)

instance : LawfulMonad (Prog S) :=
  LawfulMonad.mk' (Prog S) bind_pure' (fun _ _ => rfl) bind_assoc'

/-- Every operation performed by a program over another signature. -/
def handle {T : Sig} (f : (o : S.Op) → Prog T (S.Res o)) : Prog S α → Prog T α
  | .pure a => .pure a
  | .op o k => (f o).bind fun r => (k r).handle f

/-- Run a program against the environment `H`; `none` when an operation gets
    stuck. -/
def interp (H : (o : S.Op) → σ → Option (S.Res o × σ)) : Prog S α → σ → Option (α × σ)
  | .pure a, s => some (a, s)
  | .op o k, s => (H o s).bind fun p => interp H (k p.1) p.2

section Interp

variable (H : (o : S.Op) → σ → Option (S.Res o × σ))

@[simp] theorem interp_pure (a : α) (s : σ) :
    interp H (Pure.pure a) s = some (a, s) := rfl

@[simp] theorem interp_op (o : S.Op) (k : S.Res o → Prog S α) (s : σ) :
    interp H (.op o k) s = (H o s).bind fun p => interp H (k p.1) p.2 := rfl

/-- Running a sequence runs the first part, then the second from where it
    left off. -/
theorem interp_bind (x : Prog S α) (f : α → Prog S β) (s : σ) :
    interp H (x >>= f) s = (interp H x s).bind fun p => interp H (f p.1) p.2 := by
  induction x generalizing s with
  | pure a => rfl
  | op o k ih =>
    simp only [op_bind, interp_op, Option.bind_assoc]
    congr 1
    funext p
    exact ih p.1 p.2

end Interp

/-- An operation together with the response it got. -/
abbrev Event (S : Sig) : Type := (o : S.Op) × S.Res o

/-- Whatever the environment answers: each operation satisfies `P` of the
    history before it, and a result satisfies `Q` of the whole history. -/
def Safe (P : List (Event S) → S.Op → Prop) (Q : List (Event S) → α → Prop) :
    List (Event S) → Prog S α → Prop
  | h, .pure a => Q h a
  | h, .op o k => P h o ∧ ∀ r, Safe P Q (h ++ [⟨o, r⟩]) (k r)

section Safe

variable {P : List (Event S) → S.Op → Prop} {Q Q' : List (Event S) → α → Prop} {h : List (Event S)}

variable {x : Prog S α}

/-- Sequencing rule. -/
theorem Safe.bind {R : List (Event S) → β → Prop} {f : α → Prog S β} (hx : Safe P Q h x)
    (hf : ∀ h' a, h <+: h' → Q h' a → Safe P R h' (f a)) : Safe P R h (x >>= f) := by
  induction x generalizing h with
  | pure a => exact hf h a (List.prefix_refl h) hx
  | op o k ih =>
    refine ⟨hx.1, fun r => ih r (hx.2 r) fun h' a hpre hq => hf h' a ?_ hq⟩
    exact (List.prefix_append h [⟨o, r⟩]).trans hpre

/-- The operations of the first part of a sequence are those of the sequence. -/
theorem Safe.of_bind {R : List (Event S) → β → Prop}
    {f : α → Prog S β} (hx : Safe P R h (x >>= f)) : Safe P (fun _ _ => True) h x := by
  induction x generalizing h with
  | pure a => trivial
  | op o k ih => exact ⟨hx.1, fun r => ih r (hx.2 r)⟩

end Safe

/-! ## An environment with a choice -/

/-- Whatever the environment does that `step` allows, the result and the state at the
    end satisfy `Q`. -/
def Always (step : (o : S.Op) → σ → S.Res o → σ → Prop) (Q : α → σ → Prop) : Prog S α → σ → Prop
  | .pure a, s => Q a s
  | .op o k, s => ∀ r s', step o s r s' → Always step Q (k r) s'

section Always

variable {step : (o : S.Op) → σ → S.Res o → σ → Prop} {s : σ} {x : Prog S α}

/-- Consequence rule. -/
theorem Always.imp {Q Q' : α → σ → Prop} (hx : Always step Q x s)
    (himp : ∀ a s', Q a s' → Q' a s') : Always step Q' x s := by
  induction x generalizing s with
  | pure a => exact himp a s hx
  | op o k ih => exact fun r s' hs' => ih r (hx r s' hs')

variable {f : α → Prog S β}

/-- Sequencing rule. -/
theorem Always.bind {Q : β → σ → Prop}
    (hx : Always step (fun a s' => Always step Q (f a) s') x s) : Always step Q (x >>= f) s := by
  induction x generalizing s with
  | pure a => exact hx
  | op o k ih => exact fun r s' hs' => ih r (hx r s' hs')

/-- A run that `step` allows, from its first state to its last. -/
def Ends (step : (o : S.Op) → σ → S.Res o → σ → Prop) : Prog S α → σ → α → σ → Prop
  | .pure b, s, a, s' => b = a ∧ s = s'
  | .op o k, s, a, s' => ∃ r s₁, step o s r s₁ ∧ Ends step (k r) s₁ a s'

/-- What holds of every run holds of each. -/
theorem Always.of_ends {Q : α → σ → Prop} (hx : Always step Q x s) {a : α} {s' : σ}
    (hrun : Ends step x s a s') : Q a s' := by
  induction x generalizing s with
  | pure b =>
    obtain ⟨rfl, rfl⟩ := hrun
    exact hx
  | op o k ih =>
    obtain ⟨r, s₁, hstep, hrest⟩ := hrun
    exact ih r (hx r s₁ hstep) hrest

theorem Ends.bind {a : α} {b : β} {s₁ s' : σ}
    (hx : Ends step x s a s₁) (hf : Ends step (f a) s₁ b s') : Ends step (x >>= f) s b s' := by
  induction x generalizing s with
  | pure a' =>
    obtain ⟨rfl, rfl⟩ := hx
    exact hf
  | op o k ih =>
    obtain ⟨r, s₂, hstep, hrest⟩ := hx
    exact ⟨r, s₂, hstep, ih r hrest⟩

/-- A run of a sequence is a run of its first part and then one of the second. -/
theorem ends_bind {b : β} {s' : σ} :
    Ends step (x >>= f) s b s' ↔ ∃ a s₁, Ends step x s a s₁ ∧ Ends step (f a) s₁ b s' := by
  constructor
  · intro h
    induction x generalizing s with
    | pure a => exact ⟨a, s, ⟨rfl, rfl⟩, h⟩
    | op o k ih =>
      obtain ⟨r, s₂, hstep, hrest⟩ := h
      obtain ⟨a, s₁, hx, hf⟩ := ih r hrest
      exact ⟨a, s₁, ⟨r, s₂, hstep, hx⟩, hf⟩
  · rintro ⟨a, s₁, hx, hf⟩
    exact hx.bind hf

/-- Where every operation can be answered, every program can be run. -/
theorem exists_ends (hstep : ∀ o s, ∃ r s', step o s r s') (x : Prog S α) (s : σ) :
    ∃ a s', Ends step x s a s' := by
  induction x generalizing s with
  | pure a => exact ⟨a, s, rfl, rfl⟩
  | op o k ih =>
    obtain ⟨r, s₁, hr⟩ := hstep o s
    obtain ⟨a, s', hrest⟩ := ih r s₁
    exact ⟨a, s', r, s₁, hr, hrest⟩

/-- A run against one deterministic environment is one of them. -/
theorem Ends.of_interp {H : (o : S.Op) → σ → Option (S.Res o × σ)}
    (hH : ∀ o s r s', H o s = some (r, s') → step o s r s') {a : α} {s' : σ}
    (hrun : interp H x s = some (a, s')) : Ends step x s a s' := by
  induction x generalizing s with
  | pure b =>
    obtain ⟨rfl, rfl⟩ : b = a ∧ s = s' := by simpa [interp] using hrun
    exact ⟨rfl, rfl⟩
  | op o k ih =>
    obtain ⟨⟨r, s₁⟩, hr, hrest⟩ := Option.bind_eq_some_iff.1 hrun
    exact ⟨r, s₁, hH o s r s₁ hr, ih r hrest⟩

/-- An environment that answers every operation runs every program to its end. -/
theorem exists_interp {H : (o : S.Op) → σ → Option (S.Res o × σ)} (hH : ∀ o s, ∃ p, H o s = some p)
    (x : Prog S α) (s : σ) : ∃ p, interp H x s = some p := by
  induction x generalizing s with
  | pure a => exact ⟨(a, s), rfl⟩
  | op o k ih =>
    obtain ⟨⟨r, s₁⟩, hr⟩ := hH o s
    obtain ⟨p, hp⟩ := ih r s₁
    refine ⟨p, ?_⟩
    rw [interp_op, hr]
    exact hp

/-- A run against one deterministic environment is among the runs. -/
theorem Always.of_interp {Q : α → σ → Prop} {H : (o : S.Op) → σ → Option (S.Res o × σ)}
    (hH : ∀ o s r s', H o s = some (r, s') → step o s r s')
    (hx : Always step Q x s) {a : α} {s' : σ} (hrun : interp H x s = some (a, s')) : Q a s' :=
  hx.of_ends (Ends.of_interp hH hrun)

end Always

/-- `h` is the history of a complete run, and `a` its result. -/
def RunsTo : Prog S α → List (Event S) → α → Prop
  | .pure b, h, a => h = [] ∧ b = a
  | .op o k, h, a => ∃ r t, h = ⟨o, r⟩ :: t ∧ RunsTo (k r) t a

section RunsTo

variable {h : List (Event S)}

theorem runsTo_bind {x : Prog S α} {f : α → Prog S β} {b : β} :
    RunsTo (x >>= f) h b ↔
      ∃ h₁ h₂ a, h = h₁ ++ h₂ ∧ RunsTo x h₁ a ∧ RunsTo (f a) h₂ b := by
  induction x generalizing h with
  | pure a =>
    constructor
    · intro hrun
      exact ⟨[], h, a, rfl, ⟨rfl, rfl⟩, hrun⟩
    · rintro ⟨h₁, h₂, a', rfl, ⟨rfl, rfl⟩, hrun⟩
      exact hrun
  | op o k ih =>
    constructor
    · rintro ⟨r, t, rfl, hrun⟩
      obtain ⟨h₁, h₂, a, rfl, hx, hf⟩ := (ih r).mp hrun
      exact ⟨⟨o, r⟩ :: h₁, h₂, a, rfl, ⟨r, h₁, rfl, hx⟩, hf⟩
    · rintro ⟨h₁, h₂, a, rfl, ⟨r, t, rfl, hx⟩, hf⟩
      exact ⟨r, t ++ h₂, rfl, (ih r).mpr ⟨t, h₂, a, rfl, hx, hf⟩⟩

/-- Run a program with the answers of a history, as long as it performs the
    operations of the history and no others. -/
def replay [DecidableEq S.Op] : Prog S α → List (Event S) → Option α
  | .pure a, [] => some a
  | .pure _, _ :: _ => none
  | .op _ _, [] => none
  | .op o k, ⟨o', r⟩ :: t => if h : o' = o then replay (k (h ▸ r)) t else none

theorem runsTo_iff_replay [DecidableEq S.Op] {x : Prog S α} {a : α} :
    RunsTo x h a ↔ replay x h = some a := by
  induction x generalizing h with
  | pure b =>
    constructor
    · rintro ⟨rfl, rfl⟩
      rfl
    · intro hreplay
      cases h with
      | nil => exact ⟨rfl, Option.some.inj hreplay⟩
      | cons ev t => cases hreplay
  | op o k ih =>
    constructor
    · rintro ⟨r, t, rfl, hrun⟩
      rw [replay, dif_pos rfl]
      exact (ih r).mp hrun
    · intro hreplay
      rcases h with _ | ⟨⟨o', r⟩, t⟩
      · cases hreplay
      · rw [replay] at hreplay
        split at hreplay
        next heq =>
          subst heq
          exact ⟨r, t, rfl, (ih r).mpr hreplay⟩
        next => cases hreplay

end RunsTo

end Prog

end CheatEngine.Lib
