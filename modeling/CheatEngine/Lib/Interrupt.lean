/-
  CheatEngine.Lib.Interrupt

  A command of a service on a connection that may break.  A read can find the connection
  at its end and a write can fail; either ends the command and with it the connection.

  A failed write leaves the state that the rest of the handler would have returned
  (`writeFails`), a failed read or a hang-up that of the start.  This is the state of the
  code wherever a handler receives before it changes its state and changes it before it
  sends.
-/
import CheatEngine.Lib.Service

namespace CheatEngine.Lib

variable {Api : Sig} {ς : Type}

/-- A command that starts in `s`, receives and sends these messages, makes these calls and
    leaves the last state; the flag says whether the connection goes on. -/
inductive Attempt (s : ς) : Handler Api (Option ς) → List (List UInt8) → List (List UInt8) →
    List (Prog.Event Api) → Bool → ς → Prop
  | goesOn (s' : ς) : Attempt s (.pure (some s')) [] [] [] true s'
  | hangsUp : Attempt s (.pure none) [] [] [] false s
  | received {n : Nat} {k : List UInt8 → Handler Api (Option ς)} {bytes : List UInt8}
      {inp out : List (List UInt8)} {calls : List (Prog.Event Api)} {ok : Bool} {s' : ς}
      (hlen : bytes.length = n) (hrest : Attempt s (k bytes) inp out calls ok s') :
      Attempt s (.op (.recv n) k) (bytes :: inp) out calls ok s'
  /-- The connection ends before all of them came. -/
  | readFails (n : Nat) (k : List UInt8 → Handler Api (Option ς)) :
      Attempt s (.op (.recv n) k) [] [] [] false s
  | sent {bytes : List UInt8} {k : Unit → Handler Api (Option ς)}
      {inp out : List (List UInt8)} {calls : List (Prog.Event Api)} {ok : Bool} {s' : ς}
      (hrest : Attempt s (k ()) inp out calls ok s') :
      Attempt s (.op (.send bytes) k) inp (bytes :: out) calls ok s'
  | writeFails {bytes : List UInt8} {k : Unit → Handler Api (Option ς)} {s' : ς}
      (hrest : Attempt s (k ()) [] [] [] true s') :
      Attempt s (.op (.send bytes) k) [] [bytes] [] false s'
  | called {c : Api.Op} {k : Api.Res c → Handler Api (Option ς)} (r : Api.Res c)
      {inp out : List (List UInt8)} {calls : List (Prog.Event Api)} {ok : Bool} {s' : ς}
      (hrest : Attempt s (k r) inp out calls ok s') :
      Attempt s (.op (.call c) k) inp out (⟨c, r⟩ :: calls) ok s'

namespace Attempt

variable {s s' : ς} {inp out : List (List UInt8)} {calls : List (Prog.Event Api)} {ok : Bool}
  {α : Type}

theorem of_pure {t : ς} (h : Attempt s (pure t : Command Api ς).run inp out calls ok s') :
    inp = [] ∧ out = [] ∧ calls = [] ∧ ok = true ∧ s' = t := by
  cases h
  exact ⟨rfl, rfl, rfl, rfl, rfl⟩

theorem of_hangUp (h : Attempt s (hangUp : Command Api ς).run inp out calls ok s') :
    inp = [] ∧ out = [] ∧ calls = [] ∧ s' = s := by
  cases h
  exact ⟨rfl, rfl, rfl, rfl⟩

theorem of_receive {n : Nat} {f : List UInt8 → Command Api ς}
    (h : Attempt s (receive n >>= f).run inp out calls ok s') :
    (inp = [] ∧ out = [] ∧ calls = [] ∧ s' = s) ∨
      ∃ bytes rest, inp = bytes :: rest ∧ Attempt s (f bytes).run rest out calls ok s' := by
  have hrun : (receive n >>= f).run =
    Prog.op (S := ServerSig Api) (.recv n) fun bytes => (f bytes).run := rfl
  rw [hrun] at h
  cases h with
  | received hlen hrest => exact .inr ⟨_, _, rfl, hrest⟩
  | readFails => exact .inl ⟨rfl, rfl, rfl, rfl⟩

/-- A command whose last step is to send leaves the same state whether or not that works. -/
theorem of_reply {bytes : List UInt8} {t : ς}
    (h : Attempt s ((do reply bytes; return t : Command Api ς)).run inp out calls ok s') :
    inp = [] ∧ out = [bytes] ∧ calls = [] ∧ s' = t := by
  have hrun : (do reply bytes; return t : Command Api ς).run =
    Prog.op (S := ServerSig Api) (.send bytes) fun _ => .pure (some t) := rfl
  rw [hrun] at h
  cases h with
  | sent hrest =>
    cases hrest
    exact ⟨rfl, rfl, rfl, rfl⟩
  | writeFails hrest =>
    cases hrest
    exact ⟨rfl, rfl, rfl, rfl⟩

theorem of_call {c : Api.Op} {f : Api.Res c → Command Api ς}
    (h : Attempt s (OptionT.lift (call c) >>= f).run inp out calls ok s') :
    ∃ r rest, calls = ⟨c, r⟩ :: rest ∧ Attempt s (f r).run inp out rest ok s' := by
  have hrun : (OptionT.lift (call c) >>= f).run =
    Prog.op (S := ServerSig Api) (.call c) fun r => (f r).run := rfl
  rw [hrun] at h
  cases h with
  | called r hrest => exact ⟨r, _, rfl, hrest⟩

theorem of_ite {p : Prop} [Decidable p] {x y : Command Api ς}
    (h : Attempt s (if p then x else y).run inp out calls ok s') :
    (p ∧ Attempt s x.run inp out calls ok s') ∨ (¬ p ∧ Attempt s y.run inp out calls ok s') := by
  by_cases hp : p
  · rw [if_pos hp] at h
    exact .inl ⟨hp, h⟩
  · rw [if_neg hp] at h
    exact .inr ⟨hp, h⟩

theorem receive_bind {n : Nat} {f : List UInt8 → Command Api ς} (bytes : List UInt8)
    (hlen : bytes.length = n) (h : Attempt s (f bytes).run inp out calls ok s') :
    Attempt s (receive n >>= f).run (bytes :: inp) out calls ok s' := .received hlen h

theorem call_bind {c : Api.Op} {f : Api.Res c → Command Api ς} (r : Api.Res c)
    (h : Attempt s (f r).run inp out calls ok s') :
    Attempt s (OptionT.lift (call c) >>= f).run inp out (⟨c, r⟩ :: calls) ok s' := .called r h

theorem reply_pure (bytes : List UInt8) (t : ς) :
    Attempt s ((do reply bytes; return t : Command Api ς)).run [] [bytes] [] true t :=
  .sent (.goesOn t)

end Attempt

end CheatEngine.Lib
