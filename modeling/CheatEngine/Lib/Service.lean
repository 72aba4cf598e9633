/-
  CheatEngine.Lib.Service

  Request/reply services over a byte stream.  A command handler is a program
  that receives bytes, sends bytes and calls the functions behind the service
  (`Api`); a `Service` reads one command byte and runs that command's handler,
  for as long as the handlers ask it to go on.

  `drive` runs a handler on the bytes that are there and stops, without losing
  its place, where the handler waits for more.  What the functions behind the
  service answer is decided by an environment `env`, so a statement for every
  `env` holds for every outcome of every call.
-/
import Mathlib.Logic.Function.Iterate
import CheatEngine.Lib.Program

namespace CheatEngine.Lib

/-- What a command handler does. -/
inductive ServerOp (Api : Sig)
  /-- Receive exactly `n` bytes. -/
  | recv (n : Nat)
  | send (bytes : List UInt8)
  /-- Call a function behind the service. -/
  | call (c : Api.Op)

/-- The signature of command handlers. -/
abbrev ServerSig (Api : Sig) : Sig where
  Op := ServerOp Api
  Res
    | .recv _ => List UInt8
    | .send _ => Unit
    | .call c => Api.Res c

abbrev Handler (Api : Sig) (α : Type) : Type := Prog (ServerSig Api) α

variable {Api : Sig} {α β ς σ : Type}

/-- Receive exactly `n` bytes. -/
def recv (n : Nat) : Handler Api (List UInt8) := Prog.perform (S := ServerSig Api) (.recv n)

def send (bytes : List UInt8) : Handler Api Unit :=
  Prog.perform (S := ServerSig Api) (.send bytes)

def call (c : Api.Op) : Handler Api (Api.Res c) := Prog.perform (S := ServerSig Api) (.call c)

/-- A command of a service: a handler that may end the connection instead of
    returning. -/
abbrev Command (Api : Sig) (α : Type) : Type := OptionT (Handler Api) α

def receive (n : Nat) : Command Api (List UInt8) := OptionT.lift (recv n)

def reply (bytes : List UInt8) : Command Api Unit := OptionT.lift (send bytes)

/-- End the connection. -/
def hangUp : Command Api α := OptionT.mk (pure none)

theorem recv_bind (n : Nat) (k : List UInt8 → Handler Api α) :
    (recv n >>= k : Handler Api α) = .op (.recv n) k := rfl

/-! ## The stream between a client and a service -/

/-- The two directions of a stream, the state behind the service, and the
    calls made so far with their answers. -/
structure Wire (Api : Sig) (σ : Type) where
  /-- Sent to the service, not yet received. -/
  inp : List UInt8
  /-- Sent by the service, not yet read. -/
  out : List UInt8
  /-- The state behind the service. -/
  api : σ
  /-- The calls made, oldest first. -/
  log : List (Prog.Event Api)

/-- How the functions behind a service answer, in every state. -/
abbrev Env (Api : Sig) (σ : Type) : Type := (c : Api.Op) → σ → Api.Res c × σ

/-- Run a handler until it returns or waits for bytes that are not there;
    what is left of it is returned with the stream. -/
def drive (env : Env Api σ) : Handler Api α → Wire Api σ → Handler Api α × Wire Api σ
  | .pure a, w => (.pure a, w)
  | .op (.recv n) k, w =>
    if n ≤ w.inp.length then
      drive env (k (w.inp.take n)) { w with inp := w.inp.drop n }
    else (.op (.recv n) k, w)
  | .op (.send bytes) k, w => drive env (k ()) { w with out := w.out ++ bytes }
  | .op (.call c) k, w =>
    drive env (k (env c w.api).1)
      { w with api := (env c w.api).2, log := w.log ++ [⟨c, (env c w.api).1⟩] }

section Drive

variable (env : Env Api σ) (inp out : List UInt8) (a : σ) (log : List (Prog.Event Api))

@[simp] theorem drive_pure (x : α) (w : Wire Api σ) :
    drive env (pure x : Handler Api α) w = (pure x, w) := rfl

theorem drive_bind {x : Handler Api α} {f : α → Handler Api β} {w w' : Wire Api σ} {y : α}
    (h : drive env x w = (pure y, w')) : drive env (x >>= f) w = drive env (f y) w' := by
  induction x generalizing w with
  | pure x =>
    simp only [drive, Prod.mk.injEq] at h
    obtain ⟨hx, rfl⟩ := h
    cases hx
    rfl
  | op o k ih =>
    cases o with
    | recv n =>
      rw [Prog.op_bind]
      simp only [drive] at h ⊢
      by_cases hn : n ≤ w.inp.length
      · rw [if_pos hn] at h ⊢
        exact ih _ h
      · rw [if_neg hn] at h
        cases (Prod.mk.inj h).1
    | send bytes => exact ih _ h
    | call c => exact ih _ h

variable {n : Nat}

theorem drive_recv (bytes : List UInt8) (k : List UInt8 → Handler Api α) (hn : bytes.length = n) :
    drive env (recv n >>= k) ⟨bytes ++ inp, out, a, log⟩ = drive env (k bytes) ⟨inp, out, a, log⟩ := by
  have hle : n ≤ (bytes ++ inp).length := by simp [← hn]
  rw [recv_bind]
  simp only [drive, if_pos hle, List.take_left' hn, List.drop_left' hn]

theorem drive_recv_all (bytes : List UInt8) (k : List UInt8 → Handler Api α)
    (hn : bytes.length = n) :
    drive env (recv n >>= k) ⟨bytes, out, a, log⟩ = drive env (k bytes) ⟨[], out, a, log⟩ := by
  simpa using drive_recv env [] out a log bytes k hn

@[simp] theorem drive_send (bytes : List UInt8) (k : Unit → Handler Api α) :
    drive env (send bytes >>= k) ⟨inp, out, a, log⟩ =
      drive env (k ()) ⟨inp, out ++ bytes, a, log⟩ := rfl

@[simp] theorem drive_call (c : Api.Op) (k : Api.Res c → Handler Api α) :
    drive env (call c >>= k) ⟨inp, out, a, log⟩ =
      drive env (k (env c a).1) ⟨inp, out, (env c a).2, log ++ [⟨c, (env c a).1⟩]⟩ := rfl

end Drive

section Command

variable (env : Env Api σ) (inp out : List UInt8) (a : σ) (log : List (Prog.Event Api))

@[simp] theorem drive_run_pure (x : α) (w : Wire Api σ) :
    drive env (pure x : Command Api α).run w = (pure (some x), w) := rfl

@[simp] theorem drive_run_hangUp (w : Wire Api σ) :
    drive env (hangUp : Command Api α).run w = (pure none, w) := rfl

@[simp] theorem drive_run_hangUp_bind (k : α → Command Api β) (w : Wire Api σ) :
    drive env ((hangUp : Command Api α) >>= k).run w = (pure none, w) := rfl

theorem drive_run_bind {x : Command Api α} {k : α → Command Api β} {w w' : Wire Api σ} {y : α}
    (h : drive env x.run w = (pure (some y), w')) :
    drive env (x >>= k).run w = drive env (k y).run w' := by
  rw [OptionT.run_bind, Option.elimM, drive_bind env h]
  rfl

theorem drive_run_bind_none {x : Command Api α} {k : α → Command Api β} {w w' : Wire Api σ}
    (h : drive env x.run w = (pure none, w')) :
    drive env (x >>= k).run w = (pure none, w') := by
  rw [OptionT.run_bind, Option.elimM, drive_bind env h]
  rfl

theorem drive_receive {n : Nat} (bytes : List UInt8) (k : List UInt8 → Command Api α)
    (hn : bytes.length = n) :
    drive env (receive n >>= k).run ⟨bytes ++ inp, out, a, log⟩ =
      drive env (k bytes).run ⟨inp, out, a, log⟩ :=
  drive_recv env inp out a log bytes (fun bs => (k bs).run) hn

theorem drive_receive_all {n : Nat} (bytes : List UInt8) (k : List UInt8 → Command Api α)
    (hn : bytes.length = n) :
    drive env (receive n >>= k).run ⟨bytes, out, a, log⟩ =
      drive env (k bytes).run ⟨[], out, a, log⟩ :=
  drive_recv_all env out a log bytes (fun bs => (k bs).run) hn

@[simp] theorem drive_reply (bytes : List UInt8) (k : Unit → Command Api α) :
    drive env (reply bytes >>= k).run ⟨inp, out, a, log⟩ =
      drive env (k ()).run ⟨inp, out ++ bytes, a, log⟩ := rfl

end Command

/-- Run a program that calls the functions behind a service without the
    service: its result, the state after it and the calls it made. -/
def direct (env : Env Api σ) : Prog Api α → σ → α × σ × List (Prog.Event Api)
  | .pure x, a => (x, a, [])
  | .op c k, a =>
    let (x, a', log) := direct env (k (env c a).1) (env c a).2
    (x, a', ⟨c, (env c a).1⟩ :: log)

theorem direct_pure (env : Env Api σ) (x : α) (a : σ) :
    direct env (pure x : Prog Api α) a = (x, a, []) := rfl

theorem direct_bind (env : Env Api σ) (m : Prog Api α) (f : α → Prog Api β) (a : σ) :
    direct env (m >>= f) a =
      ((direct env (f (direct env m a).1) (direct env m a).2.1).1,
        (direct env (f (direct env m a).1) (direct env m a).2.1).2.1,
        (direct env m a).2.2 ++ (direct env (f (direct env m a).1) (direct env m a).2.1).2.2) := by
  induction m generalizing a with
  | pure x => rfl
  | op c k ih =>
    rw [Prog.op_bind]
    simp only [direct, ih]
    rfl

/-- The command of each command byte, from the connection's own state to the
    state after it. -/
structure Service (Api : Sig) (ς : Type) where
  /-- The handler of a command byte. -/
  command : UInt8 → ς → Command Api ς

/-- Where a connection of a service stands. -/
inductive Session (Api : Sig) (ς : Type)
  /-- Waiting for a command byte. -/
  | idle (s : ς)
  /-- Inside a command, waiting for more bytes. -/
  | busy (rest : Handler Api (Option ς))
  /-- Ended by the service. -/
  | closed

namespace Service

variable (svc : Service Api ς) (env : Env Api σ)

/-- Where a connection stands after its handler was driven. -/
def settle : Handler Api (Option ς) × Wire Api σ → Session Api ς × Wire Api σ
  | (.pure (some s), w) => (.idle s, w)
  | (.pure none, w) => (.closed, w)
  | (rest, w) => (.busy rest, w)

/-- One turn of the service loop: go on with the command in progress, or take
    the next command byte. -/
def turn : Session Api ς × Wire Api σ → Session Api ς × Wire Api σ
  | (.closed, w) => (.closed, w)
  | (.busy rest, w) => settle (drive env rest w)
  | (.idle s, w) =>
    match w.inp with
    | [] => (.idle s, w)
    | c :: rest => settle (drive env (svc.command c s).run { w with inp := rest })

/-- The service loop, for as many turns as there can be commands in the
    stream. -/
def serve (x : Session Api ς × Wire Api σ) : Session Api ς × Wire Api σ :=
  (svc.turn env)^[x.2.inp.length + 1] x

theorem turn_idle (s : ς) (out : List UInt8) (a : σ) (log : List (Prog.Event Api)) :
    svc.turn env (.idle s, ⟨[], out, a, log⟩) = (.idle s, ⟨[], out, a, log⟩) := rfl

theorem turn_closed (w : Wire Api σ) : svc.turn env (.closed, w) = (.closed, w) := rfl

theorem serve_request {s s' : ς} {c : UInt8} {body out out' : List UInt8} {a a' : σ}
    {log log' : List (Prog.Event Api)}
    (h : drive env (svc.command c s).run ⟨body, out, a, log⟩ = (pure (some s'), ⟨[], out', a', log'⟩)) :
    svc.serve env (.idle s, ⟨c :: body, out, a, log⟩) = (.idle s', ⟨[], out', a', log'⟩) := by
  have hturn : svc.turn env (.idle s, ⟨c :: body, out, a, log⟩) =
      (.idle s', ⟨[], out', a', log'⟩) := by
    simp only [turn, h]
    rfl
  rw [serve, Function.iterate_succ_apply, hturn]
  exact Function.iterate_fixed (svc.turn_idle env s' out' a' log') _

/-- A request that makes its handler end the connection. -/
theorem serve_close {s : ς} {c : UInt8} {body out : List UInt8} {a : σ}
    {log : List (Prog.Event Api)} {w : Wire Api σ}
    (h : drive env (svc.command c s).run ⟨body, out, a, log⟩ = (pure none, w)) :
    svc.serve env (.idle s, ⟨c :: body, out, a, log⟩) = (.closed, w) := by
  have hturn : svc.turn env (.idle s, ⟨c :: body, out, a, log⟩) = (.closed, w) := by
    simp only [turn, h]
    rfl
  rw [serve, Function.iterate_succ_apply, hturn]
  exact Function.iterate_fixed (svc.turn_closed env w) _

end Service

end CheatEngine.Lib
