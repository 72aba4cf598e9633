/-
  CheatEngine.Lib.Hub

  Many connections to one service.  Each connection runs its own commands over
  its own stream, and all of them call the same functions behind the service.
  A step of the hub delivers bytes to a connection or lets a connection perform
  one operation, so a statement for every list of steps holds for every
  interleaving of the connections, operation by operation.
-/
import CheatEngine.Lib.Run
import CheatEngine.Lib.Service

namespace CheatEngine.Lib

variable {Api : Sig} {ς σ κ : Type}

namespace Service

variable (svc : Service Api ς) (env : Env Api σ)

/-- One operation of a connection: take a command byte, receive, send or call.
    A connection that waits for bytes stays where it is. -/
def tick : Session Api ς × Wire Api σ → Session Api ς × Wire Api σ
  | (.closed, w) => (.closed, w)
  | (.idle s, w) =>
    match w.inp with
    | [] => (.idle s, w)
    | c :: rest => settle ((svc.command c s).run, { w with inp := rest })
  | (.busy (.pure x), w) => settle (.pure x, w)
  | (.busy (.op (.recv n) k), w) =>
    if n ≤ w.inp.length then settle (k (w.inp.take n), { w with inp := w.inp.drop n })
    else (.busy (.op (.recv n) k), w)
  | (.busy (.op (.send bytes) k), w) => settle (k (), { w with out := w.out ++ bytes })
  | (.busy (.op (.call c) k), w) =>
    settle (k (env c w.api).1,
      { w with api := (env c w.api).2, log := w.log ++ [⟨c, (env c w.api).1⟩] })

@[simp] theorem settle_api (x : Handler Api (Option ς) × Wire Api σ) :
    (settle x).2.api = x.2.api := by
  rcases x with ⟨(_ | s) | ⟨o, k⟩, w⟩ <;> rfl

/-- The functions behind the service see at most one call in an operation. -/
theorem tick_api (x : Session Api ς × Wire Api σ) :
    (svc.tick env x).2.api = x.2.api ∨ ∃ c, (svc.tick env x).2.api = (env c x.2.api).2 := by
  obtain ⟨session, w⟩ := x
  cases session with
  | closed => exact .inl rfl
  | idle s =>
    left
    simp only [tick]
    cases w.inp with
    | nil => rfl
    | cons c rest => exact settle_api _
  | busy rest =>
    cases rest with
    | pure x => exact .inl (settle_api _)
    | op o k =>
      cases o with
      | recv n =>
        left
        simp only [tick]
        split
        · exact settle_api _
        · rfl
      | send bytes => exact .inl (settle_api _)
      | call c => exact .inr ⟨c, settle_api _⟩

end Service

/-- The connections of a service, by the names in `κ`. -/
structure Hub (Api : Sig) (ς σ κ : Type) where
  /-- Where each connection stands. -/
  session : κ → Session Api ς
  /-- Sent to the service on each connection, not yet received. -/
  inp : κ → List UInt8
  /-- Sent by the service on each connection. -/
  out : κ → List UInt8
  /-- The state behind the service. -/
  api : σ
  /-- The calls made, oldest first. -/
  log : List (Prog.Event Api)

/-- A step of a hub. -/
inductive HubInput (κ : Type)
  /-- The bytes arrive on a connection. -/
  | deliver (c : κ) (bytes : List UInt8)
  /-- A connection performs its next operation. -/
  | advance (c : κ)

namespace Hub

/-- No connection has received anything. -/
def start (s : ς) (a : σ) : Hub Api ς σ κ where
  session _ := .idle s
  inp _ := []
  out _ := []
  api := a
  log := []

variable (svc : Service Api ς) (env : Env Api σ) [DecidableEq κ] (h : Hub Api ς σ κ)

/-- The stream of a connection. -/
def wire (h : Hub Api ς σ κ) (c : κ) : Wire Api σ := ⟨h.inp c, h.out c, h.api, h.log⟩

/-- A connection and its stream, written back. -/
def put (h : Hub Api ς σ κ) (c : κ) (x : Session Api ς × Wire Api σ) : Hub Api ς σ κ where
  session := Function.update h.session c x.1
  inp := Function.update h.inp c x.2.inp
  out := Function.update h.out c x.2.out
  api := x.2.api
  log := x.2.log

def step (h : Hub Api ς σ κ) : HubInput κ → Hub Api ς σ κ
  | .deliver c bytes => { h with inp := Function.update h.inp c (h.inp c ++ bytes) }
  | .advance c => h.put c (svc.tick env (h.session c, h.wire c))

/-- What every call keeps, every run of the connections keeps. -/
theorem exec_api {I : σ → Prop} (henv : ∀ c a, I a → I (env c a).2) (hI : I h.api)
    (is : List (HubInput κ)) : I (exec (step svc env) h is).api := by
  induction is generalizing h with
  | nil => exact hI
  | cons i is ih =>
    apply ih
    cases i with
    | deliver c bytes => exact hI
    | advance c =>
      show I (svc.tick env (h.session c, h.wire c)).2.api
      rcases svc.tick_api env (h.session c, h.wire c) with hsame | ⟨op, hcall⟩
      · rw [hsame]
        exact hI
      · rw [hcall]
        exact henv op _ hI

end Hub

end CheatEngine.Lib
