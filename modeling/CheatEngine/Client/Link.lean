/-
  CheatEngine.Client.Link

  A client method running against a service.  The connection is reliable and
  ordered: a packet that is written reaches the service at once, and the
  service runs until it waits for the next byte.  A read takes bytes that the
  service has sent; when they are not there the client waits, and since the
  service itself waits for the client, it waits for ever (`none`).
-/
import CheatEngine.Lib.Service
import CheatEngine.Client.Process

namespace CheatEngine.Client

open CheatEngine.Lib

variable {Api : Sig} {ς σ α β : Type}

/-- A client and the service at the other end of its connection. -/
structure Link (Api : Sig) (ς σ : Type) where
  /-- The service's side. -/
  session : Session Api ς
  /-- The stream. -/
  wire : Wire Api σ
  /-- `client.connection != nil`. -/
  connected : Bool
  /-- `client.debugActive`. -/
  debugActive : Bool
  /-- What `ctx.Err()` answers, in order; `nil` afterwards. -/
  ctx : List (Option String)

/-- How the connection answers the operations of a client method. -/
def answer (svc : Service Api ς) (env : Env Api σ) :
    (o : NetOp) → Link Api ς σ → Option (NetSig.Res o × Link Api ς σ)
  | .write packet, l =>
    match l.session with
    | .closed => some (.error (.send "connection closed"), l)
    | session =>
      let (session, wire) :=
        svc.serve env (session, { l.wire with inp := l.wire.inp ++ packet })
      some (.ok (), { l with session, wire })
  | .read n, l =>
    if n ≤ l.wire.out.length then
      some (.ok (l.wire.out.take n), { l with wire := { l.wire with out := l.wire.out.drop n } })
    else
      match l.session with
      | .closed => some (.error "EOF", { l with wire := { l.wire with out := [] } })
      | _ => none
  | .connected, l => some (l.connected, l)
  | .close, l => some (.ok (), { l with connected := false })
  | .debugActive, l => some (l.debugActive, l)
  | .setDebugActive active, l => some ((), { l with debugActive := active })
  | .ctxErr, l => some (l.ctx.headD none, { l with ctx := l.ctx.tail })

/-- Run a client method on a link; `none` when the client waits for ever. -/
def Link.run (svc : Service Api ς) (env : Env Api σ) (m : ClientM α) (l : Link Api ς σ) :
    Option (Except ClientError α × Link Api ς σ) :=
  Prog.interp (answer svc env) m.run l

/-- An idle service, nothing to receive, `out` still to be read. -/
def Link.ready (s : ς) (a : σ) (log : List (Prog.Event Api)) (out : List UInt8) (debugActive : Bool)
    (ctx : List (Option String)) : Link Api ς σ :=
  ⟨.idle s, ⟨[], out, a, log⟩, true, debugActive, ctx⟩

/-- Both directions of the stream are empty and the service waits for a
    command. -/
def Link.Quiet (l : Link Api ς σ) : Prop :=
  ∃ s, l.session = .idle s ∧ l.wire.inp = [] ∧ l.wire.out = [] ∧ l.connected = true

section Run

variable {svc : Service Api ς} {env : Env Api σ} {l l' l'' : Link Api ς σ}

@[simp] theorem run_throw (e : ClientError) :
    Link.run svc env (throw e : ClientM α) l = some (.error e, l) := rfl

theorem run_bind (m : ClientM α) (f : α → ClientM β) :
    Link.run svc env (m >>= f) l = (Link.run svc env m l).bind fun p =>
      match p.1 with
      | .ok x => Link.run svc env (f x) p.2
      | .error e => some (.error e, p.2) := by
  rw [Link.run, ExceptT.run_bind, Prog.interp_bind, Link.run]
  cases Prog.interp (answer svc env) m.run l with
  | none => rfl
  | some p => rcases p with ⟨_ | _, _⟩ <;> rfl

variable {m : ClientM α}

theorem run_bind_ok {f : α → ClientM β} {x : α} (h : Link.run svc env m l = some (.ok x, l')) :
    Link.run svc env (m >>= f) l = Link.run svc env (f x) l' := by
  rw [run_bind, h]
  rfl

theorem run_bind_error {f : α → ClientM β} {e : ClientError}
    (h : Link.run svc env m l = some (.error e, l')) :
    Link.run svc env (m >>= f) l = some (.error e, l') := by
  rw [run_bind, h]
  rfl

theorem run_attempt {r : Except ClientError α} (h : Link.run svc env m l = some (r, l')) :
    Link.run svc env (attempt m) l = some (.ok r, l') := by
  have hrun : (attempt m).run = m.run >>= fun r => pure (.ok r) := rfl
  rw [Link.run, hrun, Prog.interp_bind]
  rw [Link.run] at h
  rw [h]
  rfl

theorem run_deferClose {handle : UInt32} {body : ClientM α} {r : Except ClientError α}
    {r' : Except ClientError Unit} (hbody : Link.run svc env body l = some (r, l'))
    (hclose : Link.run svc env (closeHandle handle) l' = some (r', l'')) :
    Link.run svc env (deferClose handle body) l = some (r, l'') := by
  rw [deferClose, run_bind_ok (run_attempt hbody), run_bind_ok (run_attempt hclose)]
  rfl

/-! ## Operations -/

theorem run_ask (o : NetOp) :
    Link.run svc env (ask o) l = (answer svc env o l).map fun p => (.ok p.1, p.2) := by
  have hrun : (ask o).run = Prog.op (S := NetSig) o fun r => pure (.ok r) := by
    rw [ask, ExceptT.run_lift]
    rfl
  rw [Link.run, hrun, Prog.interp_op]
  cases answer svc env o l <;> rfl

section Ready

variable {s s' : ς} {a a' : σ} {log log' : List (Prog.Event Api)} {out : List UInt8} {d : Bool}
  {ctx : List (Option String)}

/-- A request that its handler consumes exactly. -/
theorem run_writePacket {c : UInt8} {body : List UInt8}
    (h : drive env (svc.command c s).run ⟨body, [], a, log⟩ = (pure (some s'), ⟨[], out, a', log'⟩)) :
    Link.run svc env (writePacket (c :: body)) (.ready s a log [] d ctx) =
      some (.ok (), .ready s' a' log' out d ctx) := by
  have hserve := svc.serve_request env h
  have hask : Link.run svc env (ask (.write (c :: body))) (.ready s a log [] d ctx) =
      some (.ok (.ok ()), .ready s' a' log' out d ctx) := by
    rw [run_ask]
    simp only [answer, Link.ready, List.nil_append, hserve]
    rfl
  rw [writePacket, run_bind_ok hask]
  rfl

/-- A request that makes its handler end the connection. -/
theorem run_writePacket_close {c : UInt8} {body : List UInt8} {w : Wire Api σ}
    (h : drive env (svc.command c s).run ⟨body, [], a, log⟩ = (pure none, w)) :
    Link.run svc env (writePacket (c :: body)) (.ready s a log [] d ctx) =
      some (.ok (), ⟨.closed, w, true, d, ctx⟩) := by
  have hserve := svc.serve_close env h
  have hask : Link.run svc env (ask (.write (c :: body))) (.ready s a log [] d ctx) =
      some (.ok (.ok ()), ⟨.closed, w, true, d, ctx⟩) := by
    rw [run_ask]
    simp only [answer, Link.ready, List.nil_append, hserve]
    rfl
  rw [writePacket, run_bind_ok hask]
  rfl

variable {operation : String}

theorem run_readFull {n : Nat} (bytes : List UInt8) (hn : bytes.length = n) :
    Link.run svc env (readFull operation n) (.ready s a log (bytes ++ out) d ctx) =
      some (.ok bytes, .ready s a log out d ctx) := by
  unfold readFull
  by_cases h0 : n = 0
  · subst h0
    rw [List.length_eq_zero_iff.1 hn]
    rfl
  · have hle : n ≤ (bytes ++ out).length := by simp [← hn]
    have hask : Link.run svc env (ask (.read n)) (.ready s a log (bytes ++ out) d ctx) =
        some (.ok (.ok bytes), .ready s a log out d ctx) := by
      rw [run_ask]
      simp only [answer, Link.ready, if_pos hle, List.take_left' hn, List.drop_left' hn]
      rfl
    rw [if_neg h0, run_bind_ok hask]
    rfl

theorem run_readU8 (v : UInt8) :
    Link.run svc env (readU8 operation) (.ready s a log (u8 v ++ out) d ctx) =
      some (.ok v, .ready s a log out d ctx) := by
  rw [readU8, run_bind_ok (run_readFull (u8 v) (u8_length v)), u8At_u8_last]
  rfl

theorem run_readU16 (v : UInt16) :
    Link.run svc env (readU16 operation) (.ready s a log (u16 v ++ out) d ctx) =
      some (.ok v, .ready s a log out d ctx) := by
  rw [readU16, run_bind_ok (run_readFull (u16 v) (u16_length v)), u16At_u16_last]
  rfl

theorem run_readU32 (v : UInt32) :
    Link.run svc env (readU32 operation) (.ready s a log (u32 v ++ out) d ctx) =
      some (.ok v, .ready s a log out d ctx) := by
  rw [readU32, run_bind_ok (run_readFull (u32 v) (u32_length v)), u32At_u32_last]
  rfl

theorem run_readI32 (v : Int32) :
    Link.run svc env (readI32 operation) (.ready s a log (i32 v ++ out) d ctx) =
      some (.ok v, .ready s a log out d ctx) := by
  rw [readI32, run_bind_ok (run_readFull (i32 v) (i32_length v)), i32At_i32_last]
  rfl

theorem run_readU64 (v : UInt64) :
    Link.run svc env (readU64 operation) (.ready s a log (u64 v ++ out) d ctx) =
      some (.ok v, .ready s a log out d ctx) := by
  rw [readU64, run_bind_ok (run_readFull (u64 v) (u64_length v)), u64At_u64_last]
  rfl

theorem run_readString (bytes : List UInt8) (hle : bytes.length ≤ maximumProtocolStringLength) :
    Link.run svc env (readString operation bytes.length) (.ready s a log (bytes ++ out) d ctx) =
      some (.ok bytes, .ready s a log out d ctx) := by
  have hok : ¬ ((bytes.length : Int) < 0 ∨
      (maximumProtocolStringLength : Int) < (bytes.length : Int)) := by omega
  rw [readString, if_neg hok]
  exact run_readFull bytes (by simp)

theorem run_readString16 (bytes : List UInt8) (hlt : bytes.length < 2 ^ 16) :
    Link.run svc env (readString16 operation)
        (.ready s a log (u16 (UInt16.ofNat bytes.length) ++ bytes ++ out) d ctx) =
      some (.ok bytes, .ready s a log out d ctx) := by
  have hlen : (UInt16.ofNat bytes.length).toNat = bytes.length := by
    rw [UInt16.toNat_ofNat']
    exact Nat.mod_eq_of_lt hlt
  have hmax : bytes.length ≤ maximumProtocolStringLength := by
    rw [maximumProtocolStringLength]
    omega
  rw [readString16, List.append_assoc, run_bind_ok (run_readU16 _), hlen]
  exact run_readString bytes hmax

theorem run_readMany {read : ClientM α} {ε : Type} (encode : ε → List UInt8) (decode : ε → α)
    (hread : ∀ (e : ε) (out : List UInt8),
      Link.run svc env read (.ready s a log (encode e ++ out) d ctx) =
        some (.ok (decode e), .ready s a log out d ctx)) (es : List ε) :
    Link.run svc env (readMany read es.length)
        (.ready s a log ((es.map encode).flatten ++ out) d ctx) =
      some (.ok (es.map decode), .ready s a log out d ctx) := by
  induction es with
  | nil => rfl
  | cons e es ih =>
    rw [List.length_cons, readMany, List.map_cons, List.flatten_cons, List.append_assoc,
      run_bind_ok (hread e _), run_bind_ok ih]
    rfl

end Ready

end Run

end CheatEngine.Client
