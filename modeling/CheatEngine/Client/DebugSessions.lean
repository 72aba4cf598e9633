/-
  CheatEngine.Client.DebugSessions

  Debug sessions over a sequence of calls on one client.  `startDebug` keeps one
  flag for the whole connection: a call for another process finds it set and
  sends no `StartDebug` of its own, and neither does a call after a `StartDebug`
  whose reply was lost.
-/
import CheatEngine.Client.Debug

namespace CheatEngine.Client

open CheatEngine.Lib

/-! ## Calls and what they send -/

inductive Traffic
  | sent (packet : List UInt8) (result : Except WriteFailure Unit)
  | received (reply : Except String (List UInt8))

/-- What went over the connection, each with the process of its call, and the
    fields of the client. -/
structure DebugClient where
  trace : List (Int32 × Traffic)
  debugActive : Bool
  connected : Bool

/-- `NewClient`. -/
def DebugClient.dialed : DebugClient := ⟨[], false, true⟩

/-- An operation of a call for `pid`, whatever the peer does. -/
def ClientStep (pid : Int32) : (o : NetOp) → DebugClient → NetSig.Res o → DebugClient → Prop
  | .write packet, s, result, s' => s' = { s with trace := s.trace ++ [(pid, .sent packet result)] }
  | .read _, s, reply, s' => s' = { s with trace := s.trace ++ [(pid, .received reply)] }
  | .connected, s, r, s' => r = s.connected ∧ s' = s
  | .close, s, _, s' => s' = { s with connected := false }
  | .debugActive, s, r, s' => r = s.debugActive ∧ s' = s
  | .setDebugActive active, s, _, s' => s' = { s with debugActive := active }
  | .ctxErr, s, _, s' => s' = s

/-- A call that may open a debug session. -/
inductive DebugCall
  | setThreadContext (pid tid : Int32) (data : List UInt8)
  | traceDebugEvents (pid : Int32) (maximumEvents eventTimeout : Int64)
      (continueMode : DebugContinueMode)

namespace DebugCall

def pid : DebugCall → Int32
  | setThreadContext pid _ _ => pid
  | traceDebugEvents pid _ _ _ => pid

/-- The method of a client with a network timeout. -/
def method (timeout : Int64) : DebugCall → ClientM Unit
  | setThreadContext pid tid data => do
    let _ ← Client.setThreadContext pid tid data
    return ()
  | traceDebugEvents pid maximumEvents eventTimeout continueMode => do
    let _ ← Client.traceDebugEvents timeout pid maximumEvents eventTimeout continueMode
    return ()

/-- The arguments pass the checks that come before `OpenProcess`. -/
def Valid (timeout : Int64) : DebugCall → Prop
  | setThreadContext _ _ data => validateThreadContext data = .ok ()
  | traceDebugEvents _ maximumEvents eventTimeout continueMode =>
    ¬ (maximumEvents.toInt < 1 ∨ 10000 < maximumEvents.toInt) ∧
      ¬ (eventTimeout.toInt < millisecond ∨ (2 ^ 31 - 1) * millisecond < eventTimeout.toInt) ∧
      ¬ timeout ≤ eventTimeout ∧
      ¬ (continueMode < debugContinueAuto ∨ debugContinueSingleStep < continueMode)

end DebugCall

/-- The states of a client between calls that all meet a condition. -/
inductive Calls (timeout : Int64) (P : DebugCall → DebugClient → Prop) : DebugClient → Prop
  | dialed : Calls timeout P .dialed
  | call {s s' : DebugClient} {r : Except ClientError Unit} (c : DebugCall) :
      Calls timeout P s → P c s → Prog.Ends (ClientStep c.pid) (c.method timeout).run s r s' →
        Calls timeout P s'

def startPacket (handle : UInt32) : List UInt8 := commandStartDebug :: u32 handle

/-- The packets of a debug session. -/
def DebugPacket (packet : List UInt8) : Prop :=
  packet.head? = some commandWaitForDebugEvent ∨
    packet.head? = some commandContinueFromDebugEvent ∨
    packet.head? = some commandSetThreadContext

/-- A `StartDebug` for the process was answered with something else than 0. -/
def StartedFor (pid : Int32) (trace : List (Int32 × Traffic)) : Prop :=
  ∃ u handle bytes v, trace =
    u ++ (pid, .sent (startPacket handle) (.ok ())) :: (pid, .received (.ok bytes)) :: v ∧
      i32At bytes 0 ≠ 0

/-- Every packet of a debug session was sent for a process that was attached. -/
def PerProcess (trace : List (Int32 × Traffic)) : Prop :=
  ∀ u pid packet result v, trace = u ++ (pid, .sent packet result) :: v → DebugPacket packet →
    StartedFor pid u

/-- A `StartDebug` was sent, and its reply, if it came, was not 0. -/
def MayBeActive (trace : List (Int32 × Traffic)) : Prop :=
  ∃ u pid handle v, trace = u ++ (pid, .sent (startPacket handle) (.ok ())) :: v ∧
    ∀ bytes w, v = (pid, .received (.ok bytes)) :: w → i32At bytes 0 ≠ 0

/-- `Close` sends the close command when no session may be active, and only then. -/
def CloseTells (s : DebugClient) : Prop :=
  ∀ pid r s', Prog.Ends (ClientStep pid) close.run s r s' →
    (MayBeActive s.trace → s'.trace = s.trace) ∧
      (¬ MayBeActive s.trace →
        ∃ result, s'.trace = s.trace ++ [(pid, .sent [commandCloseConnection] result)])

/-- The flag is not set, or the process of the call was attached, or the call
    does not get as far. -/
def Attaches (timeout : Int64) (c : DebugCall) (s : DebugClient) : Prop :=
  c.Valid timeout → s.debugActive = true → StartedFor c.pid s.trace

/-! ## Traces that grow -/

section Traces

variable {α : Type} {t u v : List (Int32 × Traffic)} {e x : Int32 × Traffic} {pid : Int32}

theorem snoc_eq_append_cons : t ++ [e] = u ++ x :: v ↔
    (v = [] ∧ u = t ∧ x = e) ∨ ∃ v', v = v' ++ [e] ∧ t = u ++ x :: v' := by
  constructor
  · intro h
    rcases List.eq_nil_or_concat v with rfl | ⟨v', e', rfl⟩
    · obtain ⟨rfl, hx⟩ := List.append_inj' h rfl
      injection hx with hx
      exact .inl ⟨rfl, rfl, hx.symm⟩
    · have hsplit : u ++ x :: v'.concat e' = (u ++ x :: v') ++ [e'] := by simp
      rw [hsplit] at h
      obtain ⟨rfl, he⟩ := List.append_inj' h rfl
      injection he with he
      exact .inr ⟨v', by rw [he, List.concat_eq_append], rfl⟩
  · rintro (⟨rfl, rfl, rfl⟩ | ⟨v', rfl, rfl⟩)
    · rfl
    · simp

theorem StartedFor.append (h : StartedFor pid t) (es : List (Int32 × Traffic)) :
    StartedFor pid (t ++ es) := by
  obtain ⟨u, handle, bytes, v, rfl, hne⟩ := h
  exact ⟨u, handle, bytes, v ++ es, by simp, hne⟩

/-- Only a reply to the event before it attaches a process. -/
theorem StartedFor.of_snoc (h : StartedFor pid (t ++ [e]))
    (hne : ∀ u handle bytes, t = u ++ [(pid, .sent (startPacket handle) (.ok ()))] →
      e ≠ (pid, .received (.ok bytes))) : StartedFor pid t := by
  obtain ⟨u, handle, bytes, v, h, hreply⟩ := h
  rcases snoc_eq_append_cons.1 h with ⟨hv, -, -⟩ | ⟨v', hv, ht⟩
  · cases hv
  · cases v' with
    | nil =>
      injection hv with hv _
      exact absurd hv.symm (hne u handle bytes ht)
    | cons x v' =>
      injection hv with hx _
      subst hx
      exact ⟨u, handle, bytes, v', ht, hreply⟩

/-- A `StartDebug` that was sent is not the last event. -/
def Resolved (t : List (Int32 × Traffic)) : Prop :=
  ∀ u pid handle, t ≠ u ++ [(pid, .sent (startPacket handle) (.ok ()))]

/-- Any event but a `StartDebug` that was sent. -/
def NoStart (e : Traffic) : Prop := ∀ handle, e ≠ .sent (startPacket handle) (.ok ())

theorem noStart_received (reply : Except String (List UInt8)) : NoStart (.received reply) := by
  intro handle h
  cases h

theorem noStart_failed (packet : List UInt8) (w : WriteFailure) :
    NoStart (.sent packet (.error w)) := by
  intro handle h
  cases h

theorem Resolved.snoc (he : NoStart e.2) : Resolved (t ++ [e]) := by
  intro u pid handle h
  obtain ⟨-, hx⟩ := List.append_inj' h rfl
  injection hx with hx
  exact he handle (congrArg Prod.snd hx)

theorem mayBeActive_snoc (ht : Resolved t) (he : NoStart e.2) :
    MayBeActive (t ++ [e]) ↔ MayBeActive t := by
  constructor
  · rintro ⟨u, pid, handle, v, h, hreply⟩
    rcases snoc_eq_append_cons.1 h with ⟨-, -, rfl⟩ | ⟨v', rfl, rfl⟩
    · exact absurd rfl (he handle)
    · exact ⟨u, pid, handle, v', rfl, fun bytes w hv => hreply bytes (w ++ [e]) (by rw [hv]; rfl)⟩
  · rintro ⟨u, pid, handle, v, rfl, hreply⟩
    refine ⟨u, pid, handle, v ++ [e], by simp, fun bytes w hv => ?_⟩
    -- the next event of `u` is still the same
    cases v with
    | nil => exact absurd rfl (ht u pid handle)
    | cons x v =>
      injection hv with hx _
      exact hreply bytes v (by rw [hx])

theorem mayBeActive_start (ht : Resolved t) (pid : Int32) (handle : UInt32)
    (reply : Except String (List UInt8)) :
    MayBeActive (t ++ [(pid, .sent (startPacket handle) (.ok ()))] ++ [(pid, .received reply)]) ↔
      MayBeActive t ∨ ∀ bytes, reply = .ok bytes → i32At bytes 0 ≠ 0 := by
  constructor
  · rintro ⟨u, pid', handle', v, h, hreply⟩
    rcases snoc_eq_append_cons.1 h with ⟨-, -, hx⟩ | ⟨v', rfl, h'⟩
    · cases hx
    · rcases snoc_eq_append_cons.1 h' with ⟨rfl, rfl, hx⟩ | ⟨v'', rfl, rfl⟩
      · injection hx with hpid _
        subst hpid
        exact .inr fun bytes hb => hreply bytes [] (by rw [hb]; rfl)
      · exact .inl ⟨u, pid', handle', v'', rfl, fun bytes w hv => hreply bytes _ (by rw [hv]; rfl)⟩
  · rintro (⟨u, pid', handle', v, rfl, hreply⟩ | hreply)
    · refine ⟨u, pid', handle', v ++ [(pid, .sent (startPacket handle) (.ok ()))] ++
        [(pid, .received reply)], by simp, fun bytes w hv => ?_⟩
      cases v with
      | nil => exact absurd rfl (ht u pid' handle')
      | cons x v =>
        injection hv with hx _
        exact hreply bytes v (by rw [hx])
    · refine ⟨t, pid, handle, [(pid, .received reply)], by simp, fun bytes w hv => ?_⟩
      injection hv with hx _
      injection hx with _ hx
      injection hx with hx
      exact hreply bytes hx

theorem PerProcess.snoc (ht : PerProcess t)
    (he : ∀ packet result, e.2 = .sent packet result → DebugPacket packet → StartedFor e.1 t) :
    PerProcess (t ++ [e]) := by
  intro u pid packet result v h hpacket
  rcases snoc_eq_append_cons.1 h with ⟨-, rfl, rfl⟩ | ⟨v', -, h'⟩
  · exact he packet result rfl hpacket
  · exact ht u pid packet result v' h' hpacket

/-- What is in order up to an event was in order before it. -/
theorem PerProcess.of_append {es : List (Int32 × Traffic)} (h : PerProcess (t ++ es)) :
    PerProcess t := by
  intro u pid packet result v ht
  exact h u pid packet result (v ++ es) (by rw [ht]; simp)

end Traces

/-! ## Rules for methods -/

/-- Whatever the peer does, the run of a method in a call for `pid` ends with `Q`. -/
abbrev Does {α : Type} (pid : Int32) (m : ClientM α) (s : DebugClient)
    (Q : Except ClientError α → DebugClient → Prop) : Prop :=
  Prog.Always (ClientStep pid) Q m.run s

/-- The method only exchanges traffic with the peer, and every packet satisfies `P`. -/
def Exchanges {α : Type} (pid : Int32) (P : List UInt8 → Prop) (m : ClientM α) : Prop :=
  ∀ s, Does pid m s fun _ s' => ∃ es, s' = { s with trace := s.trace ++ es } ∧
    ∀ e ∈ es, e.1 = pid ∧ ∀ packet result, e.2 = .sent packet result → P packet

section Rules

variable {α β : Type} {pid : Int32} {P : List UInt8 → Prop} {s : DebugClient} {m : ClientM α}

theorem does_bind {f : α → ClientM β} {Q : Except ClientError β → DebugClient → Prop}
    (hm : Does pid m s fun r s' =>
      (∀ e, r = .error e → Q (.error e) s') ∧ ∀ a, r = .ok a → Does pid (f a) s' Q) :
    Does pid (m >>= f) s Q := by
  show Prog.Always _ Q (m >>= f).run s
  rw [ExceptT.run_bind]
  refine Prog.Always.bind (Prog.Always.imp hm ?_)
  rintro (e | a) s' ⟨he, ha⟩
  · exact he e rfl
  · exact ha a rfl

variable {Q : Except ClientError α → DebugClient → Prop}

theorem does_ask_bind {o : NetOp} {f : NetSig.Res o → ClientM α}
    (h : ∀ r s', ClientStep pid o s r s' → Does pid (f r) s' Q) : Does pid (ask o >>= f) s Q :=
  h

theorem does_write_bind {packet : List UInt8} {f : Unit → ClientM α}
    (herror : ∀ e w, Q (.error e) { s with trace := s.trace ++ [(pid, .sent packet (.error w))] })
    (hok : Does pid (f ()) { s with trace := s.trace ++ [(pid, .sent packet (.ok ()))] } Q) :
    Does pid (writePacket packet >>= f) s Q := by
  rw [writePacket, bind_assoc]
  refine does_ask_bind ?_
  rintro ((e | e) | _) s' rfl
  · exact herror _ _
  · exact herror _ _
  · exact hok

theorem does_readI32_bind {operation : String} {f : Int32 → ClientM α}
    (herror : ∀ e w, Q (.error e) { s with trace := s.trace ++ [(pid, .received (.error w))] })
    (hok : ∀ bytes, Does pid (f (i32At bytes 0))
      { s with trace := s.trace ++ [(pid, .received (.ok bytes))] } Q) :
    Does pid (readI32 operation >>= f) s Q := by
  have hfour : ¬ (4 : Nat) = 0 := by omega
  rw [readI32, bind_assoc, readFull, if_neg hfour, bind_assoc]
  refine does_ask_bind ?_
  rintro (e | bytes) s' rfl
  · exact herror _ _
  · exact hok bytes

theorem exchanges_pure (a : α) : Exchanges pid P (pure a) :=
  fun _ => ⟨[], by rw [List.append_nil], by simp⟩

theorem exchanges_throw (e : ClientError) : Exchanges pid P (throw e : ClientM α) :=
  fun _ => ⟨[], by rw [List.append_nil], by simp⟩

theorem exchanges_ite {c : Prop} [Decidable c] {m' : ClientM α} (hm : Exchanges pid P m)
    (hm' : Exchanges pid P m') : Exchanges pid P (if c then m else m') := by
  split
  · exact hm
  · exact hm'

theorem exchanges_bind {f : α → ClientM β} (hm : Exchanges pid P m)
    (hf : ∀ a, Exchanges pid P (f a)) : Exchanges pid P (m >>= f) := by
  intro s
  refine does_bind (Prog.Always.imp (hm s) ?_)
  rintro r s' ⟨es, rfl, hes⟩
  refine ⟨fun e _ => ⟨es, rfl, hes⟩, fun a _ => Prog.Always.imp (hf a _) ?_⟩
  rintro r' s' ⟨es', rfl, hes'⟩
  refine ⟨es ++ es', by rw [List.append_assoc], fun e he => ?_⟩
  rcases List.mem_append.1 he with he | he
  · exact hes e he
  · exact hes' e he

theorem exchanges_write {packet : List UInt8} (hpacket : P packet) :
    Exchanges pid P (writePacket packet) := by
  rintro s result s' rfl
  have hone : ∀ e ∈ [(pid, Traffic.sent packet result)], e.1 = pid ∧
      ∀ packet result, e.2 = .sent packet result → P packet := by
    rintro e he
    obtain rfl := List.mem_singleton.1 he
    refine ⟨rfl, fun packet' result' h => ?_⟩
    injection h with h
    exact h ▸ hpacket
  rcases result with (e | e) | _
  · exact ⟨_, rfl, hone⟩
  · exact ⟨_, rfl, hone⟩
  · exact ⟨_, rfl, hone⟩

theorem exchanges_readFull (operation : String) (n : Nat) :
    Exchanges pid P (readFull operation n) := by
  rw [readFull]
  refine exchanges_ite (exchanges_pure _) ?_
  rintro s reply s' rfl
  have hone : ∀ e ∈ [(pid, Traffic.received reply)], e.1 = pid ∧
      ∀ packet result, e.2 = .sent packet result → P packet := by
    rintro e he
    obtain rfl := List.mem_singleton.1 he
    refine ⟨rfl, fun packet' result' h => ?_⟩
    cases h
  rcases reply with e | bytes
  · exact ⟨_, rfl, hone⟩
  · exact ⟨_, rfl, hone⟩

theorem exchanges_readU32 (operation : String) : Exchanges pid P (readU32 operation) :=
  exchanges_bind (exchanges_readFull operation 4) fun _ => exchanges_pure _

theorem exchanges_readI32 (operation : String) : Exchanges pid P (readI32 operation) :=
  exchanges_bind (exchanges_readFull operation 4) fun _ => exchanges_pure _

theorem exchanges_checkContext : Exchanges pid P checkContext := by
  rintro s r s' rfl
  rcases r with _ | e
  · exact exchanges_pure () _
  · exact exchanges_throw (.plain (text e)) _

theorem exchanges_openProcess (hpacket : P (commandOpenProcess :: i32 pid)) :
    Exchanges pid P (openProcess pid) :=
  exchanges_bind (exchanges_write hpacket) fun _ => exchanges_bind (exchanges_readU32 _) fun _ =>
    exchanges_ite (exchanges_throw _) (exchanges_pure _)

theorem exchanges_closeHandle {handle : UInt32} (hpacket : P (commandCloseHandle :: u32 handle)) :
    Exchanges pid P (closeHandle handle) :=
  exchanges_bind (exchanges_write hpacket) fun _ => exchanges_bind (exchanges_readI32 _) fun _ =>
    exchanges_pure _

theorem does_attempt {f : Except ClientError α → ClientM β}
    {Q : Except ClientError β → DebugClient → Prop}
    (hm : Does pid m s fun r s' => Does pid (f r) s' Q) : Does pid (attempt m) s fun r s' =>
      (∀ e, r = .error e → Q (.error e) s') ∧ ∀ a, r = .ok a → Does pid (f a) s' Q := by
  refine Prog.Always.bind (Prog.Always.imp hm fun r s' h => ?_)
  constructor
  · intro e he
    cases he
  · intro a ha
    injection ha with ha
    exact ha ▸ h

theorem does_deferClose {handle : UInt32} {body : ClientM α}
    (hbody : Does pid body s fun r s' =>
      Does pid (closeHandle handle) s' fun _ s'' => Q r s'') :
    Does pid (deferClose handle body) s Q := by
  refine does_bind (does_attempt (Prog.Always.imp hbody fun r s' hclose => ?_))
  refine does_bind (does_attempt (Prog.Always.imp hclose fun _ _ hq => ?_))
  exact hq

end Rules

/-! ## The invariant -/

/-- Between two exchanges: the flag says whether a session may be active, and, as
    far as it is asked for, every packet of a session has an attached process. -/
structure ClientInv (asked : Prop) (s : DebugClient) : Prop where
  perProcess : asked → PerProcess s.trace
  resolved : Resolved s.trace
  flag : s.debugActive = true ↔ MayBeActive s.trace
  connected : s.connected = true

section Invariant

variable {α : Type} {asked : Prop} {s : DebugClient} {pid : Int32}

theorem clientInv_dialed : ClientInv asked .dialed where
  perProcess := by
    intro _ u pid packet result v h
    cases u <;> cases h
  resolved := by
    intro u pid handle h
    cases u <;> cases h
  flag := by
    constructor
    · intro h
      cases h
    · rintro ⟨u, pid, handle, v, h, -⟩
      cases u <;> cases h
  connected := rfl

theorem ClientInv.exchange (h : ClientInv asked s) (pid : Int32) (es : List (Int32 × Traffic))
    (hes : ∀ e ∈ es, e.1 = pid ∧ NoStart e.2 ∧ ∀ packet result, e.2 = .sent packet result →
      asked → DebugPacket packet → StartedFor pid s.trace) :
    ClientInv asked { s with trace := s.trace ++ es } := by
  induction es generalizing s with
  | nil =>
    rw [List.append_nil]
    exact h
  | cons e es ih =>
    obtain ⟨rfl, hno, he⟩ := hes e (List.mem_cons_self ..)
    have hone : ClientInv asked { s with trace := s.trace ++ [e] } := by
      refine ⟨fun ha => (h.perProcess ha).snoc fun packet result heq hp => he _ _ heq ha hp,
        Resolved.snoc hno, ?_, h.connected⟩
      exact h.flag.trans (mayBeActive_snoc h.resolved hno).symm
    have hrest := ih hone fun e' he' => by
      obtain ⟨hpid, hno', hsent⟩ := hes e' (List.mem_cons_of_mem _ he')
      exact ⟨hpid, hno', fun packet result heq ha hp => (hsent _ _ heq ha hp).append _⟩
    simpa using hrest

theorem does_exchanges {m : ClientM α} {P : List UInt8 → Prop} (hm : Exchanges pid P m)
    (h : ClientInv asked s) (hP : ∀ packet, P packet → packet.head? ≠ some commandStartDebug ∧
      (asked → DebugPacket packet → StartedFor pid s.trace)) :
    Does pid m s fun _ s' => ClientInv asked s' ∧ s'.debugActive = s.debugActive ∧
      (StartedFor pid s.trace → StartedFor pid s'.trace) := by
  refine Prog.Always.imp (hm s) ?_
  rintro r s' ⟨es, rfl, hes⟩
  refine ⟨h.exchange pid es fun e he => ?_, rfl, fun hatt => hatt.append es⟩
  obtain ⟨hpid, hsent⟩ := hes e he
  refine ⟨hpid, fun handle heq => ?_, fun packet result heq => (hP packet (hsent _ _ heq)).2⟩
  exact (hP _ (hsent _ _ heq)).1 rfl

theorem does_startDebug (handle : UInt32) (h : ClientInv asked s)
    (hatt : asked → s.debugActive = true → StartedFor pid s.trace) :
    Does pid (startDebug handle) s fun r s' =>
      ClientInv asked s' ∧ (r = .ok () → asked → StartedFor pid s'.trace) := by
  have hstart : commandStartDebug :: u32 handle = startPacket handle := rfl
  rw [startDebug, hstart]
  refine does_ask_bind ?_
  rintro _ s' ⟨rfl, rfl⟩
  cases hflag : s'.debugActive with
  | true => exact ⟨h, fun _ ha => hatt ha hflag⟩
  | false =>
    have hidle : ¬ MayBeActive s'.trace := fun hmay => by
      rw [h.flag.2 hmay] at hflag
      cases hflag
    -- whatever the exchange is, the new trace has no packet of a session
    have hperProcess : ∀ reply, asked → PerProcess (s'.trace ++
        [(pid, .sent (startPacket handle) (.ok ()))] ++ [(pid, .received reply)]) := by
      intro reply ha
      refine ((h.perProcess ha).snoc fun packet result heq hp => ?_).snoc fun packet result heq => ?_
      · injection heq with heq
        subst heq
        rcases hp with hp | hp | hp <;> cases hp
      · cases heq
    have hresolved : ∀ reply, Resolved (s'.trace ++
        [(pid, .sent (startPacket handle) (.ok ()))] ++ [(pid, .received reply)]) :=
      fun reply => Resolved.snoc (noStart_received reply)
    refine does_write_bind (fun e w => ?_) (does_ask_bind ?_)
    · -- the packet did not go out
      refine ⟨h.exchange pid _ fun ev hev => ?_, fun he => by cases he⟩
      obtain rfl := List.mem_singleton.1 hev
      refine ⟨rfl, noStart_failed _ _, fun packet result heq _ hp => ?_⟩
      injection heq with heq
      subst heq
      rcases hp with hp | hp | hp <;> cases hp
    · rintro _ _ rfl
      refine does_readI32_bind (fun e w => ?_) fun bytes => ?_
      · -- the reply was lost, and the flag stays
        have hmay := (mayBeActive_start h.resolved pid handle (.error w)).2 (.inr fun bytes heq => by cases heq)
        exact ⟨⟨hperProcess _, hresolved _, iff_of_true rfl hmay, h.connected⟩,
          fun he => by cases he⟩
      · by_cases hzero : i32At bytes 0 = 0
        · rw [if_pos hzero]
          refine does_ask_bind ?_
          rintro _ _ rfl
          have hnot : ¬ MayBeActive _ := fun hmay =>
            ((mayBeActive_start h.resolved pid handle (.ok bytes)).1 hmay).elim hidle
              fun hne => hne bytes rfl hzero
          exact ⟨⟨hperProcess _, hresolved _, iff_of_false (by simp) hnot, h.connected⟩,
            fun he => by cases he⟩
        · rw [if_neg hzero]
          have hmay := (mayBeActive_start h.resolved pid handle (.ok bytes)).2
            (.inr fun bytes' heq => by
              injection heq with heq
              exact heq ▸ hzero)
          refine ⟨⟨hperProcess _, hresolved _, iff_of_true rfl hmay, h.connected⟩, fun _ _ => ?_⟩
          exact ⟨s'.trace, handle, bytes, [], by simp, hzero⟩

/-! ## Calls -/

/-- Packets of neither kind. -/
def Ordinary (packet : List UInt8) : Prop :=
  packet.head? ≠ some commandStartDebug ∧ ¬ DebugPacket packet

theorem ordinary_openProcess (pid : Int32) : Ordinary (commandOpenProcess :: i32 pid) := by
  constructor
  · intro h
    cases h
  · rintro (h | h | h) <;> cases h

theorem ordinary_closeHandle (handle : UInt32) : Ordinary (commandCloseHandle :: u32 handle) := by
  constructor
  · intro h
    cases h
  · rintro (h | h | h) <;> cases h

theorem does_session {rest : UInt32 → ClientM α}
    (hrest : ∀ handle, Exchanges pid (fun packet => packet.head? ≠ some commandStartDebug) (rest handle))
    (h : ClientInv asked s) (hatt : asked → s.debugActive = true → StartedFor pid s.trace) :
    Does pid (openProcess pid >>= fun handle => deferClose handle (startDebug handle >>= fun _ =>
      rest handle)) s fun _ s' => ClientInv asked s' := by
  have hopen : Does pid (openProcess pid) s _ :=
    does_exchanges (exchanges_openProcess (ordinary_openProcess pid)) h
      fun packet hp => ⟨hp.1, fun _ hd => absurd hd hp.2⟩
  refine does_bind (Prog.Always.imp hopen ?_)
  rintro r s₁ ⟨h₁, hflag, hkeep⟩
  refine ⟨fun _ _ => h₁, fun handle _ => does_deferClose ?_⟩
  have hatt₁ : asked → s₁.debugActive = true → StartedFor pid s₁.trace :=
    fun ha hactive => hkeep (hatt ha (hflag ▸ hactive))
  -- the handle is closed at the end, whatever happened before
  have hclose : ∀ s', ClientInv asked s' →
      Does pid (closeHandle handle) s' fun _ s'' => ClientInv asked s'' := fun s' h' =>
    Prog.Always.imp (does_exchanges (exchanges_closeHandle (ordinary_closeHandle handle)) h'
      fun packet hp => ⟨hp.1, fun _ hd => absurd hd hp.2⟩) fun _ _ hq => hq.1
  refine does_bind (Prog.Always.imp (does_startDebug handle h₁ hatt₁) ?_)
  rintro r s₂ ⟨h₂, hstarted⟩
  refine ⟨fun _ _ => hclose s₂ h₂, fun x hx => ?_⟩
  have hdone : asked → StartedFor pid s₂.trace := hstarted hx
  refine Prog.Always.imp (does_exchanges (hrest handle) h₂ fun packet hp => ⟨hp, fun ha _ => hdone ha⟩) ?_
  rintro r' s₃ ⟨h₃, -, -⟩
  exact hclose s₃ h₃

end Invariant

section Calls

variable {asked : Prop} {s : DebugClient} {timeout : Int64}

theorem exchanges_traceLoop (pid : Int32) (handle : UInt32) (milliseconds : Int32)
    (mode : DebugContinueMode) (fuel : Nat) (events : List DebugEvent) :
    Exchanges pid (fun packet => packet.head? ≠ some commandStartDebug)
      (traceLoop handle milliseconds mode fuel events) := by
  have hwait : Exchanges pid (fun packet => packet.head? ≠ some commandStartDebug)
      (waitForDebugEvent handle milliseconds) :=
    exchanges_bind (exchanges_write (by intro h; cases h)) fun _ =>
      exchanges_bind (exchanges_readI32 _) fun _ => exchanges_ite (exchanges_pure _)
        (exchanges_bind (exchanges_readFull _ _) fun _ => exchanges_pure _)
  have hcontinue : ∀ threadID mode, Exchanges pid (fun packet => packet.head? ≠ some commandStartDebug)
      (continueFromDebugEvent handle threadID mode) := fun threadID mode =>
    exchanges_ite (exchanges_throw _) (exchanges_bind (exchanges_write (by intro h; cases h)) fun _ =>
      exchanges_bind (exchanges_readI32 _) fun _ => exchanges_ite (exchanges_throw _) (exchanges_pure _))
  induction fuel generalizing events with
  | zero => exact exchanges_pure _
  | succ fuel ih =>
    refine exchanges_bind exchanges_checkContext fun _ => exchanges_bind hwait fun event => ?_
    cases event with
    | none => exact exchanges_pure _
    | some event => exact exchanges_bind (hcontinue _ _) fun _ => ih _

theorem does_call (c : DebugCall) (h : ClientInv asked s) (hatt : asked → Attaches timeout c s) :
    Does c.pid (c.method timeout) s fun _ s' => ClientInv asked s' := by
  have hdiscard : ∀ {α : Type} {m : ClientM α}, Does c.pid m s (fun _ s' => ClientInv asked s') →
      Does c.pid (m >>= fun _ => pure ()) s fun _ s' => ClientInv asked s' := fun hm =>
    does_bind (Prog.Always.imp hm fun _ _ h' => ⟨fun _ _ => h', fun _ _ => h'⟩)
  cases c with
  | setThreadContext pid tid data =>
    refine hdiscard (does_bind ?_)
    cases hvalid : validateThreadContext data with
    | error e =>
      refine ⟨fun _ _ => h, fun a ha => ?_⟩
      cases ha
    | ok u =>
      refine ⟨fun _ _ => h, fun _ _ => does_session (fun handle => ?_) h fun ha => hatt ha hvalid⟩
      exact exchanges_bind (exchanges_write (by intro h; cases h)) fun _ =>
        exchanges_bind (exchanges_readU32 _) fun _ => exchanges_pure _
  | traceDebugEvents pid maximumEvents eventTimeout continueMode =>
    refine hdiscard ?_
    rw [traceDebugEvents]
    split
    · exact h
    · next hevents =>
      split
      · exact h
      · next htime =>
        split
        · exact h
        · next hlong =>
          split
          · exact h
          · next hmode =>
            refine does_session (fun handle => ?_) h
              fun ha => hatt ha ⟨hevents, htime, hlong, hmode⟩
            exact exchanges_bind (exchanges_traceLoop _ _ _ _ _ _) fun _ => exchanges_pure _

theorem calls_inv {P : DebugCall → DebugClient → Prop} (h : Calls timeout P s)
    (hP : ∀ c s, asked → P c s → Attaches timeout c s) : ClientInv asked s := by
  induction h with
  | dialed => exact clientInv_dialed
  | call c _ hc hrun ih => exact Prog.Always.of_ends (does_call c ih fun ha => hP _ _ ha hc) hrun

theorem closeTells_of_inv (h : ClientInv asked s) : CloseTells s := by
  intro pid r s' hrun
  have hclose : ∀ s₁ : DebugClient, Does pid closeConnection s₁ fun _ s' => s'.trace = s₁.trace := by
    rintro s₁ (e | _) s₂ rfl
    · exact rfl
    · exact rfl
  have hdoes : Does pid close s fun _ s' => if s.debugActive then s'.trace = s.trace
      else ∃ result, s'.trace = s.trace ++ [(pid, .sent [commandCloseConnection] result)] := by
    rw [close]
    refine does_ask_bind ?_
    rintro connected s₁ ⟨hconnected, rfl⟩
    rw [h.connected] at hconnected
    subst hconnected
    refine does_ask_bind ?_
    rintro active s₁ ⟨rfl, rfl⟩
    cases s₁.debugActive with
    | true => exact hclose _
    | false =>
      refine does_ask_bind ?_
      rintro result s₂ rfl
      exact Prog.Always.imp (hclose _) fun _ _ ht => ⟨result, ht⟩
  have hfinal := Prog.Always.of_ends hdoes hrun
  cases hflag : s.debugActive with
  | true =>
    rw [hflag] at hfinal
    exact ⟨fun _ => hfinal, fun hnot => absurd (h.flag.1 hflag) hnot⟩
  | false =>
    rw [hflag] at hfinal
    refine ⟨fun hmay => ?_, fun _ => hfinal⟩
    rw [h.flag.2 hmay] at hflag
    cases hflag

end Calls

/-! ## A call that does not attach -/

/-- The peer can make the method send a packet for a process that is not attached. -/
def Breaks {α : Type} (pid : Int32) (m : ClientM α) (s : DebugClient) : Prop :=
  ∃ r s', Prog.Ends (ClientStep pid) m.run s r s' ∧ ¬ PerProcess s'.trace

section Breaking

variable {α β : Type} {pid : Int32} {s s₁ : DebugClient}

/-- Every operation has an answer. -/
theorem exists_clientStep (pid : Int32) (o : NetOp) (s : DebugClient) :
    ∃ r s', ClientStep pid o s r s' := by
  cases o with
  | write packet => exact ⟨.ok (), _, rfl⟩
  | read n => exact ⟨.ok [], _, rfl⟩
  | connected => exact ⟨_, s, rfl, rfl⟩
  | close => exact ⟨.ok (), _, rfl⟩
  | debugActive => exact ⟨_, s, rfl, rfl⟩
  | setDebugActive active => exact ⟨(), _, rfl⟩
  | ctxErr => exact ⟨none, s, rfl⟩

theorem always_trace (m : ClientM α) (s : DebugClient) :
    Does pid m s fun _ s' => ∃ es, s'.trace = s.trace ++ es := by
  show Prog.Always _ _ m.run s
  induction m.run generalizing s with
  | pure a => exact ⟨[], by rw [List.append_nil]⟩
  | op o k ih =>
    intro r s₁ hstep
    have hone : ∃ es, s₁.trace = s.trace ++ es := by
      cases o with
      | write packet => exact ⟨_, congrArg DebugClient.trace hstep⟩
      | read n => exact ⟨_, congrArg DebugClient.trace hstep⟩
      | connected => exact ⟨[], by rw [hstep.2, List.append_nil]⟩
      | close =>
        have hs : s₁ = { s with connected := false } := hstep
        exact ⟨[], by rw [hs, List.append_nil]⟩
      | debugActive => exact ⟨[], by rw [hstep.2, List.append_nil]⟩
      | setDebugActive active =>
        have hs : s₁ = { s with debugActive := active } := hstep
        exact ⟨[], by rw [hs, List.append_nil]⟩
      | ctxErr =>
        have hs : s₁ = s := hstep
        exact ⟨[], by rw [hs, List.append_nil]⟩
    obtain ⟨es, hes⟩ := hone
    refine Prog.Always.imp (ih r s₁) ?_
    rintro a s' ⟨es', hes'⟩
    exact ⟨es ++ es', by rw [hes', hes, List.append_assoc]⟩

/-- What was sent out of order stays out of order. -/
theorem Breaks.bind {m : ClientM α} {f : α → ClientM β} (h : Breaks pid m s) :
    Breaks pid (m >>= f) s := by
  obtain ⟨r, s₁, hm, hbad⟩ := h
  cases r with
  | error e =>
    refine ⟨.error e, s₁, ?_, hbad⟩
    rw [ExceptT.run_bind]
    exact hm.bind ⟨rfl, rfl⟩
  | ok a =>
    obtain ⟨r', s', hf⟩ := Prog.exists_ends (exists_clientStep pid) (f a).run s₁
    obtain ⟨es, hes⟩ := Prog.Always.of_ends (always_trace (f a) s₁) hf
    refine ⟨r', s', ?_, fun h' => hbad ?_⟩
    · rw [ExceptT.run_bind]
      exact hm.bind hf
    · rw [hes] at h'
      exact h'.of_append

theorem Breaks.of_bind {m : ClientM α} {f : α → ClientM β} {a : α}
    (hm : Prog.Ends (ClientStep pid) m.run s (.ok a) s₁) (hf : Breaks pid (f a) s₁) :
    Breaks pid (m >>= f) s := by
  obtain ⟨r, s', hf, hbad⟩ := hf
  refine ⟨r, s', ?_, hbad⟩
  rw [ExceptT.run_bind]
  exact hm.bind hf

theorem breaks_write {packet : List UInt8} (hpacket : DebugPacket packet)
    (hnot : ¬ StartedFor pid s.trace) : Breaks pid (writePacket packet) s :=
  ⟨.ok (), { s with trace := s.trace ++ [(pid, .sent packet (.ok ()))] },
    ⟨.ok (), _, rfl, rfl, rfl⟩, fun h => hnot (h s.trace pid packet (.ok ()) [] rfl hpacket)⟩

theorem breaks_deferClose {handle : UInt32} {body : ClientM α} (h : Breaks pid body s) :
    Breaks pid (deferClose handle body) s := by
  refine Breaks.bind ?_
  obtain ⟨r, s', hrun, hbad⟩ := h
  exact ⟨.ok r, s', hrun.bind ⟨rfl, rfl⟩, hbad⟩

theorem breaks_session {rest : UInt32 → ClientM α} (hactive : s.debugActive = true)
    (hnot : ¬ StartedFor pid s.trace)
    (hrest : ∀ handle (s' : DebugClient), ¬ StartedFor pid s'.trace → Breaks pid (rest handle) s') :
    Breaks pid (openProcess pid >>= fun handle => deferClose handle (startDebug handle >>= fun _ =>
      rest handle)) s := by
  -- the process is opened, and nothing is attached by that
  have hopen : Prog.Ends (ClientStep pid) (openProcess pid).run s (.ok 1)
      { s with trace := s.trace ++ [(pid, .sent (commandOpenProcess :: i32 pid) (.ok ()))] ++
        [(pid, .received (.ok (u32 1)))] } :=
    ⟨.ok (), _, rfl, .ok (u32 1), _, rfl, rfl, rfl⟩
  refine Breaks.of_bind hopen (breaks_deferClose ?_)
  have hnot' : ¬ StartedFor pid (s.trace ++ [(pid, .sent (commandOpenProcess :: i32 pid) (.ok ()))] ++
      [(pid, .received (.ok (u32 1)))]) := by
    intro hstarted
    refine hnot ((hstarted.of_snoc fun u handle bytes h => ?_).of_snoc fun _ _ _ _ h => ?_)
    · obtain ⟨-, hlast⟩ := List.append_inj' h rfl
      cases hlast
    · cases h
  have hstart : Prog.Ends (ClientStep pid) (startDebug 1).run
      { s with trace := s.trace ++ [(pid, .sent (commandOpenProcess :: i32 pid) (.ok ()))] ++
        [(pid, .received (.ok (u32 1)))] } (.ok ()) _ :=
    ⟨true, _, ⟨hactive.symm, rfl⟩, rfl, rfl⟩
  exact Breaks.of_bind hstart (hrest 1 _ hnot')

theorem breaks_call {timeout : Int64} {c : DebugCall} (h : ¬ Attaches timeout c s) :
    Breaks c.pid (c.method timeout) s := by
  obtain ⟨hvalid, hrest⟩ := Classical.not_imp.1 h
  obtain ⟨hactive, hnot⟩ := Classical.not_imp.1 hrest
  cases c with
  | setThreadContext pid tid data =>
    refine Breaks.bind ?_
    have hcheck : Prog.Ends (ClientStep pid) (ExceptT.mk (pure (validateThreadContext data)) :
        ClientM Unit).run s (.ok ()) s := ⟨hvalid, rfl⟩
    refine Breaks.of_bind hcheck (breaks_session hactive hnot fun handle s' hs' => ?_)
    exact Breaks.bind (breaks_write (.inr (.inr rfl)) hs')
  | traceDebugEvents pid maximumEvents eventTimeout continueMode =>
    obtain ⟨hevents, htime, hlong, hmode⟩ := hvalid
    refine Breaks.bind ?_
    rw [traceDebugEvents, if_neg hevents, if_neg htime, if_neg hlong, if_neg hmode]
    refine breaks_session hactive hnot fun handle s' hs' => Breaks.bind ?_
    -- at least one event is waited for
    obtain ⟨fuel, hfuel⟩ : ∃ fuel, maximumEvents.toInt.toNat = fuel + 1 :=
      ⟨maximumEvents.toInt.toNat - 1, by omega⟩
    have hctx : Prog.Ends (ClientStep pid) checkContext.run s' (.ok ()) s' :=
      ⟨none, s', rfl, rfl, rfl⟩
    rw [hfuel, traceLoop]
    exact Breaks.of_bind hctx (Breaks.bind (Breaks.bind (breaks_write (.inl rfl) hs')))

end Breaking

/-- `Close` is right about the sessions of all calls.  Every packet of a session
    goes to an attached process where every call is for one, or finds the flag not
    set; from any other call the peer can draw a packet for a process that was not
    attached. -/
theorem debugSessions (timeout : Int64) :
    (∀ s, Calls timeout (fun _ _ => True) s → CloseTells s) ∧
      (∀ s, Calls timeout (Attaches timeout) s → PerProcess s.trace) ∧
      ∀ c s, ¬ Attaches timeout c s → ∃ r s',
        Prog.Ends (ClientStep c.pid) (c.method timeout).run s r s' ∧ ¬ PerProcess s'.trace := by
  refine ⟨fun s h => ?_, fun s h => ?_, fun c s h => breaks_call h⟩
  · exact closeTells_of_inv (calls_inv h fun _ _ hasked _ => False.elim hasked)
  · exact (calls_inv h fun _ _ _ hc => hc : ClientInv True s).perProcess trivial

def obliging (pid : Int32) : (o : NetOp) → DebugClient → Option (NetSig.Res o × DebugClient)
  | .write packet, s => some (.ok (), { s with trace := s.trace ++ [(pid, .sent packet (.ok ()))] })
  | .read n, s =>
    let reply := 1 :: List.replicate (n - 1) 0
    some (.ok reply, { s with trace := s.trace ++ [(pid, .received (.ok reply))] })
  | .connected, s => some (s.connected, s)
  | .close, s => some (.ok (), { s with connected := false })
  | .debugActive, s => some (s.debugActive, s)
  | .setDebugActive active, s => some ((), { s with debugActive := active })
  | .ctxErr, s => some (none, s)

theorem clientStep_obliging {pid : Int32} (o : NetOp) (s : DebugClient) (r : NetSig.Res o)
    (s' : DebugClient) (h : obliging pid o s = some (r, s')) : ClientStep pid o s r s' := by
  cases o <;> (injection h with h; injection h with hr hs; subst hr hs)
  case connected | debugActive => exact ⟨rfl, rfl⟩
  all_goals exact rfl

def headerContext : List UInt8 := [8, 0, 0, 0, 0, 0, 0, 0]

theorem ends_one : ∃ r s, Prog.Ends (ClientStep 1)
    ((DebugCall.setThreadContext 1 1 headerContext).method 0).run .dialed r s ∧
      s.debugActive = true ∧ s.trace.map Prod.fst = List.replicate 8 1 :=
  ⟨_, _, Prog.Ends.of_interp clientStep_obliging rfl, rfl, rfl⟩

/-- After one call its packets are in order and `Close` only hangs up. -/
theorem debugSessions_one : ∃ s, Calls 0 (Attaches 0) s ∧ s.debugActive = true ∧
    PerProcess s.trace ∧ CloseTells s := by
  obtain ⟨r, s, hrun, hactive, -⟩ := ends_one
  have hfirst : Attaches 0 (.setThreadContext 1 1 headerContext) .dialed := by
    intro _ h
    cases h
  have hcalls : Calls 0 (Attaches 0) s :=
    .call (.setThreadContext 1 1 headerContext) .dialed hfirst hrun
  exact ⟨s, hcalls, hactive, (debugSessions 0).2.1 s hcalls,
    (debugSessions 0).1 s (.call (.setThreadContext 1 1 headerContext) .dialed trivial hrun)⟩

/-- A second call for another process finds the flag set. -/
theorem debugSessions_two : ¬ ∀ timeout s, Calls timeout (fun _ _ => True) s →
    PerProcess s.trace ∧ CloseTells s := by
  intro h
  obtain ⟨r, s, hrun, hactive, hpids⟩ := ends_one
  have hnot : ¬ Attaches 0 (.setThreadContext 2 2 headerContext) s := by
    intro hatt
    obtain ⟨u, handle, bytes, v, htrace, -⟩ := hatt rfl hactive
    have hmem : (2 : Int32) ∈ s.trace.map Prod.fst := by
      rw [htrace]
      simp [DebugCall.pid]
    rw [hpids] at hmem
    cases List.eq_of_mem_replicate hmem
  obtain ⟨r', s', hrun', hbad⟩ := breaks_call hnot
  have hcalls : Calls 0 (fun _ _ => True) s :=
    .call (.setThreadContext 1 1 headerContext) .dialed trivial hrun
  exact hbad (h 0 s' (.call (.setThreadContext 2 2 headerContext) hcalls trivial hrun')).1

end CheatEngine.Client
