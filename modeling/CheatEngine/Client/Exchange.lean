/-
  CheatEngine.Client.Exchange

  Complete exchanges.  `Yields front m x`: with `front` at the head of what is
  to be read, the reader `m` takes exactly `front` and returns `x`.
  `Records reply m P`: with `reply` to be read and nothing else, `m` ends, with
  a value or an error, and leaves both directions of the stream empty and the
  service idle; `P` holds of the result and of the calls that the service made.
  `Settles reply m` is the part of it that says nothing of the calls.
-/
import CheatEngine.Client.Link

namespace CheatEngine.Client

open CheatEngine.Lib

variable {Api : Sig} {ς σ α β : Type} (svc : Service Api ς) (env : Env Api σ)

/-- `m` reads exactly `front` and returns `x`. -/
def Yields (front : List UInt8) (m : ClientM α) (x : α) : Prop :=
  ∀ s a log rest d ctx, Link.run svc env m (.ready s a log (front ++ rest) d ctx) =
    some (.ok x, .ready s a log rest d ctx)

/-- With `reply` to be read, `m` ends with an idle service and both directions
    of the stream empty; its result and the calls the service made satisfy
    `P`. -/
def Records (reply : List UInt8) (m : ClientM α)
    (P : Except ClientError α → List (Prog.Event Api) → Prop) : Prop :=
  ∀ s a log d ctx, ∃ r s' a' events d' ctx', Link.run svc env m (.ready s a log reply d ctx) =
    some (r, .ready s' a' (log ++ events) [] d' ctx') ∧ P r events

/-- With `reply` to be read, `m` ends with an idle service and both directions
    of the stream empty. -/
def Settles (reply : List UInt8) (m : ClientM α) : Prop :=
  Records svc env reply m fun _ _ => True

/-- The service receives the whole request, and the reply it sends and the
    calls it makes satisfy `R`. -/
def Replies (c : UInt8) (body : List UInt8)
    (R : List UInt8 → List (Prog.Event Api) → Prop) : Prop :=
  ∀ s a log, ∃ s' reply a' events, drive env (svc.command c s).run ⟨body, [], a, log⟩ =
    (pure (some s'), ⟨[], reply, a', log ++ events⟩) ∧ R reply events

variable {svc : Service Api ς} {env : Env Api σ}

section Readers

variable {operation : String}

theorem yields_readFull {n : Nat} (bytes : List UInt8) (hn : bytes.length = n) :
    Yields svc env bytes (readFull operation n) bytes :=
  fun _ _ _ _ _ _ => run_readFull bytes hn

theorem yields_readU8 (v : UInt8) : Yields svc env (u8 v) (readU8 operation) v :=
  fun _ _ _ _ _ _ => run_readU8 v

theorem yields_readU16 (v : UInt16) : Yields svc env (u16 v) (readU16 operation) v :=
  fun _ _ _ _ _ _ => run_readU16 v

theorem yields_readU32 (v : UInt32) : Yields svc env (u32 v) (readU32 operation) v :=
  fun _ _ _ _ _ _ => run_readU32 v

theorem yields_readI32 (v : Int32) : Yields svc env (i32 v) (readI32 operation) v :=
  fun _ _ _ _ _ _ => run_readI32 v

theorem yields_readU64 (v : UInt64) : Yields svc env (u64 v) (readU64 operation) v :=
  fun _ _ _ _ _ _ => run_readU64 v

theorem yields_readString {length : Int} (bytes : List UInt8) (hlen : length = bytes.length)
    (hle : bytes.length ≤ maximumProtocolStringLength) :
    Yields svc env bytes (readString operation length) bytes := by
  intro s a log rest d ctx
  rw [hlen]
  exact run_readString bytes hle

theorem yields_readString16 (bytes : List UInt8) (hlt : bytes.length < 2 ^ 16) :
    Yields svc env (u16 (UInt16.ofNat bytes.length) ++ bytes) (readString16 operation) bytes :=
  fun _ _ _ _ _ _ => run_readString16 bytes hlt

theorem yields_readMany {read : ClientM α} {ε : Type} (encode : ε → List UInt8) (decode : ε → α)
    (hread : ∀ e, Yields svc env (encode e) read (decode e)) (es : List ε) {n : Nat}
    (hn : n = es.length) :
    Yields svc env (es.map encode).flatten (readMany read n) (es.map decode) := by
  intro s a log rest d ctx
  rw [hn]
  exact run_readMany encode decode (fun e out => hread e s a log out d ctx) es

theorem Yields.pure (x : α) : Yields svc env [] (Pure.pure x) x := fun _ _ _ _ _ _ => rfl

theorem Yields.bind {front front' : List UInt8} {m : ClientM α} {f : α → ClientM β} {x : α}
    {y : β} (hm : Yields svc env front m x) (hf : Yields svc env front' (f x) y) :
    Yields svc env (front ++ front') (m >>= f) y := by
  intro s a log rest d ctx
  rw [List.append_assoc, run_bind_ok (hm s a log (front' ++ rest) d ctx)]
  exact hf s a log rest d ctx

end Readers

/-! ## Whole methods and the calls they cause -/

section Record

variable {reply : List UInt8} {P : Except ClientError α → List (Prog.Event Api) → Prop}
  {Q : Except ClientError β → List (Prog.Event Api) → Prop} {m : ClientM α}

theorem Records.imp {P' : Except ClientError α → List (Prog.Event Api) → Prop}
    (hm : Records svc env reply m P) (h : ∀ r events, P r events → P' r events) :
    Records svc env reply m P' := by
  intro s a log d ctx
  obtain ⟨r, s', a', events, d', ctx', hrun, hp⟩ := hm s a log d ctx
  exact ⟨r, s', a', events, d', ctx', hrun, h r events hp⟩

theorem Records.result {r : Except ClientError α} (hp : P r []) :
    Records svc env [] (ExceptT.mk (Pure.pure r) : ClientM α) P :=
  fun s a log d ctx => ⟨r, s, a, [], d, ctx, by rw [List.append_nil]; rfl, hp⟩

variable {x : α}

theorem Records.pure (hp : P (.ok x) []) : Records svc env [] (Pure.pure x) P :=
  Records.result hp

theorem Records.throw {e : ClientError} (hp : P (.error e) []) :
    Records svc env [] (MonadExcept.throw e : ClientM α) P :=
  Records.result hp

/-- A reader that takes all that is there. -/
theorem Yields.records (hm : Yields svc env reply m x)
    (hp : P (.ok x) []) : Records svc env reply m P := by
  intro s a log d ctx
  refine ⟨.ok x, s, a, [], d, ctx, ?_, hp⟩
  simpa using hm s a log [] d ctx

theorem Records.read {front rest : List UInt8} {f : α → ClientM β}
    (hm : Yields svc env front m x) (hf : Records svc env rest (f x) Q) :
    Records svc env (front ++ rest) (m >>= f) Q := by
  intro s a log d ctx
  obtain ⟨r, s', a', events, d', ctx', hrun, hq⟩ := hf s a log d ctx
  exact ⟨r, s', a', events, d', ctx', (run_bind_ok (hm s a log rest d ctx)).trans hrun, hq⟩

/-- Sequencing: the calls of the two parts follow each other. -/
theorem Records.bind {f : α → ClientM β} (hm : Records svc env reply m P)
    (herror : ∀ e events, P (.error e) events → Q (.error e) events)
    (hf : ∀ x events, P (.ok x) events →
      Records svc env [] (f x) fun r events' => Q r (events ++ events')) :
    Records svc env reply (m >>= f) Q := by
  intro s a log d ctx
  obtain ⟨r, s', a', events, d', ctx', hrun, hp⟩ := hm s a log d ctx
  cases r with
  | error e => exact ⟨.error e, s', a', events, d', ctx', run_bind_error hrun, herror e _ hp⟩
  | ok x =>
    obtain ⟨r, s'', a'', events', d'', ctx'', hrun', hq⟩ :=
      hf x events hp s' a' (log ++ events) d' ctx'
    rw [List.append_assoc] at hrun'
    exact ⟨r, s'', a'', events ++ events', d'', ctx'', (run_bind_ok hrun).trans hrun', hq⟩

theorem Records.attempt (hm : Records svc env reply m P) :
    Records svc env reply (attempt m) fun r events => ∃ r', r = .ok r' ∧ P r' events := by
  intro s a log d ctx
  obtain ⟨r, s', a', events, d', ctx', hrun, hp⟩ := hm s a log d ctx
  exact ⟨.ok r, s', a', events, d', ctx', run_attempt hrun, r, rfl, hp⟩

theorem Records.ite {p : Prop} [Decidable p] {m' : ClientM α}
    (hm : p → Records svc env reply m P) (hm' : ¬ p → Records svc env reply m' P) :
    Records svc env reply (if p then m else m') P := by
  split
  · next hp => exact hm hp
  · next hp => exact hm' hp

theorem Records.debugActive {f : Bool → ClientM β} (hf : ∀ d, Records svc env reply (f d) Q) :
    Records svc env reply (ask .debugActive >>= f) Q := by
  intro s a log d ctx
  obtain ⟨r, s', a', events, d', ctx', hrun, hq⟩ := hf d s a log d ctx
  refine ⟨r, s', a', events, d', ctx', ?_, hq⟩
  have hask : Link.run svc env (ask .debugActive) (.ready s a log reply d ctx) =
      some (.ok d, .ready s a log reply d ctx) := by
    rw [run_ask]
    rfl
  rw [run_bind_ok hask]
  exact hrun

theorem Records.setDebugActive {active : Bool} {f : Unit → ClientM β}
    (hf : Records svc env reply (f ()) Q) :
    Records svc env reply (ask (.setDebugActive active) >>= f) Q := by
  intro s a log d ctx
  obtain ⟨r, s', a', events, d', ctx', hrun, hq⟩ := hf s a log active ctx
  refine ⟨r, s', a', events, d', ctx', ?_, hq⟩
  have hask : Link.run svc env (ask (.setDebugActive active)) (.ready s a log reply d ctx) =
      some (.ok (), .ready s a log reply active ctx) := by
    rw [run_ask]
    rfl
  rw [run_bind_ok hask]
  exact hrun

theorem Records.checkContext : Records svc env [] checkContext fun _ events => events = [] := by
  have hask : Records svc env [] (ask .ctxErr) fun _ events => events = [] := by
    intro s a log d ctx
    refine ⟨.ok (ctx.headD none), s, a, [], d, ctx.tail, ?_, rfl⟩
    rw [run_ask, List.append_nil]
    rfl
  refine hask.bind (fun _ _ h => h) ?_
  rintro r _ rfl
  cases r with
  | none => exact Records.pure rfl
  | some e => exact Records.throw rfl

theorem Records.request {c : UInt8} {body : List UInt8}
    {R : List UInt8 → List (Prog.Event Api) → Prop} {f : Unit → ClientM α}
    (hreply : Replies svc env c body R)
    (hread : ∀ reply events, R reply events →
      Records svc env reply (f ()) fun r events' => P r (events ++ events')) :
    Records svc env [] (writePacket (c :: body) >>= f) P := by
  intro s a log d ctx
  obtain ⟨s', reply, a', events, hdrive, hR⟩ := hreply s a log
  obtain ⟨r, s'', a'', events', d', ctx', hrun, hp⟩ :=
    hread reply events hR s' a' (log ++ events) d ctx
  rw [List.append_assoc] at hrun
  exact ⟨r, s'', a'', events ++ events', d', ctx',
    (run_bind_ok (run_writePacket hdrive)).trans hrun, hp⟩

theorem Records.deferClose {handle : UInt32} {body : ClientM α}
    {E : List (Prog.Event Api) → Prop} (happ : ∀ es es', E es → E es' → E (es ++ es'))
    (hbody : Records svc env [] body fun _ events => E events)
    (hclose : Records svc env [] (closeHandle handle) fun _ events => E events) :
    Records svc env [] (deferClose handle body) fun _ events => E events := by
  refine hbody.attempt.bind (fun _ _ ⟨_, h, _⟩ => nomatch h) fun r events ⟨_, _, he⟩ => ?_
  refine hclose.attempt.bind (fun _ _ ⟨_, h, _⟩ => nomatch h) fun _ events' ⟨_, _, he'⟩ => ?_
  refine Records.result ?_
  rw [List.append_nil]
  exact happ events events' he he'

end Record

section Settle

variable {reply : List UInt8} {m : ClientM α}

theorem Records.settles {P : Except ClientError α → List (Prog.Event Api) → Prop}
    (hm : Records svc env reply m P) : Settles svc env reply m :=
  hm.imp fun _ _ _ => trivial

variable {x : α}

theorem Yields.settles (hm : Yields svc env reply m x) :
    Settles svc env reply m :=
  hm.records trivial

theorem Settles.pure (x : α) : Settles svc env [] (Pure.pure x : ClientM α) :=
  Records.pure trivial

theorem Settles.throw (e : ClientError) : Settles svc env [] (MonadExcept.throw e : ClientM α) :=
  Records.throw trivial

theorem Settles.result (r : Except ClientError α) :
    Settles svc env [] (ExceptT.mk (Pure.pure r) : ClientM α) :=
  Records.result trivial

variable {f : α → ClientM β}

theorem Settles.read {front rest : List UInt8}
    (hm : Yields svc env front m x) (hf : Settles svc env rest (f x)) :
    Settles svc env (front ++ rest) (m >>= f) :=
  Records.read hm hf

theorem Settles.readLast (hm : Yields svc env reply m x) (hf : Settles svc env [] (f x)) :
    Settles svc env reply (m >>= f) := by
  simpa using Settles.read hm hf

theorem Settles.bind (hm : Settles svc env reply m)
    (hf : ∀ x, Settles svc env [] (f x)) : Settles svc env reply (m >>= f) :=
  Records.bind hm (fun _ _ _ => trivial) fun x _ _ => hf x

/-- A method whose result is dropped. -/
theorem Settles.drop (hm : Settles svc env reply m) :
    Settles svc env reply (do let _ ← m) :=
  hm.bind fun _ => Settles.pure ()

theorem Settles.attempt (hm : Settles svc env reply m) :
    Settles svc env reply (attempt m) :=
  (Records.attempt hm).settles

theorem Settles.ite {p : Prop} [Decidable p] {m' : ClientM α}
    (hm : p → Settles svc env reply m) (hm' : ¬ p → Settles svc env reply m') :
    Settles svc env reply (if p then m else m') :=
  Records.ite hm hm'

theorem Settles.guard {p : Prop} [Decidable p] {e : ClientError}
    (hm : ¬ p → Settles svc env [] m) : Settles svc env [] (if p then MonadExcept.throw e else m) :=
  Settles.ite (fun _ => Settles.throw e) hm

theorem Settles.debugActive {f : Bool → ClientM β} (hf : ∀ d, Settles svc env reply (f d)) :
    Settles svc env reply (ask .debugActive >>= f) :=
  Records.debugActive hf

theorem Settles.setDebugActive {active : Bool} {f : Unit → ClientM β}
    (hf : Settles svc env reply (f ())) :
    Settles svc env reply (ask (.setDebugActive active) >>= f) :=
  Records.setDebugActive hf

theorem Settles.checkContext : Settles svc env [] checkContext := Records.checkContext.settles

theorem Settles.request {c : UInt8} {body : List UInt8} {R : List UInt8 → Prop}
    {f : Unit → ClientM α} (hreply : Replies svc env c body fun reply _ => R reply)
    (hread : ∀ reply, R reply → Settles svc env reply (f ())) :
    Settles svc env [] (writePacket (c :: body) >>= f) :=
  Records.request hreply fun reply _ hr => hread reply hr

theorem Settles.deferClose {handle : UInt32} {body : ClientM α} (hbody : Settles svc env [] body)
    (hclose : Settles svc env [] (closeHandle handle)) :
    Settles svc env [] (deferClose handle body) :=
  Records.deferClose (fun _ _ _ _ => trivial) hbody hclose

end Settle

end CheatEngine.Client
