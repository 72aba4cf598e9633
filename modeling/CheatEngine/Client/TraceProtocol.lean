/-
  CheatEngine.Client.TraceProtocol

  The wire protocol of `TraceDebugEvents` (internal/ceserver/debug.go), against
  any peer.  `observe` reads off a history what was sent and what was received,
  and `Phase` is the automaton that these observations drive.  One lemma for
  each part of the method says what it does to the phase, the loop by induction
  on the waits that are left; the sentences of the protocol are then read off
  the automaton.
-/
import CheatEngine.Client.Runs

namespace CheatEngine.Client

open CheatEngine.Lib

/-- What a debug trace sends, with whether the packet could be written, and what
    it receives. -/
inductive TraceItem
  /-- A packet of another command: `OpenProcess` and `CloseHandle`. -/
  | other (written : Bool)
  | start (written : Bool)
  | wait (written : Bool)
  /-- `ContinueFromDebugEvent`, with the thread and the mode of the packet. -/
  | cont (tid : UInt32) (mode : Int32) (written : Bool)
  /-- The answer 0 to a continue. -/
  | refused
  /-- The answer 0 to a wait. -/
  | noEvent
  | received (event : DebugEvent)
  deriving DecidableEq

namespace TraceItem

def sent (packet : List UInt8) (written : Bool) : TraceItem :=
  if packet.head? = some commandStartDebug then .start written
  else if packet.head? = some commandWaitForDebugEvent then .wait written
  else if packet.head? = some commandContinueFromDebugEvent then
    .cont (u32At packet 5) (i32At packet 9) written
  else .other written

def isWait : TraceItem → Bool
  | .wait _ => true
  | _ => false

def isCont : TraceItem → Bool
  | .cont _ _ _ => true
  | _ => false

def event? : TraceItem → Option DebugEvent
  | .received e => some e
  | _ => none

end TraceItem

/-- The command whose answer is read next. -/
def askedAfter (asked : Option UInt8) : Prog.Event NetSig → Option UInt8
  | ⟨.write packet, _⟩ => packet.head?
  | _ => asked

/-- What one operation shows, when `asked` is the last command that was sent. -/
def itemsOf (asked : Option UInt8) : Prog.Event NetSig → List TraceItem
  | ⟨.write packet, .ok _⟩ => [.sent packet true]
  | ⟨.write packet, .error _⟩ => [.sent packet false]
  | ⟨.read n, .ok bytes⟩ =>
    if asked = some commandWaitForDebugEvent then
      if n = 20 then [.received (decodeDebugEvent bytes)]
      else if i32At bytes 0 = 0 then [.noEvent] else []
    else if asked = some commandContinueFromDebugEvent then
      if i32At bytes 0 = 0 then [.refused] else []
    else []
  | _ => []

def observe (asked : Option UInt8) : History → List TraceItem
  | [] => []
  | ev :: h => itemsOf asked ev ++ observe (askedAfter asked ev) h

@[simp] theorem observe_cons (asked : Option UInt8) (ev : Prog.Event NetSig) (h : History) :
    observe asked (ev :: h) = itemsOf asked ev ++ observe (askedAfter asked ev) h := rfl

theorem observe_append (asked : Option UInt8) (h h' : History) :
    observe asked (h ++ h') = observe asked h ++ observe (h.foldl askedAfter asked) h' := by
  induction h generalizing asked with
  | nil => rfl
  | cons ev h ih =>
    rw [List.cons_append, observe_cons, observe_cons, ih, List.append_assoc, List.foldl_cons]

/-- The flag `debugActive` as the first question for it finds it. -/
def foundActive : History → Bool
  | [] => false
  | ⟨.debugActive, active⟩ :: _ => active
  | _ :: h => foundActive h

/-! ## The automaton -/

/-- The thread of an event can be named in a continue packet. -/
def Fits (e : DebugEvent) : Prop := e.threadID.toNat < 2 ^ 32

instance (e : DebugEvent) : Decidable (Fits e) :=
  inferInstanceAs (Decidable (e.threadID.toNat < 2 ^ 32))

/-- Where a trace stands, with the number of waits that it may still send. -/
inductive Phase
  /-- Nothing was sent. -/
  | unopened (n : Nat)
  /-- The process is open, and no session is started. -/
  | opened (n : Nat)
  /-- The next wait may be sent. -/
  | ready (n : Nat)
  /-- The answer to a wait is awaited. -/
  | waiting (n : Nat)
  /-- An event was received and is not continued. -/
  | holding (n : Nat) (e : DebugEvent)
  /-- Only the handle is closed any more. -/
  | over
  deriving DecidableEq

namespace Phase

/-- What an item does to the phase; `none` when the protocol does not allow it.
    `active` is the client's flag `debugActive` before the trace. -/
def next (active : Bool) (mode : DebugContinueMode) : Phase → TraceItem → Option Phase
  | .unopened n, .other _ => some (if active then .ready n else .opened n)
  | .opened n, .start written => some (if written then .ready n else .over)
  | .ready (n + 1), .wait written => some (if written then .waiting n else .over)
  | .ready _, .refused => some .over
  | .waiting _, .noEvent => some .over
  | .waiting n, .received e => some (.holding n e)
  | .holding n e, .cont tid m written =>
    if Fits e ∧ tid = e.threadID.toUInt32 ∧ m = continueModeForEvent mode e then
      some (if written then .ready n else .over)
    else none
  -- an event that fits is never left behind
  | .holding _ e, .other _ => if Fits e then none else some .over
  | .opened _, .other _ => some .over
  | .ready _, .other _ => some .over
  | .waiting _, .other _ => some .over
  | .over, .other _ => some .over
  | _, _ => none

def after (active : Bool) (mode : DebugContinueMode) (p : Phase) (t : List TraceItem) :
    Option Phase :=
  t.foldlM (next active mode) p

variable {active : Bool} {mode : DebugContinueMode} {p : Phase}

@[simp] theorem after_cons (x : TraceItem) (t : List TraceItem) :
    p.after active mode (x :: t) =
      (p.next active mode x).bind fun q => q.after active mode t := rfl

theorem after_append (t t' : List TraceItem) :
    p.after active mode (t ++ t') =
      (p.after active mode t).bind fun q => q.after active mode t' := by
  simp only [after, List.foldlM_append]
  rfl

theorem after_split {q : Phase} {t : List TraceItem} {x : TraceItem} {t' : List TraceItem}
    (h : p.after active mode (t ++ x :: t') = some q) :
    ∃ p₁ p₂, p.after active mode t = some p₁ ∧ p₁.next active mode x = some p₂ ∧
      p₂.after active mode t' = some q := by
  rw [after_append] at h
  obtain ⟨p₁, h₁, h₂⟩ := Option.bind_eq_some_iff.mp h
  rw [after_cons] at h₂
  obtain ⟨p₂, h₂, h₃⟩ := Option.bind_eq_some_iff.mp h₂
  exact ⟨p₁, p₂, h₁, h₂, h₃⟩

/-- Nothing is left to do but to close the handle. -/
def CanClose : Phase → Prop
  | .unopened _ => False
  | .holding _ e => ¬ Fits e
  | _ => True

/-- No event is held back that could be continued. -/
def Settled : Phase → Prop
  | .holding _ e => ¬ Fits e
  | _ => True

theorem CanClose.next {q : Phase} (h : q.CanClose) (written : Bool) :
    q.next active mode (.other written) = some .over := by
  cases q with
  | unopened n => exact h.elim
  | holding n e => exact if_neg h
  | opened n => rfl
  | ready n => cases n <;> rfl
  | waiting n => rfl
  | «over» => rfl

end Phase

/-! ## What each part of the method shows -/

section Parts

variable {h : History} {asked : Option UInt8}

theorem openProcess_items (asked : Option UInt8) {pid : Int32} {r : Except ClientError UInt32}
    (hrun : Runs (openProcess pid) h r) :
    (∀ t, foundActive (h ++ t) = foundActive t) ∧
      ((∃ w, observe asked h = [.other w] ∧ ∃ e, r = .error e) ∨
        observe asked h = [.other true] ∧ ∃ handle, r = .ok handle) := by
  rcases Runs.request_inv (by decide) hrun with ⟨w, e, rfl, rfl⟩ | ⟨w, e, rfl, rfl⟩ |
    ⟨bytes, t, rfl, hrest⟩
  · exact ⟨fun _ => rfl, .inl ⟨false, rfl, e, rfl⟩⟩
  · exact ⟨fun _ => rfl, .inl ⟨true, rfl, e, rfl⟩⟩
  · split at hrest
    · obtain ⟨rfl, rfl⟩ := Runs.throw_inv hrest
      exact ⟨fun _ => rfl, .inl ⟨true, rfl, _, rfl⟩⟩
    · obtain ⟨rfl, rfl⟩ := Runs.pure_inv hrest
      exact ⟨fun _ => rfl, .inr ⟨rfl, _, rfl⟩⟩

variable {handle : UInt32}

theorem closeHandle_items {r : Except ClientError Unit}
    (hrun : Runs (closeHandle handle) h r) : ∃ w, observe asked h = [.other w] := by
  rcases Runs.request_inv (by decide) hrun with ⟨w, e, rfl, -⟩ | ⟨w, e, rfl, -⟩ |
    ⟨bytes, t, rfl, hrest⟩
  · exact ⟨false, rfl⟩
  · exact ⟨true, rfl⟩
  · obtain ⟨rfl, -⟩ := Runs.pure_inv hrest
    exact ⟨true, rfl⟩

theorem startDebug_items (asked : Option UInt8) {r : Except ClientError Unit}
    (hrun : Runs (startDebug handle) h r) :
    ∃ active, (∀ t, foundActive (h ++ t) = active) ∧
      if active then observe asked h = [] ∧ r = .ok ()
      else (∃ w, observe asked h = [.start w] ∧ ∃ e, r = .error e) ∨
        observe asked h = [.start true] ∧ r = .ok () := by
  obtain ⟨active, t, rfl, hrest⟩ := Runs.ask_bind_inv hrun
  refine ⟨active, fun _ => rfl, ?_⟩
  cases active with
  | true =>
    obtain ⟨rfl, rfl⟩ := Runs.pure_inv hrest
    exact ⟨rfl, rfl⟩
  | false =>
    rw [if_neg Bool.false_ne_true]
    rcases Runs.write_bind_inv hrest with ⟨w, e, rfl, rfl⟩ | ⟨t, rfl, hset⟩
    · exact .inl ⟨false, rfl, e, rfl⟩
    obtain ⟨_, t, rfl, hread⟩ := Runs.ask_bind_inv hset
    rcases Runs.readValue_bind_inv (by decide) hread with ⟨w, e, rfl, rfl⟩ |
      ⟨bytes, t, rfl, hif⟩
    · exact .inl ⟨true, rfl, e, rfl⟩
    split at hif
    · obtain ⟨_, t, rfl, hthrow⟩ := Runs.ask_bind_inv hif
      obtain ⟨rfl, rfl⟩ := Runs.throw_inv hthrow
      exact .inl ⟨true, rfl, _, rfl⟩
    · obtain ⟨rfl, rfl⟩ := Runs.pure_inv hif
      exact .inr ⟨rfl, rfl⟩

theorem waitForDebugEvent_items {timeout : Int32}
    {r : Except ClientError (Option DebugEvent)} (hrun : Runs (waitForDebugEvent handle timeout) h r) :
    (∃ w, observe asked h = [.wait w] ∧ ∃ e, r = .error e) ∨
      (observe asked h = [.wait true, .noEvent] ∧ r = .ok none) ∨
      ∃ event, observe asked h = [.wait true, .received event] ∧ r = .ok (some event) := by
  rcases Runs.request_inv (by decide) hrun with ⟨w, e, rfl, rfl⟩ | ⟨w, e, rfl, rfl⟩ |
    ⟨bytes, t, rfl, hrest⟩
  · exact .inl ⟨false, rfl, e, rfl⟩
  · exact .inl ⟨true, rfl, e, rfl⟩
  -- the first answer shows something only when it is 0
  have hanswer : ∀ t, observe asked (⟨.write (commandWaitForDebugEvent ::
      (u32 handle ++ i32 timeout)), .ok ()⟩ :: ⟨.read 4, .ok bytes⟩ :: t) =
        .wait true :: (if i32At bytes 0 = 0 then [TraceItem.noEvent] else []) ++
          observe (some commandWaitForDebugEvent) t := fun _ => rfl
  rw [hanswer]
  split at hrest
  next h0 =>
    obtain ⟨rfl, rfl⟩ := Runs.pure_inv hrest
    rw [if_pos h0]
    exact .inr (.inl ⟨rfl, rfl⟩)
  next h0 =>
    rw [if_neg h0]
    rcases Runs.readFull_bind_inv (by decide) hrest with ⟨w, e, rfl, rfl⟩ | ⟨data, t, rfl, hpure⟩
    · exact .inl ⟨true, rfl, e, rfl⟩
    · obtain ⟨rfl, rfl⟩ := Runs.pure_inv hpure
      exact .inr (.inr ⟨_, rfl, rfl⟩)

theorem sent_continue (handle : UInt32) (threadID : UInt64) (mode : DebugContinueMode) (w : Bool) :
    TraceItem.sent (commandContinueFromDebugEvent ::
      (u32 handle ++ u32 threadID.toUInt32 ++ i32 mode)) w = .cont threadID.toUInt32 mode w := by
  have htid : u32At (u8 commandContinueFromDebugEvent ++
      (u32 handle ++ (u32 threadID.toUInt32 ++ i32 mode))) 5 = threadID.toUInt32 := by simp
  have hmode : i32At (u8 commandContinueFromDebugEvent ++
      (u32 handle ++ (u32 threadID.toUInt32 ++ i32 mode))) 9 = mode := by simp
  show TraceItem.cont _ _ w = _
  rw [List.append_assoc]
  exact congrArg₂ (fun tid m => TraceItem.cont tid m w) htid hmode

theorem continueFromDebugEvent_items {threadID : UInt64}
    {mode : DebugContinueMode} {r : Except ClientError Unit}
    (hrun : Runs (continueFromDebugEvent handle threadID mode) h r) :
    (¬ threadID.toNat < 2 ^ 32 ∧ observe asked h = [] ∧ ∃ e, r = .error e) ∨
      threadID.toNat < 2 ^ 32 ∧
        ((∃ w, observe asked h = [.cont threadID.toUInt32 mode w] ∧ ∃ e, r = .error e) ∨
          (observe asked h = [.cont threadID.toUInt32 mode true, .refused] ∧ ∃ e, r = .error e) ∨
          observe asked h = [.cont threadID.toUInt32 mode true] ∧ r = .ok ()) := by
  rw [continueFromDebugEvent] at hrun
  split at hrun
  next hbig =>
    obtain ⟨rfl, rfl⟩ := Runs.throw_inv hrun
    exact .inl ⟨by omega, rfl, _, rfl⟩
  next hbig =>
    refine .inr ⟨by omega, ?_⟩
    rcases Runs.request_inv (by decide) hrun with ⟨w, e, rfl, rfl⟩ | ⟨w, e, rfl, rfl⟩ |
      ⟨bytes, t, rfl, hrest⟩
    · exact .inl ⟨false, congrArg (· :: []) (sent_continue handle threadID mode false), e, rfl⟩
    · exact .inl ⟨true, congrArg (· :: []) (sent_continue handle threadID mode true), e, rfl⟩
    have hanswer : ∀ t, observe asked (⟨.write (commandContinueFromDebugEvent ::
        (u32 handle ++ u32 threadID.toUInt32 ++ i32 mode)), .ok ()⟩ ::
          ⟨.read 4, .ok bytes⟩ :: t) = .cont threadID.toUInt32 mode true ::
            (if i32At bytes 0 = 0 then [TraceItem.refused] else []) ++
              observe (some commandContinueFromDebugEvent) t := by
      intro t
      rw [← sent_continue handle threadID mode true]
      rfl
    rw [hanswer]
    split at hrest
    next h0 =>
      obtain ⟨rfl, rfl⟩ := Runs.throw_inv hrest
      rw [if_pos h0]
      exact .inr (.inl ⟨rfl, _, rfl⟩)
    next h0 =>
      obtain ⟨rfl, rfl⟩ := Runs.pure_inv hrest
      rw [if_neg h0]
      exact .inr (.inr ⟨rfl, rfl⟩)

theorem checkContext_items {r : Except ClientError Unit} (hrun : Runs checkContext h r) :
    observe asked h = [] := by
  obtain ⟨v, t, rfl, hrest⟩ := Runs.ask_bind_inv hrun
  cases v with
  | none =>
    obtain ⟨rfl, -⟩ := Runs.pure_inv hrest
    rfl
  | some e =>
    obtain ⟨rfl, -⟩ := Runs.throw_inv hrest
    rfl

end Parts

/-! ## The loop -/

/-- What one round shows in which an event is received and continued. -/
def round (mode : DebugContinueMode) (e : DebugEvent) : List TraceItem :=
  [.wait true, .received e, .cont e.threadID.toUInt32 (continueModeForEvent mode e) true]

/-- What the last wait shows when no event came in time. -/
def lastWait (timedOut : Bool) : List TraceItem :=
  if timedOut then [.wait true, .noEvent] else []

/-- What a run of the loop shows, from a phase in which `fuel` waits may be sent. -/
structure LoopShows (active : Bool) (mode : DebugContinueMode) (fuel : Nat)
    (events : List DebugEvent) (t : List TraceItem)
    (r : Except ClientError (List DebugEvent × Bool)) : Prop where
  /-- The protocol allows it, and allows that the handle is closed afterwards. -/
  follows : ∃ p, (Phase.ready fuel).after active mode t = some p ∧ p.CanClose
  /-- Without an error it shows one round for each event that is new in the trace,
      and then, when the trace timed out, a wait without event. -/
  rounds : ∀ all timedOut, r = .ok (all, timedOut) → ∃ new, all = events ++ new ∧
    t = new.flatMap (round mode) ++ lastWait timedOut ∧ ∀ e ∈ new, Fits e

theorem LoopShows.of_error {active : Bool} {mode : DebugContinueMode} {fuel : Nat}
    {events : List DebugEvent} {t : List TraceItem} {e : ClientError} {p : Phase}
    (hafter : (Phase.ready fuel).after active mode t = some p) (hclose : p.CanClose) :
    LoopShows active mode fuel events t (.error e) where
  follows := ⟨p, hafter, hclose⟩
  rounds := nofun

theorem LoopShows.round {active : Bool} {mode : DebugContinueMode} {fuel : Nat}
    {events : List DebugEvent} {t : List TraceItem} {event : DebugEvent}
    {r : Except ClientError (List DebugEvent × Bool)} (hfits : Fits event)
    (hrest : LoopShows active mode fuel (events ++ [event]) t r) :
    LoopShows active mode (fuel + 1) events (Client.round mode event ++ t) r where
  follows := by
    obtain ⟨p, hafter, hclose⟩ := hrest.follows
    refine ⟨p, ?_, hclose⟩
    have hround : (Phase.ready (fuel + 1)).after active mode (Client.round mode event) =
        some (.ready fuel) := by
      show (if Fits event ∧ _ then some (Phase.ready fuel) else none).bind _ = _
      rw [if_pos ⟨hfits, rfl, rfl⟩]
      rfl
    rw [Phase.after_append, hround]
    exact hafter
  rounds := by
    intro all timedOut hr
    obtain ⟨new, hall, rfl, hnew⟩ := hrest.rounds all timedOut hr
    refine ⟨event :: new, ?_, ?_, ?_⟩
    · rw [hall, List.append_assoc, List.singleton_append]
    · rw [List.flatMap_cons, List.append_assoc]
    · exact List.forall_mem_cons.mpr ⟨hfits, hnew⟩

/-- Every run of the loop follows the protocol, by induction on the waits that are
    left; the cases are the exits of one round. -/
theorem traceLoop_shows {active : Bool} {handle : UInt32} {timeout : Int32}
    {mode : DebugContinueMode} (fuel : Nat) (events : List DebugEvent) {h : History}
    {asked : Option UInt8} {r : Except ClientError (List DebugEvent × Bool)}
    (hrun : Runs (traceLoop handle timeout mode fuel events) h r) :
    LoopShows active mode fuel events (observe asked h) r := by
  induction fuel generalizing events h asked with
  | zero =>
    obtain ⟨rfl, rfl⟩ := Runs.pure_inv hrun
    refine ⟨⟨.ready 0, rfl, trivial⟩, ?_⟩
    rintro all timedOut ⟨⟩
    exact ⟨[], (List.append_nil _).symm, rfl, nofun⟩
  | succ fuel ih =>
    rw [traceLoop] at hrun
    rcases Runs.bind_inv hrun with ⟨e, hctx, rfl⟩ | ⟨h₁, h₂, _, rfl, hctx, hwait⟩
    · rw [checkContext_items hctx]
      exact .of_error rfl trivial
    rw [observe_append, checkContext_items hctx, List.nil_append]
    rcases Runs.bind_inv hwait with ⟨e, hw, rfl⟩ | ⟨h₃, h₄, answer, rfl, hw, hrest⟩
    · -- no event was received: the wait failed, or its answer did not come
      rcases waitForDebugEvent_items hw with ⟨w, hitems, -⟩ | ⟨-, hr⟩ | ⟨_, -, hr⟩
      · rw [hitems]
        cases w with
        | false => exact .of_error (p := .over) rfl trivial
        | true => exact .of_error (p := .waiting fuel) rfl trivial
      · cases hr
      · cases hr
    rw [observe_append]
    rcases waitForDebugEvent_items hw with ⟨_, -, e, hr⟩ | ⟨hitems, hr⟩ | ⟨event, hitems, hr⟩
    · cases hr
    · cases hr
      obtain ⟨rfl, rfl⟩ := Runs.pure_inv hrest
      rw [hitems]
      refine ⟨⟨.over, rfl, trivial⟩, ?_⟩
      rintro all timedOut ⟨⟩
      exact ⟨[], (List.append_nil _).symm, rfl, nofun⟩
    · cases hr
      rw [hitems]
      rcases Runs.bind_inv hrest with ⟨e, hc, rfl⟩ | ⟨h₅, h₆, _, rfl, hc, hloop⟩
      · -- the event stays as it is: its thread has no place in a packet, or the
        -- continue failed or was refused
        rcases continueFromDebugEvent_items hc with ⟨hbig, hcont, -⟩ |
          ⟨hfits, ⟨w, hcont, -⟩ | ⟨hcont, -⟩ | ⟨-, hr⟩⟩
        · rw [hcont]
          exact .of_error (p := .holding fuel event) rfl hbig
        · have hstep : (Phase.ready (fuel + 1)).after active mode
              [.wait true, .received event, .cont event.threadID.toUInt32
                (continueModeForEvent mode event) w] =
                some (if w then .ready fuel else .over) := by
            show (if Fits event ∧ _ then some _ else none).bind _ = _
            rw [if_pos ⟨hfits, rfl, rfl⟩]
            rfl
          rw [hcont]
          refine .of_error hstep ?_
          cases w <;> trivial
        · have hstep : (Phase.ready (fuel + 1)).after active mode
              [.wait true, .received event, .cont event.threadID.toUInt32
                (continueModeForEvent mode event) true, .refused] = some .over := by
            show (if Fits event ∧ _ then some (Phase.ready fuel) else none).bind _ = _
            rw [if_pos ⟨hfits, rfl, rfl⟩]
            cases fuel <;> rfl
          rw [hcont]
          exact .of_error hstep trivial
        · cases hr
      · rcases continueFromDebugEvent_items hc with ⟨-, -, e, hr⟩ |
          ⟨hfits, ⟨_, -, e, hr⟩ | ⟨-, e, hr⟩ | ⟨hcont, -⟩⟩
        · cases hr
        · cases hr
        · cases hr
        rw [observe_append, hcont]
        exact LoopShows.round hfits (ih (events ++ [event]) hloop)

/-! ## What the automaton allows -/

namespace Phase

variable {active : Bool} {mode : DebugContinueMode} {p q : Phase} {x : TraceItem}

attribute [local grind =] next

@[grind =]
theorem next_ready_zero (w : Bool) : (ready 0).next active mode (.wait w) = none := rfl

variable {e : DebugEvent}

theorem next_received (h : p.next active mode (.received e) = some q) :
    ∃ n, q = .holding n e := by
  cases p with
  | waiting n => exact ⟨n, (Option.some.inj h).symm⟩
  | ready n => cases n <;> cases h
  | _ => cases h

variable {n : Nat}

theorem next_holding (h : p.next active mode x = some (.holding n e)) :
    x = .received e := by
  rcases p with n' | n' | (_ | n') | n' | ⟨n', e'⟩ | _ <;> cases x <;> grind

theorem holding_next (h : (holding n e).next active mode x = some q) :
    (Fits e ∧ ∃ w, x = .cont e.threadID.toUInt32 (continueModeForEvent mode e) w ∧
        q = if w then .ready n else .over) ∨
      ¬ Fits e ∧ (∃ w, x = .other w) ∧ q = .over := by
  cases x <;> grind

theorem next_cont {tid : UInt32} {m : Int32} {w : Bool}
    (h : p.next active mode (.cont tid m w) = some q) :
    ∃ n e, p = .holding n e ∧ Fits e ∧ tid = e.threadID.toUInt32 ∧
      m = continueModeForEvent mode e := by
  rcases p with n | n | (_ | n) | n | ⟨n, e⟩ | _ <;> grind

theorem next_wait {w : Bool} (h : p.next active mode (.wait w) = some q) :
    ∃ n, p = .ready (n + 1) := by
  cases p with
  | ready n =>
    cases n with
    | zero => cases h
    | succ n => exact ⟨n, rfl⟩
  | _ => cases h

theorem ready_next (h : (ready n).next active mode x = some q) :
    (∃ w, x = .wait w) ∨ q = .over := by
  cases n <;> cases x <;> grind

theorem over_after {t : List TraceItem} (h : over.after active mode t = some q) :
    ∀ x ∈ t, ∃ w, x = .other w := by
  induction t with
  | nil => exact nofun
  | cons y t ih =>
    rw [after_cons] at h
    obtain ⟨p, hnext, hrest⟩ := Option.bind_eq_some_iff.mp h
    cases y with
    | other w =>
      cases hnext
      exact List.forall_mem_cons.mpr ⟨⟨w, rfl⟩, ih hrest⟩
    | _ => cases hnext

def left : Phase → Nat
  | .unopened n => n
  | .opened n => n
  | .ready n => n
  | .waiting n => n
  | .holding n _ => n
  | .over => 0

theorem next_left (h : p.next active mode x = some q) :
    q.left + (if x.isWait then 1 else 0) ≤ p.left := by
  rcases p with n | n | (_ | n) | n | ⟨n, e⟩ | _ <;> cases x <;>
    grind [left, TraceItem.isWait]

/-- No run sends more waits than it may. -/
theorem after_left {t : List TraceItem} (h : p.after active mode t = some q) :
    q.left + t.countP TraceItem.isWait ≤ p.left := by
  induction t generalizing p with
  | nil =>
    cases h
    exact Nat.le_refl _
  | cons x t ih =>
    rw [after_cons] at h
    obtain ⟨p', hnext, hrest⟩ := Option.bind_eq_some_iff.mp h
    have hstep := next_left hnext
    have hrun := ih hrest
    rw [List.countP_cons]
    omega

/-- The session is started. -/
def Started : Phase → Prop
  | .ready _ => True
  | .waiting _ => True
  | .holding _ _ => True
  | _ => False

theorem next_started (h : p.next active mode x = some q) (hq : q.Started) :
    p.Started ∨ active = true ∨ x = .start true := by
  rcases p with n | n | (_ | n) | n | ⟨n, e⟩ | _ <;> cases x <;> grind [Started]

theorem after_started {t : List TraceItem} (h : p.after active mode t = some q)
    (hq : q.Started) : p.Started ∨ active = true ∨ .start true ∈ t := by
  induction t generalizing p with
  | nil =>
    cases h
    exact .inl hq
  | cons x t ih =>
    rw [after_cons] at h
    obtain ⟨p', hnext, hrest⟩ := Option.bind_eq_some_iff.mp h
    rcases ih hrest with hp' | hactive | hmem
    · rcases next_started hnext hp' with hp | hactive | rfl
      · exact .inl hp
      · exact .inr (.inl hactive)
      · exact .inr (.inr List.mem_cons_self)
    · exact .inr (.inl hactive)
    · exact .inr (.inr (List.mem_cons_of_mem x hmem))

end Phase

/-! ## The protocol -/

/-- The protocol of a trace of at most `maximumEvents` events, on what a call shows
    and what it returns; `active` is the flag `debugActive` before the call. -/
structure TraceProtocol (maximumEvents : Nat) (mode : DebugContinueMode) (active : Bool)
    (t : List TraceItem) (r : Except ClientError DebugTrace) : Prop where
  waits : t.countP TraceItem.isWait ≤ maximumEvents
  /-- The first wait comes after a `StartDebug`, or the client has a session. -/
  started : ∀ pre w post, t = pre ++ .wait w :: post → active = true ∨ .start true ∈ pre
  continued : ∀ pre e post, t = pre ++ .received e :: post → Fits e →
    ∃ w rest, post = .cont e.threadID.toUInt32 (continueModeForEvent mode e) w :: rest
  /-- Between a received event and the next wait there is exactly one continue. -/
  once : ∀ pre e mid w post, t = pre ++ .received e :: (mid ++ .wait w :: post) →
    mid.countP TraceItem.isWait = 0 →
    mid = [.cont e.threadID.toUInt32 (continueModeForEvent mode e) true]
  /-- An event whose thread no packet can name ends the call with an error, without
      another wait or continue. -/
  unnamed : ∀ pre e post, t = pre ++ .received e :: post → ¬ Fits e →
    post.countP TraceItem.isWait = 0 ∧ post.countP TraceItem.isCont = 0 ∧ ∃ err, r = .error err
  /-- A continue is sent only for the event that was received just before. -/
  caused : ∀ pre tid m w post, t = pre ++ .cont tid m w :: post →
    ∃ pre' e, pre = pre' ++ [.received e] ∧ Fits e ∧ tid = e.threadID.toUInt32 ∧
      m = continueModeForEvent mode e
  /-- A call without error shows a whole round for each event of its trace, in
      order, and then a wait without event exactly when the trace timed out. -/
  returned : ∀ trace, r = .ok trace →
    ∃ w, t = .other true :: (if active then [] else [.start true]) ++
      (trace.events.flatMap (round mode) ++ lastWait trace.timedOut) ++ [.other w]
  listed : ∀ trace, r = .ok trace → t.filterMap TraceItem.event? = trace.events
  timedOut : ∀ trace, r = .ok trace → (trace.timedOut = true ↔ .noEvent ∈ t)

/-- What a whole call shows: the automaton allows it, and without an error it is
    made of the rounds of the trace. -/
structure CallShows (maximumEvents : Nat) (mode : DebugContinueMode) (active : Bool)
    (t : List TraceItem) (r : Except ClientError DebugTrace) : Prop where
  follows : ∃ p, (Phase.unopened maximumEvents).after active mode t = some p ∧ p.Settled
  rounds : ∀ trace, r = .ok trace → (∀ e ∈ trace.events, Fits e) ∧
    ∃ w, t = .other true :: (if active then [] else [.start true]) ++
      (trace.events.flatMap (round mode) ++ lastWait trace.timedOut) ++ [.other w]

namespace CallShows

variable {maximumEvents : Nat} {mode : DebugContinueMode} {active : Bool} {t : List TraceItem}
  {r : Except ClientError DebugTrace}

theorem waits (h : CallShows maximumEvents mode active t r) :
    t.countP TraceItem.isWait ≤ maximumEvents := by
  obtain ⟨p, hafter, -⟩ := h.follows
  have hleft := Phase.after_left hafter
  have hall : (Phase.unopened maximumEvents).left = maximumEvents := rfl
  omega

variable {post pre : List TraceItem} {w : Bool}

theorem started (h : CallShows maximumEvents mode active t r)
    (ht : t = pre ++ .wait w :: post) : active = true ∨ .start true ∈ pre := by
  obtain ⟨p, hafter, -⟩ := h.follows
  rw [ht] at hafter
  obtain ⟨p₁, p₂, hpre, hnext, -⟩ := Phase.after_split hafter
  obtain ⟨n, rfl⟩ := Phase.next_wait hnext
  exact (Phase.after_started hpre trivial).resolve_left id

variable {e : DebugEvent}

theorem continued (h : CallShows maximumEvents mode active t r)
    (ht : t = pre ++ .received e :: post) (hfits : Fits e) :
    ∃ w rest, post = .cont e.threadID.toUInt32 (continueModeForEvent mode e) w :: rest := by
  obtain ⟨p, hafter, hsettled⟩ := h.follows
  rw [ht] at hafter
  obtain ⟨p₁, p₂, -, hnext, hpost⟩ := Phase.after_split hafter
  obtain ⟨n, rfl⟩ := Phase.next_received hnext
  cases post with
  | nil =>
    cases hpost
    exact absurd hfits hsettled
  | cons x rest =>
    obtain ⟨p₃, hx, -⟩ := Option.bind_eq_some_iff.mp hpost
    rcases Phase.holding_next hx with ⟨-, w, rfl, -⟩ | ⟨hbig, -⟩
    · exact ⟨w, rest, rfl⟩
    · exact absurd hfits hbig

theorem once (h : CallShows maximumEvents mode active t r) {mid : List TraceItem}
    (ht : t = pre ++ .received e :: (mid ++ .wait w :: post))
    (hmid : mid.countP TraceItem.isWait = 0) :
    mid = [.cont e.threadID.toUInt32 (continueModeForEvent mode e) true] := by
  obtain ⟨p, hafter, -⟩ := h.follows
  rw [ht] at hafter
  obtain ⟨p₁, p₂, -, hnext, hpost⟩ := Phase.after_split hafter
  obtain ⟨n, rfl⟩ := Phase.next_received hnext
  -- a trace that is over has no wait any more
  have hover : ∀ {t q}, Phase.over.after active mode (t ++ .wait w :: post) = some q → False := by
    intro t q hq
    obtain ⟨w', hw'⟩ := Phase.over_after hq (.wait w) (by simp)
    cases hw'
  cases mid with
  | nil =>
    rw [List.nil_append, Phase.after_cons] at hpost
    obtain ⟨p₃, hx, -⟩ := Option.bind_eq_some_iff.mp hpost
    rcases Phase.holding_next hx with ⟨-, _, hw', -⟩ | ⟨-, ⟨_, hw'⟩, -⟩ <;> cases hw'
  | cons x mid =>
    obtain ⟨p₃, hx, hrest⟩ := Option.bind_eq_some_iff.mp hpost
    rcases Phase.holding_next hx with ⟨-, w', rfl, rfl⟩ | ⟨-, -, rfl⟩
    · cases w' with
      | false => exact (hover hrest).elim
      | true =>
        cases mid with
        | nil => rfl
        | cons y mid =>
          obtain ⟨p₄, hy, hlast⟩ := Option.bind_eq_some_iff.mp hrest
          rcases Phase.ready_next hy with ⟨w', rfl⟩ | rfl
          · simp [TraceItem.isWait] at hmid
          · exact (hover hlast).elim
    · exact (hover hrest).elim

theorem caused (h : CallShows maximumEvents mode active t r)
    {tid : UInt32} {m : Int32} (ht : t = pre ++ .cont tid m w :: post) :
    ∃ pre' e, pre = pre' ++ [.received e] ∧ Fits e ∧ tid = e.threadID.toUInt32 ∧
      m = continueModeForEvent mode e := by
  obtain ⟨p, hafter, -⟩ := h.follows
  rw [ht] at hafter
  obtain ⟨p₁, p₂, hpre, hnext, -⟩ := Phase.after_split hafter
  obtain ⟨n, e, rfl, hfits, htid, hm⟩ := Phase.next_cont hnext
  rcases List.eq_nil_or_concat pre with rfl | ⟨pre', x, rfl⟩
  · cases hpre
  · rw [List.concat_eq_append] at hpre
    obtain ⟨p₃, p₄, -, hx, hlast⟩ := Phase.after_split hpre
    cases hlast
    rw [Phase.next_holding hx]
    exact ⟨pre', e, List.concat_eq_append, hfits, htid, hm⟩

theorem event_rounds (events : List DebugEvent) :
    (events.flatMap (round mode)).filterMap TraceItem.event? = events := by
  induction events with
  | nil => rfl
  | cons e events ih =>
    rw [List.flatMap_cons, List.filterMap_append, ih]
    rfl

section

variable (h : CallShows maximumEvents mode active t r)
include h

theorem listed {trace : DebugTrace}
    (hr : r = .ok trace) : t.filterMap TraceItem.event? = trace.events := by
  obtain ⟨-, w, rfl⟩ := h.rounds trace hr
  have hlast : (lastWait trace.timedOut).filterMap TraceItem.event? = [] := by
    cases trace.timedOut <;> rfl
  have hstart : (TraceItem.other true :: (if active then [] else [.start true])).filterMap
      TraceItem.event? = [] := by
    cases active <;> rfl
  have hclose : [TraceItem.other w].filterMap TraceItem.event? = [] := rfl
  rw [List.filterMap_append, List.filterMap_append, List.filterMap_append, hstart, hlast, hclose,
    event_rounds, List.nil_append, List.append_nil, List.append_nil]

theorem timedOut {trace : DebugTrace}
    (hr : r = .ok trace) : trace.timedOut = true ↔ .noEvent ∈ t := by
  obtain ⟨-, w, rfl⟩ := h.rounds trace hr
  have hrounds : TraceItem.noEvent ∉ trace.events.flatMap (round mode) := by
    simp [round]
  cases active <;> cases trace.timedOut <;> simp [lastWait, hrounds]

theorem unnamed (ht : t = pre ++ .received e :: post) (hbig : ¬ Fits e) :
    post.countP TraceItem.isWait = 0 ∧ post.countP TraceItem.isCont = 0 ∧
      ∃ err, r = .error err := by
  have hquiet : ∀ x ∈ post, ∃ w, x = .other w := by
    obtain ⟨p, hafter, -⟩ := h.follows
    rw [ht] at hafter
    obtain ⟨p₁, p₂, -, hnext, hpost⟩ := Phase.after_split hafter
    obtain ⟨n, rfl⟩ := Phase.next_received hnext
    cases post with
    | nil => exact nofun
    | cons x rest =>
      obtain ⟨p₃, hx, hrest⟩ := Option.bind_eq_some_iff.mp hpost
      rcases Phase.holding_next hx with ⟨hfits, -⟩ | ⟨-, hother, rfl⟩
      · exact absurd hfits hbig
      · exact List.forall_mem_cons.mpr ⟨hother, Phase.over_after hrest⟩
  refine ⟨?_, ?_, ?_⟩
  · rw [List.countP_eq_zero]
    intro x hx
    obtain ⟨w, rfl⟩ := hquiet x hx
    exact Bool.false_ne_true
  · rw [List.countP_eq_zero]
    intro x hx
    obtain ⟨w, rfl⟩ := hquiet x hx
    exact Bool.false_ne_true
  · cases r with
    | error err => exact ⟨err, rfl⟩
    | ok trace =>
      -- an event of a trace that is returned fits
      have hmem : e ∈ t.filterMap TraceItem.event? := by
        rw [ht]
        simp [TraceItem.event?]
      rw [h.listed rfl] at hmem
      exact absurd ((h.rounds trace rfl).1 e hmem) hbig

theorem protocol :
    TraceProtocol maximumEvents mode active t r where
  waits := h.waits
  started _ _ _ := h.started
  continued _ _ _ := h.continued
  once _ _ _ _ _ := h.once
  unnamed _ _ _ := h.unnamed
  caused _ _ _ _ _ := h.caused
  returned trace hr := (h.rounds trace hr).2
  listed _ := h.listed
  timedOut _ := h.timedOut

end

end CallShows

/-! ## Every call -/

theorem CallShows.of_error {maximumEvents : Nat} {mode : DebugContinueMode} {active : Bool}
    {t : List TraceItem} {e : ClientError} {p : Phase}
    (hafter : (Phase.unopened maximumEvents).after active mode t = some p) (hp : p.Settled) :
    CallShows maximumEvents mode active t (.error e) where
  follows := ⟨p, hafter, hp⟩
  rounds := nofun

theorem after_opening (n : Nat) (mode : DebugContinueMode) (active : Bool) :
    (Phase.unopened n).after active mode
      (.other true :: (if active then [] else [.start true])) = some (.ready n) := by
  cases active <;> rfl

theorem callShows_body {timeoutMilliseconds : Int32} {pid : Int32} {maximumEvents : Int64}
    {mode : DebugContinueMode} {handle : UInt32} {h h' : History} {asked : Option UInt8}
    {r : Except ClientError DebugTrace} {r' : Except ClientError Unit}
    (hbody : Runs (startDebug handle >>= fun _ =>
      traceLoop handle timeoutMilliseconds mode maximumEvents.toInt.toNat [] >>= fun p =>
        pure (⟨pid, p.1, maximumEvents, timeoutMilliseconds, p.2, mode⟩ : DebugTrace)) h r)
    (hclose : Runs (closeHandle handle) h' r') :
    CallShows maximumEvents.toInt.toNat mode (foundActive (h ++ h'))
      (.other true :: observe asked (h ++ h')) r := by
  rw [observe_append]
  obtain ⟨w, hw⟩ : ∃ w, observe (h.foldl askedAfter asked) h' = [.other w] :=
    closeHandle_items hclose
  rw [hw]
  rcases Runs.bind_inv hbody with ⟨e, hstart, rfl⟩ | ⟨h₁, h₂, _, rfl, hstart, hrest⟩
  · -- the session was not started
    obtain ⟨active, hactive, hitems⟩ := startDebug_items asked hstart
    rw [hactive]
    cases active with
    | true => exact absurd hitems.2 nofun
    | false =>
      rcases hitems with ⟨w', hitems, -⟩ | ⟨-, hr⟩
      · rw [hitems]
        exact .of_error (p := .over) (by cases w' <;> cases maximumEvents.toInt.toNat <;> rfl) trivial
      · cases hr
  obtain ⟨active, hactive, hitems⟩ := startDebug_items asked hstart
  have hopen : observe asked h₁ = if active then [] else [.start true] := by
    cases active with
    | true => exact hitems.1
    | false =>
      rcases hitems with ⟨_, -, e, hr⟩ | ⟨hitems, -⟩
      · cases hr
      · exact hitems
  rw [List.append_assoc, hactive, observe_append, hopen]
  have hshow : ∀ loop, TraceItem.other true ::
      ((if active then [] else [.start true]) ++ loop ++ [.other w]) =
        (.other true :: (if active then [] else [.start true])) ++ loop ++ [.other w] :=
    fun _ => rfl
  rw [hshow]
  -- the loop starts where every wait is left, and the close ends the call
  have hcall : ∀ {loop : List TraceItem} {p : Phase},
      (Phase.ready maximumEvents.toInt.toNat).after active mode loop = some p → p.CanClose →
      (Phase.unopened maximumEvents.toInt.toNat).after active mode
        ((.other true :: (if active then [] else [.start true])) ++ loop ++ [.other w]) =
          some .over := by
    intro loop p hloop hp
    rw [Phase.after_append, Phase.after_append, after_opening, Option.bind_some, hloop,
      Option.bind_some, Phase.after_cons, hp.next w]
    rfl
  rcases Runs.bind_inv hrest with ⟨e, hloop, rfl⟩ | ⟨h₃, h₄, ⟨events, timedOut⟩, rfl, hloop, hpure⟩
  · have hshows : LoopShows active mode maximumEvents.toInt.toNat []
        (observe (h₁.foldl askedAfter asked) h₂) (.error e) := traceLoop_shows _ _ hloop
    obtain ⟨p, hafter, hp⟩ := hshows.follows
    exact .of_error (hcall hafter hp) trivial
  · obtain ⟨rfl, rfl⟩ := Runs.pure_inv hpure
    rw [List.append_nil]
    have hshows : LoopShows active mode maximumEvents.toInt.toNat []
        (observe (h₁.foldl askedAfter asked) h₃) (.ok (events, timedOut)) := traceLoop_shows _ _ hloop
    obtain ⟨p, hafter, hp⟩ := hshows.follows
    obtain ⟨new, rfl, hitems, hfits⟩ := hshows.rounds events timedOut rfl
    refine ⟨⟨.over, hcall hafter hp, trivial⟩, ?_⟩
    rintro trace ⟨⟩
    exact ⟨hfits, w, by rw [hitems]⟩

theorem traceDebugEvents_shows {timeout : Int64} {pid : Int32} {maximumEvents eventTimeout : Int64}
    {mode : DebugContinueMode} {h : History} {r : Except ClientError DebugTrace}
    (hrun : Runs (traceDebugEvents timeout pid maximumEvents eventTimeout mode) h r) :
    CallShows maximumEvents.toInt.toNat mode (foundActive h) (observe none h) r := by
  have hrefused : ∀ {e : ClientError}, Runs (throw e : ClientM DebugTrace) h r →
      CallShows maximumEvents.toInt.toNat mode (foundActive h) (observe none h) r := by
    intro e hthrow
    obtain ⟨rfl, rfl⟩ := Runs.throw_inv hthrow
    exact .of_error rfl trivial
  rw [traceDebugEvents] at hrun
  -- the four checks of the arguments, none of which sends anything
  split at hrun
  · exact hrefused hrun
  split at hrun
  · exact hrefused hrun
  split at hrun
  · exact hrefused hrun
  split at hrun
  · exact hrefused hrun
  rcases Runs.bind_inv hrun with ⟨e, hopen, rfl⟩ | ⟨h₁, h₂, handle, rfl, hopen, hrest⟩
  · obtain ⟨-, ⟨w, hitems, -⟩ | ⟨-, _, hr⟩⟩ :=
      openProcess_items none hopen
    · rw [hitems]
      cases foundActive h with
      | true => exact .of_error (p := .ready _) rfl trivial
      | false => exact .of_error (p := .opened _) rfl trivial
    · cases hr
  · obtain ⟨hactive, ⟨_, -, e, hr⟩ | ⟨hitems, -⟩⟩ :=
      openProcess_items none hopen
    · cases hr
    obtain ⟨h₃, h₄, _, rfl, hbody, hclose⟩ := Runs.deferClose_inv hrest
    rw [hactive, observe_append, hitems]
    exact callShows_body hbody hclose

/-- `TraceDebugEvents` against any peer: at most `maximumEvents` waits; a session
    before the first wait; between an event and the next wait exactly one continue,
    of the event's thread, and none without an event; and without an error a trace
    of all events received, in order, each of them continued. -/
theorem traceDebugEvents_protocol {timeout : Int64} {pid : Int32}
    {maximumEvents eventTimeout : Int64} {mode : DebugContinueMode} {h : History}
    {r : Except ClientError DebugTrace}
    (hrun : Runs (traceDebugEvents timeout pid maximumEvents eventTimeout mode) h r) :
    TraceProtocol maximumEvents.toInt.toNat mode (foundActive h) (observe none h) r := by
  have hshows := traceDebugEvents_shows hrun
  exact hshows.protocol

/-- The answers of a server that opens the process as handle 1 and attaches to it. -/
def attachedHistory (pid : Int32) (active : Bool) : History :=
  [⟨.write (commandOpenProcess :: i32 pid), .ok ()⟩, ⟨.read 4, .ok (u32 1)⟩,
    ⟨.debugActive, active⟩] ++
  if active then [] else
    [⟨.write (commandStartDebug :: u32 1), .ok ()⟩, ⟨.setDebugActive true, ()⟩,
      ⟨.read 4, .ok (u32 1)⟩]

/-- A wait that is answered with an event of a thread. -/
def waitHistory (signal : Int32) (tid : UInt64) : History :=
  [⟨.ctxErr, none⟩, ⟨.write (commandWaitForDebugEvent :: (u32 1 ++ i32 1)), .ok ()⟩,
    ⟨.read 4, .ok (u32 1)⟩, ⟨.read 20, .ok (i32 signal ++ u64 tid ++ u64 0)⟩]

def closeHistory : History :=
  [⟨.write (commandCloseHandle :: u32 1), .ok ()⟩, ⟨.read 4, .ok (u32 1)⟩]

/-- A trace of one event of thread 7, which is continued. -/
theorem traceDebugEvents_protocol_one :
    ∃ h r, TraceProtocol 1 debugContinueAuto (foundActive h) (observe none h) r ∧
      (observe none h).countP TraceItem.isCont = 1 := by
  have hrun : Runs (traceDebugEvents 5000000000 4 1 1000000 debugContinueAuto)
      (attachedHistory 4 false ++ waitHistory 5 7 ++
        [⟨.write (commandContinueFromDebugEvent :: (u32 1 ++ u32 7 ++ i32 2)), .ok ()⟩,
          ⟨.read 4, .ok (u32 1)⟩] ++ closeHistory)
      (.ok ⟨4, [decodeDebugEvent (i32 5 ++ u64 7 ++ u64 0)], 1, 1, false, debugContinueAuto⟩) :=
    Runs.of_replay rfl
  exact ⟨_, _, traceDebugEvents_protocol hrun, by decide⟩

/-- An event of a thread above the width of the packet is received and no continue
    is sent; and on a client that has a session no `StartDebug` is sent in the call. -/
theorem traceDebugEvents_without_continue :
    (∃ h r, Runs (traceDebugEvents 5000000000 4 1 1000000 debugContinueAuto) h r ∧
      (∃ e, .received e ∈ observe none h) ∧ (observe none h).countP TraceItem.isCont = 0) ∧
    ∃ h r, Runs (traceDebugEvents 5000000000 4 1 1000000 debugContinueAuto) h r ∧
      .wait true ∈ observe none h ∧ ∀ w, .start w ∉ observe none h := by
  have hrun : ∀ active, Runs (traceDebugEvents 5000000000 4 1 1000000 debugContinueAuto)
      (attachedHistory 4 active ++ waitHistory 5 4294967296 ++ closeHistory)
      (.error (.protocol "continue debug event"
        ⟨"thread ID %d exceeds protocol width", [.int 4294967296]⟩)) := by
    intro active
    cases active
    · exact Runs.of_replay rfl
    · exact Runs.of_replay rfl
  refine ⟨⟨_, _, hrun false, ⟨decodeDebugEvent (i32 5 ++ u64 4294967296 ++ u64 0), ?_⟩, ?_⟩,
    ⟨_, _, hrun true, ?_, ?_⟩⟩
  · decide
  · decide
  · decide
  · decide

end CheatEngine.Client
