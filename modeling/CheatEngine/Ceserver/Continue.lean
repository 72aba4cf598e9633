/-
  CheatEngine.Ceserver.Continue

  How a debug event is continued: the mode that `TraceDebugEvents` puts on the
  wire, and what `ContinueFromDebugEvent` makes of it.
-/
import CheatEngine.Ceserver.Debugger
import CheatEngine.Ceserver.Framing

namespace CheatEngine.Ceserver

open CheatEngine.Lib CheatEngine.Client

/-- The modes by name. -/
inductive ContinueMode
  | auto
  | deliver
  | ignore
  | singleStep

namespace ContinueMode

def code : ContinueMode → DebugContinueMode
  | auto => debugContinueAuto
  | deliver => debugContinueDeliverSignal
  | ignore => debugContinueIgnoreSignal
  | singleStep => debugContinueSingleStep

/-- What `auto` stands for, for an event with this signal. -/
def effective (mode : ContinueMode) (signal : Int32) : ContinueMode :=
  match mode with
  | auto => if signal = -2 ∨ signal = -1 ∨ signal = 5 ∨ signal = 19 then ignore else deliver
  | mode => mode

end ContinueMode

/-- The requests are those that the mode documents for an event with this
    signal of the thread. -/
def Documented (k : Kernel) (mode : ContinueMode) (signal tid : Int32)
    (requests : List Resume) : Prop :=
  match mode.effective signal with
  | .deliver => ∃ si, k.getSigInfo tid = some si ∧
      requests = [.cont tid (if si = SIGSTOP ∨ si = SIGTTIN then 0 else si)]
  | .singleStep => .singleStep tid ∈ requests
  | _ => requests = [.cont tid 0]

/-! ## What the server does -/

/-- The resuming requests of `ContinueFromDebugEvent` on a handle; `target` is
    the process behind it, if it is a process handle. -/
def resumed (k : Kernel) (target : Option ProcessData) (tid ignoresignal : Int32) :
    List Resume :=
  match target with
  | some p => (continueFromDebugEvent k p tid ignoresignal).2.2
  | none => []

/-- A stopped thread that the server knows and has not suspended, after an
    event that is not virtual. -/
def Stopped (k : Kernel) (target : Option ProcessData) (tid si : Int32) : Prop :=
  ∃ p, target = some p ∧ 0 ≤ p.debuggedThreadEvent.debugevent.toInt ∧
    (∃ i, p.slot tid = some i ∧ (p.thread i).elim 0 ThreadData.suspendCount = 0) ∧
      k.getSigInfo tid = some si

theorem resumed_of_stopped {k : Kernel} {target : Option ProcessData} {tid si : Int32}
    (h : Stopped k target tid si) (code : Int32) :
    resumed k target tid code = (resumeThreadWith k tid code (passedSignal code si)).1 := by
  obtain ⟨p, rfl, hreal, ⟨i, hslot, hcount⟩, hsi⟩ := h
  have hvirtual : ¬ p.debuggedThreadEvent.debugevent.toInt < 0 := by omega
  have hrun : ¬ (p.thread i).elim 0 ThreadData.suspendCount > 0 := by omega
  show (continueFromDebugEvent k p tid code).2.2 = _
  unfold continueFromDebugEvent
  rw [if_neg hvirtual]
  simp only [hslot, if_neg hrun, hsi]
  split <;> rfl

theorem resumed_of_not_stopped {k : Kernel} {target : Option ProcessData} {tid : Int32}
    (h : ∀ si, ¬ Stopped k target tid si) (code : Int32) : resumed k target tid code = [] := by
  cases target with
  | none => rfl
  | some p =>
    show (continueFromDebugEvent k p tid code).2.2 = _
    unfold continueFromDebugEvent
    by_cases hvirtual : p.debuggedThreadEvent.debugevent.toInt < 0
    · rw [if_pos hvirtual]
    rw [if_neg hvirtual]
    cases hslot : p.slot tid with
    | none => rfl
    | some i =>
      by_cases hcount : (p.thread i).elim 0 ThreadData.suspendCount > 0
      · simp only [if_pos hcount]
      · simp only [if_neg hcount]
        cases hsi : k.getSigInfo tid with
        | none => rfl
        | some si =>
          have hstopped : Stopped k (some p) tid si :=
            ⟨p, rfl, by omega, ⟨i, hslot, by omega⟩, hsi⟩
          exact absurd hstopped (h si)

/-- The condition under which an event is continued as documented: the thread
    is stopped, its signal is to be delivered, and delivering it is the same as
    delivering none. -/
def Deliverable (k : Kernel) (target : Option ProcessData) (mode : ContinueMode)
    (signal tid : Int32) : Prop :=
  mode.effective signal = .deliver ∧
    ∃ si, Stopped k target tid si ∧ (si = 0 ∨ si = SIGSTOP ∨ si = SIGTTIN)

theorem continueModeForEvent_eq (mode : ContinueMode) (event : Client.DebugEvent) :
    continueModeForEvent mode.code event = (mode.effective event.signal).code := by
  cases mode with
  | auto =>
    unfold continueModeForEvent
    rw [if_neg (by decide)]
    by_cases h : event.signal = -2 ∨ event.signal = -1 ∨ event.signal = 5 ∨ event.signal = 19
    · rw [if_pos h]
      simp only [ContinueMode.effective, if_pos h]
      rfl
    · rw [if_neg h]
      simp only [ContinueMode.effective, if_neg h]
      rfl
  | deliver | ignore | singleStep => rfl

theorem effective_ne_auto (mode : ContinueMode) (signal : Int32) :
    mode.effective signal ≠ .auto := by
  cases mode with
  | auto =>
    simp only [ContinueMode.effective]
    split <;> exact nofun
  | deliver | ignore | singleStep => exact nofun

theorem documented_iff (k : Kernel) (target : Option ProcessData) (mode : ContinueMode)
    (event : Client.DebugEvent) (tid : Int32) :
    Documented k mode event.signal tid
        (resumed k target tid (continueModeForEvent mode.code event)) ↔
      Deliverable k target mode event.signal tid := by
  rw [continueModeForEvent_eq]
  have hauto := effective_ne_auto mode event.signal
  unfold Documented Deliverable
  generalize mode.effective event.signal = effective at hauto ⊢
  by_cases hstopped : ∃ si, Stopped k target tid si
  · obtain ⟨si, hsi⟩ := hstopped
    have hinfo : k.getSigInfo tid = some si := by
      obtain ⟨_, _, _, _, h⟩ := hsi
      exact h
    have huniq : ∀ si', Stopped k target tid si' → si' = si := by
      rintro si' ⟨_, _, _, _, h⟩
      exact Option.some.inj (h.symm.trans hinfo)
    rw [resumed_of_stopped hsi]
    cases effective with
    | auto => exact absurd rfl hauto
    | deliver =>
      -- code 1: the server passes no signal on
      have hrequest : (resumeThreadWith k tid ContinueMode.deliver.code
          (passedSignal ContinueMode.deliver.code si)).1 = [.cont tid 0] := rfl
      rw [hrequest]
      constructor
      · rintro ⟨si', hinfo', hcont⟩
        have heq : si' = si := Option.some.inj (hinfo'.symm.trans hinfo)
        subst heq
        refine ⟨rfl, si', hsi, ?_⟩
        by_cases hstop : si' = SIGSTOP ∨ si' = SIGTTIN
        · exact .inr hstop
        · rw [if_neg hstop] at hcont
          simp only [List.cons.injEq, Resume.cont.injEq, true_and, and_true] at hcont
          exact .inl hcont.symm
      · rintro ⟨-, si', hsi', hsignal⟩
        have heq := huniq si' hsi'
        subst heq
        refine ⟨si', hinfo, ?_⟩
        rcases hsignal with rfl | hstop
        · rfl
        · rw [if_pos hstop]
    | ignore =>
      -- code 2: a single step first
      have hne : (resumeThreadWith k tid ContinueMode.ignore.code
          (passedSignal ContinueMode.ignore.code si)).1 ≠ [.cont tid 0] := by
        unfold resumeThreadWith
        rw [if_pos (by rfl)]
        split <;> simp
      exact ⟨fun h => absurd h hne, fun h => nomatch h.1⟩
    | singleStep =>
      -- code 3: continued like code 1
      have hrequest : (resumeThreadWith k tid ContinueMode.singleStep.code
          (passedSignal ContinueMode.singleStep.code si)).1 = [.cont tid 0] := rfl
      rw [hrequest]
      exact ⟨fun h => by simp at h, fun h => nomatch h.1⟩
  · have hnone : ∀ si, ¬ Stopped k target tid si := fun si h => hstopped ⟨si, h⟩
    rw [resumed_of_not_stopped hnone]
    constructor
    · intro h
      cases effective with
      | auto => exact absurd rfl hauto
      | deliver =>
        obtain ⟨_, _, hnil⟩ := h
        exact nomatch hnil
      | ignore => exact nomatch h
      | singleStep => exact nomatch h
    · rintro ⟨-, si, hsi, -⟩
      exact absurd hsi (hnone si)

/-! ## Traces -/

section Trace

variable {σ : Type} {o : Outcomes σ} {b : Build}

/-- A call of `WaitForDebugEvent` with its outcome. -/
abbrev waited (h : UInt32) (timeout r : Int32) (e : DebugEvent) : Prog.Event CeApi :=
  ⟨.waitForDebugEvent h timeout, some (r, e)⟩

/-- A call of `ContinueFromDebugEvent` with its outcome. -/
abbrev continued (h : UInt32) (tid code r : Int32) : Prog.Event CeApi :=
  ⟨.continueFromDebugEvent h tid code, some r⟩

/-- Every event that the server hands out, of a thread that the protocol can
    name, is continued by the next call, with the code of its mode. -/
def Continued (mode : ContinueMode) (events : List (Prog.Event CeApi)) : Prop :=
  ∀ before h timeout r e after, events = before ++ waited h timeout r e :: after → r ≠ 0 →
    e.threadid.toUInt64.toNat < 2 ^ 32 → ∃ code result rest,
      after = continued h e.tid code result :: rest ∧
        ∀ event : Client.DebugEvent, event.signal = e.debugevent →
          code = continueModeForEvent mode.code event

/-- Calls among which nothing is waited for. -/
def NoWait (events : List (Prog.Event CeApi)) : Prop :=
  ∀ h timeout r, (⟨.waitForDebugEvent h timeout, r⟩ : Prog.Event CeApi) ∉ events

variable {mode : ContinueMode}

theorem NoWait.continued {events : List (Prog.Event CeApi)}
    (h : NoWait events) : Continued mode events := by
  rintro before handle timeout r e after rfl
  exact absurd (by simp) (h handle timeout (some (r, e)))

theorem Continued.append {es es' : List (Prog.Event CeApi)}
    (hes : Continued mode es) (hes' : Continued mode es') : Continued mode (es ++ es') := by
  intro before h timeout r e after heq hr hfit
  rcases List.append_eq_append_iff.1 heq with ⟨mid, rfl, hmid⟩ | ⟨mid, rfl, hmid⟩
  · exact hes' mid h timeout r e after hmid hr hfit
  · cases mid with
    | nil => exact hes' [] h timeout r e after hmid.symm hr hfit
    | cons m mid =>
      rw [List.cons_append, List.cons.injEq] at hmid
      obtain ⟨rfl, rfl⟩ := hmid
      obtain ⟨code, result, rest, rfl, hcode⟩ := hes before h timeout r e mid rfl hr hfit
      exact ⟨code, result, rest ++ es', rfl, hcode⟩

theorem records_call {α : Type} (req : Request) (hmem : ¬ NeedsMemory req)
    (hreq : WellFormed req) {c : ApiCall} {k : ApiResult c → Command CeApi Unit}
    (hc : ∀ s, handle b s req = keep (api c >>= k) s) (bytes : ApiResult c → List UInt8)
    (hk : ∀ x, k x = reply (bytes x)) {f : Unit → ClientM α}
    {P : Except ClientError α → List (Prog.Event CeApi) → Prop}
    (hread : ∀ x, Records (ceserver b) o.env (bytes x) (f ()) fun r events =>
      P r (⟨c, some x⟩ :: events)) :
    Records (ceserver b) o.env [] (writePacket req.packet >>= f) P := by
  have hreplies : Replies (ceserver b) o.env req.command req.body fun sent events =>
      ∃ x, sent = bytes x ∧ events = [⟨c, some x⟩] := by
    refine replies_request (fun h => absurd h hmem) hreq fun s => ?_
    rw [hc s]
    unfold keep
    rw [bind_assoc]
    refine Ends.api fun a => ?_
    rw [hk]
    exact Ends.reply_bind (Ends.pure ⟨Option.some_ne_none _, _, List.append_nil _, rfl⟩)
  refine Records.request hreplies ?_
  rintro _ _ ⟨x, rfl, rfl⟩
  exact hread x

theorem noWait_singleton {c : ApiCall} {r : Option (ApiResult c)}
    (hc : ∀ h timeout, c ≠ .waitForDebugEvent h timeout) : NoWait [⟨c, r⟩] := by
  intro h timeout r' hmem
  rw [List.mem_singleton] at hmem
  exact hc h timeout (congrArg Sigma.fst hmem).symm

theorem records_openProcess (pid : Int32) :
    Records (ceserver b) o.env [] (openProcess pid) fun _ events => NoWait events := by
  refine records_call (.openProcess pid) nofun trivial (fun _ => rfl) u32 (fun _ => rfl)
    fun x => ?_
  have hone : NoWait [⟨.openProcess pid.toUInt32, some x⟩] := noWait_singleton nofun
  rw [← List.append_nil (u32 x)]
  exact Records.read (yields_readU32 x)
    (Records.ite (fun _ => Records.throw hone) fun _ => Records.pure hone)

theorem records_waitForDebugEvent (h : UInt32) (timeout : Int32) :
    Records (ceserver b) o.env [] (Client.waitForDebugEvent h timeout) fun r events =>
      ∃ result e, events = [waited h timeout result e] ∧
        r = .ok (if result = 0 then none else some (decodeDebugEvent e.encode)) := by
  refine records_call (.waitForDebugEvent h timeout) nofun trivial (fun _ => rfl)
    (fun x => i32 x.1 ++ if x.1 ≠ 0 then x.2.encode else []) ?_ ?_
  · rintro ⟨result, e⟩
    by_cases hr : result ≠ 0
    · simp only [if_pos hr]
    · simp only [if_neg hr, List.append_nil]
  · rintro ⟨result, e⟩
    refine Records.read (yields_readI32 result) ?_
    by_cases hr : result = 0
    · subst hr
      exact Records.pure ⟨0, e, rfl, rfl⟩
    · rw [if_neg hr, if_pos hr, ← List.append_nil e.encode]
      have hlen : e.encode.length = 20 := by simp [DebugEvent.encode]
      refine Records.read (yields_readFull e.encode hlen) (Records.pure ⟨result, e, rfl, ?_⟩)
      rw [if_neg hr]

theorem records_continueFromDebugEvent (h : UInt32) (threadID : UInt64) (mode : DebugContinueMode) :
    Records (ceserver b) o.env [] (Client.continueFromDebugEvent h threadID mode) fun _ events =>
      (2 ^ 32 ≤ threadID.toNat ∧ events = []) ∨
        ∃ result, events = [continued h threadID.toUInt32.toInt32 mode result] := by
  refine Records.ite (fun hbig => Records.throw (.inl ⟨by omega, rfl⟩)) fun _ => ?_
  refine records_call (.continueFromDebugEvent h threadID.toUInt32 mode) nofun trivial
    (fun _ => rfl) i32 (fun _ => rfl) fun x => ?_
  rw [← List.append_nil (i32 x)]
  exact Records.read (yields_readI32 x)
    (Records.ite (fun _ => Records.throw (.inr ⟨x, rfl⟩)) fun _ => Records.pure (.inr ⟨x, rfl⟩))

theorem records_closeHandle (h : UInt32) :
    Records (ceserver b) o.env [] (closeHandle h) fun _ events => NoWait events := by
  refine records_call (.closeHandle h) nofun trivial (fun _ => rfl) (fun _ => i32 1)
    (fun _ => rfl) fun x => ?_
  rw [← List.append_nil (i32 1)]
  exact Records.read (yields_readI32 1) (Records.pure (noWait_singleton nofun))

theorem records_startDebug (h : UInt32) :
    Records (ceserver b) o.env [] (startDebug h) fun _ events => NoWait events := by
  have hwell : WellFormed (.startDebug h) := trivial
  have hreplies : Replies (ceserver b) o.env commandStartDebug (u32 h) fun reply events =>
      OneI32 reply ∧ NoWait events := by
    refine replies_request nofun hwell fun s => Ends.api fun a => Ends.reply_bind ?_
    generalize (o (.startDebug h) a).1 = x
    refine Ends.ite (fun _ => Ends.api fun a => Ends.pure ?_) fun _ => Ends.pure ?_
    · refine ⟨Option.some_ne_none _, ⟨_, List.append_nil _⟩, ?_⟩
      rintro h' timeout r hmem
      simp at hmem
    · exact ⟨Option.some_ne_none _, ⟨_, List.append_nil _⟩, noWait_singleton nofun⟩
  have hnil : NoWait [] := fun _ _ _ hmem => nomatch hmem
  refine Records.debugActive fun active => Records.ite (fun _ => Records.pure hnil) fun _ => ?_
  refine Records.request hreplies ?_
  rintro _ events ⟨⟨result, rfl⟩, hevents⟩
  refine Records.setDebugActive ?_
  rw [← List.append_nil (i32 result)]
  have hdone : NoWait (events ++ []) := by rwa [List.append_nil]
  exact Records.read (yields_readI32 result)
    (Records.ite (fun _ => Records.setDebugActive (Records.throw hdone))
      fun _ => Records.pure hdone)

theorem continued_round {h : UInt32} {timeout result : Int32}
    {e : DebugEvent} {rest : List (Prog.Event CeApi)}
    (hrest : ((result = 0 ∨ 2 ^ 32 ≤ e.threadid.toUInt64.toNat) ∧ rest = []) ∨ ∃ r,
      rest = [continued h e.tid (continueModeForEvent mode.code (decodeDebugEvent e.encode)) r]) :
    Continued mode (waited h timeout result e :: rest) := by
  intro before h' timeout' r' e' after heq hr hfit
  cases before with
  | nil =>
    rw [List.nil_append, List.cons.injEq] at heq
    obtain ⟨hhead, rfl⟩ := heq
    simp only [Sigma.mk.injEq, ApiCall.waitForDebugEvent.injEq] at hhead
    obtain ⟨⟨rfl, rfl⟩, hx⟩ := hhead
    obtain ⟨rfl, rfl⟩ := Prod.mk.inj (Option.some.inj (eq_of_heq hx))
    rcases hrest with ⟨h0 | hbig, -⟩ | ⟨r, rfl⟩
    · exact absurd h0 hr
    · omega
    · refine ⟨_, r, [], rfl, fun event hsignal => ?_⟩
      have hdecode : (decodeDebugEvent e.encode).signal = event.signal := by
        rw [hsignal]
        simp [decodeDebugEvent, DebugEvent.encode]
      rw [continueModeForEvent_eq, continueModeForEvent_eq, hdecode]
  | cons x before =>
    rw [List.cons_append, List.cons.injEq] at heq
    have hmem : waited h' timeout' r' e' ∈ rest := by
      rw [heq.2]
      simp
    rcases hrest with ⟨-, rfl⟩ | ⟨r, rfl⟩
    · exact nomatch hmem
    · simp at hmem

theorem records_traceLoop (h : UInt32) (timeout : Int32) (mode : ContinueMode) (fuel : Nat)
    (events : List Client.DebugEvent) :
    Records (ceserver b) o.env [] (traceLoop h timeout mode.code fuel events)
      fun _ calls => Continued mode calls := by
  have hnil : Continued mode [] := NoWait.continued fun _ _ _ hmem => by cases hmem
  induction fuel generalizing events with
  | zero => exact Records.pure hnil
  | succ fuel ih =>
    refine Records.checkContext.bind (fun _ _ hempty => hempty ▸ hnil) ?_
    rintro _ _ rfl
    simp only [List.nil_append]
    refine (records_waitForDebugEvent h timeout).bind (fun _ _ ⟨_, _, _, hr⟩ => nomatch hr) ?_
    rintro event _ ⟨result, e, rfl, hr⟩
    by_cases h0 : result = 0
    · rw [if_pos h0] at hr
      cases hr
      exact Records.pure (continued_round (.inl ⟨.inl h0, rfl⟩))
    · rw [if_neg h0] at hr
      cases hr
      have hthread : (decodeDebugEvent e.encode).threadID = e.threadid.toUInt64 := by
        simp [decodeDebugEvent, DebugEvent.encode]
      have hround : ∀ rest : List (Prog.Event CeApi),
          (2 ^ 32 ≤ (decodeDebugEvent e.encode).threadID.toNat ∧ rest = []) ∨
            (∃ r, rest = [continued h (decodeDebugEvent e.encode).threadID.toUInt32.toInt32
              (continueModeForEvent mode.code (decodeDebugEvent e.encode)) r]) →
          Continued mode (waited h timeout result e :: rest) := by
        rintro rest (⟨hbig, rfl⟩ | hone)
        · exact continued_round (.inl ⟨.inr (hthread ▸ hbig), rfl⟩)
        · rw [hthread] at hone
          exact continued_round (.inr hone)
      refine (records_continueFromDebugEvent h _ _).bind (fun _ rest hrest => hround rest hrest)
        fun _ rest hrest => (ih _).imp fun _ calls hcalls => ?_
      exact (hround rest hrest).append hcalls

theorem records_traceDebugEvents (timeout : Int64) (pid : Int32)
    (maximumEvents eventTimeout : Int64) (mode : ContinueMode) :
    Records (ceserver b) o.env []
      (traceDebugEvents timeout pid maximumEvents eventTimeout mode.code)
      fun _ calls => Continued mode calls := by
  have hnil : Continued mode [] := NoWait.continued fun _ _ _ hmem => by cases hmem
  refine Records.ite (fun _ => Records.throw hnil) fun _ => ?_
  refine Records.ite (fun _ => Records.throw hnil) fun _ => ?_
  refine Records.ite (fun _ => Records.throw hnil) fun _ => ?_
  refine Records.ite (fun _ => Records.throw hnil) fun _ => ?_
  refine (records_openProcess pid).bind (fun _ _ h => h.continued) fun h calls hcalls => ?_
  have hbody : Records (ceserver b) o.env [] (do
      startDebug h
      let milliseconds := Int32.ofInt (eventTimeout.toInt.tdiv millisecond)
      let p ← traceLoop h milliseconds mode.code maximumEvents.toInt.toNat []
      return (⟨pid, p.1, maximumEvents, milliseconds, p.2, mode.code⟩ : DebugTrace))
      fun _ calls => Continued mode calls := by
    refine (records_startDebug h).bind (fun _ _ h => h.continued) fun _ calls hcalls => ?_
    refine (records_traceLoop h _ mode _ []).bind (fun _ _ hloop => hcalls.continued.append hloop)
      fun _ calls' hloop => Records.pure ?_
    rw [List.append_nil]
    exact hcalls.continued.append hloop
  have hclose := Records.deferClose (fun _ _ => Continued.append) hbody
    ((records_closeHandle h).imp fun _ _ h => h.continued)
  exact hclose.imp fun _ _ hcalls' => hcalls.continued.append hcalls'

end Trace

/-- The server does what the mode of an event documents exactly when the
    signal is deliverable; so does every continuation of a trace, against any
    sequence of events. -/
theorem events_continued_iff_deliverable (mode : ContinueMode) :
    (∀ (k : Kernel) (target : Option ProcessData) (event : Client.DebugEvent),
      Documented k mode event.signal event.threadID.toUInt32.toInt32
          (resumed k target event.threadID.toUInt32.toInt32
            (continueModeForEvent mode.code event)) ↔
        Deliverable k target mode event.signal event.threadID.toUInt32.toInt32) ∧
    ∀ (σ : Type) (b : Build) (o : Outcomes σ) (timeout : Int64) (pid : Int32)
      (maximumEvents eventTimeout : Int64),
      Records (ceserver b) o.env []
        (traceDebugEvents timeout pid maximumEvents eventTimeout mode.code) fun _ calls =>
          ∀ before h timeout r e after, calls = before ++ waited h timeout r e :: after →
            r ≠ 0 → e.threadid.toUInt64.toNat < 2 ^ 32 → ∃ code result rest,
              after = continued h e.tid code result :: rest ∧ ∀ k target,
                (Documented k mode e.debugevent e.tid (resumed k target e.tid code) ↔
                  Deliverable k target mode e.debugevent e.tid) := by
  constructor
  · intro k target event
    exact documented_iff k target mode event _
  · intro σ b o timeout pid maximumEvents eventTimeout
    refine (records_traceDebugEvents timeout pid maximumEvents eventTimeout mode).imp ?_
    intro _ calls hcalls before h timeout r e after heq hr hfit
    obtain ⟨code, result, rest, hafter, hcode⟩ := hcalls before h timeout r e after heq hr hfit
    refine ⟨code, result, rest, hafter, fun k target => ?_⟩
    have hsignal : (decodeDebugEvent e.encode).signal = e.debugevent := by
      simp [decodeDebugEvent, DebugEvent.encode]
    rw [hcode (decodeDebugEvent e.encode) hsignal, ← hsignal]
    exact documented_iff k target mode (decodeDebugEvent e.encode) e.tid

def oneThread : ProcessData :=
  ⟨1, true, [⟨1, true, 0, ⟨0, 0, 0⟩⟩], ⟨5, 1, 0⟩, []⟩

/-- A kernel where every thread stopped with `si` and every request succeeds. -/
def stoppedWith (si : Int32) : Kernel := ⟨fun _ => some si, fun _ => 0, fun _ _ => 0⟩

/-- A `SIGSTOP` that is to be delivered is swallowed, as documented. -/
theorem sigstop_delivered_as_documented :
    Documented (stoppedWith 19) .deliver 19 1
      (resumed (stoppedWith 19) (some oneThread) 1
        (continueModeForEvent ContinueMode.deliver.code
          ⟨19, text "SIGSTOP", "stop", 1, 0, none⟩)) := by
  refine ((events_continued_iff_deliverable .deliver).1 (stoppedWith 19) (some oneThread)
    ⟨19, text "SIGSTOP", "stop", 1, 0, none⟩).2 ⟨rfl, 19, ?_, .inr (.inl rfl)⟩
  exact ⟨oneThread, rfl, by decide, ⟨0, rfl, rfl⟩, rfl⟩

/-- A trap that is to be ignored makes the server single-step the thread. -/
theorem ignored_trap_single_steps :
    resumed (stoppedWith 5) (some oneThread) 1
        (continueModeForEvent ContinueMode.ignore.code
          ⟨5, text "SIGTRAP", "trap", 1, 0, none⟩) = [.singleStep 1] ∧
      ¬ Documented (stoppedWith 5) .ignore 5 1
        (resumed (stoppedWith 5) (some oneThread) 1
          (continueModeForEvent ContinueMode.ignore.code
            ⟨5, text "SIGTRAP", "trap", 1, 0, none⟩)) := by
  have hrequests : resumed (stoppedWith 5) (some oneThread) 1
      (continueModeForEvent ContinueMode.ignore.code ⟨5, text "SIGTRAP", "trap", 1, 0, none⟩) =
        [.singleStep 1] := by decide
  refine ⟨hrequests, ?_⟩
  rw [hrequests]
  exact fun h => nomatch h

end CheatEngine.Ceserver
