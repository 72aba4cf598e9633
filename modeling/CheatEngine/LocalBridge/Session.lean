/-
  CheatEngine.LocalBridge.Session

  Whole connections of the local bridge, from the first command to `closeHandles`, and
  what they do with the handles.  Every read and every write may fail, and the backend
  answers as it likes.

  `commandEffect_of_attempt` says once what a command can do; everything about whole
  connections is derived from it.
-/
import CheatEngine.Lib.Interrupt
import CheatEngine.LocalBridge.Server

namespace CheatEngine.LocalBridge

open CheatEngine.Lib

variable {M : Type}

abbrev BackendEvent (M : Type) : Type := Prog.Event (BackendApi M)

namespace BackendCall

def process? : BackendCall M → Option M
  | .close process => some process
  | .architecture process => some process
  | .regions process _ => some process
  | .read process _ _ => some process
  | .write process _ _ => some process
  | _ => none

def closed? : BackendCall M → Option M
  | .close process => some process
  | _ => none

/-- The process that a call opens, if it succeeds. -/
def opened? : (c : BackendCall M) → BackendResult M c → Option M
  | .openProcess _, .ok process => process
  | _, _ => none

/-- Whether the answer is given a handle. -/
def creates : (c : BackendCall M) → BackendResult M c → Bool
  | .openProcess _, .ok _ => true
  | .processes, .ok _ => true
  | _, _ => false

end BackendCall

namespace BackendEvent

section

variable (ev : BackendEvent M)

def process? : Option M := BackendCall.process? ev.1

def closed? : Option M := BackendCall.closed? ev.1

def opened? : Option M := BackendCall.opened? ev.1 ev.2

def creates : Bool := BackendCall.creates ev.1 ev.2

/-- Neither made on a process nor creating a handle. -/
def Quiet : Prop := process? ev = none ∧ creates ev = false

end

variable {ev : BackendEvent M}

theorem opened?_of_not_creates (h : creates ev = false) :
    opened? ev = none := by
  obtain ⟨c, r⟩ := ev
  have hcreates : BackendCall.creates c r = false := h
  show BackendCall.opened? c r = none
  cases c with
  | openProcess pid =>
    cases r with
    | error e => rfl
    | ok process => cases hcreates
  | _ => rfl

theorem process?_of_closed? {m : M} (h : closed? ev = some m) :
    process? ev = some m := by
  obtain ⟨c, r⟩ := ev
  cases c with
  | close process => exact h
  | _ => cases h

theorem closed?_of_process?_none (h : process? ev = none) :
    closed? ev = none := by
  cases hclosed : closed? ev with
  | none => rfl
  | some m => exact absurd (h.symm.trans (process?_of_closed? hclosed)) (by simp)

end BackendEvent

/-! ## One command -/

/-- A command of a connection: where it starts, its command byte, the messages it receives
    and sends, the calls it makes, and where it ends. -/
structure CommandRun (M : Type) where
  before : ConnectionState M
  command : UInt8
  received : List (List UInt8)
  sent : List (List UInt8)
  calls : List (BackendEvent M)
  after : ConnectionState M

namespace CommandRun

/-- The handle that the request names; it comes first wherever there is one. -/
def handle? (r : CommandRun M) : Option UInt32 := r.received.head?.map fun bytes => u32At bytes 0

/-- The request asks to close the handle. -/
def Closes (r : CommandRun M) (handle : UInt32) : Prop :=
  r.command = commandCloseHandle ∧ r.handle? = some handle

def Creates (r : CommandRun M) : Prop := ∃ ev ∈ r.calls, ev.creates = true

end CommandRun

/-- What `closeHandle` calls for a value of the map. -/
def closeCalls : Option (Entry M) → List (BackendEvent M)
  | some (.process m) => [⟨.close m, ()⟩]
  | _ => []

inductive CommandEffect (r : CommandRun M) : Prop
  /-- Nothing, and no process is asked. -/
  | unchanged (hafter : r.after = r.before) (hquiet : ∀ ev ∈ r.calls, ev.Quiet)
      (hclose : r.command = commandCloseHandle → r.received = [])
  /-- The process that the handle names is asked. -/
  | used {handle : UInt32} {m : M} {ev : BackendEvent M} (hafter : r.after = r.before)
      (hhandle : r.handle? = some handle) (hm : r.before.handles handle = some (.process m))
      (hcalls : r.calls = [ev]) (hev : ev.process? = some m) (hopen : ev.closed? = none)
      (hcreates : ev.creates = false) (hclose : r.command ≠ commandCloseHandle)
  | created {value : Entry M} {ev : BackendEvent M} (hafter : r.after = (r.before.addHandle value).2)
      (hcalls : r.calls = [ev]) (hcreates : ev.creates = true) (hev : ev.process? = none)
      (hvalue : ∀ m, value = .process m ↔ ev.opened? = some m)
      (hclose : r.command ≠ commandCloseHandle)
  | moved {handle : UInt32} {processes : List Process} {index index' : Int}
      (hafter : r.after = r.before.set handle (some (.snapshot processes index')))
      (hhandle : r.handle? = some handle)
      (hbefore : r.before.handles handle = some (.snapshot processes index)) (hcalls : r.calls = [])
      (hclose : r.command ≠ commandCloseHandle)
  | closed {handle : UInt32} (hafter : r.after = r.before.set handle none)
      (hcloses : r.Closes handle) (hcalls : r.calls = closeCalls (r.before.handles handle))

section Commands

variable {server : Server} {ς : Type} {s s' : ConnectionState M} {c : UInt8}
  {inp out : List (List UInt8)} {calls : List (BackendEvent M)} {ok : Bool}

theorem backend_bind {c : BackendCall M} {k : BackendResult M c → Command (BackendApi M) ς}
    {s s' : ς} (r : BackendResult M c) (h : Attempt s (k r).run inp out calls ok s') :
    Attempt s (backend c >>= k).run inp out (⟨c, r⟩ :: calls) ok s' :=
  @Attempt.call_bind (BackendApi M) ς s s' inp out calls ok c k r h

section

variable (hc : c ≠ commandCloseHandle)
include hc

theorem CommandEffect.nothing (hs : s' = s) :
    CommandEffect ⟨s, c, inp, out, [], s'⟩ :=
  .unchanged hs (by simp) fun h => absurd h hc

theorem CommandEffect.quiet {ev : BackendEvent M} (hs : s' = s)
    (hev : ev.Quiet) : CommandEffect ⟨s, c, inp, out, [ev], s'⟩ :=
  .unchanged hs (by simpa using hev) fun h => absurd h hc

theorem effect_reply {bytes : List UInt8} {inp' : List (List UInt8)}
    (h : Attempt s (do reply bytes; return s : Command (BackendApi M) _).run inp' out calls ok s') :
    CommandEffect ⟨s, c, inp, out, calls, s'⟩ := by
  obtain ⟨-, -, rfl, hs⟩ := h.of_reply
  exact .nothing hc hs

theorem effect_hangUp {inp' : List (List UInt8)}
    (h : Attempt s (hangUp : Command (BackendApi M) _).run inp' out calls ok s') :
    CommandEffect ⟨s, c, inp, out, calls, s'⟩ := by
  obtain ⟨-, -, rfl, hs⟩ := h.of_hangUp
  exact .nothing hc hs

theorem effect_openProcess (h : Attempt s (cmdOpenProcess s).run inp out calls ok s') :
    CommandEffect ⟨s, c, inp, out, calls, s'⟩ := by
  obtain ⟨-, -, rfl, hs⟩ | ⟨pid, rest, -, hopen⟩ := h.of_receive
  · exact .nothing hc hs
  obtain ⟨r, calls, rfl, hrest⟩ := hopen.of_call
  cases r with
  | error e =>
    obtain ⟨-, -, rfl, hs⟩ := hrest.of_reply
    exact .quiet hc hs ⟨rfl, rfl⟩
  | ok process =>
    obtain ⟨-, -, rfl, hs⟩ := hrest.of_reply
    refine .created hs rfl rfl rfl (fun m => ?_) hc
    -- a `nil` process is no process
    show Entry.ofProcess process = .process m ↔ process = some m
    cases process <;> simp [Entry.ofProcess]

theorem effect_createToolhelp32Snapshot
    (h : Attempt s (cmdCreateToolhelp32Snapshot s).run inp out calls ok s') :
    CommandEffect ⟨s, c, inp, out, calls, s'⟩ := by
  obtain ⟨-, -, rfl, hs⟩ | ⟨flags, rest, -, hpid⟩ := h.of_receive
  · exact .nothing hc hs
  obtain ⟨-, -, rfl, hs⟩ | ⟨pid, rest, -, hflags⟩ := hpid.of_receive
  · exact .nothing hc hs
  split at hflags
  · exact effect_reply hc hflags
  obtain ⟨r, calls, rfl, hrest⟩ := hflags.of_call
  cases r with
  | error e =>
    obtain ⟨-, -, rfl, hs⟩ := hrest.of_reply
    exact .quiet hc hs ⟨rfl, rfl⟩
  | ok processes =>
    obtain ⟨-, -, rfl, hs⟩ := hrest.of_reply
    refine .created hs rfl rfl rfl (fun m => ?_) hc
    show Entry.snapshot processes (-1) = .process m ↔ none = some m
    simp

/-- The position of a snapshot is moved whether or not an entry is there. -/
theorem effect_process32 {first : Bool}
    (h : Attempt s (cmdProcess32 s first).run inp out calls ok s') :
    CommandEffect ⟨s, c, inp, out, calls, s'⟩ := by
  obtain ⟨-, -, rfl, hs⟩ | ⟨handle, rest, rfl, hbody⟩ := h.of_receive
  · exact .nothing hc hs
  split at hbody
  next processes index hentry =>
    simp only [writeProcess] at hbody
    generalize (if first = true then (0 : Int) else index + 1) = index' at hbody
    split at hbody
    · obtain ⟨-, -, rfl, hs⟩ := hbody.of_reply
      exact .moved hs rfl hentry rfl hc
    · obtain ⟨-, -, rfl, hs⟩ := hbody.of_reply
      exact .moved hs rfl hentry rfl hc
  next =>
    rw [writeProcess] at hbody
    exact effect_reply hc hbody

end

theorem effect_closeHandle (h : Attempt s (cmdCloseHandle s).run inp out calls ok s') :
    CommandEffect ⟨s, commandCloseHandle, inp, out, calls, s'⟩ := by
  obtain ⟨rfl, -, rfl, hs⟩ | ⟨handle, rest, rfl, hbody⟩ := h.of_receive
  · exact .unchanged hs (by simp) fun _ => rfl
  rw [closeHandle] at hbody
  split at hbody
  next hentry =>
    obtain ⟨-, -, rfl, hs⟩ := hbody.of_reply
    exact .closed (hs.trans (ConnectionState.set_none hentry).symm) ⟨rfl, rfl⟩ (by rw [hentry]; rfl)
  next process hentry =>
    obtain ⟨r, calls, rfl, hrest⟩ := hbody.of_call
    obtain ⟨-, -, rfl, hs⟩ := hrest.of_reply
    exact .closed hs ⟨rfl, rfl⟩ (by rw [hentry]; rfl)
  next value hnot hentry =>
    obtain ⟨-, -, rfl, hs⟩ := hbody.of_reply
    refine .closed hs ⟨rfl, rfl⟩ ?_
    rw [hentry]
    cases value with
    | process m => exact absurd rfl (hnot m)
    | snapshot processes index => rfl
    | null => rfl

/-- What the type assertion finds. -/
theorem ConnectionState.processAt_eq_some {handle : UInt32} {m : M} :
    s.processAt handle = some m ↔ s.handles handle = some (.process m) := by
  rw [processAt]
  split
  next process hentry => simp [hentry]
  next hnot =>
    constructor
    · intro h
      cases h
    · intro h
      exact absurd h (hnot m)

section

variable (hc : c ≠ commandCloseHandle)
include hc

theorem effect_ask {handle : UInt32} {m : M} {ev : BackendEvent M}
    (hhandle : (inp.head?.map fun bytes => u32At bytes 0) = some handle)
    (hm : s.processAt handle = some m) (hev : ev.process? = some m) (hopen : ev.closed? = none)
    (hcreates : ev.creates = false) (hs : s' = s) :
    CommandEffect ⟨s, c, inp, out, [ev], s'⟩ :=
  .used hs hhandle (ConnectionState.processAt_eq_some.1 hm) rfl hev hopen hcreates hc

theorem effect_readProcessMemory (h : Attempt s (cmdReadProcessMemory s).run inp out calls ok s') :
    CommandEffect ⟨s, c, inp, out, calls, s'⟩ := by
  obtain ⟨-, -, rfl, hs⟩ | ⟨handle, rest, rfl, haddress⟩ := h.of_receive
  · exact .nothing hc hs
  obtain ⟨-, -, rfl, hs⟩ | ⟨address, rest, rfl, hsize⟩ := haddress.of_receive
  · exact .nothing hc hs
  obtain ⟨-, -, rfl, hs⟩ | ⟨size, rest, rfl, hcompress⟩ := hsize.of_receive
  · exact .nothing hc hs
  obtain ⟨-, -, rfl, hs⟩ | ⟨compress, rest, rfl, hbody⟩ := hcompress.of_receive
  · exact .nothing hc hs
  split at hbody
  next => exact effect_reply hc hbody
  next m hm =>
    split at hbody
    · exact effect_reply hc hbody
    obtain ⟨r, calls, rfl, hrest⟩ := hbody.of_call
    cases r with
    | error e =>
      obtain ⟨-, -, rfl, hs⟩ := hrest.of_reply
      exact effect_ask hc rfl hm rfl rfl rfl hs
    | ok data =>
      dsimp only at hrest
      -- data that is too long is not sent
      split at hrest
      · obtain ⟨-, -, rfl, hs⟩ := hrest.of_reply
        exact effect_ask hc rfl hm rfl rfl rfl hs
      · obtain ⟨-, -, rfl, hs⟩ := hrest.of_reply
        exact effect_ask hc rfl hm rfl rfl rfl hs

theorem effect_writeProcessMemory
    (h : Attempt s (cmdWriteProcessMemory s).run inp out calls ok s') :
    CommandEffect ⟨s, c, inp, out, calls, s'⟩ := by
  obtain ⟨-, -, rfl, hs⟩ | ⟨handle, rest, rfl, haddress⟩ := h.of_receive
  · exact .nothing hc hs
  obtain ⟨-, -, rfl, hs⟩ | ⟨address, rest, rfl, hsize⟩ := haddress.of_receive
  · exact .nothing hc hs
  obtain ⟨-, -, rfl, hs⟩ | ⟨size, rest, rfl, hdata⟩ := hsize.of_receive
  · exact .nothing hc hs
  dsimp only at hdata
  split at hdata
  · exact effect_hangUp hc hdata
  obtain ⟨-, -, rfl, hs⟩ | ⟨data, rest, rfl, hbody⟩ := hdata.of_receive
  · exact .nothing hc hs
  split at hbody
  next => exact effect_reply hc hbody
  next m hm =>
    obtain ⟨r, calls, rfl, hrest⟩ := hbody.of_call
    cases r with
    | error e =>
      obtain ⟨-, -, rfl, hs⟩ := hrest.of_reply
      exact effect_ask hc rfl hm rfl rfl rfl hs
    | ok written =>
      obtain ⟨-, -, rfl, hs⟩ := hrest.of_reply
      exact effect_ask hc rfl hm rfl rfl rfl hs

theorem effect_getArchitecture (h : Attempt s (cmdGetArchitecture s).run inp out calls ok s') :
    CommandEffect ⟨s, c, inp, out, calls, s'⟩ := by
  obtain ⟨-, -, rfl, hs⟩ | ⟨handle, rest, rfl, hbody⟩ := h.of_receive
  · exact .nothing hc hs
  split at hbody
  next => exact effect_reply hc hbody
  next m hm =>
    obtain ⟨r, calls, rfl, hrest⟩ := hbody.of_call
    obtain ⟨-, -, rfl, hs⟩ := hrest.of_reply
    exact effect_ask hc rfl hm rfl rfl rfl hs

theorem effect_virtualQueryExFull
    (h : Attempt s (cmdVirtualQueryExFull s).run inp out calls ok s') :
    CommandEffect ⟨s, c, inp, out, calls, s'⟩ := by
  obtain ⟨-, -, rfl, hs⟩ | ⟨handle, rest, rfl, hflags⟩ := h.of_receive
  · exact .nothing hc hs
  obtain ⟨-, -, rfl, hs⟩ | ⟨flags, rest, rfl, hbody⟩ := hflags.of_receive
  · exact .nothing hc hs
  split at hbody
  next => exact effect_reply hc hbody
  next m hm =>
    obtain ⟨r, calls, rfl, hrest⟩ := hbody.of_call
    cases r with
    | error e =>
      obtain ⟨-, -, rfl, hs⟩ := hrest.of_reply
      exact effect_ask hc rfl hm rfl rfl rfl hs
    | ok regions =>
      obtain ⟨-, -, rfl, hs⟩ := hrest.of_reply
      exact effect_ask hc rfl hm rfl rfl rfl hs

theorem effect_setConnectionName (h : Attempt s (cmdSetConnectionName s).run inp out calls ok s') :
    CommandEffect ⟨s, c, inp, out, calls, s'⟩ := by
  obtain ⟨-, -, rfl, hs⟩ | ⟨size, rest, rfl, hbody⟩ := h.of_receive
  · exact .nothing hc hs
  split at hbody
  · exact effect_hangUp hc hbody
  obtain ⟨-, -, rfl, hs⟩ | ⟨name, rest, rfl, hrest⟩ := hbody.of_receive
  · exact .nothing hc hs
  obtain ⟨-, -, rfl, -, hs⟩ := hrest.of_pure
  exact .nothing hc hs

end

theorem effect_string16 (call : BackendCall M) {value : BackendResult M call → List UInt8}
    (hc : c ≠ commandCloseHandle) (hquiet : ∀ r, BackendEvent.Quiet ⟨call, r⟩)
    (h : Attempt s (do writeString16 (value (← backend call)); return s).run inp out calls ok s') :
    CommandEffect ⟨s, c, inp, out, calls, s'⟩ := by
  obtain ⟨r, calls, rfl, hrest⟩ := h.of_call
  rw [writeString16] at hrest
  split at hrest
  · obtain ⟨-, -, rfl, hs⟩ := Attempt.of_hangUp hrest
    exact .quiet hc hs (hquiet r)
  · obtain ⟨-, -, rfl, hs⟩ := hrest.of_reply
    exact .quiet hc hs (hquiet r)

theorem effect_getABI (hc : c ≠ commandCloseHandle)
    (h : Attempt s (cmdGetABI s).run inp out calls ok s') :
    CommandEffect ⟨s, c, inp, out, calls, s'⟩ := by
  obtain ⟨r, calls, rfl, hrest⟩ := h.of_call
  obtain ⟨-, -, rfl, hs⟩ := hrest.of_reply
  exact .quiet hc hs ⟨rfl, rfl⟩

/-- Every command does one of the things of `CommandEffect`. -/
theorem commandEffect_of_attempt (r : CommandRun M)
    (h : Attempt r.before (handleCommand server r.command r.before).run r.received r.sent r.calls
      ok r.after) : CommandEffect r := by
  obtain ⟨s, c, inp, out, calls, s'⟩ := r
  dsimp only at h
  by_cases hclose : c = commandCloseHandle
  · subst hclose
    exact effect_closeHandle h
  rw [handleCommand] at h
  -- one case for each command, in the order of the source
  obtain ⟨-, hthis⟩ | ⟨-, hrest⟩ := h.of_ite
  · exact effect_reply hclose hthis
  obtain ⟨-, hthis⟩ | ⟨-, hrest⟩ := hrest.of_ite
  · exact effect_hangUp hclose hthis
  obtain ⟨-, hthis⟩ | ⟨-, hrest⟩ := hrest.of_ite
  · exact effect_openProcess hclose hthis
  obtain ⟨-, hthis⟩ | ⟨-, hrest⟩ := hrest.of_ite
  · exact effect_createToolhelp32Snapshot hclose hthis
  obtain ⟨-, hthis⟩ | ⟨-, hrest⟩ := hrest.of_ite
  · exact effect_process32 hclose hthis
  obtain ⟨-, hthis⟩ | ⟨-, hrest⟩ := hrest.of_ite
  · exact effect_process32 hclose hthis
  obtain ⟨hc, -⟩ | ⟨-, hrest⟩ := hrest.of_ite
  · exact absurd hc hclose
  obtain ⟨-, hthis⟩ | ⟨-, hrest⟩ := hrest.of_ite
  · exact effect_readProcessMemory hclose hthis
  obtain ⟨-, hthis⟩ | ⟨-, hrest⟩ := hrest.of_ite
  · exact effect_writeProcessMemory hclose hthis
  obtain ⟨-, hthis⟩ | ⟨-, hrest⟩ := hrest.of_ite
  · exact effect_getArchitecture hclose hthis
  obtain ⟨-, hthis⟩ | ⟨-, hrest⟩ := hrest.of_ite
  · exact effect_virtualQueryExFull hclose hthis
  obtain ⟨-, hthis⟩ | ⟨-, hrest⟩ := hrest.of_ite
  · exact effect_getABI hclose hthis
  obtain ⟨-, hthis⟩ | ⟨-, hrest⟩ := hrest.of_ite
  · exact effect_setConnectionName hclose hthis
  obtain ⟨-, hthis⟩ | ⟨-, hrest⟩ := hrest.of_ite
  · exact effect_string16 .executable hclose (fun _ => ⟨rfl, rfl⟩) hthis
  obtain ⟨-, hthis⟩ | ⟨-, hrest⟩ := hrest.of_ite
  · exact effect_reply hclose hthis
  obtain ⟨-, hthis⟩ | ⟨-, hrest⟩ := hrest.of_ite
  · exact effect_string16 .getwd hclose (fun _ => ⟨rfl, rfl⟩) hthis
  exact effect_hangUp hclose hrest

end Commands

/-- The loop of `ServeConnection`: the commands of a connection until it ends, at the first
    command that ends it or where no command byte comes any more. -/
inductive Served (server : Server) : ConnectionState M → List (CommandRun M) →
    ConnectionState M → Prop
  | ended (s : ConnectionState M) : Served server s [] s
  | last (r : CommandRun M) (h : Attempt r.before (handleCommand server r.command r.before).run
      r.received r.sent r.calls false r.after) : Served server r.before [r] r.after
  | next (r : CommandRun M) {steps : List (CommandRun M)} {s' : ConnectionState M}
      (h : Attempt r.before (handleCommand server r.command r.before).run
        r.received r.sent r.calls true r.after)
      (hrest : Served server r.after steps s') : Served server r.before (r :: steps) s'

def callsOf (steps : List (CommandRun M)) : List (BackendEvent M) :=
  steps.flatMap CommandRun.calls

theorem callsOf_append (steps steps' : List (CommandRun M)) :
    callsOf (steps ++ steps') = callsOf steps ++ callsOf steps' := List.flatMap_append

theorem callsOf_cons (r : CommandRun M) (steps : List (CommandRun M)) :
    callsOf (r :: steps) = r.calls ++ callsOf steps := rfl

theorem callsOf_singleton (r : CommandRun M) : callsOf [r] = r.calls := by simp [callsOf]

def created (log : List (BackendEvent M)) : Nat := log.countP BackendEvent.creates

theorem created_append (log calls : List (BackendEvent M)) :
    created (log ++ calls) = created log + created calls := List.countP_append

/-- `closeHandles`, with the order in which `range` gives the handles. -/
def closeHandles : List UInt32 → ConnectionState M → Command (BackendApi M) (ConnectionState M)
  | [], s => return s
  | handle :: rest, s => do
    let (_, s) ← closeHandle s handle
    closeHandles rest s

/-- An order in which `range` can give the handles: each once. -/
structure RangeOrder (s : ConnectionState M) (order : List UInt32) : Prop where
  nodup : order.Nodup
  mem_iff : ∀ handle, handle ∈ order ↔ s.handles handle ≠ none

/-- `ServeConnection`: the commands and the calls of `closeHandles`. -/
def ServeConnection (server : Server) (steps : List (CommandRun M))
    (closing : List (BackendEvent M)) : Prop :=
  ∃ s order s', Served server .initial steps s ∧ RangeOrder s order ∧
    Attempt s (closeHandles order s).run [] [] closing true s'

section Runs

variable {server : Server} {s s' : ConnectionState M} {pre post : List (CommandRun M)}
  {r : CommandRun M}

theorem Served.split (h : Served server s (pre ++ r :: post) s') :
    Served server s pre r.before ∧
      ∃ ok, Attempt r.before (handleCommand server r.command r.before).run r.received r.sent
        r.calls ok r.after := by
  induction pre generalizing s with
  | nil =>
    cases h with
    | last _ hr => exact ⟨.ended _, false, hr⟩
    | next _ hr hrest => exact ⟨.ended _, true, hr⟩
  | cons first pre ih =>
    rw [List.cons_append] at h
    generalize hsteps : pre ++ r :: post = steps at h
    cases h with
    | last => exact absurd hsteps (by simp)
    | next _ hfirst hrest =>
      obtain ⟨hpre, hr⟩ := ih (hsteps ▸ hrest)
      exact ⟨.next first hfirst hpre, hr⟩

end Runs

end CheatEngine.LocalBridge
