/-
  CheatEngine.Ceserver.Pipes

  Named pipes that clients open on ceserver (`OpenPipe`, `ReadPipe`,
  `WritePipe` and `CloseAllPipes` of api.c) and keep over several connections.
  The server closes all pipes when its counter of connections reaches 0.
-/
import CheatEngine.Ceserver.References

namespace CheatEngine.Ceserver

open CheatEngine.Lib

/-! ## Data -/

structure PipeData where
  socket : Nat
  pipename : List UInt8
  deriving DecidableEq, Repr

/-- A pipe that a client opened and did not close. -/
structure PipeRecord where
  handle : Int
  pointer : Pointer
  data : PipeData
  deriving DecidableEq, Repr

structure PipeServer where
  server : ServerState
  /-- The pipes by pointer, `none` once they are closed and freed; none of the
      pointers is `NULL`. -/
  pipes : List (Option PipeData)
  /-- What `pipe open` returned and was not given to `pipe close`.  No function
      reads it. -/
  opened : List PipeRecord

namespace PipeServer

def initial : PipeServer := ⟨.initial, [none], []⟩

def pipe (s : PipeServer) (p : Pointer) : Option PipeData := (s.pipes[p]?).join

/-- The socket from which `ReadPipe` receives and to which `WritePipe` sends;
    `none` when they return -1. -/
def pipeSocket (s : PipeServer) (ph : Int) : Option Nat :=
  (s.pipe (s.server.handles.getPointerFromHandle ph)).map (·.socket)

def openPipe (s : PipeServer) (data : PipeData) : PipeServer :=
  let p := s.pipes.length
  let (h, server) := s.server.createHandle p .htPipeHandle
  ⟨server, s.pipes ++ [some data], ⟨h, p, data⟩ :: s.opened⟩

/-- `CloseHandle`, which closes the socket of a pipe. -/
def closeHandle (s : PipeServer) (h : Int) : PipeServer where
  server := s.server.closeHandle h
  pipes :=
    if s.server.handles.getHandleType h = .htPipeHandle then
      s.pipes.set (s.server.handles.getPointerFromHandle h) none
    else s.pipes
  opened := s.opened

def closeAllPipes : Nat → PipeServer → PipeServer
  | 0, s => s
  | rounds + 1, s =>
    let h := s.server.handles.searchHandleList .htPipeHandle fun _ => true
    if h ≠ 0 then closeAllPipes rounds (s.closeHandle h) else s

def threadClosedEvent (s : PipeServer) : PipeServer :=
  let s := { s with server := { s.server with connections := s.server.connections - 1 } }
  let s := if s.server.connections = 0 then s.closeAllPipes s.server.handles.max else s
  if s.server.connections < 0 then
    let s := s.closeAllPipes s.server.handles.max
    { s with server := { s.server with connections := 0 } }
  else s

def stop (s : PipeServer) : PipeServer := ⟨.initial, [none], s.opened⟩

end PipeServer

/-- A step: the commands on pipes and every other step of the server. -/
inductive PipeInput
  | pipeOpen (c : ConnectionId) (data : PipeData) (connected : Bool)
  | pipeClose (c : ConnectionId) (h : Int32)
  | other (input : ServerInput) (noPipe : ∀ c ht, input ≠ .createHandle c .htPipeHandle ht)

namespace PipeServer

def command (s : PipeServer) (c : ConnectionId) (f : ConnectionThread → PipeServer) : PipeServer :=
  match s.server.threads c with
  | none => s
  | some k => f k

/-- A step that is not a command on pipes.  The server's part is that of
    `ServerState.step` (`server_other`). -/
def other (s : PipeServer) : ServerInput → PipeServer
  | .closeHandle c h => s.command c fun _ => s.closeHandle h.toInt
  | .setConnectionName c name =>
    s.command c fun k =>
      if k.threadname = .literal then s.stop
      else { s with server := s.server.step (.setConnectionName c name) }
  | .terminateServer c => s.command c fun _ => s.stop
  | .disconnect c stops =>
    s.command c fun _ =>
      let s := { s with server := s.server.disconnectPath c stops }.threadClosedEvent
      { s with server := s.server.threadReturns c }
  | .readError c =>
    s.command c fun _ =>
      let s := s.threadClosedEvent
      { s with server := s.server.threadReturns c }
  | input => { s with server := s.server.step input }

def step (s : PipeServer) : PipeInput → PipeServer
  | .pipeOpen c data connected => s.command c fun _ => if connected then s.openPipe data else s
  | .pipeClose c h =>
    s.command c fun _ =>
      { s.closeHandle h.toInt with opened := s.opened.filter (·.handle ≠ h.toInt) }
  | .other input _ => s.other input

variable {s s' : PipeServer} {h : Int} {p : Pointer}

end PipeServer

/-! ## Pipe handles -/

namespace ServerState

variable {s : ServerState} {h h' : Int} {p q : Pointer} {pid : Int32}

def PipeAt (s : ServerState) (h : Int) (p : Pointer) : Prop :=
  0 < h ∧ h < s.handles.max ∧ s.handles.entry h.toNat = ⟨.htPipeHandle, p⟩

section

variable (hpipe : PipeAt s h p)
include hpipe

theorem PipeAt.type : s.handles.getHandleType h = .htPipeHandle := by
  obtain ⟨hpos, hlt, hentry⟩ := hpipe
  rw [HandleTable.getHandleType, if_pos ⟨hpos, hlt⟩, hentry]

theorem PipeAt.pointer : s.handles.getPointerFromHandle h = p := by
  obtain ⟨hpos, hlt, hentry⟩ := hpipe
  rw [HandleTable.getPointerFromHandle_of_used, hentry]
  rw [HandleTable.used_iff, hentry]
  exact ⟨hpos, hlt, fun hcon => HandleType.noConfusion hcon⟩

theorem PipeAt.ne_of_processOf (hq : s.processOf h' = some q) : h' ≠ h := by
  rintro rfl
  have hentry := (processOf_eq_some.1 hq).2.2
  rw [hpipe.2.2] at hentry
  exact HandleType.noConfusion (congrArg HandleListEntry.type hentry)

theorem PipeAt.createHandle (q : Pointer) (type : HandleType)
    (hcap : (s.createHandle q type).2.capacity ≤ s.capacity) :
    PipeAt (s.createHandle q type).2 h p ∧ (s.createHandle q type).1 ≠ h := by
  obtain ⟨hpos, hlt, hentry⟩ := hpipe
  rcases HandleTable.create_cases s.handles q type with
    ⟨i, hipos, hilt, hempty, hput⟩ | ⟨-, hgrow⟩
  · have hhandles : (s.createHandle q type).2.handles = s.handles.ensure.put i ⟨type, q⟩ := by
      rw [ServerState.createHandle, hput]
    have hfst : (s.createHandle q type).1 = i := by rw [ServerState.createHandle, hput]
    have hle : s.handles.max ≤ s.handles.ensure.max := HandleTable.max_le_ensure
    have hne : ¬ i = h.toNat := by
      intro hi
      rw [hi, hentry] at hempty
      exact HandleType.noConfusion hempty
    refine ⟨⟨hpos, ?_, ?_⟩, ?_⟩
    · rw [hhandles, HandleTable.put_max]
      omega
    · rw [hhandles, HandleTable.entry_put hilt, if_neg hne, HandleTable.ensure_entry]
      exact hentry
    · rw [hfst]
      omega
  · have hmax : (s.createHandle q type).2.handles.max ≤ (s.createHandle q type).2.capacity :=
      HandleTable.max_le_ensure
    have hgrow' : s.capacity < (s.createHandle q type).2.handles.max := hgrow
    omega

theorem PipeAt.removeHandle (hne : h' ≠ h) :
    PipeAt { s with handles := s.handles.removeHandle h' } h p := by
  obtain ⟨hpos, hlt, hentry⟩ := hpipe
  refine ⟨hpos, by simpa using hlt, ?_⟩
  rw [HandleTable.removeHandle_entry (by omega)]
  exact hentry

theorem PipeAt.closeHandle (hne : h' ≠ h) :
    PipeAt (s.closeHandle h') h p := by
  unfold ServerState.closeHandle
  repeat' split
  · exact hpipe.removeHandle hne
  · exact hpipe
  · exact hpipe.removeHandle hne
  · exact hpipe

theorem PipeAt.moduleSnapshot {opens : ServerState → Int32 → Int × ServerState} {maps : Bool}
    (hmono : s.capacity ≤ (opens s pid).2.capacity)
    (hopens : (opens s pid).2.capacity ≤ s.capacity →
      PipeAt (opens s pid).2 h p ∧ (opens s pid).1 ≠ h)
    (hcap : (moduleSnapshot opens maps s pid).2.capacity ≤ s.capacity) :
    PipeAt (ServerState.moduleSnapshot opens maps s pid).2 h p ∧
      (ServerState.moduleSnapshot opens maps s pid).1 ≠ h := by
  cases maps with
  | false => exact ⟨hpipe, (Int.ne_of_gt hpipe.1).symm⟩
  | true =>
    have hcreate : ((opens s pid).2.closeHandle (opens s pid).1).capacity ≤
        (ServerState.moduleSnapshot opens true s pid).2.capacity := capacity_createHandle
    rw [capacity_closeHandle] at hcreate
    obtain ⟨hopened, hne⟩ := hopens (hcreate.trans hcap)
    apply (hopened.closeHandle hne).createHandle
    rw [capacity_closeHandle]
    exact hcap.trans hmono

end

theorem PipeAt.openProcess (proc : ProcAnswers) (fuel : Nat) (hpipe : PipeAt s h p)
    (hcap : (openProcess proc fuel s pid).2.capacity ≤ s.capacity) :
    PipeAt (ServerState.openProcess proc fuel s pid).2 h p ∧
      (ServerState.openProcess proc fuel s pid).1 ≠ h := by
  have hzero : (0 : Int) ≠ h := (Int.ne_of_gt hpipe.1).symm
  induction fuel generalizing s with
  | zero => exact ⟨hpipe, hzero⟩
  | succ fuel ih =>
    rcases openProcess_cases proc fuel s pid with heq | heq | ⟨o, m, ho, hm, heq⟩
    · rw [heq]
      refine ⟨hpipe, ?_⟩
      -- the search returns a process handle, or 0
      by_cases hfound : s.openedHandle pid ≠ 0
      · obtain ⟨r, hprocess, -⟩ := openedHandle_spec hfound
        exact hpipe.ne_of_processOf hprocess
      · rw [not_not.1 hfound]
        exact hzero
    · rw [heq]
      exact ⟨hpipe, hzero⟩
    · have hcapo : s.capacity ≤ o.2.capacity := by
        rw [ho]
        exact capacity_createHandle (s := (s.malloc (.new pid)).2)
      have hcapm : o.2.capacity ≤ m.2.capacity := by
        rw [hm]
        exact capacity_moduleSnapshot (capacity_openProcess proc fuel o.2)
      rw [heq, capacity_ite_closeHandle] at hcap
      have hnew : PipeAt o.2 h p ∧ o.1 ≠ h := by
        rw [ho]
        have hmalloc : PipeAt (s.malloc (.new pid)).2 h p := hpipe
        apply hmalloc.createHandle
        rw [← ho]
        exact hcapm.trans hcap
      have hlist : PipeAt m.2 h p ∧ m.1 ≠ h := by
        rw [hm] at hcap ⊢
        apply hnew.1.moduleSnapshot (capacity_openProcess proc fuel o.2)
        · exact fun hle => ih hnew.1 hle
        · exact hcap.trans hcapo
      rw [heq]
      refine ⟨?_, hnew.2⟩
      show PipeAt (if m.1 ≠ 0 then m.2.closeHandle m.1 else m.2) h p
      split
      · exact hlist.1.closeHandle hlist.2
      · exact hlist.1

theorem PipeAt.openExtension (hpipe : PipeAt s h p)
    (hcap : s.openExtension.capacity ≤ s.capacity) : PipeAt s.openExtension h p := by
  have hcreate : (s.createHandle 0 .htPipeHandle).2.capacity ≤ s.capacity := by
    refine Nat.le_trans ?_ hcap
    exact (HandleTable.ensure_max_congr (HandleTable.removeHandle_max _)).ge
  obtain ⟨hkept, hne⟩ := hpipe.createHandle 0 .htPipeHandle hcreate
  exact hkept.removeHandle hne

/-- From `s` to `s'` no handle becomes one of a pipe. -/
def NoNewPipe (s s' : ServerState) : Prop := ∀ h p, p ≠ 0 → PipeAt s' h p → PipeAt s h p

theorem NoNewPipe.refl : NoNewPipe s s := fun _ _ _ hpipe => hpipe

theorem NoNewPipe.trans {s₁ s₂ : ServerState} (h₁ : NoNewPipe s s₁) (h₂ : NoNewPipe s₁ s₂) :
    NoNewPipe s s₂ :=
  fun h p hp hpipe => h₁ h p hp (h₂ h p hp hpipe)

theorem pipeAt_of_createHandle {type : HandleType} (hpipe : PipeAt (s.createHandle q type).2 h p) :
    PipeAt s h p ∨ (type = .htPipeHandle ∧ p = q ∧ h = (s.createHandle q type).1) := by
  obtain ⟨hpos, hlt, hentry⟩ := hpipe
  rcases HandleTable.create_cases s.handles q type with ⟨i, hipos, hilt, -, hput⟩ | ⟨hput, -⟩
  · have hhandles : (s.createHandle q type).2.handles = s.handles.ensure.put i ⟨type, q⟩ := by
      rw [ServerState.createHandle, hput]
    have hfst : (s.createHandle q type).1 = i := by rw [ServerState.createHandle, hput]
    rw [hhandles, HandleTable.entry_put hilt] at hentry
    split at hentry
    · next hi =>
      rw [HandleListEntry.mk.injEq] at hentry
      exact .inr ⟨hentry.1, hentry.2.symm, by rw [hfst]; omega⟩
    · rw [HandleTable.ensure_entry] at hentry
      refine .inl ⟨hpos, ?_, hentry⟩
      by_contra hge
      have hzero : s.handles.entry h.toNat = .zero := by
        have hout : s.handles.handleList.length ≤ h.toNat := by
          have hlen : s.handles.handleList.length = s.handles.max := rfl
          omega
        rw [HandleTable.entry, List.getD_eq_getElem?_getD, List.getElem?_eq_none hout]
        rfl
      rw [hzero] at hentry
      exact HandleType.noConfusion (congrArg HandleListEntry.type hentry)
  · -- an enlarged list has no handle but the new one
    have hmax : 0 < s.handles.ensure.max := HandleTable.ensure_max_pos
    have hhandles : (s.createHandle q type).2.handles =
        s.handles.ensure.grow.put s.handles.ensure.max ⟨type, q⟩ := by
      rw [ServerState.createHandle, hput]
    have hfst : (s.createHandle q type).1 = s.handles.ensure.max := by
      rw [ServerState.createHandle, hput]
    have hused : (s.handles.ensure.grow.put s.handles.ensure.max ⟨type, q⟩).used h = true := by
      rw [← hhandles, HandleTable.used_iff, hentry]
      exact ⟨hpos, hlt, fun hcon => HandleType.noConfusion hcon⟩
    have hh := HandleTable.used_grow_put hmax hused
    rw [hhandles, hh, Int.toNat_natCast,
      HandleTable.entry_put (by rw [HandleTable.grow_max]; omega), if_pos rfl,
      HandleListEntry.mk.injEq] at hentry
    exact .inr ⟨hentry.1, hentry.2.symm, hh.trans hfst.symm⟩

theorem noNewPipe_createHandle {type : HandleType} (hne : type ≠ .htPipeHandle ∨ q = 0) :
    NoNewPipe s (s.createHandle q type).2 := by
  intro h p hp hpipe
  rcases pipeAt_of_createHandle hpipe with hold | ⟨htype, hq, -⟩
  · exact hold
  · rcases hne with hne | hzero
    · exact absurd htype hne
    · exact absurd (hq.trans hzero) hp

theorem noNewPipe_removeHandle (h : Int) :
    NoNewPipe s { s with handles := s.handles.removeHandle h } := by
  rintro h' p - ⟨hpos, hlt, hentry⟩
  have hlt' : h' < s.handles.max := by simpa using hlt
  by_cases hne : h = h'
  · subst hne
    by_cases hused : s.handles.used h = true
    · simp only [HandleTable.removeHandle, hused, if_true] at hentry
      rw [HandleTable.entry_put (by omega), if_pos rfl] at hentry
      exact HandleType.noConfusion (congrArg HandleListEntry.type hentry)
    · simp only [HandleTable.removeHandle, if_neg hused] at hentry
      exact ⟨hpos, hlt', hentry⟩
  · have hsame : (s.handles.removeHandle h).entry h'.toNat = s.handles.entry h'.toNat :=
      HandleTable.removeHandle_entry (by omega)
    exact ⟨hpos, hlt', hsame.symm.trans hentry⟩

theorem noNewPipe_closeHandle (h : Int) : NoNewPipe s (s.closeHandle h) := by
  unfold closeHandle
  repeat' split
  · exact noNewPipe_removeHandle h
  · exact NoNewPipe.refl
  · exact noNewPipe_removeHandle h
  · exact NoNewPipe.refl

theorem noNewPipe_moduleSnapshot {opens : ServerState → Int32 → Int × ServerState} {maps : Bool}
    (hopens : NoNewPipe s (opens s pid).2) :
    NoNewPipe s (moduleSnapshot opens maps s pid).2 := by
  cases maps with
  | false => exact NoNewPipe.refl
  | true =>
    apply (hopens.trans (noNewPipe_closeHandle _)).trans
    exact noNewPipe_createHandle (.inl (by decide))

theorem noNewPipe_openProcess (proc : ProcAnswers) (fuel : Nat) (s : ServerState) :
    NoNewPipe s (openProcess proc fuel s pid).2 := by
  induction fuel generalizing s with
  | zero => exact NoNewPipe.refl
  | succ fuel ih =>
    rcases openProcess_cases proc fuel s pid with heq | heq | ⟨o, m, ho, hm, heq⟩
    · rw [heq]
      exact NoNewPipe.refl
    · rw [heq]
      exact NoNewPipe.refl
    · have hnew : NoNewPipe s o.2 := by
        have hmalloc : NoNewPipe s (s.malloc (.new pid)).2 := NoNewPipe.refl
        rw [ho]
        exact hmalloc.trans (noNewPipe_createHandle (.inl (by decide)))
      have hlist : NoNewPipe s m.2 := by
        rw [hm]
        exact hnew.trans (noNewPipe_moduleSnapshot (ih o.2))
      rw [heq]
      show NoNewPipe s (if m.1 ≠ 0 then m.2.closeHandle m.1 else m.2)
      split
      · exact hlist.trans (noNewPipe_closeHandle _)
      · exact hlist

theorem noNewPipe_openExtension : NoNewPipe s s.openExtension :=
  (noNewPipe_createHandle (.inr rfl)).trans (noNewPipe_removeHandle _)

theorem handles_startDebug (c : ConnectionId) (h : Int32) (tasks : Option (List (Int32 × Bool))) :
    (s.startDebug c h tasks).handles = s.handles := by
  unfold startDebug
  cases s.processOf h.toInt with
  | none => rfl
  | some p =>
    cases hr : s.process p with
    | none => simp only [hr]
    | some r =>
      simp only [hr]
      split <;> rfl

theorem handles_stopDebug (c : ConnectionId) (stops : Int32 → Bool) (h : Int32) :
    (s.stopDebug c stops h).handles = s.handles := by
  unfold stopDebug
  repeat' split
  all_goals rfl

theorem handles_disconnectPath (c : ConnectionId) (stops : Int32 → Bool) :
    (s.disconnectPath c stops).handles = s.handles := by
  unfold disconnectPath
  repeat' split
  all_goals first | rfl | exact handles_stopDebug c stops _

theorem connections_disconnectPath (c : ConnectionId) (stops : Int32 → Bool) :
    (s.disconnectPath c stops).connections = s.connections := by
  unfold disconnectPath stopDebug
  repeat' split
  all_goals rfl

end ServerState

/-! ## Runs that keep their pipes -/

namespace PipeServer

open ServerState

/-- Every pipe that is open for a client is where its handle says, and open. -/
def Designates (s : PipeServer) : Prop :=
  ∀ r ∈ s.opened, s.server.handles.getHandleType r.handle = .htPipeHandle ∧
    s.server.handles.getPointerFromHandle r.handle = r.pointer ∧
    s.pipe r.pointer = some r.data ∧ s.pipeSocket r.handle = some r.data.socket

/-- The condition on a step, by the state before it: while a client has a pipe
    open,
    * a connection that ends is not the last one;
    * no other command closes the pipe's handle;
    * the handle list is not enlarged;
    * the server is not stopped. -/
def KeepsPipes (s : PipeServer) (input : PipeInput) : Prop :=
  s.opened = [] ∨
    match input with
    | .other (.disconnect _ _) _ => 2 ≤ s.server.connections
    | .other (.readError _) _ => 2 ≤ s.server.connections
    | .other (.closeHandle _ h) _ => ∀ r ∈ s.opened, r.handle ≠ h.toInt
    | .other (.terminateServer c) _ => s.server.threads c = none
    | .other (.setConnectionName c _) _ => ∀ k, s.server.threads c = some k →
        k.threadname ≠ .literal
    | input => (s.step input).server.capacity ≤ s.server.capacity

/-- The records of the clients are those of open pipes, each with a handle of
    its own. -/
structure Inv (s : PipeServer) : Prop where
  null : s.pipes[0]? = some none
  bound : ∀ h p, PipeAt s.server h p → p < s.pipes.length
  there : ∀ r ∈ s.opened, PipeAt s.server r.handle r.pointer
  data : ∀ r ∈ s.opened, s.pipe r.pointer = some r.data
  only : ∀ r ∈ s.opened, ∀ h, PipeAt s.server h r.pointer → h = r.handle

variable {s s' : PipeServer} {h : Int} {input : ServerInput}

theorem not_pipeAt_initial (h : Int) (p : Pointer) : ¬ PipeAt .initial h p := by
  rintro ⟨hpos, hlt, -⟩
  have hmax : ServerState.initial.handles.max = 0 := rfl
  omega

theorem inv_initial : Inv initial where
  null := rfl
  bound h p hpipe := absurd hpipe (not_pipeAt_initial h p)
  there _ hr := nomatch hr
  data _ hr := nomatch hr
  only _ hr := nomatch hr

theorem Inv.designates (hs : Inv s) : Designates s := by
  intro r hr
  have hpipe := hs.there r hr
  refine ⟨hpipe.type, hpipe.pointer, hs.data r hr, ?_⟩
  rw [pipeSocket, hpipe.pointer, hs.data r hr]
  rfl

theorem Inv.pointer_ne (hs : Inv s) {r : PipeRecord} (hr : r ∈ s.opened) : r.pointer ≠ 0 := by
  intro hzero
  have hdata := hs.data r hr
  rw [pipe, hzero, hs.null] at hdata
  exact nomatch hdata

variable {server : ServerState}

theorem Inv.of_server (hs : Inv s)
    (hkept : ∀ r ∈ s.opened, PipeAt s.server r.handle r.pointer →
      PipeAt server r.handle r.pointer) (hnew : NoNewPipe s.server server) :
    Inv { s with server } where
  null := hs.null
  bound h p hpipe := by
    by_cases hp : p = 0
    · rw [hp]
      exact (List.getElem?_eq_some_iff.1 hs.null).1
    · exact hs.bound h p (hnew h p hp hpipe)
  there r hr := hkept r hr (hs.there r hr)
  data := hs.data
  only r hr h hpipe := hs.only r hr h (hnew h r.pointer (hs.pointer_ne hr) hpipe)

theorem Inv.of_handles (hs : Inv s)
    (hsame : server.handles = s.server.handles) : Inv { s with server } := by
  apply hs.of_server
  · rintro r - ⟨hpos, hlt, hentry⟩
    rw [← hsame] at hlt hentry
    exact ⟨hpos, hlt, hentry⟩
  · rintro h p - ⟨hpos, hlt, hentry⟩
    rw [hsame] at hlt hentry
    exact ⟨hpos, hlt, hentry⟩

theorem lt_of_pipe {p : Pointer} {d : PipeData} (hp : s.pipe p = some d) : p < s.pipes.length := by
  by_contra hge
  simp [pipe, List.getElem?_eq_none (Nat.le_of_not_lt hge)] at hp

theorem inv_openPipe (hs : Inv s) (data : PipeData)
    (hcap : s.opened = [] ∨ (s.openPipe data).server.capacity ≤ s.server.capacity) :
    Inv (s.openPipe data) := by
  have hserver : (s.openPipe data).server =
      (s.server.createHandle s.pipes.length .htPipeHandle).2 := rfl
  have hopened : (s.openPipe data).opened =
      ⟨(s.server.createHandle s.pipes.length .htPipeHandle).1, s.pipes.length, data⟩ ::
        s.opened := rfl
  have hpipes : (s.openPipe data).pipes = s.pipes ++ [some data] := rfl
  have hnew : PipeAt (s.server.createHandle s.pipes.length .htPipeHandle).2
      (s.server.createHandle s.pipes.length .htPipeHandle).1 s.pipes.length :=
    HandleTable.create_entry s.server.handles s.pipes.length .htPipeHandle
  have hlt : ∀ r ∈ s.opened, r.pointer < s.pipes.length :=
    fun r hr => lt_of_pipe (hs.data r hr)
  refine ⟨?_, ?_, ?_, ?_, ?_⟩
  · rw [hpipes, List.getElem?_append_left]
    · exact hs.null
    · exact (List.getElem?_eq_some_iff.1 hs.null).1
  · intro h p hpipe
    rw [hpipes, List.length_append, List.length_singleton]
    rcases pipeAt_of_createHandle hpipe with hold | ⟨-, hp, -⟩
    · exact Nat.lt_succ_of_lt (hs.bound h p hold)
    · rw [hp]
      exact Nat.lt_succ_self _
  · intro r hr
    rw [hserver]
    rw [hopened] at hr
    rcases List.mem_cons.1 hr with rfl | hr
    · exact hnew
    · rcases hcap with hnil | hcap
      · rw [hnil] at hr
        exact nomatch hr
      · exact ((hs.there r hr).createHandle _ _ hcap).1
  · intro r hr
    rw [pipe, hpipes]
    rw [hopened] at hr
    rcases List.mem_cons.1 hr with rfl | hr
    · simp
    · rw [List.getElem?_append_left (hlt r hr)]
      exact hs.data r hr
  · intro r hr h hpipe
    rw [hserver] at hpipe
    rw [hopened] at hr
    rcases List.mem_cons.1 hr with rfl | hr
    · rcases pipeAt_of_createHandle hpipe with hold | ⟨-, -, hh⟩
      · exact absurd (hs.bound h _ hold) (Nat.lt_irrefl _)
      · exact hh
    · rcases pipeAt_of_createHandle hpipe with hold | ⟨-, hp, -⟩
      · exact hs.only r hr h hold
      · exact absurd hp (Nat.ne_of_lt (hlt r hr))

theorem inv_closeHandle (hs : Inv s) (h : Int) {opened : List PipeRecord}
    (hopened : ∀ r ∈ opened, r ∈ s.opened ∧ r.handle ≠ h) :
    Inv { s.closeHandle h with opened } := by
  have hnew : NoNewPipe s.server (s.server.closeHandle h) := noNewPipe_closeHandle h
  have hlength : { s.closeHandle h with opened }.pipes.length = s.pipes.length := by
    show (if s.server.handles.getHandleType h = .htPipeHandle then
      s.pipes.set (s.server.handles.getPointerFromHandle h) none else s.pipes).length = _
    split
    · exact List.length_set
    · rfl
  have hpipe : ∀ p, (s.server.handles.getHandleType h = .htPipeHandle →
      s.server.handles.getPointerFromHandle h ≠ p) →
      { s.closeHandle h with opened }.pipes[p]? = s.pipes[p]? := by
    intro p hne
    show (if s.server.handles.getHandleType h = .htPipeHandle then
      s.pipes.set (s.server.handles.getPointerFromHandle h) none else s.pipes)[p]? = _
    split
    · next htype => rw [List.getElem?_set, if_neg (hne htype)]
    · rfl
  refine ⟨?_, ?_, ?_, ?_, ?_⟩
  · show (if s.server.handles.getHandleType h = .htPipeHandle then
      s.pipes.set (s.server.handles.getPointerFromHandle h) none else s.pipes)[0]? = _
    have hpos := (List.getElem?_eq_some_iff.1 hs.null).1
    split
    · rw [List.getElem?_set]
      split
      · rw [if_pos (by omega)]
      · exact hs.null
    · exact hs.null
  · intro h' p hat
    rw [hlength]
    by_cases hp : p = 0
    · rw [hp]
      exact (List.getElem?_eq_some_iff.1 hs.null).1
    · exact hs.bound h' p (hnew h' p hp hat)
  · intro r hr
    obtain ⟨hmem, hne⟩ := hopened r hr
    exact (hs.there r hmem).closeHandle (Ne.symm hne)
  · intro r hr
    obtain ⟨hmem, hne⟩ := hopened r hr
    rw [pipe, hpipe r.pointer]
    · exact hs.data r hmem
    · -- a handle with this pointer would be the client's own
      intro htype hpointer
      refine hne (hs.only r hmem h ?_).symm
      rw [HandleTable.getHandleType] at htype
      split at htype
      · next hrange =>
        refine ⟨hrange.1, hrange.2, ?_⟩
        rw [HandleTable.getPointerFromHandle_of_used] at hpointer
        · rw [← htype, ← hpointer]
        · rw [HandleTable.used_iff, htype]
          exact ⟨hrange.1, hrange.2, by decide⟩
      · exact HandleType.noConfusion htype
  · intro r hr h' hat
    obtain ⟨hmem, -⟩ := hopened r hr
    exact hs.only r hmem h' (hnew h' r.pointer (hs.pointer_ne hmem) hat)

theorem inv_closeAllPipes (hs : Inv s) (hnil : s.opened = []) (rounds : Nat) :
    Inv (s.closeAllPipes rounds) := by
  induction rounds generalizing s with
  | zero => exact hs
  | succ rounds ih =>
    unfold closeAllPipes
    dsimp only
    split
    · apply ih
      · apply inv_closeHandle hs
        rw [hnil]
        exact fun _ hr => nomatch hr
      · exact hnil
    · exact hs

theorem opened_closeAllPipes (rounds : Nat) : (s.closeAllPipes rounds).opened = s.opened := by
  induction rounds generalizing s with
  | zero => rfl
  | succ rounds ih =>
    unfold closeAllPipes
    dsimp only
    split
    · exact ih
    · rfl

theorem inv_threadClosedEvent (hs : Inv s) (hkeep : s.opened = [] ∨ 2 ≤ s.server.connections) :
    Inv s.threadClosedEvent := by
  have hcount : Inv { s with server := { s.server with connections := s.server.connections - 1 } } :=
    hs.of_handles rfl
  unfold threadClosedEvent
  generalize hs₁ : { s with server := { s.server with connections := s.server.connections - 1 } } =
    s₁ at hcount ⊢
  have hopened : s₁.opened = s.opened := by rw [← hs₁]
  have hconnections : s₁.server.connections = s.server.connections - 1 := by rw [← hs₁]
  rcases hkeep with hnil | htwo
  · rw [hnil] at hopened
    have hclosed : ∀ s₂ : PipeServer, Inv s₂ ∧ s₂.opened = [] →
        Inv (if s₂.server.connections < 0 then
          { s₂.closeAllPipes s₂.server.handles.max with
            server := { (s₂.closeAllPipes s₂.server.handles.max).server with connections := 0 } }
        else s₂) := by
      rintro s₂ ⟨hs₂, hnil₂⟩
      split
      · exact (inv_closeAllPipes hs₂ hnil₂ _).of_handles rfl
      · exact hs₂
    apply hclosed
    split
    · exact ⟨inv_closeAllPipes hcount hopened _, by rw [opened_closeAllPipes, hopened]⟩
    · exact ⟨hcount, hopened⟩
  · have hpos : ¬ s₁.server.connections = 0 := by omega
    have hneg : ¬ s₁.server.connections < 0 := by omega
    dsimp only
    rw [if_neg hpos, if_neg hneg]
    exact hcount

theorem inv_stop (hnil : s.opened = []) : Inv s.stop where
  null := rfl
  bound h p hpipe := absurd hpipe (not_pipeAt_initial h p)
  there r hr := by
    rw [stop, hnil] at hr
    exact nomatch hr
  data r hr := by
    rw [stop, hnil] at hr
    exact nomatch hr
  only r hr := by
    rw [stop, hnil] at hr
    exact nomatch hr

theorem inv_command (hs : Inv s) (c : ConnectionId) {f : ConnectionThread → PipeServer}
    (hf : ∀ k, s.server.threads c = some k → Inv (f k)) : Inv (s.command c f) := by
  unfold command
  split
  · exact hs
  · next k hk => exact hf k hk

theorem inv_creates (hs : Inv s) {c : ConnectionId} {input : ServerInput}
    (hstep : s.server.step input = s.server.command c fun _ => server)
    (hcap : s.opened = [] ∨ (s.server.step input).capacity ≤ s.server.capacity)
    (hkept : ∀ h p, PipeAt s.server h p → server.capacity ≤ s.server.capacity → PipeAt server h p)
    (hnew : NoNewPipe s.server server) : Inv { s with server := s.server.step input } := by
  rw [hstep] at hcap ⊢
  unfold ServerState.command at hcap ⊢
  split
  · exact hs
  · next k hk =>
    simp only [hk] at hcap
    apply hs.of_server _ hnew
    rcases hcap with hnil | hcap
    · rw [hnil]
      exact fun _ hr => nomatch hr
    · exact fun r _ hat => hkept r.handle r.pointer hat hcap

theorem inv_other (hs : Inv s) (hkeep : ∀ noPipe, KeepsPipes s (.other input noPipe))
    (noPipe : ∀ c ht, input ≠ .createHandle c .htPipeHandle ht) : Inv (s.other input) := by
  have hkeep := hkeep noPipe
  cases input with
  | connect c =>
    apply hs.of_handles
    show (s.server.step (.connect c)).handles = _
    simp only [ServerState.step]
    split <;> rfl
  | setConnectionName c name =>
    apply inv_command hs
    intro k hk
    split
    · next hliteral =>
      rcases hkeep with hnil | hname
      · exact inv_stop hnil
      · exact absurd hliteral (hname k hk)
    · next hliteral =>
      apply hs.of_handles
      show (s.server.step (.setConnectionName c name)).handles = _
      simp only [ServerState.step, ServerState.command, hk, if_neg hliteral]
      rfl
  | openProcess c pid proc =>
    refine inv_creates hs rfl hkeep ?_ (noNewPipe_openProcess proc 2 s.server)
    exact fun h p hat hcap => (hat.openProcess proc 2 hcap).1
  | closeHandle c h =>
    apply inv_command hs
    intro k hk
    apply inv_closeHandle hs
    intro r hr
    refine ⟨hr, ?_⟩
    rcases hkeep with hnil | hne
    · rw [hnil] at hr
      cases hr
    · exact hne r hr
  | moduleSnapshot c pid proc =>
    refine inv_creates hs rfl hkeep ?_
      (noNewPipe_moduleSnapshot (noNewPipe_openProcess proc 2 s.server))
    intro h p hat hcap
    refine (hat.moduleSnapshot (capacity_openProcess proc 2 s.server) ?_ hcap).1
    exact fun hle => hat.openProcess proc 2 hle
  | createHandle c type hother =>
    have htype : type ≠ .htPipeHandle := by
      rintro rfl
      exact noPipe c hother rfl
    refine inv_creates hs rfl hkeep ?_ (noNewPipe_createHandle (.inl htype))
    exact fun h p hat hcap => (hat.createHandle 0 type hcap).1
  | openExtension c =>
    refine inv_creates hs rfl hkeep ?_ noNewPipe_openExtension
    exact fun h p hat hcap => hat.openExtension hcap
  | startDebug c h tasks =>
    apply hs.of_handles
    show (s.server.step (.startDebug c h tasks)).handles = _
    simp only [ServerState.step, ServerState.command]
    split
    · rfl
    · exact handles_startDebug c h tasks
  | debugCommand c h change =>
    apply hs.of_handles
    show (s.server.step (.debugCommand c h change)).handles = _
    simp only [ServerState.step, ServerState.command]
    repeat' split
    all_goals rfl
  | closeConnection c stops =>
    apply hs.of_handles
    show (s.server.step (.closeConnection c stops)).handles = _
    simp only [ServerState.step, ServerState.command]
    repeat' split
    · rfl
    · exact handles_stopDebug c stops _
    · rfl
  | terminateServer c =>
    apply inv_command hs
    intro k hk
    rcases hkeep with hnil | hnone
    · exact inv_stop hnil
    · rw [hnone] at hk
      cases hk
  | disconnect c stops =>
    apply inv_command hs
    intro k hk
    have hpath : Inv { s with server := s.server.disconnectPath c stops } :=
      hs.of_handles (handles_disconnectPath c stops)
    refine (inv_threadClosedEvent hpath ?_).of_handles rfl
    rcases hkeep with hnil | htwo
    · exact .inl hnil
    · refine .inr ?_
      show 2 ≤ (s.server.disconnectPath c stops).connections
      rw [connections_disconnectPath]
      exact htwo
  | readError c =>
    apply inv_command hs
    intro k hk
    exact (inv_threadClosedEvent hs hkeep).of_handles rfl
  | threadExit tid => exact hs.of_handles rfl

theorem inv_step (hs : Inv s) (input : PipeInput) (hkeep : KeepsPipes s input) :
    Inv (s.step input) := by
  cases input with
  | pipeOpen c data connected =>
    have hkeep' : s.opened = [] ∨ (s.command c fun _ =>
        if connected then s.openPipe data else s).server.capacity ≤ s.server.capacity := hkeep
    apply inv_command hs
    intro k hk
    split
    · next hconnected =>
      apply inv_openPipe hs
      rw [command, hk] at hkeep'
      simpa only [hconnected, if_true] using hkeep'
    · exact hs
  | pipeClose c h =>
    apply inv_command hs
    intro k hk
    apply inv_closeHandle hs
    intro r hr
    rw [List.mem_filter] at hr
    exact ⟨hr.1, by simpa using hr.2⟩
  | other input noPipe => exact inv_other hs (fun _ => hkeep) noPipe

end PipeServer

/-- A command line: a connection that is opened, used and closed.  The server
    closes its own socket and finds it closed when it reads again. -/
def invocation (c : ConnectionId) (commands : List PipeInput) : List PipeInput :=
  [.other (.connect c) (by simp)] ++ commands ++
    [.other (.closeConnection c fun _ => true) (by simp), .other (.readError c) (by simp)]

/-- `pipe open` while another client is connected. -/
def openWhileConnected : List PipeInput :=
  .other (.connect 9) (by simp) :: invocation 0 [.pipeOpen 0 ⟨5, ascii "ceserver-extension"⟩ true]

end CheatEngine.Ceserver
