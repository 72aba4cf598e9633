/-
  CheatEngine.Ceserver.ThreadContext

  Thread contexts: `getContext` and `setContext` (context.c), the functions
  `GetThreadContext` and `SetThreadContext` around them (api.c), and the block of
  memory into which the dispatcher receives the context of a client.

  A `CONTEXT` is a header of eight bytes, the general-purpose registers and the
  floating-point registers, all of them bytes here; what `ptrace` does with them is
  a parameter (`Ptrace`).  The reader of the block trusts that it holds a whole
  `CONTEXT`, and only the general-purpose registers are ever written.
-/
import CheatEngine.Ceserver.Dispatch
import CheatEngine.Client.Debug

namespace CheatEngine.Ceserver

open CheatEngine.Lib

/-- The build of ceserver and the mode of a thread: a server of 64-bit ARM has
    threads of both kinds. -/
inductive ThreadArch
  | i386
  | x86_64
  | arm
  | aarch64
  /-- A 32-bit thread under a server of 64-bit ARM. -/
  | aarch32

namespace ThreadArch

/-- The general-purpose registers that `ptrace` exchanges: `user_regs_struct`,
    `pt_regs`, `user_pt_regs`, and for a 32-bit thread `pt_regs32`. -/
def regsSize : ThreadArch → Nat
  | .i386 => 68
  | .x86_64 => 216
  | .arm => 72
  | .aarch64 => 272
  | .aarch32 => 72

/-- The floating-point registers that `ptrace` exchanges. -/
def fpSize : ThreadArch → Nat
  | .i386 => 512
  | .x86_64 => 512
  | .arm => 260
  | .aarch64 => 528
  | .aarch32 => 260

/-- The room for them: `CONTEXT_FP`, or `CONTEXT_FP32`. -/
def fpRoom : ThreadArch → Nat
  | .i386 => 512
  | .x86_64 => 512
  | .arm => 264
  | .aarch64 => 528
  | .aarch32 => 264

def type : ThreadArch → UInt32
  | .i386 => 0
  | .x86_64 => 1
  | .arm => 2
  | .aarch64 => 3
  | .aarch32 => 2

theorem fpSize_le (a : ThreadArch) : a.fpSize ≤ a.fpRoom := by cases a <;> decide

theorem regsSize_pos (a : ThreadArch) : 0 < a.regsSize := by cases a <;> decide

theorem size_le (a : ThreadArch) : a.regsSize + a.fpRoom ≤ 4096 := by cases a <;> decide

end ThreadArch

/-- The general-purpose registers of a thread, as bytes. -/
abbrev Regs (a : ThreadArch) : Type := { bytes : List UInt8 // bytes.length = a.regsSize }

/-- The registers of a stopped thread. -/
structure ThreadState (a : ThreadArch) where
  regs : Regs a
  fp : List UInt8
  fp_length : fp.length = a.fpSize

/-- What `ptrace` does for a stopped thread: whether it gives its registers, and what
    becomes of the general-purpose registers `old` when `given` are set; `none` when
    it refuses. -/
structure Ptrace (a : ThreadArch) where
  getsRegs : Bool
  getsFp : Bool
  setRegs : (old given : Regs a) → Option (Regs a)

section Context

variable {a : ThreadArch} (k : Ptrace a)

/-- The field `fp` after a `memset` and the request for the floating-point registers,
    whose result is not looked at. -/
def exportedFp (t : ThreadState a) : List UInt8 :=
  if k.getsFp then t.fp ++ List.replicate (a.fpRoom - a.fpSize) 0
  else List.replicate a.fpRoom 0

/-- The general-purpose registers do not show in the floating-point field. -/
theorem exportedFp_setRegs (t : ThreadState a) (r : Regs a) :
    exportedFp k { t with regs := r } = exportedFp k t := rfl

theorem length_exportedFp (t : ThreadState a) : (exportedFp k t).length = a.fpRoom := by
  have hle := a.fpSize_le
  unfold exportedFp
  split
  · rw [List.length_append, List.length_replicate, t.fp_length]
    omega
  · exact List.length_replicate

def getContext (t : ThreadState a) : Option Context :=
  if k.getsRegs then
    some {
      type := a.type
      registers := t.regs.val ++ exportedFp k t
      fits := by
        rw [List.length_append, t.regs.property, length_exportedFp]
        exact a.size_le }
  else none

/-- `setContext` with the bytes at `context->regs`; the floating-point registers are
    left alone. -/
def setContext (t : ThreadState a) (regs : Regs a) : Option (ThreadState a) :=
  match k.setRegs t.regs regs with
  | some regs => some { t with regs := regs }
  | none => none

/-- `GetThreadContext` of a paused thread, which is in the thread list or not. -/
def getThreadContext (thread : Option (ThreadState a)) : Option Context :=
  match thread with
  | some t => getContext k t
  | none => none

/-- `SetThreadContext`: only the debugger thread sets, and only a thread of its list.
    `continued` is true for a thread that was paused before; one that was stopped for
    the call is continued after it, and the result is that of the continue as well. -/
def setThreadContext (inDebugger continued : Bool) (thread : Option (ThreadState a))
    (regs : Regs a) : Bool × Option (ThreadState a) :=
  if inDebugger then
    match thread with
    | some t =>
      match setContext k t regs with
      | some t' => (continued, some t')
      | none => (false, some t)
    | none => (false, none)
  else (false, thread)

end Context

/-- `malloc` of as many bytes as the client declares, and the bytes of the client in
    it; behind them is what the heap holds there. -/
def contextBlock (data : List UInt8) (heap : Nat → UInt8) (i : Nat) : UInt8 :=
  if h : i < data.length then data.get ⟨i, h⟩ else heap i

def regsOf (a : ThreadArch) (block : Nat → UInt8) : Regs a :=
  ⟨(List.range a.regsSize).map fun i => block (8 + i), by
    rw [List.length_map, List.length_range]⟩

/-- `CMD_SETTHREADCONTEXT`, with the bytes of the client. -/
def setThreadContextCommand {a : ThreadArch} (k : Ptrace a) (inDebugger continued : Bool)
    (thread : Option (ThreadState a)) (data : List UInt8) (heap : Nat → UInt8) :
    Bool × Option (ThreadState a) :=
  setThreadContext k inDebugger continued thread (regsOf a (contextBlock data heap))

/-! ## A context write and the bytes of the client -/

section Block

variable {a : ThreadArch} {data : List UInt8}

theorem regsOf_covered (h : 8 + a.regsSize ≤ data.length) (heap : Nat → UInt8) :
    (regsOf a (contextBlock data heap)).val = (data.drop 8).take a.regsSize := by
  have hlen : ((data.drop 8).take a.regsSize).length = a.regsSize := by
    rw [List.length_take, List.length_drop]
    omega
  have hval : (regsOf a (contextBlock data heap)).val =
      (List.range a.regsSize).map fun i => contextBlock data heap (8 + i) := rfl
  apply List.ext_getElem
  · rw [hlen, hval, List.length_map, List.length_range]
  intro i hi hi'
  have hin : 8 + i < data.length := by omega
  simp only [hval, List.getElem_map, List.getElem_range, contextBlock, hin, ↓reduceDIte,
    List.get_eq_getElem, List.getElem_take, List.getElem_drop]

theorem regsOf_uncovered (h : data.length < 8 + a.regsSize) (heap : Nat → UInt8) :
    (regsOf a (contextBlock data heap)).val.getLast? = some (heap (8 + (a.regsSize - 1))) := by
  have hpos := a.regsSize_pos
  have hout : ¬ 8 + (a.regsSize - 1) < data.length := by omega
  have hrange : List.range a.regsSize = List.range (a.regsSize - 1) ++ [a.regsSize - 1] := by
    rw [← List.range_succ]
    congr 1
    omega
  show ((List.range a.regsSize).map fun i => contextBlock data heap (8 + i)).getLast? = _
  rw [hrange, List.map_append, List.map_singleton, List.getLast?_append]
  simp only [contextBlock, hout, ↓reduceDIte, List.getLast?_singleton, Option.some_or]

/-- The registers of the thread after the command do not depend on the heap. -/
def WriteDetermined (a : ThreadArch) (data : List UInt8) : Prop :=
  ∀ (k : Ptrace a) (inDebugger continued : Bool) (thread : Option (ThreadState a))
    (heap heap' : Nat → UInt8),
    setThreadContextCommand k inDebugger continued thread data heap =
      setThreadContextCommand k inDebugger continued thread data heap'

/-- Every byte that is handed to `ptrace` is one of the blob. -/
def HandsBlobOnly (a : ThreadArch) (data : List UInt8) : Prop :=
  ∀ heap, (regsOf a (contextBlock data heap)).val = (data.drop 8).take a.regsSize

def storingPtrace (a : ThreadArch) : Ptrace a := ⟨true, true, fun _ given => some given⟩

def zeroThread (a : ThreadArch) : ThreadState a where
  regs := ⟨List.replicate a.regsSize 0, List.length_replicate⟩
  fp := List.replicate a.fpSize 0
  fp_length := List.length_replicate

theorem writeDetermined_iff : WriteDetermined a data ↔ 8 + a.regsSize ≤ data.length := by
  constructor
  · intro h
    by_contra hshort
    -- two heaps, and a thread that takes what it is given
    have hsame := h (storingPtrace a) true true (some (zeroThread a)) (fun _ => 0) (fun _ => 1)
    have hregs : regsOf a (contextBlock data fun _ => 0) =
        regsOf a (contextBlock data fun _ => 1) := by
      have hthread := congrArg (fun r => r.2.map ThreadState.regs) hsame
      exact Option.some.inj hthread
    have hlast : (regsOf a (contextBlock data fun _ => 0)).val.getLast? = some 0 :=
      regsOf_uncovered (by omega) _
    rw [hregs, regsOf_uncovered (by omega)] at hlast
    exact absurd hlast (by decide)
  · intro h k inDebugger continued thread heap heap'
    have hregs : regsOf a (contextBlock data heap) = regsOf a (contextBlock data heap') := by
      apply Subtype.ext
      rw [regsOf_covered h, regsOf_covered h]
    rw [setThreadContextCommand, setThreadContextCommand, hregs]

theorem handsBlobOnly_iff : HandsBlobOnly a data ↔ 8 + a.regsSize ≤ data.length := by
  constructor
  · intro h
    have hlen := congrArg List.length (h fun _ => 0)
    rw [(regsOf a _).property, List.length_take, List.length_drop] at hlen
    have hpos := a.regsSize_pos
    omega
  · exact fun h heap => regsOf_covered h heap

/-- What `decodeContextBytes` of the command line asks of the bytes it decoded. -/
def DecodedContext (data : List UInt8) : Prop :=
  8 ≤ data.length ∧ data.length ≤ 2 ^ 20 ∧ (u32At data 0).toNat = data.length

/-- It is what the client asks as well: a size between 8 bytes and 1 MiB that the
    header declares, and nothing about the registers. -/
theorem validateThreadContext_iff (data : List UInt8) :
    Client.validateThreadContext data = .ok () ↔ DecodedContext data := by
  have hmax : Client.maximumThreadContextSize = 2 ^ 20 := rfl
  unfold Client.validateThreadContext DecodedContext
  rw [hmax]
  split
  next h =>
    constructor
    · exact fun h' => nomatch h'
    · rintro ⟨hlow, hhigh, -⟩
      omega
  next h =>
    split
    next hne =>
      constructor
      · exact fun h' => nomatch h'
      · exact fun h' => absurd h'.2.2 hne
    next heq =>
      constructor
      · exact fun _ => ⟨by omega, by omega, not_not.mp heq⟩
      · exact fun _ => rfl

end Block

/-! ## Set, then get -/

section RoundTrip

variable {a : ThreadArch} {k : Ptrace a} {t : ThreadState a}

/-- The general-purpose registers of a context of the architecture. -/
def regsPart (a : ThreadArch) (c : Context) : List UInt8 := c.registers.take a.regsSize

/-- Its floating-point registers, with the room behind them. -/
def fpPart (a : ThreadArch) (c : Context) : List UInt8 := c.registers.drop a.regsSize

/-- A whole context of the architecture, such as `GetThreadContext` returned before
    any of its registers were changed. -/
def Complete (a : ThreadArch) (c : Context) : Prop :=
  c.type = a.type ∧ c.registers.length = a.regsSize + a.fpRoom

variable {c : Context}

theorem getContext_complete (h : getContext k t = some c) : Complete a c := by
  unfold getContext at h
  split at h
  · obtain rfl := Option.some.inj h
    refine ⟨rfl, ?_⟩
    rw [List.length_append, t.regs.property, length_exportedFp]
  · cases h

theorem length_encode (c : Context) : c.encode.length = 8 + c.registers.length := by
  rw [Context.encode, List.length_append, List.length_append, u32_length, u32_length]

theorem regsOf_complete (hc : Complete a c) (heap : Nat → UInt8) :
    (regsOf a (contextBlock c.encode heap)).val = regsPart a c := by
  have hcovered : 8 + a.regsSize ≤ c.encode.length := by
    rw [length_encode, hc.2]
    omega
  have hdrop : c.encode.drop 8 = c.registers := rfl
  rw [regsOf_covered hcovered, hdrop, regsPart]

theorem getContext_eq_iff (hgets : k.getsRegs = true) (hc : Complete a c) :
    getContext k t = some c ↔ t.regs.val = regsPart a c ∧ exportedFp k t = fpPart a c := by
  have hsplit : regsPart a c ++ fpPart a c = c.registers := List.take_append_drop _ _
  have hlen : t.regs.val.length = (regsPart a c).length := by
    rw [t.regs.property, regsPart, List.length_take, hc.2]
    omega
  rw [getContext, if_pos hgets, Option.some.injEq]
  constructor
  · intro h
    have hregs : t.regs.val ++ exportedFp k t = regsPart a c ++ fpPart a c := by
      rw [hsplit, ← h]
    exact List.append_inj hregs hlen
  · rintro ⟨hregs, hfp⟩
    obtain ⟨type, registers, fits⟩ := c
    obtain rfl : type = a.type := hc.1
    congr 1
    rw [hregs, hfp, hsplit]

theorem encode_injective {c' : Context} (h : c.encode = c'.encode) : c = c' := by
  have htype : ∀ c : Context, u32At (c.encode.drop 4) 0 = c.type := by
    intro c
    have hdrop : c.encode.drop 4 = u32 c.type ++ c.registers := rfl
    rw [hdrop, u32At_u32]
  have hregisters : ∀ c : Context, c.encode.drop 8 = c.registers := fun _ => rfl
  obtain ⟨type, registers, fits⟩ := c
  obtain ⟨type', registers', fits'⟩ := c'
  have hsame := htype ⟨type, registers, fits⟩
  rw [h, htype] at hsame
  have hsame' := hregisters ⟨type, registers, fits⟩
  rw [h, hregisters] at hsame'
  cases hsame
  cases hsame'
  rfl

/-- `ptrace` stores the general-purpose registers of a context as they are. -/
def KeepsRegs (k : Ptrace a) (t : ThreadState a) (c : Context) : Prop :=
  ∃ given : Regs a, given.val = regsPart a c ∧ k.setRegs t.regs given = some given

theorem setThreadContext_true {inDebugger continued : Bool} {regs : Regs a} {t' : ThreadState a}
    (h : setThreadContext k inDebugger continued (some t) regs = (true, some t')) :
    ∃ new, k.setRegs t.regs regs = some new ∧ t' = { t with regs := new } := by
  cases inDebugger with
  | false =>
    have hfalse : (false, some t) = (true, some t') := h
    cases hfalse
  | true =>
    cases hnew : k.setRegs t.regs regs with
    | none =>
      simp only [setThreadContext, setContext, hnew, ↓reduceIte] at h
      cases h
    | some new =>
      simp only [setThreadContext, setContext, hnew, ↓reduceIte] at h
      cases h
      exact ⟨new, rfl, rfl⟩

/-- A context that was read of a thread, with other registers, is set with success and
    read again: the same blob comes back exactly when `ptrace` stores its
    general-purpose registers as they are, and its floating-point registers are those
    that the thread had. -/
theorem setContext_getContext_iff {prev c : Context} (hget : getThreadContext k (some t) = some prev)
    (htype : c.type = prev.type) (hlength : c.registers.length = prev.registers.length)
    {inDebugger continued : Bool} {heap : Nat → UInt8} {t' : ThreadState a}
    (hset : setThreadContextCommand k inDebugger continued (some t) c.encode heap =
      (true, some t')) :
    (getThreadContext k (some t')).map Context.encode = some c.encode ↔
      KeepsRegs k t c ∧ exportedFp k t = fpPart a c := by
  have hgets : k.getsRegs = true := by
    by_contra hno
    have hnone : getContext k t = none := if_neg hno
    have hprev : getContext k t = some prev := hget
    rw [hnone] at hprev
    cases hprev
  have hprev := getContext_complete (k := k) (t := t) hget
  have hc : Complete a c := ⟨htype.trans hprev.1, hlength.trans hprev.2⟩
  obtain ⟨new, hnew, rfl⟩ := setThreadContext_true hset
  have hregs := regsOf_complete hc heap
  -- the floating-point registers are those from before the call
  have hfp := exportedFp_setRegs k t new
  have hblob : (getThreadContext k (some { t with regs := new })).map Context.encode =
      some c.encode ↔ getContext k { t with regs := new } = some c := by
    constructor
    · intro h
      obtain ⟨c', hc', hsame⟩ := Option.map_eq_some_iff.mp h
      rw [← encode_injective hsame]
      exact hc'
    · intro h
      rw [getThreadContext, h, Option.map_some]
  rw [hblob, getContext_eq_iff hgets hc, hfp]
  refine and_congr_left fun _ => ?_
  constructor
  · intro hkept
    have hval : new = regsOf a (contextBlock c.encode heap) := Subtype.ext (hkept.trans hregs.symm)
    exact ⟨regsOf a (contextBlock c.encode heap), hregs, by rw [hnew, hval]⟩
  · rintro ⟨given, hgiven, hkeeps⟩
    have hsame : given = regsOf a (contextBlock c.encode heap) :=
      Subtype.ext (hgiven.trans hregs.symm)
    rw [hsame, hnew] at hkeeps
    rw [Option.some.inj hkeeps, hregs]

/-- The context of a thread of zeros, with a general-purpose register changed. -/
def changedRegs : Context where
  type := 1
  registers := 7 :: List.replicate 727 0
  fits := by
    rw [List.length_cons, List.length_replicate]
    decide

/-- The same with a floating-point register changed. -/
def changedFp : Context where
  type := 1
  registers := List.replicate 216 0 ++ 7 :: List.replicate 511 0
  fits := by
    rw [List.length_append, List.length_cons, List.length_replicate, List.length_replicate]
    decide

theorem changedRegs_complete : Complete .x86_64 changedRegs := by
  refine ⟨rfl, ?_⟩
  rw [changedRegs, List.length_cons, List.length_replicate]
  rfl

theorem changedFp_complete : Complete .x86_64 changedFp := by
  refine ⟨rfl, ?_⟩
  rw [changedFp, List.length_append, List.length_cons, List.length_replicate,
    List.length_replicate]
  rfl

theorem exportedFp_zero :
    exportedFp (storingPtrace .x86_64) (zeroThread .x86_64) = List.replicate 512 0 :=
  List.append_nil _

theorem set_zeroThread (hc : Complete .x86_64 c) :
    setThreadContextCommand (storingPtrace .x86_64) true true (some (zeroThread .x86_64)) c.encode
        (fun _ => 0) =
      (true, some { zeroThread .x86_64 with
        regs := regsOf .x86_64 (contextBlock c.encode fun _ => 0) }) ∧
      KeepsRegs (storingPtrace .x86_64) (zeroThread .x86_64) c :=
  ⟨rfl, regsOf .x86_64 (contextBlock c.encode fun _ => 0), regsOf_complete hc _, rfl⟩

theorem get_zeroThread :
    ∃ prev, getThreadContext (storingPtrace .x86_64) (some (zeroThread .x86_64)) = some prev ∧
      prev.type = 1 ∧ prev.registers.length = 728 := by
  refine ⟨_, rfl, rfl, ?_⟩
  rw [(getContext_complete (k := storingPtrace .x86_64) (t := zeroThread .x86_64) rfl).2]
  rfl

/-- A general-purpose register that is changed comes back. -/
theorem setContext_getContext_regs :
    ∃ t', (getThreadContext (storingPtrace .x86_64) (some t')).map Context.encode =
      some changedRegs.encode := by
  obtain ⟨prev, hget, htype, hlength⟩ := get_zeroThread
  have hc := changedRegs_complete
  obtain ⟨hset, hkeeps⟩ := set_zeroThread hc
  have hiff := setContext_getContext_iff hget htype.symm (hc.2.trans hlength.symm) hset
  have hfp : fpPart .x86_64 changedRegs = List.replicate 512 0 := by
    show (List.replicate 727 0).drop 215 = _
    rw [List.drop_replicate]
  exact ⟨_, hiff.mpr ⟨hkeeps, exportedFp_zero.trans hfp.symm⟩⟩

/-- A floating-point register that is changed does not, although the call succeeds. -/
theorem setContext_getContext_fp :
    ∃ t', setThreadContextCommand (storingPtrace .x86_64) true true (some (zeroThread .x86_64))
        changedFp.encode (fun _ => 0) = (true, some t') ∧
      (getThreadContext (storingPtrace .x86_64) (some t')).map Context.encode ≠
        some changedFp.encode := by
  have hc := changedFp_complete
  refine ⟨_, (set_zeroThread hc).1, ?_⟩
  intro h
  obtain ⟨c', hc', hsame⟩ := Option.map_eq_some_iff.mp h
  have hfp := ((getContext_eq_iff (k := storingPtrace .x86_64) rfl hc).mp
    (encode_injective hsame ▸ hc')).2
  have hdrop : fpPart .x86_64 changedFp = 7 :: List.replicate 511 0 := by
    have hregs : changedFp.registers =
        List.replicate 216 (0 : UInt8) ++ 7 :: List.replicate 511 0 := rfl
    have hsize : ThreadArch.x86_64.regsSize = 216 := rfl
    rw [fpPart, hregs, hsize, List.drop_left' List.length_replicate]
  rw [exportedFp_setRegs, hdrop] at hfp
  have hmem : (7 : UInt8) ∈ exportedFp (storingPtrace .x86_64) (zeroThread .x86_64) := by
    rw [hfp]
    exact List.mem_cons_self
  rw [exportedFp_zero] at hmem
  have hseven : (7 : UInt8) = 0 := List.eq_of_mem_replicate hmem
  exact absurd hseven (by decide)

end RoundTrip

end CheatEngine.Ceserver
