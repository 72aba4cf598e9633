/-
  CheatEngine.Dbvm.Cloak

  Cloaked pages and the breakpoints on them (epthandler.c).  A cloaked page has a
  copy of its bytes for readers; the page itself is what is executed.  A
  change-register breakpoint and the trace put an int3 into the executed page,
  and each remembers the byte it found there.  Hits and removals write that byte
  back, the handler after a step puts the int3 back.  All of them reach the page
  through the pointer to the cloak data that they stored when they were set.

  A step that writes through a pointer to freed cloak data, or that leaves the
  memory of the registry, does not return (`none`).
-/
import CheatEngine.Dbvm.CloakRegistry
import CheatEngine.Lib.Slots

namespace CheatEngine.Dbvm

open CheatEngine.Lib

/-- `CloakedPageData`, less the entries of the CPUs. -/
structure CloakedPageData where
  executable : Nat
  data : Nat → UInt8

/-- The part of `CHANGEREGONBPINFO` that decides whether the instruction at the
    breakpoint is executed. -/
structure ChangeRegInfo where
  changeRIP : Bool
  newRIP : Nat
  deriving DecidableEq, Repr

structure ChangeRegBPEntry where
  physicalAddress : Nat
  originalbyte : UInt8
  changereginfo : ChangeRegInfo
  cloakdata : Nat
  active : Bool
  deriving DecidableEq, Repr

/-- `TraceOnBPEntry`, less its log. -/
structure TraceOnBPEntry where
  physicalAddress : Nat
  originalbyte : UInt8
  cloakdata : Nat
  triggered : Bool
  finished : Bool
  deriving DecidableEq, Repr

/-- Physical memory, the registry of cloaked pages with the data behind its
    pointers, the breakpoints, the trace, and the breakpoints whose step each
    CPU still has to finish, newest first. -/
structure CloakState (κ : Type) where
  memory : Nat → UInt8
  registry : CloakRegistry
  cloakdata : Nat → Option CloakedPageData
  changeRegBPList : List ChangeRegBPEntry
  traceOnBP : Option TraceOnBPEntry
  reasons : κ → List Nat

/-- A call or an event. -/
inductive BreakpointInput (κ : Type)
  | activate (physicalAddress : Nat)
  | deactivate (physicalAddress : Nat)
  | changeregonbp (physicalAddress : Nat) (changereginfo : ChangeRegInfo)
  | removechangeregonbp (physicalAddress : Nat)
  /-- `allocated`: there is memory for the log. -/
  | traceonbp (physicalAddress : Nat) (allocated : Bool)
  | stoptrace
  | removeTrace (forcequit : Bool)
  /-- `ept_handleHardwareBreakpoint` ends the trace. -/
  | finishTrace
  /-- `ept_handleSoftwareBreakpoint` at a physical address. -/
  | hit (c : κ) (PA RIP : Nat)
  /-- `ept_handleSoftwareBreakpointAfterStep` for the newest step of the CPU. -/
  | afterStep (c : κ)

def int3 : UInt8 := 0xcc

namespace CloakState

variable {κ : Type}

def initial (memory : Nat → UInt8) : CloakState κ where
  memory := memory
  registry := .initial
  cloakdata _ := none
  changeRegBPList := []
  traceOnBP := none
  reasons _ := []

/-! ## Cloaked pages -/

/-- `executable[physicalAddress & 0xfff] = byte` through a pointer to cloak
    data. -/
def writeExecutable (s : CloakState κ) (cloakdata physicalAddress : Nat) (byte : UInt8) :
    Option (CloakState κ) :=
  (s.cloakdata cloakdata).map fun d =>
    { s with memory := Function.update s.memory (d.executable + physicalAddress % 4096) byte }

def activate (maxphyaddr : Nat) (s : CloakState κ) (physicalAddress : Nat) :
    Option (CloakState κ) := do
  let (created, registry) ← s.registry.activate maxphyaddr physicalAddress
  match created with
  | none => return { s with registry }
  | some p =>
    let executable := pageBase maxphyaddr physicalAddress
    let d : CloakedPageData := ⟨executable, fun offset => s.memory (executable + offset)⟩
    return { s with registry, cloakdata := Function.update s.cloakdata p (some d) }

/-- The loop of `ept_cloak_removechangeregonbp`, at one index. -/
def removeAt (physicalAddress : Nat) (s : CloakState κ) (i : Nat) : Option (CloakState κ) :=
  match s.changeRegBPList[i]? with
  | none => some s
  | some e =>
    if e.active ∧ e.physicalAddress = physicalAddress then do
      let s ← s.writeExecutable e.cloakdata physicalAddress e.originalbyte
      return { s with changeRegBPList := s.changeRegBPList.set i { e with active := false } }
    else some s

def removechangeregonbp (s : CloakState κ) (physicalAddress : Nat) : Option (CloakState κ) :=
  (List.range s.changeRegBPList.length).foldlM (removeAt physicalAddress) s

/-- The loops of `ept_cloak_deactivate` and `ept_reset` over the breakpoints, at
    one index: the active ones in `which` are removed. -/
def removeWhich (which : ChangeRegBPEntry → Bool) (s : CloakState κ) (i : Nat) :
    Option (CloakState κ) :=
  match s.changeRegBPList[i]? with
  | none => some s
  | some e => if e.active ∧ which e then s.removechangeregonbp e.physicalAddress else some s

/-- The breakpoints of `ept_cloak_deactivate`. -/
def removeOfPage (cloakdata : Nat) : CloakState κ → Nat → Option (CloakState κ) :=
  removeWhich fun e => e.cloakdata = cloakdata

/-- `copymem(cloakdata->Executable, cloakdata->Data, 4096)`. -/
def restorePage (memory : Nat → UInt8) (d : CloakedPageData) : Nat → UInt8 := fun x =>
  if d.executable ≤ x ∧ x < d.executable + 4096 then d.data (x - d.executable) else memory x

def deactivate (maxphyaddr : Nat) (s : CloakState κ) (physicalAddress : Nat) :
    Option (CloakState κ) := do
  let (found, registry) ← s.registry.deactivate maxphyaddr physicalAddress
  match found with
  | none => return { s with registry }
  | some p =>
    let s ← (List.range s.changeRegBPList.length).foldlM (removeOfPage p) s
    let d ← s.cloakdata p
    return { s with
      memory := restorePage s.memory d, registry := registry,
      cloakdata := Function.update s.cloakdata p none }

def changeregonbp (maxphyaddr : Nat) (s : CloakState κ) (physicalAddress : Nat)
    (changereginfo : ChangeRegInfo) : Option (CloakState κ) := do
  let s ← s.removechangeregonbp physicalAddress
  let s ← s.activate maxphyaddr (pageBase maxphyaddr physicalAddress)
  match ← s.registry.lookup (pageBase maxphyaddr physicalAddress) with
  | none => return s
  | some p =>
    let d ← s.cloakdata p
    let byte := s.memory (d.executable + physicalAddress % 4096)
    let s' ← s.writeExecutable p physicalAddress int3
    let e : ChangeRegBPEntry := ⟨physicalAddress, byte, changereginfo, p, true⟩
    return { s' with changeRegBPList := putFree (!·.active) s.changeRegBPList e }

/-- `ept_cloak_traceonbp_stoptrace`, less the flag that asks the trace to end. -/
def stoptrace (s : CloakState κ) : Option (CloakState κ) :=
  match s.traceOnBP with
  | none => some s
  | some t =>
    if t.triggered then some s else s.writeExecutable t.cloakdata t.physicalAddress t.originalbyte

/-- `ept_cloak_traceonbp_remove`: whether it returns 2, and the state after
    it. -/
def removeTrace (s : CloakState κ) (forcequit : Bool) : Option (Bool × CloakState κ) :=
  match s.traceOnBP with
  | none => some (false, s)
  | some t =>
    if t.triggered then
      if t.finished = false ∧ forcequit = false then some (true, s)
      else some (false, { s with traceOnBP := none })
    else do
      let s ← s.writeExecutable t.cloakdata t.physicalAddress t.originalbyte
      return (false, { s with traceOnBP := none })

def traceonbp (maxphyaddr : Nat) (s : CloakState κ) (physicalAddress : Nat) (allocated : Bool) :
    Option (CloakState κ) := do
  let (running, s) ← s.removeTrace false
  if running then return s
  else
    let s ← s.activate maxphyaddr (pageBase maxphyaddr physicalAddress)
    match ← s.registry.lookup (pageBase maxphyaddr physicalAddress) with
    | none => return s
    | some p =>
      if allocated then
        let d ← s.cloakdata p
        let byte := s.memory (d.executable + physicalAddress % 4096)
        let s ← s.writeExecutable p physicalAddress int3
        return { s with traceOnBP := some ⟨physicalAddress, byte, p, false, false⟩ }
      else return s

def finishTrace (s : CloakState κ) : CloakState κ :=
  { s with traceOnBP := s.traceOnBP.map fun t => { t with finished := t.finished || t.triggered } }

/-- The breakpoints of `ept_handleSoftwareBreakpoint`: the first active one at
    the address. -/
def hitBreakpoint [DecidableEq κ] (s : CloakState κ) (c : κ) (PA RIP : Nat) :
    Option (CloakState κ) :=
  match s.changeRegBPList.findIdx? fun e => e.active && e.physicalAddress = PA with
  | none => some s
  | some i =>
    match s.changeRegBPList[i]? with
    | none => some s
    | some e =>
      if e.changereginfo.changeRIP = false ∨ e.changereginfo.newRIP = RIP then do
        let s ← s.writeExecutable e.cloakdata PA e.originalbyte
        return { s with reasons := Function.update s.reasons c (i :: s.reasons c) }
      else some s

/-- `ept_handleSoftwareBreakpoint`. -/
def hit [DecidableEq κ] (s : CloakState κ) (c : κ) (PA RIP : Nat) : Option (CloakState κ) :=
  match s.traceOnBP with
  | none => s.hitBreakpoint c PA RIP
  | some t =>
    if t.physicalAddress = PA then
      if t.triggered then some s
      else do
        let s ← s.writeExecutable t.cloakdata t.physicalAddress t.originalbyte
        return { s with traceOnBP := some { t with triggered := true } }
    else s.hitBreakpoint c PA RIP

/-- `ept_handleSoftwareBreakpointAfterStep`, for the breakpoint that now has the
    ID. -/
def afterStep [DecidableEq κ] (s : CloakState κ) (c : κ) : Option (CloakState κ) :=
  match s.reasons c with
  | [] => some s
  | ID :: rest =>
    let s := { s with reasons := Function.update s.reasons c rest }
    match s.changeRegBPList[ID]? with
    | none => some s
    | some e =>
      if e.active then s.writeExecutable e.cloakdata e.physicalAddress int3 else some s

/-- One call or event. -/
def step [DecidableEq κ] (maxphyaddr : Nat) (s : CloakState κ) :
    BreakpointInput κ → Option (CloakState κ)
  | .activate physicalAddress => s.activate maxphyaddr physicalAddress
  | .deactivate physicalAddress => s.deactivate maxphyaddr physicalAddress
  | .changeregonbp physicalAddress changereginfo =>
    s.changeregonbp maxphyaddr physicalAddress changereginfo
  | .removechangeregonbp physicalAddress => s.removechangeregonbp physicalAddress
  | .traceonbp physicalAddress allocated => s.traceonbp maxphyaddr physicalAddress allocated
  | .stoptrace => s.stoptrace
  | .removeTrace forcequit => (s.removeTrace forcequit).map Prod.snd
  | .finishTrace => some s.finishTrace
  | .hit c PA RIP => s.hit c PA RIP
  | .afterStep c => s.afterStep c

/-! ## Links between breakpoints and pages -/

/-- The address of the byte that a breakpoint at `physicalAddress` replaces. -/
def byteAddress (maxphyaddr physicalAddress : Nat) : Nat :=
  pageBase maxphyaddr physicalAddress + physicalAddress % 4096

/-- The data behind the registered pointers is there, and every stored pointer
    that is still used is that of the page it is on. -/
structure Links (maxphyaddr : Nat) (s : CloakState κ) (spec : CloakSpec) : Prop where
  registry : CloakRegistry.Registers s.registry spec
  live : ∀ a p, (a, p) ∈ spec.pages ↔ ∃ d, s.cloakdata p = some d ∧ d.executable = a
  aligned : ∀ a p, (a, p) ∈ spec.pages → a % 4096 = 0
  breakpoint : ∀ e ∈ s.changeRegBPList, e.active = true →
    (pageBase maxphyaddr e.physicalAddress, e.cloakdata) ∈ spec.pages
  once : ∀ (i j : Nat) (e e' : ChangeRegBPEntry), s.changeRegBPList[i]? = some e → s.changeRegBPList[j]? = some e' →
    e.active = true → e'.active = true → e.physicalAddress = e'.physicalAddress → i = j

variable {maxphyaddr i x p physicalAddress : Nat} {l : List ChangeRegBPEntry}
  {e : ChangeRegBPEntry} {s : CloakState κ} {spec : CloakSpec}

theorem pageBase_mod (maxphyaddr physicalAddress : Nat) :
    pageBase maxphyaddr physicalAddress % 4096 = 0 := by
  rw [pageBase]
  exact Nat.mul_mod_left ..

theorem pageBase_of_byteAddress {a : Nat} (ha : a % 4096 = 0) (hle : a ≤ x) (hlt : x < a + 4096)
    (hx : byteAddress maxphyaddr physicalAddress = x) : pageBase maxphyaddr physicalAddress = a := by
  have hbase := pageBase_mod maxphyaddr physicalAddress
  rw [byteAddress] at hx
  have hoff : physicalAddress % 4096 < 4096 := Nat.mod_lt _ (by decide)
  omega

theorem pageBase_pageBase : pageBase maxphyaddr (pageBase maxphyaddr physicalAddress) =
    pageBase maxphyaddr physicalAddress := by
  have hle : physicalAddress % 2 ^ maxphyaddr / 4096 * 4096 ≤ physicalAddress % 2 ^ maxphyaddr :=
    Nat.div_mul_le_self ..
  have hlt : physicalAddress % 2 ^ maxphyaddr < 2 ^ maxphyaddr :=
    Nat.mod_lt _ (Nat.two_pow_pos maxphyaddr)
  rw [pageBase, pageBase, Nat.mod_eq_of_lt (Nat.lt_of_le_of_lt hle hlt),
    Nat.mul_div_cancel _ (by decide)]

theorem Links.write (h : s.Links maxphyaddr spec) (byte : UInt8)
    (hp : (pageBase maxphyaddr physicalAddress, p) ∈ spec.pages) :
    s.writeExecutable p physicalAddress byte = some { s with
      memory := Function.update s.memory (byteAddress maxphyaddr physicalAddress) byte } := by
  obtain ⟨d, hd, hexecutable⟩ := (h.live _ p).1 hp
  rw [writeExecutable, hd, Option.map_some, hexecutable, byteAddress]

/-- No breakpoint is active at the address. -/
def Unset (l : List ChangeRegBPEntry) (physicalAddress : Nat) : Prop :=
  ∀ e ∈ l, e.active = true → e.physicalAddress ≠ physicalAddress

theorem removeAt_of_unset (h : ∀ e, s.changeRegBPList[i]? = some e → e.active = true →
    e.physicalAddress ≠ physicalAddress) : s.removeAt physicalAddress i = some s := by
  unfold removeAt
  split
  · rfl
  · next e he => exact if_neg fun hcon => h e he hcon.1 hcon.2

theorem foldlM_removeAt_of_unset (is : List Nat) (h : ∀ j ∈ is, ∀ e,
    s.changeRegBPList[j]? = some e → e.active = true → e.physicalAddress ≠ physicalAddress) :
    is.foldlM (removeAt physicalAddress) s = some s := by
  induction is with
  | nil => rfl
  | cons j is ih =>
    rw [List.foldlM_cons, removeAt_of_unset (h j List.mem_cons_self)]
    exact ih fun k hk => h k (List.mem_cons_of_mem j hk)

theorem removechangeregonbp_of_unset (h : Unset s.changeRegBPList physicalAddress) :
    s.removechangeregonbp physicalAddress = some s :=
  foldlM_removeAt_of_unset _ fun _ _ e he => h e (List.mem_of_getElem? he)

theorem removechangeregonbp_of_set (hget : s.changeRegBPList[i]? = some e)
    (hactive : e.active = true)
    (honce : ∀ j e', s.changeRegBPList[j]? = some e' → e'.active = true →
      e'.physicalAddress = e.physicalAddress → j = i) {s' : CloakState κ}
    (hwrite : s.writeExecutable e.cloakdata e.physicalAddress e.originalbyte = some s')
    (hlist : s'.changeRegBPList = s.changeRegBPList) :
    s.removechangeregonbp e.physicalAddress =
      some { s' with changeRegBPList := s.changeRegBPList.set i { e with active := false } } := by
  have hi : i < s.changeRegBPList.length := (List.getElem?_eq_some_iff.1 hget).1
  have hrange : List.range s.changeRegBPList.length = List.range i ++
      i :: List.range' (i + 1) (s.changeRegBPList.length - (i + 1)) := by
    have hlen : s.changeRegBPList.length = i + (s.changeRegBPList.length - (i + 1) + 1) := by omega
    rw [← List.range'_succ, List.range_eq_range', List.range_eq_range', hlen,
      ← List.range'_append_1, Nat.zero_add, ← hlen]
  rw [removechangeregonbp, hrange, List.foldlM_append, foldlM_removeAt_of_unset (s := s)]
  · rw [Option.bind_eq_bind, Option.bind_some, List.foldlM_cons]
    have hthis : s.removeAt e.physicalAddress i = some
        { s' with changeRegBPList := s.changeRegBPList.set i { e with active := false } } := by
      simp only [removeAt, hget, hactive, and_self, if_true, hwrite, Option.bind_eq_bind,
        Option.bind_some, hlist]
      rfl
    rw [hthis, Option.bind_eq_bind, Option.bind_some]
    apply foldlM_removeAt_of_unset
    intro j hj e' he' hactive' haddress
    have hij : i ≠ j := by
      rw [List.mem_range'_1] at hj
      omega
    have hget' : s.changeRegBPList[j]? = some e' := by
      have hset : (s.changeRegBPList.set i { e with active := false })[j]? = some e' := he'
      rwa [List.getElem?_set, if_neg hij] at hset
    exact hij (honce j e' hget' hactive' haddress).symm
  · intro j hj e' he' hactive' haddress
    have hji : j = i := honce j e' he' hactive' haddress
    rw [List.mem_range] at hj
    omega

theorem Links.of_set_inactive (h : s.Links maxphyaddr spec) {s' : CloakState κ}
    (hregistry : s'.registry = s.registry) (hcloakdata : s'.cloakdata = s.cloakdata)
    (hlist : ∀ (j : Nat) (e' : ChangeRegBPEntry), s'.changeRegBPList[j]? = some e' →
      e'.active = true → s.changeRegBPList[j]? = some e') : s'.Links maxphyaddr spec where
  registry := hregistry ▸ h.registry
  live := hcloakdata ▸ h.live
  aligned := h.aligned
  breakpoint e he hactive := by
    obtain ⟨j, hj⟩ := List.getElem?_of_mem he
    exact h.breakpoint e (List.mem_of_getElem? (hlist j e hj hactive)) hactive
  once i j e e' hi hj hactive hactive' :=
    h.once i j e e' (hlist i e hi hactive) (hlist j e' hj hactive') hactive hactive'

theorem getElem?_set_inactive {j : Nat} {e' : ChangeRegBPEntry}
    (hget : (l.set i { e with active := false })[j]? = some e') (hactive : e'.active = true) :
    l[j]? = some e' := by
  rw [List.getElem?_set] at hget
  split at hget
  · split at hget
    · rw [← Option.some.inj hget] at hactive
      exact absurd hactive Bool.false_ne_true
    · exact nomatch hget
  · exact hget

theorem links_initial (memory : Nat → UInt8) :
    (initial memory : CloakState κ).Links maxphyaddr .initial := by
  refine ⟨CloakRegistry.registers_initial, ?_, nofun, nofun, nofun⟩
  intro a p
  constructor
  · exact nofun
  · rintro ⟨d, hd, -⟩
    exact nomatch hd

theorem Links.cloakdata_eq (h : s.Links maxphyaddr spec)
    (hp : (pageBase maxphyaddr physicalAddress, p) ∈ spec.pages) :
    ∃ d, s.cloakdata p = some d ∧
      d.executable + physicalAddress % 4096 = byteAddress maxphyaddr physicalAddress := by
  obtain ⟨d, hd, hexecutable⟩ := (h.live _ p).1 hp
  exact ⟨d, hd, by rw [hexecutable, byteAddress]⟩

theorem Links.congr (h : s.Links maxphyaddr spec) {s' : CloakState κ}
    (hregistry : s'.registry = s.registry) (hcloakdata : s'.cloakdata = s.cloakdata)
    (hlist : s'.changeRegBPList = s.changeRegBPList) : s'.Links maxphyaddr spec := by
  apply h.of_set_inactive hregistry hcloakdata
  intro j e hj _
  rw [← hlist]
  exact hj

theorem Links.putBreakpoint (h : s.Links maxphyaddr spec)
    (hp : (pageBase maxphyaddr e.physicalAddress, e.cloakdata) ∈ spec.pages)
    (hunset : Unset s.changeRegBPList e.physicalAddress) {s' : CloakState κ}
    (hregistry : s'.registry = s.registry) (hcloakdata : s'.cloakdata = s.cloakdata)
    (hlist : s'.changeRegBPList = putFree (!·.active) s.changeRegBPList e) :
    s'.Links maxphyaddr spec := by
  refine ⟨hregistry ▸ h.registry, hcloakdata ▸ h.live, h.aligned, ?_, ?_⟩
  · intro e' he' hactive
    obtain ⟨j, hj⟩ := List.getElem?_of_mem he'
    rw [hlist, getElem?_putFree] at hj
    split at hj
    · rw [← Option.some.inj hj]
      exact hp
    · exact h.breakpoint e' (List.mem_of_getElem? hj) hactive
  · intro i j e₁ e₂ hi hj hactive₁ hactive₂ heq
    rw [hlist, getElem?_putFree] at hi hj
    split at hi
    · next hfree =>
      split at hj
      · next hfree' => rw [hfree, hfree']
      · rw [← Option.some.inj hi] at heq
        exact absurd heq.symm (hunset e₂ (List.mem_of_getElem? hj) hactive₂)
    · split at hj
      · rw [← Option.some.inj hj] at heq
        exact absurd heq (hunset e₁ (List.mem_of_getElem? hi) hactive₁)
      · exact h.once i j e₁ e₂ hi hj hactive₁ hactive₂ heq

/-! ## Taking breakpoints out -/

/-- The byte is on a cloaked page. -/
def Covered (spec : CloakSpec) (x : Nat) : Prop :=
  ∃ a p, (a, p) ∈ spec.pages ∧ a ≤ x ∧ x < a + 4096

/-- Only breakpoints in `which` were taken out, and only bytes in `written` were
    written. -/
structure Drops (which : ChangeRegBPEntry → Prop) (written : Nat → Prop) (s s' : CloakState κ) :
    Prop where
  registry : s'.registry = s.registry
  cloakdata : s'.cloakdata = s.cloakdata
  traceOnBP : s'.traceOnBP = s.traceOnBP
  active : ∀ (j : Nat) (e : ChangeRegBPEntry), s'.changeRegBPList[j]? = some e →
    e.active = true → s.changeRegBPList[j]? = some e
  kept : ∀ (j : Nat) (e : ChangeRegBPEntry), s.changeRegBPList[j]? = some e →
    e.active = true → ¬ which e → s'.changeRegBPList[j]? = some e
  memory : ∀ x, ¬ written x → s'.memory x = s.memory x

section Drops

variable {which which' : ChangeRegBPEntry → Prop} {written written' : Nat → Prop}
  {s s' s'' : CloakState κ}

theorem Drops.refl (which : ChangeRegBPEntry → Prop) (written : Nat → Prop) (s : CloakState κ) :
    Drops which written s s :=
  ⟨rfl, rfl, rfl, fun _ _ h _ => h, fun _ _ h _ _ => h, fun _ _ => rfl⟩

theorem Drops.trans (h : Drops which written s s') (h' : Drops which written s' s'') :
    Drops which written s s'' where
  registry := h'.registry.trans h.registry
  cloakdata := h'.cloakdata.trans h.cloakdata
  traceOnBP := h'.traceOnBP.trans h.traceOnBP
  active j e hj hactive := h.active j e (h'.active j e hj hactive) hactive
  kept j e hj hactive hne := h'.kept j e (h.kept j e hj hactive hne) hactive hne
  memory x hx := (h'.memory x hx).trans (h.memory x hx)

theorem Drops.mono (h : Drops which written s s')
    (hwhich : ∀ (j : Nat) (e : ChangeRegBPEntry), s.changeRegBPList[j]? = some e →
      e.active = true → which e → which' e)
    (hwritten : ∀ x, written x → written' x) : Drops which' written' s s' where
  registry := h.registry
  cloakdata := h.cloakdata
  traceOnBP := h.traceOnBP
  active := h.active
  kept j e hj hactive hno := h.kept j e hj hactive fun hyes => hno (hwhich j e hj hactive hyes)
  memory x hno := h.memory x fun hyes => hno (hwritten x hyes)

theorem Drops.links (h : Drops which written s s') (hlinks : s.Links maxphyaddr spec) :
    s'.Links maxphyaddr spec :=
  hlinks.of_set_inactive h.registry h.cloakdata h.active

end Drops

section

variable (h : s.Links maxphyaddr spec)
include h

theorem Links.removechangeregonbp (physicalAddress : Nat) :
    ∃ s', s.removechangeregonbp physicalAddress = some s' ∧
      Drops (·.physicalAddress = physicalAddress)
        (fun x => Covered spec x ∧ x = byteAddress maxphyaddr physicalAddress) s s' ∧
      Unset s'.changeRegBPList physicalAddress := by
  by_cases hset : ∃ (i : Nat) (e : ChangeRegBPEntry), s.changeRegBPList[i]? = some e ∧
      e.active = true ∧ e.physicalAddress = physicalAddress
  · obtain ⟨i, e, hget, hactive, rfl⟩ := hset
    have hi : i < s.changeRegBPList.length := (List.getElem?_eq_some_iff.1 hget).1
    have honce : ∀ j e', s.changeRegBPList[j]? = some e' → e'.active = true →
        e'.physicalAddress = e.physicalAddress → j = i :=
      fun j e' hj hactive' heq => h.once j i e' e hj hget hactive' hactive heq
    have hmem := h.breakpoint e (List.mem_of_getElem? hget) hactive
    refine ⟨_, removechangeregonbp_of_set hget hactive honce (h.write e.originalbyte hmem) rfl,
      ⟨rfl, rfl, rfl, fun j e' => getElem?_set_inactive, ?_, ?_⟩, ?_⟩
    · intro j e' hj hactive' hne
      have hij : i ≠ j := by
        rintro rfl
        rw [Option.some.inj (hget.symm.trans hj)] at hne
        exact hne rfl
      show (s.changeRegBPList.set i { e with active := false })[j]? = some e'
      rw [List.getElem?_set, if_neg hij]
      exact hj
    · intro x hx
      have hne : x ≠ byteAddress maxphyaddr e.physicalAddress := by
        rintro rfl
        have hoff : e.physicalAddress % 4096 < 4096 := Nat.mod_lt _ (by decide)
        refine hx ⟨⟨_, _, hmem, ?_, ?_⟩, rfl⟩ <;>
          · rw [byteAddress]
            omega
      exact Function.update_of_ne hne _ _
    · intro e' he' hactive' heq
      obtain ⟨j, hj⟩ := List.getElem?_of_mem he'
      have hji : j = i := honce j e' (getElem?_set_inactive hj hactive') hactive' heq
      subst hji
      have hset : (s.changeRegBPList.set j { e with active := false })[j]? = some e' := hj
      rw [List.getElem?_set_self hi] at hset
      rw [← Option.some.inj hset] at hactive'
      exact absurd hactive' Bool.false_ne_true
  · have hunset : Unset s.changeRegBPList physicalAddress := by
      intro e he hactive heq
      obtain ⟨i, hi⟩ := List.getElem?_of_mem he
      exact hset ⟨i, e, hi, hactive, heq⟩
    exact ⟨s, removechangeregonbp_of_unset hunset, Drops.refl _ _ s, hunset⟩

/-- One index of the loop. -/
theorem Links.removeWhich (which : ChangeRegBPEntry → Bool) (i : Nat) :
    ∃ s', s.removeWhich which i = some s' ∧
      Drops (which · = true) (fun x => ∃ e ∈ s.changeRegBPList, e.active = true ∧ which e = true ∧
        x = byteAddress maxphyaddr e.physicalAddress) s s' ∧
      ∀ e, s'.changeRegBPList[i]? = some e → e.active = true → which e = false := by
  unfold CloakState.removeWhich
  cases hget : s.changeRegBPList[i]? with
  | none => exact ⟨s, rfl, Drops.refl _ _ s, fun e he => nomatch hget.symm.trans he⟩
  | some e =>
    by_cases hof : e.active = true ∧ which e = true
    · obtain ⟨s', hs', hdrops, hunset⟩ := h.removechangeregonbp e.physicalAddress
      refine ⟨s', (if_pos hof).trans hs', hdrops.mono ?_ ?_, ?_⟩
      · intro j e' hj hactive heq
        have hji : j = i := h.once j i e' e hj hget hactive hof.1 heq
        subst hji
        rw [← Option.some.inj (hget.symm.trans hj)]
        exact hof.2
      · exact fun x hx => ⟨e, List.mem_of_getElem? hget, hof.1, hof.2, hx.2⟩
      · intro e' he' hactive
        have hold := hdrops.active i e' he' hactive
        have heq : e' = e := Option.some.inj (hold.symm.trans hget)
        subst heq
        exact absurd rfl (hunset e' (List.mem_of_getElem? he') hactive)
    · refine ⟨s, if_neg hof, Drops.refl _ _ s, ?_⟩
      intro e' he' hactive
      rw [← Option.some.inj (hget.symm.trans he')] at hactive ⊢
      rw [Bool.eq_false_iff]
      exact fun hyes => hof ⟨hactive, hyes⟩

/-- The loop takes out every breakpoint in `which`. -/
theorem Links.foldlM_removeWhich (which : ChangeRegBPEntry → Bool) :
    ∃ s', (List.range s.changeRegBPList.length).foldlM (CloakState.removeWhich which) s = some s' ∧
      Drops (which · = true) (fun x => ∃ e ∈ s.changeRegBPList, e.active = true ∧ which e = true ∧
        x = byteAddress maxphyaddr e.physicalAddress) s s' ∧
      ∀ e ∈ s'.changeRegBPList, e.active = true → which e = false := by
  have hloop : ∀ (is : List Nat) (s : CloakState κ), s.Links maxphyaddr spec →
      ∃ s', is.foldlM (CloakState.removeWhich which) s = some s' ∧
        Drops (which · = true) (fun x => ∃ e ∈ s.changeRegBPList, e.active = true ∧
          which e = true ∧ x = byteAddress maxphyaddr e.physicalAddress) s s' ∧
        ∀ j ∈ is, ∀ e, s'.changeRegBPList[j]? = some e → e.active = true → which e = false := by
    intro is
    induction is with
    | nil => exact fun s _ => ⟨s, rfl, Drops.refl _ _ s, nofun⟩
    | cons i is ih =>
      intro s h
      obtain ⟨s₁, hs₁, hdrops₁, hnone₁⟩ := h.removeWhich which i
      obtain ⟨s₂, hs₂, hdrops₂, hnone₂⟩ := ih s₁ (hdrops₁.links h)
      refine ⟨s₂, ?_, hdrops₁.trans (hdrops₂.mono (fun _ _ _ _ hyes => hyes) ?_), ?_⟩
      · rw [List.foldlM_cons, hs₁]
        exact hs₂
      · -- what is active after the first index was active before it
        rintro x ⟨e, he, hactive, hwhich, hx⟩
        obtain ⟨j, hj⟩ := List.getElem?_of_mem he
        exact ⟨e, List.mem_of_getElem? (hdrops₁.active j e hj hactive), hactive, hwhich, hx⟩
      · intro j hj e he hactive
        rcases List.mem_cons.1 hj with rfl | hj
        · exact hnone₁ e (hdrops₂.active j e he hactive) hactive
        · exact hnone₂ j hj e he hactive
  obtain ⟨s', hs', hdrops, hnone⟩ := hloop _ s h
  refine ⟨s', hs', hdrops, ?_⟩
  intro e he hactive
  obtain ⟨j, hj⟩ := List.getElem?_of_mem he
  have hlt := (List.getElem?_eq_some_iff.1 (hdrops.active j e hj hactive)).1
  exact hnone j (List.mem_range.2 hlt) e hj hactive

theorem Links.activate {s' : CloakState κ} (hs' : s.activate maxphyaddr physicalAddress = some s') :
    (s' = s ∧ ∃ l p, s.registry.Refines spec l ∧
      (pageBase maxphyaddr physicalAddress, p) ∈ spec.pages) ∨
    (∀ p, (pageBase maxphyaddr physicalAddress, p) ∉ spec.pages) ∧
      ∃ r l, r.Refines ⟨(pageBase maxphyaddr physicalAddress, spec.nextData) :: spec.pages,
          spec.nextData + 1⟩ l ∧
        s' = { s with
          registry := r
          cloakdata := Function.update s.cloakdata spec.nextData
            (some ⟨pageBase maxphyaddr physicalAddress,
              fun offset => s.memory (pageBase maxphyaddr physicalAddress + offset)⟩) } ∧
        s'.Links maxphyaddr ⟨(pageBase maxphyaddr physicalAddress, spec.nextData) :: spec.pages,
          spec.nextData + 1⟩ := by
  have hdistinct := h.registry.distinct
  cases hdata : spec.data (pageBase maxphyaddr physicalAddress) with
  | some p =>
    obtain ⟨l, href⟩ : ∃ l, s.registry.Refines spec l := by
      rcases h.registry with href | ⟨-, rfl⟩
      · exact href
      · exact nomatch hdata
    rw [CloakState.activate, h.registry.activate_cloaked hdata] at hs'
    exact .inl ⟨(Option.some.inj hs').symm, l, p, href, hdistinct.data_eq_some.1 hdata⟩
  | none =>
    have hlength : spec.pages.length < 32 := by
      by_contra hfull
      rw [CloakState.activate, h.registry.activate_full hdata hfull] at hs'
      exact nomatch hs'
    obtain ⟨r, l, hactivate, href⟩ := h.registry.activate_new hdata hlength
    have hfree := hdistinct.data_eq_none.1 hdata
    rw [CloakState.activate, hactivate] at hs'
    have heq := (Option.some.inj hs').symm
    generalize hbase : pageBase maxphyaddr physicalAddress = a at *
    have hnew : ∀ b, (b, spec.nextData) ∉ spec.pages := by
      intro b hb
      exact Nat.lt_irrefl _ (hdistinct.fresh b _ hb)
    refine .inr ⟨hfree, r, l, href, heq, ?_⟩
    rw [heq]
    refine ⟨.inl ⟨l, href⟩, ?_, ?_, ?_, h.once⟩
    · intro b p
      rw [List.mem_cons, Prod.mk.injEq]
      by_cases hp : p = spec.nextData
      · subst hp
        simp only [Function.update_self, Option.some.injEq, exists_eq_left', and_true]
        constructor
        · rintro (rfl | hold)
          · rfl
          · exact absurd hold (hnew b)
        · exact fun heq => .inl heq.symm
      · simp only [Function.update_of_ne hp, hp, and_false, false_or]
        exact h.live b p
    · intro b p hb
      rcases List.mem_cons.1 hb with heq | hold
      · rw [(Prod.mk.inj heq).1, ← hbase]
        exact pageBase_mod ..
      · exact h.aligned b p hold
    · exact fun e he hactive => List.mem_cons_of_mem _ (h.breakpoint e he hactive)

theorem Links.decloak {a : Nat} (hp : (a, p) ∈ spec.pages)
    (hnone : ∀ e ∈ s.changeRegBPList, e.active = true → e.cloakdata ≠ p) {s' : CloakState κ}
    {l : AddressList}
    (href : s'.registry.Refines { spec with pages := spec.pages.filter (·.1 ≠ a) } l)
    (hcloakdata : s'.cloakdata = Function.update s.cloakdata p none)
    (hlist : s'.changeRegBPList = s.changeRegBPList) :
    s'.Links maxphyaddr { spec with pages := spec.pages.filter (·.1 ≠ a) } := by
  have hdistinct := h.registry.distinct
  have hmem : ∀ b q, (b, q) ∈ spec.pages.filter (·.1 ≠ a) ↔ (b, q) ∈ spec.pages ∧ b ≠ a := by
    simp
  refine ⟨.inl ⟨l, href⟩, ?_, ?_, ?_, hlist ▸ h.once⟩
  · intro b q
    rw [hmem, hcloakdata]
    by_cases hq : q = p
    · subst hq
      simp only [Function.update_self]
      constructor
      · rintro ⟨hb, hne⟩
        exact absurd (hdistinct.data b a q hb hp) hne
      · rintro ⟨d', hd', -⟩
        exact nomatch hd'
    · simp only [Function.update_of_ne hq]
      rw [← h.live b q]
      refine and_iff_left_of_imp ?_
      rintro hb rfl
      exact hq (hdistinct.address hb hp)
  · intro b q hb
    exact h.aligned b q ((hmem b q).1 hb).1
  · intro e he hactive
    rw [hlist] at he
    have hof := h.breakpoint e he hactive
    refine (hmem _ _).2 ⟨hof, ?_⟩
    intro hpage
    rw [hpage] at hof
    exact hnone e he hactive (hdistinct.address hof hp)

/-- `ept_cloak_deactivate`, on a list: the page is not cloaked and nothing
    happens, or its breakpoints are taken out, its bytes are copied back and its
    data is freed. -/
theorem Links.deactivate {l : AddressList}
    (href : s.registry.Refines spec l) (physicalAddress : Nat) :
    ∃ r l', r.Refines
        { spec with pages := spec.pages.filter (·.1 ≠ pageBase maxphyaddr physicalAddress) } l' ∧
      ((spec.data (pageBase maxphyaddr physicalAddress) = none ∧
          s.deactivate maxphyaddr physicalAddress = some { s with registry := r }) ∨
        ∃ p d s₁, (pageBase maxphyaddr physicalAddress, p) ∈ spec.pages ∧
          s.cloakdata p = some d ∧ d.executable = pageBase maxphyaddr physicalAddress ∧
          Drops (·.cloakdata = p) (fun x => pageBase maxphyaddr physicalAddress ≤ x ∧
            x < pageBase maxphyaddr physicalAddress + 4096) s s₁ ∧
          (∀ e ∈ s₁.changeRegBPList, e.active = true → e.cloakdata ≠ p) ∧
          s.deactivate maxphyaddr physicalAddress = some { s₁ with
            memory := restorePage s₁.memory d, registry := r,
            cloakdata := Function.update s₁.cloakdata p none }) := by
  obtain ⟨r, l', hdeactivate, href'⟩ := href.deactivate maxphyaddr physicalAddress
  refine ⟨r, l', href', ?_⟩
  cases hdata : spec.data (pageBase maxphyaddr physicalAddress) with
  | none =>
    left
    rw [CloakState.deactivate, hdeactivate, hdata]
    exact ⟨rfl, rfl⟩
  | some p =>
    right
    have hp := CloakSpec.mem_of_data hdata
    obtain ⟨s₁, hs₁, hdrops, hnone⟩ := h.foldlM_removeWhich fun e => e.cloakdata = p
    obtain ⟨d, hd, hexecutable⟩ := (h.live _ p).1 hp
    refine ⟨p, d, s₁, hp, hd, hexecutable, hdrops.mono ?_ ?_, ?_, ?_⟩
    · exact fun _ _ _ _ hof => of_decide_eq_true hof
    · -- the pointer says on which page a breakpoint is
      rintro x ⟨e, he, hactive, hof, rfl⟩
      have hmem := h.breakpoint e he hactive
      rw [of_decide_eq_true hof] at hmem
      rw [byteAddress, href.distinct.data _ _ _ hmem hp]
      have hoff : e.physicalAddress % 4096 < 4096 := Nat.mod_lt _ (by decide)
      omega
    · exact fun e he hactive => of_decide_eq_false (hnone e he hactive)
    · have hd₁ : s₁.cloakdata p = some d := by
        rw [hdrops.cloakdata]
        exact hd
      rw [CloakState.deactivate, hdeactivate, hdata]
      simp only [Option.bind_eq_bind, Option.bind_some, removeOfPage, hs₁, hd₁]
      rfl

end

end CloakState

end CheatEngine.Dbvm
