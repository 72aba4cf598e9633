/-
  CheatEngine.Dbvm.ChangeRegisters

  What an active change-register breakpoint does with the registers of the guest that hits
  it (`ept_handleSoftwareBreakpoint`, epthandler.c).  The byte under the breakpoint is the
  subject of Dbvm.Cloak.
-/
import CheatEngine.Dbvm.FrozenThread

namespace CheatEngine.Dbvm

def byteAt {n : Nat} (v : Vector UInt8 n) (i : Nat) : UInt8 := v[i]?.getD 0

/-- `copymem`, from an offset in one block of bytes to an offset in another one. -/
def copymem {n m : Nat} (dest : Vector UInt8 n) (destOff : Nat) (src : Vector UInt8 m)
    (srcOff size : Nat) : Vector UInt8 n :=
  Vector.ofFn fun i =>
    if destOff ≤ i.val ∧ i.val < destOff + size then byteAt src (srcOff + (i.val - destOff))
    else dest[i]

section Bytes

variable {n m : Nat}

theorem ext_byteAt {v w : Vector UInt8 n} (h : ∀ i, byteAt v i = byteAt w i) : v = w := by
  ext i hi
  have hbyte := h i
  simpa only [byteAt, Vector.getElem?_eq_getElem hi, Option.getD_some] using congrArg _ hbyte

theorem byteAt_copymem (dest : Vector UInt8 n) (destOff : Nat) (src : Vector UInt8 m)
    {srcOff size : Nat} (hfits : destOff + size ≤ n) (i : Nat) :
    byteAt (copymem dest destOff src srcOff size) i =
      if destOff ≤ i ∧ i < destOff + size then byteAt src (srcOff + (i - destOff))
      else byteAt dest i := by
  by_cases hi : i < n
  · have hget : byteAt (copymem dest destOff src srcOff size) i =
        (copymem dest destOff src srcOff size)[i] := by
      rw [byteAt, Vector.getElem?_eq_getElem hi, Option.getD_some]
    have hdest : byteAt dest i = dest[i] := by
      rw [byteAt, Vector.getElem?_eq_getElem hi, Option.getD_some]
    rw [hget, hdest]
    simp only [copymem, Vector.getElem_ofFn]
    rfl
  · have hnone : ∀ v : Vector UInt8 n, byteAt v i = 0 := fun v => by
      rw [byteAt, Vector.getElem?_eq_none (Nat.le_of_not_lt hi), Option.getD_none]
    rw [hnone, if_neg (by omega), hnone]

/-- Bytes that are copied to where they are. -/
theorem copymem_self (v : Vector UInt8 n) (off size : Nat) (hfits : off + size ≤ n) :
    copymem v off v off size = v := by
  refine ext_byteAt fun i => ?_
  rw [byteAt_copymem v off v hfits]
  split
  · next h => rw [show off + (i - off) = i by omega]
  · rfl

end Bytes

def bitOf (v : UInt64) (i : Nat) : Bool := v.toBitVec.getLsbD i

def setBit (v : UInt64) (i : Nat) (new : Bool) : UInt64 :=
  .ofBitVec (if new then v.toBitVec ||| BitVec.twoPow 64 i
    else v.toBitVec &&& ~~~BitVec.twoPow 64 i)

theorem bitOf_setBit (v : UInt64) {i : Nat} (hi : i < 64) (new : Bool) (k : Nat) :
    bitOf (setBit v i new) k = if k = i then new else bitOf v k := by
  unfold bitOf setBit
  cases new with
  | true =>
    show (v.toBitVec ||| BitVec.twoPow 64 i).getLsbD k = _
    rw [BitVec.getLsbD_or, BitVec.getLsbD_twoPow]
    by_cases hk : k = i
    · simp [hk, hi]
    · simp [hk, Ne.symm hk]
  | false =>
    show (v.toBitVec &&& ~~~BitVec.twoPow 64 i).getLsbD k = _
    rw [BitVec.getLsbD_and, BitVec.getLsbD_not, BitVec.getLsbD_twoPow]
    by_cases hk : k = i
    · simp [hk, hi]
    · by_cases hk64 : k < 64
      · simp [hk, Ne.symm hk, hk64]
      · simp [hk, hk64, BitVec.getLsbD_of_ge v.toBitVec k (Nat.le_of_not_lt hk64)]

/-- `CHANGEREGONBPINFO.Flags` -/
structure ChangeRegFlags where
  changeRAX : Bool
  changeRBX : Bool
  changeRCX : Bool
  changeRDX : Bool
  changeRSI : Bool
  changeRDI : Bool
  changeRBP : Bool
  changeRSP : Bool
  changeRIP : Bool
  changeR8 : Bool
  changeR9 : Bool
  changeR10 : Bool
  changeR11 : Bool
  changeR12 : Bool
  changeR13 : Bool
  changeR14 : Bool
  changeR15 : Bool
  changeCF : Bool
  changePF : Bool
  changeAF : Bool
  changeZF : Bool
  changeSF : Bool
  changeOF : Bool
  newCF : Bool
  newPF : Bool
  newAF : Bool
  newZF : Bool
  newSF : Bool
  newOF : Bool

/-- `CHANGEREGONBPINFO`; `newFP` and `newXMM` are the bytes from `newFP0` and from
    `newXMM0` on. -/
structure CHANGEREGONBPINFO where
  Flags : ChangeRegFlags
  /-- "16 nibbles, each bit is one dword" -/
  changeXMM : UInt64
  changeFP : UInt64
  newRAX : UInt64
  newRBX : UInt64
  newRCX : UInt64
  newRDX : UInt64
  newRSI : UInt64
  newRDI : UInt64
  newRBP : UInt64
  newRSP : UInt64
  newRIP : UInt64
  newR8 : UInt64
  newR9 : UInt64
  newR10 : UInt64
  newR11 : UInt64
  newR12 : UInt64
  newR13 : UInt64
  newR14 : UInt64
  newR15 : UInt64
  newFP : Vector UInt8 128
  newXMM : Vector UInt8 256

/-- An entry of `ChangeRegBPList`. -/
structure ChangeRegBP where
  Active : Bool
  PhysicalAddress : Nat
  changereginfo : CHANGEREGONBPINFO

/-! ## The registers -/

def offsetFP_MM0 : Nat := 32
def offsetXMM0 : Nat := 160

section

variable (info : CHANGEREGONBPINFO)

/-- x87 register `r`; source and destination are the same. -/
def changeFP (fxsave : FXSAVE64) (r : Nat) : FXSAVE64 :=
  if bitOf info.changeFP r then
    copymem fxsave (offsetFP_MM0 + 10 * r) fxsave (offsetFP_MM0 + 10 * r) 10
  else fxsave

/-- `for (r=0; r<8; r++)` over the x87 registers. -/
def changeFPLoop (fxsave : FXSAVE64) : FXSAVE64 :=
  if info.changeFP ≠ 0 then (List.range 8).foldl (changeFP info) fxsave else fxsave

def xmmMask (r : Nat) : Nat := info.changeXMM.toNat >>> (4 * r) % 2 ^ 4

/-- `if (mask & (1 << p)) destparts[p]=sourceparts[p]` -/
def changeXMMPart (r : Nat) (fxsave : FXSAVE64) (p : Nat) : FXSAVE64 :=
  if (xmmMask info r).testBit p then
    copymem fxsave (offsetXMM0 + 16 * r + 4 * p) info.newXMM (16 * r + 4 * p) 4
  else fxsave

def changeXMM (fxsave : FXSAVE64) (r : Nat) : FXSAVE64 :=
  if xmmMask info r ≠ 0 then (List.range 4).foldl (changeXMMPart info r) fxsave else fxsave

/-- `for (r=0; r<15; r++)` over the XMM registers. -/
def changeXMMLoop (fxsave : FXSAVE64) : FXSAVE64 :=
  if info.changeXMM ≠ 0 then (List.range 15).foldl (changeXMM info) fxsave else fxsave

end

/-- `if (Flags.changeCF) flags.CF=Flags.newCF`, for each of the six. -/
def changeFlags (f : ChangeRegFlags) (flags : RFlags) : RFlags :=
  let v := flags.other
  let v := if f.changeCF then setBit v 0 f.newCF else v
  let v := if f.changePF then setBit v 2 f.newPF else v
  let v := if f.changeAF then setBit v 4 f.newAF else v
  let v := if f.changeZF then setBit v 6 f.newZF else v
  let v := if f.changeSF then setBit v 7 f.newSF else v
  let v := if f.changeOF then setBit v 11 f.newOF else v
  { flags with other := v }

def changeRegs (info : CHANGEREGONBPINFO) (c : Cpu) : Cpu :=
  let f := info.Flags
  let registers := c.registers
  let registers : VMRegisters :=
    { rax := registers.rax
      rbx := if f.changeRBX then info.newRBX else registers.rbx
      rcx := if f.changeRCX then info.newRCX else registers.rcx
      rdx := if f.changeRDX then info.newRDX else registers.rdx
      rsi := if f.changeRSI then info.newRSI else registers.rsi
      rdi := if f.changeRDI then info.newRDI else registers.rdi
      rbp := if f.changeRBP then info.newRBP else registers.rbp
      r8 := if f.changeR8 then info.newR8 else registers.r8
      r9 := if f.changeR9 then info.newR9 else registers.r9
      r10 := if f.changeR10 then info.newR10 else registers.r10
      r11 := if f.changeR11 then info.newR11 else registers.r11
      r12 := if f.changeR12 then info.newR12 else registers.r12
      r13 := if f.changeR13 then info.newR13 else registers.r13
      r14 := if f.changeR14 then info.newR14 else registers.r14
      r15 := if f.changeR15 then info.newR15 else registers.r15 }
  let fxsave := changeXMMLoop info (changeFPLoop info c.fxsave)
  match c.control with
  | .vmcb v =>
    { c with
      registers
      fxsave
      control := .vmcb { v with
        rax := if f.changeRAX then info.newRAX else v.rax
        rsp := if f.changeRSP then info.newRSP else v.rsp
        rip := if f.changeRIP then info.newRIP else v.rip
        rflags := changeFlags f v.rflags } }
  | .vmcs v =>
    { c with
      registers := { registers with
        rax := if f.changeRAX then info.newRAX else registers.rax }
      fxsave
      control := .vmcs { v with
        rsp := if f.changeRSP then info.newRSP else v.rsp
        rip := if f.changeRIP then info.newRIP else v.rip
        rflags := changeFlags f v.rflags } }

def holdInterrupts (c : Cpu) : Cpu :=
  match c.control with
  | .vmcb v => { c with control := .vmcb { v with interruptShadow := true } }
  | .vmcs v => { c with control := .vmcs { v with interruptabilityState := 2 } }

def ripStays (info : CHANGEREGONBPINFO) (oldRIP : UInt64) : Bool :=
  !info.Flags.changeRIP || info.newRIP == oldRIP

/-- The match with entry `i`: the registers are changed, and the CPU steps over the
    instruction if it is the next one. -/
def changeRegHit (info : CHANGEREGONBPINFO) (i : Nat) (c : Cpu) : Cpu :=
  let after := changeRegs info c
  if ripStays info c.rip then
    holdInterrupts (after.enableSingleStepMode.addSingleSteppingReason .handleSoftwareBreakpoint i)
  else after

/-- The loop over `ChangeRegBPList` from entry `i` on. -/
def changeRegLoop (PA : Nat) (c : Cpu) : Nat → Bool → List ChangeRegBP → Bool × Cpu
  | _, result, [] => (result, c)
  | i, result, e :: l =>
    if e.PhysicalAddress = PA then
      if e.Active then (true, changeRegHit e.changereginfo i c)
      else changeRegLoop PA c (i + 1) true l    -- "probably a stale breakpoint event"
    else changeRegLoop PA c (i + 1) result l

/-- The part of `ept_handleSoftwareBreakpoint` for change-register breakpoints. -/
def handleChangeRegBP (l : List ChangeRegBP) (PA : Nat) (c : Cpu) : Bool × Cpu :=
  changeRegLoop PA c 0 false l

/-- The general registers, `RIP` and `RSP`, with those that are selected replaced. -/
def CHANGEREGONBPINFO.requested (info : CHANGEREGONBPINFO) (g : GuestRegisters) : GuestRegisters :=
  let f := info.Flags
  { g with
    rax := if f.changeRAX then info.newRAX else g.rax
    rbx := if f.changeRBX then info.newRBX else g.rbx
    rcx := if f.changeRCX then info.newRCX else g.rcx
    rdx := if f.changeRDX then info.newRDX else g.rdx
    rsi := if f.changeRSI then info.newRSI else g.rsi
    rdi := if f.changeRDI then info.newRDI else g.rdi
    rbp := if f.changeRBP then info.newRBP else g.rbp
    rsp := if f.changeRSP then info.newRSP else g.rsp
    rip := if f.changeRIP then info.newRIP else g.rip
    r8 := if f.changeR8 then info.newR8 else g.r8
    r9 := if f.changeR9 then info.newR9 else g.r9
    r10 := if f.changeR10 then info.newR10 else g.r10
    r11 := if f.changeR11 then info.newR11 else g.r11
    r12 := if f.changeR12 then info.newR12 else g.r12
    r13 := if f.changeR13 then info.newR13 else g.r13
    r14 := if f.changeR14 then info.newR14 else g.r14
    r15 := if f.changeR15 then info.newR15 else g.r15 }

/-- The new value of a bit of `RFLAGS`, if it is a status flag that is selected. -/
def ChangeRegFlags.status (f : ChangeRegFlags) (i : Nat) : Option Bool :=
  if i = 0 ∧ f.changeCF then some f.newCF
  else if i = 2 ∧ f.changePF then some f.newPF
  else if i = 4 ∧ f.changeAF then some f.newAF
  else if i = 6 ∧ f.changeZF then some f.newZF
  else if i = 7 ∧ f.changeSF then some f.newSF
  else if i = 11 ∧ f.changeOF then some f.newOF
  else none

/-- Bit `r` of `changeFP` selects the 10 bytes of an x87 register; the registers are 16
    bytes apart. -/
def CHANGEREGONBPINFO.SelectsFP (info : CHANGEREGONBPINFO) (i : Nat) : Prop :=
  offsetFP_MM0 ≤ i ∧ i < offsetXMM0 ∧ (i - offsetFP_MM0) % 16 < 10 ∧
    bitOf info.changeFP ((i - offsetFP_MM0) / 16) = true

/-- A register has four bits of `changeXMM`, one for a DWORD, and there are 16 of them. -/
def CHANGEREGONBPINFO.SelectsXMM (info : CHANGEREGONBPINFO) (i : Nat) : Prop :=
  offsetXMM0 ≤ i ∧ i < offsetXMM0 + 16 * 16 ∧ bitOf info.changeXMM ((i - offsetXMM0) / 4) = true

instance (info : CHANGEREGONBPINFO) (i : Nat) : Decidable (info.SelectsFP i) :=
  inferInstanceAs (Decidable (_ ∧ _))

instance (info : CHANGEREGONBPINFO) (i : Nat) : Decidable (info.SelectsXMM i) :=
  inferInstanceAs (Decidable (_ ∧ _))

/-- The new value of a byte of the FXSAVE area, if it is selected. -/
def CHANGEREGONBPINFO.fpuByte (info : CHANGEREGONBPINFO) (i : Nat) : Option UInt8 :=
  if info.SelectsFP i then some (byteAt info.newFP (i - offsetFP_MM0))
  else if info.SelectsXMM i then some (byteAt info.newXMM (i - offsetXMM0))
  else none

/-- Every register that is selected has its new value, and no other one has changed.  While
    the CPU steps over the instruction, `TF` and `RF` are those of the step. -/
structure Changed (info : CHANGEREGONBPINFO) (steps : Bool) (before after : GuestRegisters) :
    Prop where
  general : { after with rflags := before.rflags, fpu := before.fpu } = info.requested before
  status : ∀ i, bitOf after.rflags.other i =
    (info.Flags.status i).getD (bitOf before.rflags.other i)
  interrupt : after.rflags.IF = before.rflags.IF
  step : steps = false → after.rflags.TF = before.rflags.TF ∧ after.rflags.RF = before.rflags.RF
  fpu : ∀ i, byteAt after.fpu i = (info.fpuByte i).getD (byteAt before.fpu i)

/-- What the loops leave out has its new value already: the x87 registers that are
    selected, and the DWORDs of XMM15 that are. -/
structure HasAlready (info : CHANGEREGONBPINFO) (before : FXSAVE64) : Prop where
  fp : ∀ r k, r < 8 → k < 10 → bitOf info.changeFP r = true →
    byteAt before (offsetFP_MM0 + 16 * r + k) = byteAt info.newFP (16 * r + k)
  xmm15 : ∀ p k, p < 4 → k < 4 → bitOf info.changeXMM (4 * 15 + p) = true →
    byteAt before (offsetXMM0 + 16 * 15 + 4 * p + k) = byteAt info.newXMM (16 * 15 + 4 * p + k)

/-! ## The loops -/

section Loops

variable {info : CHANGEREGONBPINFO} {fxsave : FXSAVE64} {r p i : Nat}

/-- The x87 registers stay as they are: each is copied to itself. -/
theorem changeFPLoop_eq (info : CHANGEREGONBPINFO) (fxsave : FXSAVE64) :
    changeFPLoop info fxsave = fxsave := by
  have hself : ∀ r, r < 8 → changeFP info fxsave r = fxsave := by
    intro r hr
    have hfits : offsetFP_MM0 + 10 * r + 10 ≤ 512 := by
      simp only [offsetFP_MM0]
      omega
    unfold changeFP
    rw [copymem_self fxsave _ 10 hfits, ite_self]
  have hloop : ∀ l : List Nat, (∀ r ∈ l, r < 8) → l.foldl (changeFP info) fxsave = fxsave := by
    intro l hl
    induction l with
    | nil => rfl
    | cons r l ih =>
      rw [List.foldl_cons, hself r (hl r List.mem_cons_self)]
      exact ih fun r' hr' => hl r' (List.mem_cons_of_mem r hr')
  unfold changeFPLoop
  rw [hloop _ fun r hr => List.mem_range.1 hr, ite_self]

theorem testBit_xmmMask (info : CHANGEREGONBPINFO) (r : Nat) (hp : p < 4) :
    (xmmMask info r).testBit p = bitOf info.changeXMM (4 * r + p) := by
  unfold xmmMask bitOf
  rw [Nat.testBit_mod_two_pow, Nat.testBit_shiftRight]
  simp only [hp, decide_true, Bool.true_and]
  rfl

/-- The DWORDs of register `r` before DWORD `count`, as far as they are selected. -/
def InParts (info : CHANGEREGONBPINFO) (r count i : Nat) : Prop :=
  offsetXMM0 + 16 * r ≤ i ∧ i < offsetXMM0 + 16 * r + 4 * count ∧
    bitOf info.changeXMM ((i - offsetXMM0) / 4) = true

instance (info : CHANGEREGONBPINFO) (r count i : Nat) : Decidable (InParts info r count i) :=
  inferInstanceAs (Decidable (_ ∧ _))

/-- One DWORD. -/
theorem byteAt_changeXMMPart (info : CHANGEREGONBPINFO) (hr : r < 16) (hp : p < 4)
    (fxsave : FXSAVE64) (i : Nat) :
    byteAt (changeXMMPart info r fxsave p) i =
      if InParts info r (p + 1) i ∧ ¬ InParts info r p i then byteAt info.newXMM (i - offsetXMM0)
      else byteAt fxsave i := by
  have hfits : offsetXMM0 + 16 * r + 4 * p + 4 ≤ 512 := by
    simp only [offsetXMM0]
    omega
  unfold changeXMMPart
  rw [testBit_xmmMask info r hp]
  by_cases hin : offsetXMM0 + 16 * r + 4 * p ≤ i ∧ i < offsetXMM0 + 16 * r + 4 * p + 4
  · have hindex : (i - offsetXMM0) / 4 = 4 * r + p := by omega
    by_cases hsel : bitOf info.changeXMM (4 * r + p) = true
    · have hpart : InParts info r (p + 1) i ∧ ¬ InParts info r p i := by
        refine ⟨⟨by omega, by omega, hindex ▸ hsel⟩, fun h => ?_⟩
        have hbefore := h.2.1
        omega
      have hoffset : 16 * r + 4 * p + (i - (offsetXMM0 + 16 * r + 4 * p)) = i - offsetXMM0 := by
        omega
      rw [if_pos hsel, byteAt_copymem _ _ _ hfits, if_pos hin, if_pos hpart, hoffset]
    · have hpart : ¬ (InParts info r (p + 1) i ∧ ¬ InParts info r p i) := by
        simp only [InParts, hindex]
        tauto
      rw [if_neg hsel, if_neg hpart]
  · -- a byte outside stays, whether the DWORD is selected or not
    have hpart : ¬ (InParts info r (p + 1) i ∧ ¬ InParts info r p i) := by
      rintro ⟨⟨hlo, hhi, hbit⟩, hnot⟩
      exact hnot ⟨hlo, by omega, hbit⟩
    rw [if_neg hpart]
    split
    · rw [byteAt_copymem _ _ _ hfits, if_neg hin]
    · rfl

/-- The first DWORDs of a register, by induction on their number. -/
theorem byteAt_parts (info : CHANGEREGONBPINFO) (hr : r < 16) (fxsave : FXSAVE64) {count : Nat}
    (hcount : count ≤ 4) (i : Nat) :
    byteAt ((List.range count).foldl (changeXMMPart info r) fxsave) i =
      if InParts info r count i then byteAt info.newXMM (i - offsetXMM0)
      else byteAt fxsave i := by
  induction count with
  | zero =>
    have hnone : ¬ InParts info r 0 i := fun ⟨hlo, hhi, _⟩ => by omega
    rw [if_neg hnone]
    rfl
  | succ count ih =>
    rw [List.range_succ, List.foldl_append, List.foldl_cons, List.foldl_nil,
      byteAt_changeXMMPart info hr (by omega), ih (by omega)]
    by_cases hold : InParts info r count i
    · have hnew : InParts info r (count + 1) i := ⟨hold.1, by have := hold.2.1; omega, hold.2.2⟩
      rw [if_neg (fun h => h.2 hold), if_pos hold, if_pos hnew]
    · by_cases hnew : InParts info r (count + 1) i
      · rw [if_pos ⟨hnew, hold⟩, if_pos hnew]
      · rw [if_neg (fun h => hnew h.1), if_neg hold, if_neg hnew]

/-- A register whose four bits are clear needs no pass. -/
theorem byteAt_changeXMM (info : CHANGEREGONBPINFO) (hr : r < 16) (fxsave : FXSAVE64) (i : Nat) :
    byteAt (changeXMM info fxsave r) i =
      if InParts info r 4 i then byteAt info.newXMM (i - offsetXMM0) else byteAt fxsave i := by
  unfold changeXMM
  by_cases hmask : xmmMask info r = 0
  · have hnone : ¬ InParts info r 4 i := by
      rintro ⟨hlo, hhi, hbit⟩
      have hp : (i - offsetXMM0) / 4 - 4 * r < 4 := by omega
      have htest := testBit_xmmMask info r hp
      rw [hmask, Nat.zero_testBit, show 4 * r + ((i - offsetXMM0) / 4 - 4 * r) =
        (i - offsetXMM0) / 4 by omega, hbit] at htest
      cases htest
    rw [if_neg (not_not.2 hmask), if_neg hnone]
  · rw [if_pos hmask, byteAt_parts info hr fxsave (Nat.le_refl 4)]

theorem byteAt_registers (info : CHANGEREGONBPINFO) (fxsave : FXSAVE64) {count : Nat}
    (hcount : count ≤ 16) (i : Nat) :
    byteAt ((List.range count).foldl (changeXMM info) fxsave) i =
      if InParts info 0 (4 * count) i then byteAt info.newXMM (i - offsetXMM0)
      else byteAt fxsave i := by
  induction count with
  | zero =>
    have hnone : ¬ InParts info 0 (4 * 0) i := fun ⟨hlo, hhi, _⟩ => by omega
    rw [if_neg hnone]
    rfl
  | succ count ih =>
    rw [List.range_succ, List.foldl_append, List.foldl_cons, List.foldl_nil,
      byteAt_changeXMM info (by omega), ih (by omega)]
    have hsplit : InParts info 0 (4 * (count + 1)) i ↔
        InParts info count 4 i ∨ InParts info 0 (4 * count) i := by
      unfold InParts
      constructor
      · rintro ⟨hlo, hhi, hbit⟩
        by_cases h : offsetXMM0 + 16 * count ≤ i
        · exact .inl ⟨h, by omega, hbit⟩
        · exact .inr ⟨hlo, by omega, hbit⟩
      · rintro (⟨hlo, hhi, hbit⟩ | ⟨hlo, hhi, hbit⟩)
        · exact ⟨by omega, by omega, hbit⟩
        · exact ⟨hlo, by omega, hbit⟩
    by_cases hnew : InParts info count 4 i
    · rw [if_pos hnew, if_pos (hsplit.2 (.inl hnew))]
    · by_cases hold : InParts info 0 (4 * count) i
      · rw [if_neg hnew, if_pos hold, if_pos (hsplit.2 (.inr hold))]
      · rw [if_neg hnew, if_neg hold, if_neg (fun h => (hsplit.1 h).elim hnew hold)]

theorem byteAt_changeXMMLoop (info : CHANGEREGONBPINFO) (fxsave : FXSAVE64) (i : Nat) :
    byteAt (changeXMMLoop info fxsave) i =
      if info.SelectsXMM i ∧ i < offsetXMM0 + 16 * 15 then byteAt info.newXMM (i - offsetXMM0)
      else byteAt fxsave i := by
  have hparts : InParts info 0 (4 * 15) i ↔ info.SelectsXMM i ∧ i < offsetXMM0 + 16 * 15 := by
    unfold InParts CHANGEREGONBPINFO.SelectsXMM
    constructor
    · rintro ⟨hlo, hhi, hbit⟩
      exact ⟨⟨hlo, by omega, hbit⟩, by omega⟩
    · rintro ⟨⟨hlo, -, hbit⟩, hhi⟩
      exact ⟨hlo, by omega, hbit⟩
  unfold changeXMMLoop
  by_cases hzero : info.changeXMM = 0
  · have hnone : ¬ (info.SelectsXMM i ∧ i < offsetXMM0 + 16 * 15) := by
      rintro ⟨⟨-, -, hbit⟩, -⟩
      rw [hzero] at hbit
      simp [bitOf] at hbit
    rw [if_neg (not_not.2 hzero), if_neg hnone]
  · rw [if_pos hzero, byteAt_registers info fxsave (by decide)]
    exact if_congr hparts rfl rfl

end Loops

/-! ## The match -/

section Match

variable {info : CHANGEREGONBPINFO} {c : Cpu}

theorem bitOf_changeFlags (f : ChangeRegFlags) (flags : RFlags) (i : Nat) :
    bitOf (changeFlags f flags).other i = (f.status i).getD (bitOf flags.other i) := by
  have hflag : ∀ (v : UInt64) (n : Nat) (change new : Bool), n < 64 →
      bitOf (if change then setBit v n new else v) i =
        if i = n ∧ change = true then new else bitOf v i := by
    intro v n change new hn
    cases change with
    | true =>
      rw [if_pos rfl, bitOf_setBit v hn]
      simp only [and_true]
    | false =>
      rw [if_neg Bool.false_ne_true, if_neg fun h => Bool.false_ne_true h.2]
  simp only [changeFlags, hflag _ _ _ _ (by decide : 11 < 64), hflag _ _ _ _ (by decide : 7 < 64),
    hflag _ _ _ _ (by decide : 6 < 64), hflag _ _ _ _ (by decide : 4 < 64),
    hflag _ _ _ _ (by decide : 2 < 64), hflag _ _ _ _ (by decide : 0 < 64),
    ChangeRegFlags.status]
  split_ifs <;> first | rfl | omega

theorem changeRegs_general (info : CHANGEREGONBPINFO) (c : Cpu) :
    { (changeRegs info c).guest with rflags := c.guest.rflags, fpu := c.guest.fpu } =
      info.requested c.guest := by
  unfold changeRegs
  cases h : c.control with
  | vmcs v => simp only [Cpu.guest, Cpu.rax, Cpu.rsp, Cpu.rip, Cpu.rflags, h,
      CHANGEREGONBPINFO.requested]
  | vmcb v => simp only [Cpu.guest, Cpu.rax, Cpu.rsp, Cpu.rip, Cpu.rflags, h,
      CHANGEREGONBPINFO.requested]

theorem changeRegs_rflags (info : CHANGEREGONBPINFO) (c : Cpu) :
    (changeRegs info c).rflags = changeFlags info.Flags c.rflags := by
  unfold changeRegs
  cases h : c.control with
  | vmcs v => simp only [Cpu.rflags, h]
  | vmcb v => simp only [Cpu.rflags, h]

theorem changeRegs_fxsave (info : CHANGEREGONBPINFO) (c : Cpu) :
    (changeRegs info c).fxsave = changeXMMLoop info c.fxsave := by
  unfold changeRegs
  rw [changeFPLoop_eq]
  cases h : c.control with
  | vmcs v => rfl
  | vmcb v => rfl

theorem fpu_iff (info : CHANGEREGONBPINFO) (fxsave : FXSAVE64) :
    (∀ i, byteAt (changeXMMLoop info fxsave) i = (info.fpuByte i).getD (byteAt fxsave i)) ↔
      HasAlready info fxsave := by
  constructor
  · intro h
    constructor
    · intro r k hr hk hbit
      have hi := h (offsetFP_MM0 + 16 * r + k)
      have hoffset : offsetFP_MM0 + 16 * r + k - offsetFP_MM0 = 16 * r + k := by omega
      have hsel : info.SelectsFP (offsetFP_MM0 + 16 * r + k) := by
        refine ⟨by omega, ?_, by omega, ?_⟩
        · simp only [offsetFP_MM0, offsetXMM0]
          omega
        · rw [hoffset, show (16 * r + k) / 16 = r by omega]
          exact hbit
      have hxmm : ¬ (info.SelectsXMM (offsetFP_MM0 + 16 * r + k) ∧
          offsetFP_MM0 + 16 * r + k < offsetXMM0 + 16 * 15) := fun hx => by
        have hlo := hx.1.1
        have hhi := hsel.2.1
        omega
      rw [byteAt_changeXMMLoop, if_neg hxmm, CHANGEREGONBPINFO.fpuByte, if_pos hsel,
        Option.getD_some, hoffset] at hi
      exact hi
    · intro p k hp hk hbit
      have hi := h (offsetXMM0 + 16 * 15 + 4 * p + k)
      have hoffset : offsetXMM0 + 16 * 15 + 4 * p + k - offsetXMM0 = 16 * 15 + 4 * p + k := by
        omega
      have hsel : info.SelectsXMM (offsetXMM0 + 16 * 15 + 4 * p + k) := by
        refine ⟨by omega, by omega, ?_⟩
        rw [hoffset, show (16 * 15 + 4 * p + k) / 4 = 4 * 15 + p by omega]
        exact hbit
      have hfp : ¬ info.SelectsFP (offsetXMM0 + 16 * 15 + 4 * p + k) := fun hx => by
        have hhi := hx.2.1
        omega
      have hlast : ¬ (info.SelectsXMM (offsetXMM0 + 16 * 15 + 4 * p + k) ∧
          offsetXMM0 + 16 * 15 + 4 * p + k < offsetXMM0 + 16 * 15) := fun hx => by
        have hhi := hx.2
        omega
      rw [byteAt_changeXMMLoop, if_neg hlast, CHANGEREGONBPINFO.fpuByte, if_neg hfp, if_pos hsel,
        Option.getD_some, hoffset] at hi
      exact hi
  · intro h i
    rw [byteAt_changeXMMLoop, CHANGEREGONBPINFO.fpuByte]
    by_cases hfp : info.SelectsFP i
    · have hxmm : ¬ (info.SelectsXMM i ∧ i < offsetXMM0 + 16 * 15) := fun hx => by
        have hlo := hx.1.1
        have hhi := hfp.2.1
        omega
      rw [if_neg hxmm, if_pos hfp, Option.getD_some]
      obtain ⟨hlo, hhi, hk, hbit⟩ := hfp
      have hr : (i - offsetFP_MM0) / 16 < 8 := by
        simp only [offsetFP_MM0, offsetXMM0] at hlo hhi ⊢
        omega
      have hbyte := h.fp _ _ hr hk hbit
      rw [show offsetFP_MM0 + 16 * ((i - offsetFP_MM0) / 16) + (i - offsetFP_MM0) % 16 = i by
        omega, show 16 * ((i - offsetFP_MM0) / 16) + (i - offsetFP_MM0) % 16 =
          i - offsetFP_MM0 by omega] at hbyte
      exact hbyte
    · rw [if_neg hfp]
      by_cases hxmm : info.SelectsXMM i
      · rw [if_pos hxmm, Option.getD_some]
        by_cases hlast : i < offsetXMM0 + 16 * 15
        · rw [if_pos ⟨hxmm, hlast⟩]
        · -- a byte of the last register
          rw [if_neg fun hx => hlast hx.2]
          obtain ⟨hlo, hhi, hbit⟩ := hxmm
          have hp : (i - offsetXMM0) / 4 - 4 * 15 < 4 := by omega
          have hbyte := h.xmm15 _ ((i - offsetXMM0) % 4) hp (by omega)
            (by rw [show 4 * 15 + ((i - offsetXMM0) / 4 - 4 * 15) = (i - offsetXMM0) / 4 by omega]
                exact hbit)
          rw [show offsetXMM0 + 16 * 15 + 4 * ((i - offsetXMM0) / 4 - 4 * 15) +
            (i - offsetXMM0) % 4 = i by omega, show 16 * 15 +
            4 * ((i - offsetXMM0) / 4 - 4 * 15) + (i - offsetXMM0) % 4 = i - offsetXMM0 by
              omega] at hbyte
          exact hbyte
      · rw [if_neg (fun hx => hxmm hx.1), if_neg hxmm, Option.getD_none]

def Cpu.isAMD (c : Cpu) : Bool :=
  match c.control with
  | .vmcb _ => true
  | .vmcs _ => false

/-- The trap flag is used for a step over the instruction under the breakpoint. -/
def stepsOver (info : CHANGEREGONBPINFO) (c : Cpu) : Bool := c.isAMD && ripStays info c.rip

theorem isAMD_changeRegs (info : CHANGEREGONBPINFO) (c : Cpu) :
    (changeRegs info c).isAMD = c.isAMD := by
  unfold changeRegs
  cases h : c.control with
  | vmcs v => simp only [Cpu.isAMD, h]
  | vmcb v => simp only [Cpu.isAMD, h]

theorem guest_holdInterrupts (c : Cpu) : (holdInterrupts c).guest = c.guest := by
  unfold holdInterrupts
  cases h : c.control with
  | vmcs v => simp only [Cpu.guest, Cpu.rax, Cpu.rsp, Cpu.rip, Cpu.rflags, h]
  | vmcb v => simp only [Cpu.guest, Cpu.rax, Cpu.rsp, Cpu.rip, Cpu.rflags, h]

/-- The flags of a step. -/
def GuestRegisters.stepping (g : GuestRegisters) : GuestRegisters :=
  { g with rflags := { g.rflags with TF := true, RF := true } }

theorem guest_enableSingleStepMode (c : Cpu) : c.enableSingleStepMode.guest =
    if c.isAMD then c.guest.stepping else c.guest := by
  unfold Cpu.enableSingleStepMode
  cases h : c.control with
  | vmcs v =>
    simp only [Cpu.isAMD, h]
    split
    · rfl
    · split
      · simp only [Cpu.guest, Cpu.rax, Cpu.rsp, Cpu.rip, Cpu.rflags, h]
        rfl
      · rfl
  | vmcb v =>
    simp only [Cpu.isAMD, Cpu.guest, Cpu.rax, Cpu.rsp, Cpu.rip, Cpu.rflags, h]
    rfl

theorem guest_changeRegHit (info : CHANGEREGONBPINFO) (i : Nat) (c : Cpu) :
    (changeRegHit info i c).guest =
      if stepsOver info c then (changeRegs info c).guest.stepping
      else (changeRegs info c).guest := by
  have hreason : ∀ c : Cpu, (c.addSingleSteppingReason .handleSoftwareBreakpoint i).guest =
      c.guest := fun _ => rfl
  unfold changeRegHit
  by_cases hstays : ripStays info c.rip = true
  · have hsteps : stepsOver info c = c.isAMD := by
      rw [stepsOver, hstays, Bool.and_true]
    rw [if_pos hstays, guest_holdInterrupts, hreason, guest_enableSingleStepMode,
      isAMD_changeRegs, hsteps]
  · have hsteps : stepsOver info c = false := by
      rw [stepsOver, Bool.eq_false_iff.2 hstays, Bool.and_false]
    rw [if_neg hstays, hsteps, if_neg Bool.false_ne_true]

theorem changed_changeRegHit_iff (info : CHANGEREGONBPINFO) (i : Nat) (c : Cpu) :
    Changed info (stepsOver info c) c.guest (changeRegHit info i c).guest ↔
      HasAlready info c.fxsave := by
  have hgeneral := changeRegs_general info c
  have hfxsave : (changeRegs info c).guest.fpu = changeXMMLoop info c.fxsave :=
    changeRegs_fxsave info c
  have hguest : (changeRegs info c).guest.rflags = changeFlags info.Flags c.rflags :=
    changeRegs_rflags info c
  rw [guest_changeRegHit, ← fpu_iff]
  cases hsteps : stepsOver info c with
  | true =>
    rw [if_pos rfl]
    constructor
    · intro h
      rw [← hfxsave]
      exact h.fpu
    · intro h
      refine ⟨hgeneral, fun i => ?_, ?_, (fun hno => nomatch hno), ?_⟩
      · show bitOf (changeRegs info c).guest.rflags.other i = _
        rw [hguest]
        exact bitOf_changeFlags info.Flags c.rflags i
      · show (changeRegs info c).guest.rflags.IF = _
        rw [hguest]
        rfl
      · rw [← hfxsave] at h
        exact h
  | false =>
    rw [if_neg Bool.false_ne_true]
    constructor
    · intro h
      rw [← hfxsave]
      exact h.fpu
    · intro h
      refine ⟨hgeneral, fun i => ?_, ?_, fun _ => ?_, ?_⟩
      · rw [hguest]
        exact bitOf_changeFlags info.Flags c.rflags i
      · rw [hguest]
        rfl
      · rw [hguest]
        exact ⟨rfl, rfl⟩
      · rw [hfxsave]
        exact h

end Match

/-- An active breakpoint at the address. -/
def ChangeRegBP.isAt (e : ChangeRegBP) (PA : Nat) : Bool := e.Active && e.PhysicalAddress == PA

theorem changeRegLoop_of_find (PA : Nat) (c : Cpu) (l : List ChangeRegBP) (e : ChangeRegBP)
    (h : l.find? (ChangeRegBP.isAt · PA) = some e) (i : Nat) (result : Bool) :
    ∃ k, changeRegLoop PA c i result l = (true, changeRegHit e.changereginfo k c) := by
  induction l generalizing i result with
  | nil => cases h
  | cons x l ih =>
    rw [changeRegLoop]
    by_cases hx : x.isAt PA = true
    · rw [List.find?_cons, hx, Option.some.injEq] at h
      subst h
      obtain ⟨hactive, hPA⟩ := Bool.and_eq_true_iff.1 hx
      rw [if_pos (beq_iff_eq.1 hPA), if_pos hactive]
      exact ⟨i, rfl⟩
    · rw [List.find?_cons, Bool.eq_false_iff.2 hx] at h
      by_cases hPA : x.PhysicalAddress = PA
      · have hactive : ¬ x.Active = true := fun hactive =>
          hx (Bool.and_eq_true_iff.2 ⟨hactive, beq_iff_eq.2 hPA⟩)
        rw [if_pos hPA, if_neg hactive]
        exact ih h (i + 1) true
      · rw [if_neg hPA]
        exact ih h (i + 1) result

/-- When an active breakpoint is hit, the registers are changed as it asks for if and only
    if the x87 registers and the DWORDs of XMM15 that it selects have their new values
    already. -/
theorem changed_iff (l : List ChangeRegBP) (PA : Nat) (c : Cpu) (e : ChangeRegBP)
    (h : l.find? (ChangeRegBP.isAt · PA) = some e) :
    Changed e.changereginfo (stepsOver e.changereginfo c) c.guest
        (handleChangeRegBP l PA c).2.guest ↔
      HasAlready e.changereginfo c.fxsave := by
  obtain ⟨k, hk⟩ := changeRegLoop_of_find PA c l e h 0 false
  rw [handleChangeRegBP, hk]
  exact changed_changeRegHit_iff e.changereginfo k c

/-- Only bit 0 of `changeFP` is set, and `newFP0` begins with the byte 1. -/
def changeST0 : CHANGEREGONBPINFO where
  Flags := ⟨false, false, false, false, false, false, false, false, false, false, false, false,
    false, false, false, false, false, false, false, false, false, false, false, false, false,
    false, false, false, false⟩
  changeXMM := 0
  changeFP := 1
  newRAX := 0
  newRBX := 0
  newRCX := 0
  newRDX := 0
  newRSI := 0
  newRDI := 0
  newRBP := 0
  newRSP := 0
  newRIP := 0
  newR8 := 0
  newR9 := 0
  newR10 := 0
  newR11 := 0
  newR12 := 0
  newR13 := 0
  newR14 := 0
  newR15 := 0
  newFP := (Vector.replicate 128 0).set 0 1
  newXMM := Vector.replicate 256 0

def breakpointST0 : ChangeRegBP := ⟨true, 0x1000, changeST0⟩

theorem changed_iff_ofST0 :
    [breakpointST0].find? (ChangeRegBP.isAt · 0x1000) = some breakpointST0 ∧
      (Changed changeST0 (stepsOver changeST0 userCpu) userCpu.guest
        (handleChangeRegBP [breakpointST0] 0x1000 userCpu).2.guest ↔
          HasAlready changeST0 userCpu.fxsave) :=
  ⟨rfl, changed_iff [breakpointST0] 0x1000 userCpu breakpointST0 rfl⟩

/-- The register keeps its old value. -/
theorem not_changed : ¬ ∀ (l : List ChangeRegBP) (PA : Nat) (c : Cpu) (e : ChangeRegBP),
    l.find? (ChangeRegBP.isAt · PA) = some e →
      Changed e.changereginfo (stepsOver e.changereginfo c) c.guest
        (handleChangeRegBP l PA c).2.guest := by
  intro hall
  have hchanged := hall [breakpointST0] 0x1000 userCpu breakpointST0 rfl
  have hfpu : (handleChangeRegBP [breakpointST0] 0x1000 userCpu).2.guest.fpu =
      Vector.replicate 512 0 := by
    show (changeRegHit changeST0 0 userCpu).guest.fpu = _
    rw [guest_changeRegHit, if_neg (by decide)]
    show (changeRegs changeST0 userCpu).fxsave = _
    rw [changeRegs_fxsave]
    rfl
  have hbyte := hchanged.fpu offsetFP_MM0
  rw [hfpu] at hbyte
  exact absurd hbyte (by decide)

end CheatEngine.Dbvm
