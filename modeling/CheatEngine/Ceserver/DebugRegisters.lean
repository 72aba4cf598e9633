/-
  CheatEngine.Ceserver.DebugRegisters

  The x86 part of `SetBreakpoint` and `RemoveBreakpoint` (ceserver/api.c): the
  debug registers of one stopped thread in its user area, and the value of DR7
  that the two functions compute for it.

  DR7 holds for register `r` two enable bits at `2 * r`, the type of the
  breakpoint at `16 + 4 * r` and its length at `18 + 4 * r`.  The code merges
  these fields with shifts of `int`, whose result is sign-extended when it meets
  the 64-bit word, and it never clears a field before it sets it.
-/
import Mathlib.Data.BitVec
import Mathlib.Tactic.IntervalCases
import Mathlib.Tactic.NormNum

namespace CheatEngine.Ceserver

/-- The words of a thread's `struct user` from `u_debugreg[0]` on. -/
structure DebugRegs where
  u_debugreg : Nat → BitVec 64

namespace DebugRegs

/-- The words after a `PTRACE_POKEUSER` that the kernel accepts. -/
def poke (d : DebugRegs) (i : Nat) (v : BitVec 64) : DebugRegs :=
  ⟨Function.update d.u_debugreg i v⟩

theorem poke_self (d : DebugRegs) (i : Nat) (v : BitVec 64) :
    (d.poke i v).u_debugreg i = v := by
  simp only [poke, Function.update_self]

theorem poke_of_ne (d : DebugRegs) {i j : Nat} (v : BitVec 64) (h : j ≠ i) :
    (d.poke i v).u_debugreg j = d.u_debugreg j := by
  simp only [poke, Function.update_of_ne h]

end DebugRegs

/-- Which words the kernel takes at which place of a thread's user area. -/
abbrev AcceptsPoke := DebugRegs → Nat → BitVec 64 → Bool

/-- `safe_ptrace(PTRACE_POKEUSER, ..)`: whether it returns 0, and the registers. -/
def pokeUser (accepts : AcceptsPoke) (d : DebugRegs) (i : Nat) (v : BitVec 64) :
    Bool × DebugRegs :=
  if accepts d i v then (true, d.poke i v) else (false, d)

/-- `v << n` for an `int`, as it meets a `uintptr_t`: sign-extended. -/
def intShl (v : BitVec 32) (n : Nat) : BitVec 64 := (v <<< n).signExtend 64

/-- `~(v << n)` for an `int`, as it meets a `uintptr_t`. -/
def intShlNot (v : BitVec 32) (n : Nat) : BitVec 64 := (~~~(v <<< n)).signExtend 64

/-- x86 has no breakpoint on reads alone: 2 becomes 3. -/
def x86Type (bptype : BitVec 32) : BitVec 32 := if bptype = 2 then 3 else bptype

/-- The length bits that `SetBreakpoint` chooses for a size. -/
def lengthBits (bpsize : Int) : BitVec 32 :=
  if bpsize ≤ 1 then 0 else if bpsize ≤ 2 then 1 else 3

/-- The bits that `SetBreakpoint` merges into DR7. -/
def breakpointBits (debugreg : Nat) (bptype : BitVec 32) (bpsize : Int) : BitVec 64 :=
  intShl 1 (debugreg * 2) ||| intShl (x86Type bptype) (16 + debugreg * 4) |||
    intShl (lengthBits bpsize) (18 + debugreg * 4)

/-- `newdr7` of `SetBreakpoint`, from the word that is there. -/
def setDr7 (dr7 : BitVec 64) (debugreg : Nat) (bptype : BitVec 32) (bpsize : Int) :
    BitVec 64 :=
  dr7 ||| intShl 1 (debugreg * 2) ||| intShl (x86Type bptype) (16 + debugreg * 4) |||
    intShl (lengthBits bpsize) (18 + debugreg * 4)

/-- `dr7` of `RemoveBreakpoint`, from the word that is there. -/
def removeDr7 (dr7 : BitVec 64) (debugreg : Nat) : BitVec 64 :=
  dr7 &&& intShlNot 3 (debugreg * 2) &&& intShlNot 15 (16 + debugreg * 4)

/-- `SetBreakpoint` on the registers of a stopped thread. -/
def setBreakpoint (accepts : AcceptsPoke) (d : DebugRegs) (address : BitVec 64)
    (debugreg : Nat) (bptype : BitVec 32) (bpsize : Int) : Bool × DebugRegs :=
  let newdr7 := setDr7 (d.u_debugreg 7) debugreg bptype bpsize
  let (r, d) := pokeUser accepts d debugreg address
  let (r2, d) := pokeUser accepts d 7 newdr7
  (r && r2, d)

/-- `RemoveBreakpoint` on the registers of a stopped thread. -/
def removeBreakpoint (accepts : AcceptsPoke) (d : DebugRegs) (debugreg : Nat) :
    Bool × DebugRegs :=
  let dr7 := removeDr7 (d.u_debugreg 7) debugreg
  -- the answer to the first write is overwritten by that to the second
  let (_, d) := pokeUser accepts d debugreg 0
  pokeUser accepts d 7 dr7

def localEnable (dr7 : BitVec 64) (r : Nat) : Bool := dr7.getLsbD (2 * r)

def typeField (dr7 : BitVec 64) (r : Nat) : BitVec 2 := dr7.extractLsb' (16 + 4 * r) 2

def lengthField (dr7 : BitVec 64) (r : Nat) : BitVec 2 := dr7.extractLsb' (18 + 4 * r) 2

/-- The size in bytes that a length field denotes. -/
def denotedSize (len : BitVec 2) : Int :=
  if len = 0 then 1 else if len = 1 then 2 else if len = 2 then 8 else 4

def lengthCode (bpsize : Int) : BitVec 2 :=
  if bpsize = 1 then 0 else if bpsize = 2 then 1 else if bpsize = 8 then 2 else 3

/-- The bits of DR7 that belong to a register: both enable bits, type, length. -/
def ownBits (r : Nat) : BitVec 64 :=
  (3 : BitVec 64) <<< (2 * r) ||| (15 : BitVec 64) <<< (16 + 4 * r)

/-- The type of breakpoint asked for, with reads widened to reads and writes. -/
def requestedType (bptype : BitVec 32) : BitVec 2 := (x86Type bptype).setWidth 2

/-- `new` is `old` with the breakpoint of register `r` set. -/
structure SetEncodes (old new : BitVec 64) (r : Nat) (bptype : BitVec 32) (bpsize : Int) :
    Prop where
  enabled : localEnable new r = true
  type : typeField new r = requestedType bptype
  size : denotedSize (lengthField new r) = bpsize
  others : new &&& ~~~ownBits r = old &&& ~~~ownBits r

/-- `new` is `old` with the breakpoint of register `r` removed. -/
def RemoveEncodes (old new : BitVec 64) (r : Nat) : Prop := new = old &&& ~~~ownBits r

/-- The upper half of the word, which belongs to no register. -/
def upperHalf : BitVec 64 := 0xFFFFFFFF00000000

/-- The fields of `dr7` that a breakpoint is merged into have no bit that it does
    not ask for, its size is not 8, and in the last register the sign of the
    length bits of size 4 meets an upper half that is already set. -/
structure SetFits (dr7 : BitVec 64) (r : Nat) (bptype : BitVec 32) (bpsize : Int) : Prop where
  type : typeField dr7 r ||| requestedType bptype = requestedType bptype
  length : lengthField dr7 r ||| lengthCode bpsize = lengthCode bpsize
  size : bpsize ≠ 8
  upper : r = 3 → bpsize = 4 → dr7 &&& upperHalf = upperHalf

/-- The mask of the last register is positive, and takes the upper half away. -/
def RemoveFits (dr7 : BitVec 64) (r : Nat) : Prop := r = 3 → dr7 &&& upperHalf = 0

theorem setDr7_eq (dr7 : BitVec 64) (r : Nat) (bptype : BitVec 32) (bpsize : Int) :
    setDr7 dr7 r bptype bpsize = dr7 ||| breakpointBits r bptype bpsize := by
  simp only [setDr7, breakpointBits, BitVec.or_assoc]

theorem localEnable_or (v w : BitVec 64) (r : Nat) :
    localEnable (v ||| w) r = (localEnable v r || localEnable w r) :=
  BitVec.getLsbD_or

theorem typeField_or (v w : BitVec 64) (r : Nat) :
    typeField (v ||| w) r = typeField v r ||| typeField w r :=
  BitVec.extractLsb'_or

theorem lengthField_or (v w : BitVec 64) (r : Nat) :
    lengthField (v ||| w) r = lengthField v r ||| lengthField w r :=
  BitVec.extractLsb'_or

/-- What the merged bits are, field by field: the length bits are those of size
    4 also for size 8, and for the last register their sign fills the upper half. -/
structure MergedFields (r : Nat) (bptype : BitVec 32) (bpsize : Int) : Prop where
  enabled : localEnable (breakpointBits r bptype bpsize) r = true
  type : typeField (breakpointBits r bptype bpsize) r = requestedType bptype
  length : lengthField (breakpointBits r bptype bpsize) r =
    if bpsize = 8 then 3 else lengthCode bpsize
  others : breakpointBits r bptype bpsize &&& ~~~ownBits r =
    if r = 3 ∧ 4 ≤ bpsize then upperHalf else 0

variable {bpsize : Int} {bptype : BitVec 32} {r : Nat}

theorem mergedFields (hr : r < 4) (ht : bptype < 4) (hs : bpsize ∈ ([1, 2, 4, 8] : List Int)) :
    MergedFields r bptype bpsize := by
  have htype : bptype = 0 ∨ bptype = 1 ∨ bptype = 2 ∨ bptype = 3 := by bv_omega
  have hsize : bpsize = 1 ∨ bpsize = 2 ∨ bpsize = 4 ∨ bpsize = 8 := by simpa using hs
  -- the merged bits do not depend on the old word, so each case is a closed one
  interval_cases r <;> rcases htype with rfl | rfl | rfl | rfl <;>
    rcases hsize with rfl | rfl | rfl | rfl <;>
    exact ⟨by decide, by decide, by decide, by decide⟩

/-! ## The register that is set -/

theorem or_eq_left_iff_and (x u : BitVec 64) : x ||| u = x ↔ x &&& u = u := by
  have habsorb : (x ||| u) &&& u = u := by
    ext i
    simp only [BitVec.getElem_and, BitVec.getElem_or]
    cases x[i] <;> cases u[i] <;> rfl
  have habsorb' : x ||| x &&& u = x := by
    ext i
    simp only [BitVec.getElem_and, BitVec.getElem_or]
    cases x[i] <;> cases u[i] <;> rfl
  constructor
  · intro h
    rw [h] at habsorb
    exact habsorb
  · intro h
    rw [h] at habsorb'
    exact habsorb'

theorem and_not_eq_left_iff (x u : BitVec 64) : x &&& ~~~u = x ↔ x &&& u = 0#64 := by
  constructor
  · intro h
    rw [← h, BitVec.and_assoc, BitVec.and_comm (~~~u), BitVec.and_not_self]
    exact BitVec.and_zero
  · intro h
    have hsplit : x &&& u ||| x &&& ~~~u = x := by
      rw [← BitVec.and_or_distrib_left, BitVec.or_not_self, BitVec.and_allOnes]
    rw [h, BitVec.zero_or] at hsplit
    exact hsplit

theorem upperHalf_other : upperHalf &&& ~~~ownBits 3 = upperHalf := by decide

theorem lengthField_denotes (hs : bpsize ∈ ([1, 2, 4, 8] : List Int)) (old : BitVec 2) :
    denotedSize (old ||| if bpsize = 8 then 3 else lengthCode bpsize) = bpsize ↔
      old ||| lengthCode bpsize = lengthCode bpsize ∧ bpsize ≠ 8 := by
  have hsize : bpsize = 1 ∨ bpsize = 2 ∨ bpsize = 4 ∨ bpsize = 8 := by simpa using hs
  rcases hsize with rfl | rfl | rfl | rfl <;> revert old <;> decide

theorem others_iff (hm : MergedFields r bptype bpsize) (dr7 : BitVec 64) :
    (dr7 ||| breakpointBits r bptype bpsize) &&& ~~~ownBits r = dr7 &&& ~~~ownBits r ↔
      (r = 3 → 4 ≤ bpsize → dr7 &&& upperHalf = upperHalf) := by
  have hsplit : (dr7 ||| breakpointBits r bptype bpsize) &&& ~~~ownBits r =
      dr7 &&& ~~~ownBits r ||| (if r = 3 ∧ 4 ≤ bpsize then upperHalf else 0) := by
    rw [BitVec.and_or_distrib_right, hm.others]
  rw [hsplit]
  by_cases hlast : r = 3 ∧ 4 ≤ bpsize
  · obtain ⟨rfl, hbig⟩ := hlast
    rw [if_pos ⟨rfl, hbig⟩, or_eq_left_iff_and, BitVec.and_assoc,
      BitVec.and_comm (~~~ownBits 3), upperHalf_other]
    exact ⟨fun h _ _ => h, fun h => h rfl hbig⟩
  · rw [if_neg hlast]
    exact ⟨fun _ h3 hbig => absurd ⟨h3, hbig⟩ hlast, fun _ => BitVec.or_zero⟩

/-- `SetBreakpoint` writes the word of the breakpoint exactly when the old fields
    and the size fit. -/
theorem setDr7_encodes_iff (dr7 : BitVec 64) (hr : r < 4)
    (ht : bptype < 4) (hs : bpsize ∈ ([1, 2, 4, 8] : List Int)) :
    SetEncodes dr7 (setDr7 dr7 r bptype bpsize) r bptype bpsize ↔
      SetFits dr7 r bptype bpsize := by
  have hm := mergedFields hr ht hs
  have hlen := lengthField_denotes hs (lengthField dr7 r)
  have hothers := others_iff hm dr7
  rw [setDr7_eq]
  constructor
  · intro h
    have htype := h.type
    rw [typeField_or, hm.type] at htype
    have hsize := h.size
    rw [lengthField_or, hm.length] at hsize
    obtain ⟨hfit, hne⟩ := hlen.mp hsize
    exact ⟨htype, hfit, hne, fun h3 h4 => hothers.mp h.others h3 (by omega)⟩
  · intro h
    have hupper : r = 3 → 4 ≤ bpsize → dr7 &&& upperHalf = upperHalf := by
      intro h3 hbig
      have hcases : bpsize = 1 ∨ bpsize = 2 ∨ bpsize = 4 ∨ bpsize = 8 := by simpa using hs
      have := h.size
      exact h.upper h3 (by omega)
    refine ⟨?_, ?_, ?_, hothers.mpr hupper⟩
    · rw [localEnable_or, hm.enabled, Bool.or_true]
    · rw [typeField_or, hm.type, h.type]
    · rw [lengthField_or, hm.length]
      exact hlen.mpr ⟨h.length, h.size⟩

theorem removeMask (hr : r < 4) :
    intShlNot 3 (r * 2) &&& intShlNot 15 (16 + r * 4) =
      if r = 3 then ~~~ownBits r &&& ~~~upperHalf else ~~~ownBits r := by
  interval_cases r <;> decide

theorem removeDr7_eq (dr7 : BitVec 64) (hr : r < 4) :
    removeDr7 dr7 r =
      dr7 &&& if r = 3 then ~~~ownBits r &&& ~~~upperHalf else ~~~ownBits r := by
  rw [removeDr7, BitVec.and_assoc, removeMask hr]

/-- `RemoveBreakpoint` takes exactly the bits of the register away unless it is the
    last one and the upper half holds a bit. -/
theorem removeDr7_encodes_iff (dr7 : BitVec 64) (hr : r < 4) :
    RemoveEncodes dr7 (removeDr7 dr7 r) r ↔ RemoveFits dr7 r := by
  rw [RemoveEncodes, RemoveFits, removeDr7_eq dr7 hr]
  by_cases h3 : r = 3
  · subst h3
    rw [if_pos rfl, ← BitVec.and_assoc, and_not_eq_left_iff, BitVec.and_assoc,
      BitVec.and_comm (~~~ownBits 3), upperHalf_other]
    exact ⟨fun h _ => h, fun h => h rfl⟩
  · rw [if_neg h3]
    exact ⟨fun _ h => absurd h h3, fun _ => rfl⟩

/-! ## The other registers -/

/-- The addresses of the other three registers, and their bits of DR7, are as before. -/
def OthersRestored (old new : DebugRegs) (r : Nat) : Prop :=
  ∀ r' < 4, r' ≠ r → new.u_debugreg r' = old.u_debugreg r' ∧
    new.u_debugreg 7 &&& ownBits r' = old.u_debugreg 7 &&& ownBits r'

variable {r' : Nat}

theorem ownBits_other (hr : r < 4) (hr' : r' < 4) (hne : r' ≠ r) :
    ~~~ownBits r &&& ownBits r' = ownBits r' ∧ upperHalf &&& ownBits r' = 0 ∧
      ~~~upperHalf &&& ownBits r' = ownBits r' := by
  interval_cases r <;> interval_cases r' <;> first | exact absurd rfl hne | decide

theorem breakpointBits_other (hr : r < 4)
    (hm : MergedFields r bptype bpsize) (hr' : r' < 4) (hne : r' ≠ r) :
    breakpointBits r bptype bpsize &&& ownBits r' = 0#64 := by
  obtain ⟨hown, hupper, -⟩ := ownBits_other hr hr' hne
  rw [← hown, ← BitVec.and_assoc, hm.others]
  split
  · exact hupper
  · exact BitVec.zero_and

theorem removeMask_other (hr : r < 4) (hr' : r' < 4) (hne : r' ≠ r) :
    (if r = 3 then ~~~ownBits r &&& ~~~upperHalf else ~~~ownBits r) &&& ownBits r' =
      ownBits r' := by
  obtain ⟨hown, -, hupper⟩ := ownBits_other hr hr' hne
  split
  · rw [BitVec.and_assoc, hupper, hown]
  · exact hown

/-- The bits of another register come back through a set and a remove, whatever
    the sign extension did to the upper half. -/
theorem removeDr7_setDr7_other (dr7 : BitVec 64) (hr : r < 4)
    (hm : MergedFields r bptype bpsize) (hr' : r' < 4) (hne : r' ≠ r) :
    removeDr7 (setDr7 dr7 r bptype bpsize) r &&& ownBits r' = dr7 &&& ownBits r' := by
  rw [removeDr7_eq _ hr, BitVec.and_assoc, removeMask_other hr hr' hne, setDr7_eq,
    BitVec.and_or_distrib_right, breakpointBits_other hr hm hr' hne, BitVec.or_zero]

variable {accepts : AcceptsPoke} {d : DebugRegs}

/-- A `PTRACE_POKEUSER` that returned 0 wrote its word. -/
theorem pokeUser_true {i : Nat} {v : BitVec 64}
    (h : (pokeUser accepts d i v).1 = true) : (pokeUser accepts d i v).2 = d.poke i v := by
  cases hacc : accepts d i v with
  | false => simp [pokeUser, hacc] at h
  | true => simp only [pokeUser, hacc, ↓reduceIte]

/-- A `PTRACE_POKEUSER` writes at its place or nowhere. -/
theorem pokeUser_of_ne (accepts : AcceptsPoke) (d : DebugRegs) {i j : Nat} (v : BitVec 64)
    (h : j ≠ i) : (pokeUser accepts d i v).2.u_debugreg j = d.u_debugreg j := by
  cases hacc : accepts d i v with
  | false => simp only [pokeUser, hacc, Bool.false_eq_true, ↓reduceIte]
  | true =>
    simp only [pokeUser, hacc, ↓reduceIte]
    exact d.poke_of_ne v h

theorem setBreakpoint_true {address : BitVec 64}
    (h : (setBreakpoint accepts d address r bptype bpsize).1 = true) :
    (setBreakpoint accepts d address r bptype bpsize).2 =
      (d.poke r address).poke 7 (setDr7 (d.u_debugreg 7) r bptype bpsize) := by
  have hboth : (pokeUser accepts d r address).1 = true ∧
      (pokeUser accepts (pokeUser accepts d r address).2 7
        (setDr7 (d.u_debugreg 7) r bptype bpsize)).1 = true := by
    simpa only [setBreakpoint, Bool.and_eq_true] using h
  show (pokeUser accepts (pokeUser accepts d r address).2 7 _).2 = _
  rw [pokeUser_true hboth.2, pokeUser_true hboth.1]

theorem removeBreakpoint_dr7 (h : (removeBreakpoint accepts d r).1 = true) :
    (removeBreakpoint accepts d r).2.u_debugreg 7 = removeDr7 (d.u_debugreg 7) r := by
  have hlast : (pokeUser accepts (pokeUser accepts d r 0).2 7
      (removeDr7 (d.u_debugreg 7) r)).1 = true := h
  show (pokeUser accepts (pokeUser accepts d r 0).2 7 _).2.u_debugreg 7 = _
  rw [pokeUser_true hlast, DebugRegs.poke_self]

theorem removeBreakpoint_address (accepts : AcceptsPoke) (d : DebugRegs)
    (hr' : r' < 4) (hne : r' ≠ r) :
    (removeBreakpoint accepts d r).2.u_debugreg r' = d.u_debugreg r' := by
  have h7 : r' ≠ 7 := by omega
  show (pokeUser accepts (pokeUser accepts d r 0).2 7 _).2.u_debugreg r' = _
  rw [pokeUser_of_ne accepts _ _ h7, pokeUser_of_ne accepts d 0 hne]

theorem remove_set_restores (accepts : AcceptsPoke) (d : DebugRegs) (address : BitVec 64)
    (hr : r < 4) (hm : MergedFields r bptype bpsize)
    (hset : (setBreakpoint accepts d address r bptype bpsize).1 = true)
    (hremove : (removeBreakpoint accepts
      (setBreakpoint accepts d address r bptype bpsize).2 r).1 = true) :
    OthersRestored d (removeBreakpoint accepts
      (setBreakpoint accepts d address r bptype bpsize).2 r).2 r := by
  intro r' hr' hne
  have h7 : r' ≠ 7 := by omega
  constructor
  · rw [removeBreakpoint_address accepts _ hr' hne, setBreakpoint_true hset,
      DebugRegs.poke_of_ne _ _ h7, DebugRegs.poke_of_ne _ _ hne]
  · rw [removeBreakpoint_dr7 hremove, setBreakpoint_true hset, DebugRegs.poke_self,
      removeDr7_setDr7_other _ hr hm hr' hne]

/-- The two functions on any word of DR7: what `SetBreakpoint` writes is the
    breakpoint asked for exactly when the old fields and the size fit, what
    `RemoveBreakpoint` writes is the word without the register exactly when the
    upper half is out of its way, and a set with its remove restores the other
    three registers. -/
theorem debugRegister_encoding (dr7 : BitVec 64) {debugreg : Nat} (hr : debugreg < 4)
    {bptype : BitVec 32} (ht : bptype < 4) {bpsize : Int}
    (hs : bpsize ∈ ([1, 2, 4, 8] : List Int)) :
    (SetEncodes dr7 (setDr7 dr7 debugreg bptype bpsize) debugreg bptype bpsize ↔
        SetFits dr7 debugreg bptype bpsize) ∧
      (RemoveEncodes dr7 (removeDr7 dr7 debugreg) debugreg ↔ RemoveFits dr7 debugreg) ∧
      ∀ (accepts : AcceptsPoke) (d : DebugRegs) (address : BitVec 64),
        (setBreakpoint accepts d address debugreg bptype bpsize).1 = true →
        (removeBreakpoint accepts
          (setBreakpoint accepts d address debugreg bptype bpsize).2 debugreg).1 = true →
        OthersRestored d (removeBreakpoint accepts
          (setBreakpoint accepts d address debugreg bptype bpsize).2 debugreg).2 debugreg := by
  have hset := setDr7_encodes_iff dr7 hr ht hs
  have hremove := removeDr7_encodes_iff dr7 hr
  have hm := mergedFields hr ht hs
  exact ⟨hset, hremove, fun accepts d address => remove_set_restores accepts d address hr hm⟩

/-- A write breakpoint of four bytes in register 1 of an empty DR7. -/
theorem debugRegister_encoding_write :
    SetEncodes 0 (setDr7 0 1 1 4) 1 1 4 ∧ RemoveEncodes 0 (removeDr7 0 1) 1 := by
  obtain ⟨hset, hremove, -⟩ := debugRegister_encoding 0
    (by decide : 1 < 4) (by decide : (1 : BitVec 32) < 4) (by decide : (4 : Int) ∈ [1, 2, 4, 8])
  have hfits : SetFits 0 1 1 4 := ⟨by decide, by decide, by decide, by decide⟩
  exact ⟨hset.mpr hfits, hremove.mpr (by unfold RemoveFits; decide)⟩

/-- An eight-byte watch on an empty DR7 is written with the length bits of four
    bytes; a write breakpoint over an old access breakpoint stays one for reads
    and writes; and removing the last register takes a bit of the upper half. -/
theorem debugRegister_encoding_fails :
    ¬ SetEncodes 0 (setDr7 0 0 1 8) 0 1 8 ∧
      ¬ SetEncodes 0x30000 (setDr7 0x30000 0 1 1) 0 1 1 ∧
      ¬ RemoveEncodes 0x100000000 (removeDr7 0x100000000 3) 3 := by
  refine ⟨fun h => ?_, fun h => ?_, ?_⟩
  · exact absurd h.size (by decide)
  · exact absurd h.type (by decide)
  · unfold RemoveEncodes
    decide

end CheatEngine.Ceserver
