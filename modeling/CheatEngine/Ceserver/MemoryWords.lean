/-
  CheatEngine.Ceserver.MemoryWords

  The ptrace paths of `WriteProcessMemory` and `ReadProcessMemory`, against a target
  memory in which any byte may be missing or write protected.

  A poke writes up to the first byte of its word that cannot be written, and fails when
  there is one; a peek needs all eight bytes; a read of /proc/pid/mem gives the mapped
  bytes up to the first that is missing.
-/
import CheatEngine.Ceserver.MemoryAccess

namespace CheatEngine.Ceserver

open CheatEngine.Lib

/-! ## The target memory -/

/-- The memory of the target: its mapped bytes, and which of them may be written. -/
structure Tracee where
  bytes : UInt64 → Option UInt8
  writable : UInt64 → Bool

namespace Tracee

variable (t : Tracee)

def canWrite (a : UInt64) : Bool := t.writable a && (t.bytes a).isSome

def MappedWord (a : UInt64) : Prop := ∀ i < 8, (t.bytes (a + UInt64.ofNat i)).isSome

instance (a : UInt64) : Decidable (t.MappedWord a) :=
  inferInstanceAs (Decidable (∀ i < 8, (t.bytes (a + UInt64.ofNat i)).isSome = true))

/-- PTRACE_PEEKDATA -/
def peek (a : UInt64) : Option Word :=
  if t.MappedWord a then some (Vector.ofFn fun i => (t.bytes (a + UInt64.ofNat i.val)).getD 0)
  else none

/-- PTRACE_POKEDATA -/
def poke (a : UInt64) (w : Word) : Tracee :=
  { t with
    bytes := fun b =>
      if h : (b - a).toNat < 8 then
        if ∀ j ≤ (b - a).toNat, t.canWrite (a + UInt64.ofNat j) then some w[(b - a).toNat]
        else t.bytes b
      else t.bytes b }

/-- The mapped bytes up to the first that is missing. -/
def mappedPrefix : UInt64 → Nat → List UInt8
  | _, 0 => []
  | a, n + 1 =>
    match t.bytes a with
    | some b => b :: mappedPrefix (a + 1) n
    | none => []

def read (a : UInt64) (n : Nat) : Option (List UInt8) :=
  if 0 < n ∧ t.mappedPrefix a n = [] then none else some (t.mappedPrefix a n)

/-- The system calls on this memory.  The target can be attached to, and process_vm_readv
    and process_vm_writev do nothing. -/
def serve (pid : Int) : (o : MemOp) → Tracee → Option (MemSig.Res o × Tracee)
  | .lock, t => some (true, t)
  | .unlock, t => some ((), t)
  | .attach _, t => some (true, t)
  | .cont _ _, t => some ((), t)
  | .detach _, t => some ((), t)
  | .waitpid, t => some ((pid, .stopped stopSignal), t)
  | .peek _ a, t => some (t.peek a, t)
  | .poke _ a w, t => some (decide (∀ i < 8, t.canWrite (a + UInt64.ofNat i)), t.poke a w)
  | .vmReadv _ _ _, t => some (none, t)
  | .vmWritev _ _ _, t => some (none, t)
  | .readMem a n, t => some (t.read a n, t)
  | .writeMem _ _, t => some (none, t)
  | .debuggedThread, t => some (pid, t)
  | .hang, _ => none

/-- Every byte of its word up to this one can be written. -/
def Reaches (address : UInt64) (i : Nat) : Prop :=
  ∀ j, i / 8 * 8 ≤ j → j ≤ i → t.canWrite (address + UInt64.ofNat j) = true

end Tracee

section Offsets

variable {address a : UInt64} {i o : Nat}

theorem offset_of_add (h : i < 2 ^ 64) : (address + UInt64.ofNat i - address).toNat = i := by
  rw [UInt64.add_comm, UInt64.add_sub_cancel, UInt64.toNat_ofNat_of_lt' h]

theorem add_offset : address + UInt64.ofNat (a - address).toNat = a := by
  rw [UInt64.ofNat_toNat, UInt64.add_comm, UInt64.sub_add_cancel]

theorem offset_from (ho : o < 2 ^ 64) :
    (a - (address + UInt64.ofNat o)).toNat =
      if o ≤ (a - address).toNat then (a - address).toNat - o
      else (a - address).toNat + 2 ^ 64 - o := by
  have hlt := (a - address).toNat_lt
  have hsub : a - (address + UInt64.ofNat o) = a - address - UInt64.ofNat o := by grind
  rw [hsub, UInt64.toNat_sub, UInt64.toNat_ofNat_of_lt' ho]
  split <;> omega

theorem add_ofNat_add (address : UInt64) (o i : Nat) :
    address + UInt64.ofNat o + UInt64.ofNat i = address + UInt64.ofNat (o + i) := by
  rw [UInt64.ofNat_add, UInt64.add_assoc]

end Offsets

section Poke

variable {t : Tracee} {address a : UInt64} {o : Nat} {w : Word}

theorem poke_inside (hlow : o ≤ (a - address).toNat) (hhigh : (a - address).toNat < o + 8)
    (hreach : ∀ j, o ≤ j → j ≤ (a - address).toNat → t.canWrite (address + UInt64.ofNat j) = true) :
    (t.poke (address + UInt64.ofNat o) w).bytes a = w[(a - address).toNat - o]? := by
  have hlt := (a - address).toNat_lt
  have hoff : (a - (address + UInt64.ofNat o)).toNat = (a - address).toNat - o := by
    rw [offset_from (by omega), if_pos hlow]
  have hin : (a - (address + UInt64.ofNat o)).toNat < 8 := by omega
  have hall : ∀ j ≤ (a - (address + UInt64.ofNat o)).toNat,
      t.canWrite (address + UInt64.ofNat o + UInt64.ofNat j) = true := by
    intro j hj
    rw [add_ofNat_add]
    exact hreach (o + j) (by omega) (by omega)
  simp only [Tracee.poke]
  rw [dif_pos hin, if_pos hall]
  simp only [hoff]
  exact (Vector.getElem?_eq_getElem (by omega)).symm

theorem poke_outside (ho : o + 8 ≤ 2 ^ 64)
    (h : (a - address).toNat < o ∨ o + 8 ≤ (a - address).toNat ∨
      ∃ j, o ≤ j ∧ j ≤ (a - address).toNat ∧ t.canWrite (address + UInt64.ofNat j) = false) :
    (t.poke (address + UInt64.ofNat o) w).bytes a = t.bytes a := by
  have hlt := (a - address).toNat_lt
  have hoff := @offset_from address a o (by omega)
  simp only [Tracee.poke]
  split
  · next hin =>
    split
    · next hall =>
      exfalso
      split at hoff
      · next hlow =>
        rcases h with h | h | ⟨j, hj, hji, hblocked⟩
        · omega
        · omega
        · -- the byte is behind one that cannot be written
          have hreach := hall (j - o) (by omega)
          rw [add_ofNat_add, show o + (j - o) = j by omega, hblocked] at hreach
          cases hreach
      · omega
    · rfl
  · rfl

theorem isSome_poke : ((t.poke a w).bytes address).isSome = (t.bytes address).isSome := by
  simp only [Tracee.poke]
  split
  · split
    · next hin hall =>
      have hself := hall _ (Nat.le_refl _)
      rw [add_offset, Tracee.canWrite, Bool.and_eq_true] at hself
      rw [hself.2]
      rfl
    · rfl
  · rfl

theorem canWrite_poke : (t.poke a w).canWrite address = t.canWrite address := by
  rw [Tracee.canWrite, isSome_poke]
  rfl

end Poke

section PokeLoop

variable {t t' : Tracee} {address : UInt64} {buffer : List UInt8} {n o pid : Nat}

/-- Where the word loop ends: the last one to eight bytes are left. -/
def lastWord (size : Nat) : Nat := (size - 1) / 8 * 8

/-- The memory after the words before the offset `n`. -/
structure AfterWords (t : Tracee) (address : UInt64) (buffer : List UInt8) (n : Nat)
    (t' : Tracee) : Prop where
  canWrite : ∀ a, t'.canWrite a = t.canWrite a
  mapped : ∀ a, (t'.bytes a).isSome = (t.bytes a).isSome
  written : ∀ a, (a - address).toNat < n → t.Reaches address (a - address).toNat →
    t'.bytes a = buffer[(a - address).toNat]?
  kept : ∀ a, n ≤ (a - address).toNat ∨ ¬ t.Reaches address (a - address).toNat →
    t'.bytes a = t.bytes a

theorem AfterWords.start : AfterWords t address buffer 0 t :=
  ⟨fun _ => rfl, fun _ => rfl, fun _ h => absurd h (Nat.not_lt_zero _), fun _ _ => rfl⟩

theorem getElem?_wordAt {k : Nat} {old : Word} (hk : k < 8) (hin : o + k < buffer.length) :
    (wordAt buffer o old)[k]? = buffer[o + k]? := by
  rw [List.getElem?_eq_getElem hin, Vector.getElem?_eq_getElem hk]
  simp [wordAt, List.getElem?_eq_getElem hin]

theorem not_reaches {i : Nat} (hword : i / 8 * 8 = o) (h : ¬ t.Reaches address i) :
    ∃ j, o ≤ j ∧ j ≤ i ∧ t.canWrite (address + UInt64.ofNat j) = false := by
  subst hword
  simp only [Tracee.Reaches] at h
  push Not at h
  obtain ⟨j, hlow, hhigh, hblocked⟩ := h
  exact ⟨j, hlow, hhigh, by simpa using hblocked⟩

theorem AfterWords.poke (old : Word) (h : AfterWords t address buffer n t') (hword : 8 ∣ n)
    (hin : n + 8 ≤ buffer.length) (hsize : buffer.length < 2 ^ 64) :
    AfterWords t address buffer (n + 8)
      (t'.poke (address + UInt64.ofNat n) (wordAt buffer n old)) := by
  have hfit : n + 8 ≤ 2 ^ 64 := by omega
  refine ⟨fun a => canWrite_poke.trans (h.canWrite a), fun a => isSome_poke.trans (h.mapped a),
    fun a hlt hreach => ?_, fun a hnot => ?_⟩
  · by_cases hlow : (a - address).toNat < n
    · rw [poke_outside hfit (Or.inl hlow)]
      exact h.written a hlow hreach
    · have hstart : (a - address).toNat / 8 * 8 = n := by omega
      rw [poke_inside (by omega) hlt fun j hj hji => ?_, getElem?_wordAt (by omega) (by omega)]
      · congr 1
        omega
      · rw [h.canWrite]
        exact hreach j (by omega) hji
  · by_cases hlow : (a - address).toNat < n
    · rw [poke_outside hfit (Or.inl hlow)]
      exact h.kept a (Or.inr (hnot.resolve_left (by omega)))
    · rw [poke_outside hfit, h.kept a (Or.inl (by omega))]
      by_cases hhigh : n + 8 ≤ (a - address).toNat
      · exact Or.inr (Or.inl hhigh)
      · have hstart : (a - address).toNat / 8 * 8 = n := by omega
        obtain ⟨j, hj, hji, hblocked⟩ := not_reaches hstart (hnot.resolve_left hhigh)
        exact Or.inr (Or.inr ⟨j, hj, hji, (h.canWrite _).trans hblocked⟩)

theorem pokeLoop_run {pid tid : Int} {fuel written : Nat} (h : AfterWords t address buffer n t')
    (hword : 8 ∣ n) (hlast : n ≤ lastWord buffer.length) (hfuel : buffer.length ≤ n + fuel)
    (hsize : buffer.length < 2 ^ 64) :
    ∃ t'', Prog.interp (Tracee.serve pid) (pokeLoop tid address buffer fuel n written) t' =
        some ((lastWord buffer.length, written + (lastWord buffer.length - n)), t'') ∧
      AfterWords t address buffer (lastWord buffer.length) t'' := by
  unfold lastWord at *
  induction fuel generalizing n written t' with
  | zero =>
    obtain rfl : n = (buffer.length - 1) / 8 * 8 := by omega
    exact ⟨t', by rw [Nat.sub_self]; rfl, h⟩
  | succ fuel ih =>
    rw [pokeLoop]
    by_cases hmore : n + 8 < buffer.length
    · rw [if_pos hmore]
      have hstep := AfterWords.poke errorWord h hword (by omega) hsize
      obtain ⟨t'', hrun, hafter⟩ := @ih _ _ (written + 8) hstep (by omega) (by omega) (by omega)
      refine ⟨t'', Eq.trans hrun ?_, hafter⟩
      congr 3
      omega
    · rw [if_neg hmore]
      obtain rfl : n = (buffer.length - 1) / 8 * 8 := by omega
      exact ⟨t', by rw [Nat.sub_self]; rfl, h⟩

end PokeLoop

/-! ## The count of `WriteProcessMemory` -/

/-- What a count is to say: that many bytes of the buffer are in memory, and nothing
    outside the range is changed. -/
structure TrueCount (t t' : Tracee) (address : UInt64) (buffer : List UInt8) (n : Nat) : Prop where
  le : n ≤ buffer.length
  written : ∀ i < n, t'.bytes (address + UInt64.ofNat i) = buffer[i]?
  outside : ∀ a, buffer.length ≤ (a - address).toNat → t'.bytes a = t.bytes a

/-- When the count is true: each whole word can be written, or is there already; and the
    bytes behind the range that the last word changes are 0xFF already. -/
structure Tracee.Writes (t : Tracee) (address : UInt64) (buffer : List UInt8) : Prop where
  words : ∀ i < lastWord buffer.length,
    t.Reaches address i ∨ t.bytes (address + UInt64.ofNat i) = buffer[i]?
  rest : 0 < buffer.length → ¬ t.MappedWord (address + UInt64.ofNat (lastWord buffer.length)) →
    ∀ i, buffer.length ≤ i → i < lastWord buffer.length + 8 → t.Reaches address i →
      t.bytes (address + UInt64.ofNat i) = some 0xFF

section Count

variable {t t' : Tracee} {address : UInt64} {buffer : List UInt8} {n o pid : Nat}

theorem AfterWords.words_iff (h : AfterWords t address buffer n t') (hn : n ≤ buffer.length)
    (hsize : buffer.length < 2 ^ 64) {i : Nat} (hi : i < n) :
    t'.bytes (address + UInt64.ofNat i) = buffer[i]? ↔
      t.Reaches address i ∨ t.bytes (address + UInt64.ofNat i) = buffer[i]? := by
  have hoff : (address + UInt64.ofNat i - address).toNat = i := offset_of_add (by omega)
  by_cases hreach : t.Reaches address i
  · have hwritten := h.written (address + UInt64.ofNat i) (by rw [hoff]; exact hi)
      (by rw [hoff]; exact hreach)
    rw [hoff] at hwritten
    exact ⟨fun _ => Or.inl hreach, fun _ => hwritten⟩
  · have hkept := h.kept (address + UInt64.ofNat i) (by rw [hoff]; exact Or.inr hreach)
    rw [hkept]
    exact ⟨Or.inr, fun hor => hor.resolve_left hreach⟩

variable {k : Nat}

theorem getElem?_wordAt_behind {old : Word} (hk : k < 8) (hout : buffer.length ≤ o + k) :
    (wordAt buffer o old)[k]? = old[k]? := by
  rw [Vector.getElem?_eq_getElem hk, Vector.getElem?_eq_getElem hk]
  simp [wordAt, List.getElem?_eq_none hout]

theorem peek_of_mapped {a : UInt64} (h : t.MappedWord a) (hk : k < 8) :
    ((t.peek a).getD errorWord)[k]? = t.bytes (a + UInt64.ofNat k) := by
  rw [Tracee.peek, if_pos h, Option.getD_some, Vector.getElem?_eq_getElem hk]
  obtain ⟨b, hb⟩ := Option.isSome_iff_exists.1 (h k hk)
  simp [hb]

theorem peek_of_not_mapped {a : UInt64} (h : ¬ t.MappedWord a) (hk : k < 8) :
    ((t.peek a).getD errorWord)[k]? = some 0xFF := by
  rw [Tracee.peek, if_neg h, Option.getD_none, Vector.getElem?_eq_getElem hk]
  simp [errorWord]

theorem AfterWords.mappedWord_iff (h : AfterWords t address buffer n t') (a : UInt64) :
    t'.MappedWord a ↔ t.MappedWord a := by
  simp only [Tracee.MappedWord, h.mapped]

/-- The memory after the last word as well. -/
structure AfterLast (t : Tracee) (address : UInt64) (buffer : List UInt8) (n : Nat) (old : Word)
    (t' t'' : Tracee) : Prop where
  before : ∀ a, (a - address).toNat < n → t''.bytes a = t'.bytes a
  written : ∀ a, n ≤ (a - address).toNat → (a - address).toNat < buffer.length →
    t.Reaches address (a - address).toNat → t''.bytes a = buffer[(a - address).toNat]?
  behind : ∀ a, buffer.length ≤ (a - address).toNat → (a - address).toNat < n + 8 →
    t.Reaches address (a - address).toNat → t''.bytes a = old[(a - address).toNat - n]?
  kept : ∀ a, n ≤ (a - address).toNat →
    (n + 8 ≤ (a - address).toNat ∨ ¬ t.Reaches address (a - address).toNat) →
    t''.bytes a = t.bytes a

theorem AfterWords.last (h : AfterWords t address buffer n t') (hword : 8 ∣ n)
    (hlt : n < buffer.length) (hle : buffer.length ≤ n + 8) (hsize : buffer.length < 2 ^ 63)
    (old : Word) : AfterLast t address buffer n old t'
      (t'.poke (address + UInt64.ofNat n) (wordAt buffer n old)) := by
  have hfit : n + 8 ≤ 2 ^ 64 := by omega
  have hreached : ∀ a, n ≤ (a - address).toNat → (a - address).toNat < n + 8 →
      t.Reaches address (a - address).toNat → ∀ j, n ≤ j → j ≤ (a - address).toNat →
        t'.canWrite (address + UInt64.ofNat j) = true := by
    intro a hlow hhigh hreach j hj hji
    rw [h.canWrite]
    exact hreach j (by omega) hji
  refine ⟨fun a hlow => poke_outside hfit (Or.inl hlow), fun a hlow hhigh hreach => ?_,
    fun a hlow hhigh hreach => ?_, fun a hlow hnot => ?_⟩
  · rw [poke_inside hlow (by omega) (hreached a hlow (by omega) hreach),
      getElem?_wordAt (by omega) (by omega)]
    congr 1
    omega
  · rw [poke_inside (by omega) hhigh (hreached a (by omega) hhigh hreach),
      getElem?_wordAt_behind (by omega) (by omega)]
  · rw [poke_outside hfit, h.kept a (Or.inl hlow)]
    by_cases hhigh : n + 8 ≤ (a - address).toNat
    · exact Or.inr (Or.inl hhigh)
    · have hstart : (a - address).toNat / 8 * 8 = n := by omega
      obtain ⟨j, hj, hji, hblocked⟩ := not_reaches hstart (hnot.resolve_left hhigh)
      exact Or.inr (Or.inr ⟨j, hj, hji, (h.canWrite _).trans hblocked⟩)

theorem AfterWords.done_iff (h : AfterWords t address buffer n t') (hword : 8 ∣ n) :
    (∀ i < 8, t'.canWrite (address + UInt64.ofNat n + UInt64.ofNat i) = true) ↔
      ∀ i, n ≤ i → i < n + 8 → t.Reaches address i := by
  constructor
  · intro hall i hlow hhigh j hj hji
    have hbyte := hall (j - n) (by omega)
    rw [add_ofNat_add, h.canWrite] at hbyte
    have hj' : n + (j - n) = j := by omega
    rwa [hj'] at hbyte
  · intro hall i hi
    rw [add_ofNat_add, h.canWrite]
    exact hall (n + i) (by omega) (by omega) (n + i) (by omega) (Nat.le_refl _)

theorem trueCount_iff (h : AfterWords t address buffer (lastWord buffer.length) t')
    (hpos : 0 < buffer.length) (hsize : buffer.length < 2 ^ 63) :
    TrueCount t (t'.poke (address + UInt64.ofNat (lastWord buffer.length))
        (wordAt buffer (lastWord buffer.length)
          ((t'.peek (address + UInt64.ofNat (lastWord buffer.length))).getD errorWord)))
        address buffer
        (if ∀ i < 8, t'.canWrite (address + UInt64.ofNat (lastWord buffer.length) +
            UInt64.ofNat i) = true then
          lastWord buffer.length + (buffer.length - lastWord buffer.length)
        else lastWord buffer.length) ↔
      t.Writes address buffer := by
  have hword : 8 ∣ lastWord buffer.length := Nat.dvd_mul_left 8 _
  have hlt : lastWord buffer.length < buffer.length := by
    unfold lastWord
    omega
  have hle : buffer.length ≤ lastWord buffer.length + 8 := by
    unfold lastWord
    omega
  have hafter := h.last hword hlt hle hsize
    ((t'.peek (address + UInt64.ofNat (lastWord buffer.length))).getD errorWord)
  have hoff : ∀ i < 2 ^ 64, (address + UInt64.ofNat i - address).toNat = i :=
    fun i hi => offset_of_add hi
  generalize t'.poke _ _ = t'' at *
  constructor
  · intro htrue
    refine ⟨fun i hi => ?_, fun _ hnot i hlow hhigh hreach => ?_⟩
    · have hwritten := htrue.written i (by split <;> omega)
      rw [hafter.before _ (by rw [hoff i (by omega)]; exact hi)] at hwritten
      exact (h.words_iff (by omega) (by omega) hi).1 hwritten
    · -- the error value of the peek is written back
      have hout := htrue.outside (address + UInt64.ofNat i) (by rw [hoff i (by omega)]; exact hlow)
      have hbehind := hafter.behind (address + UInt64.ofNat i)
      rw [hoff i (by omega)] at hbehind
      rw [← hout, hbehind hlow hhigh hreach]
      exact peek_of_not_mapped ((h.mappedWord_iff _).not.2 hnot) (by omega)
  · intro hwrites
    refine ⟨by split <;> omega, fun i hi => ?_, fun a hout => ?_⟩
    · by_cases hlow : i < lastWord buffer.length
      · rw [hafter.before _ (by rw [hoff i (by omega)]; exact hlow)]
        exact (h.words_iff (by omega) (by omega) hlow).2 (hwrites.words i hlow)
      · -- only a poke that succeeded counts the last word
        split at hi
        · next hall =>
          have hwritten := hafter.written (address + UInt64.ofNat i)
          rw [hoff i (by omega)] at hwritten
          exact hwritten (by omega) (by omega)
            ((h.done_iff hword).1 hall i (by omega) (by omega))
        · omega
    · by_cases hin : (a - address).toNat < lastWord buffer.length + 8 ∧
          t.Reaches address (a - address).toNat
      · rw [hafter.behind a hout hin.1 hin.2]
        by_cases hmapped : t.MappedWord (address + UInt64.ofNat (lastWord buffer.length))
        · rw [peek_of_mapped ((h.mappedWord_iff _).2 hmapped) (by omega), add_ofNat_add,
            h.kept _ (Or.inl (by rw [hoff _ (by omega)]; omega))]
          congr 1
          rw [Nat.add_sub_cancel' (by omega)]
          exact add_offset
        · rw [peek_of_not_mapped ((h.mappedWord_iff _).not.2 hmapped) (by omega)]
          have hrest := hwrites.rest hpos hmapped _ hout hin.1 hin.2
          rw [add_offset] at hrest
          exact hrest.symm
      · refine hafter.kept a (by omega) ?_
        rw [not_and_or] at hin
        exact hin.imp Nat.le_of_not_lt id

theorem pokeWords_run (t : Tracee) (address : UInt64) (pid tid : Int) (hsize : buffer.length < 2 ^ 63) :
    ∃ n t', Prog.interp (Tracee.serve pid) (pokeWords tid address buffer 0) t = some (n, t') ∧
      (TrueCount t t' address buffer n ↔ t.Writes address buffer) := by
  have hstart : AfterWords t address buffer 0 t := AfterWords.start
  obtain ⟨t', hloop, hafter⟩ := @pokeLoop_run t t address buffer 0 pid tid buffer.length 0 hstart
    (Nat.dvd_zero 8) (Nat.zero_le _) (by omega) (by omega)
  rw [pokeWords, Prog.interp_bind, hloop, Option.bind_some, Nat.zero_add, Nat.sub_zero]
  dsimp only
  by_cases hpos : 0 < buffer.length
  · have hlt : lastWord buffer.length < buffer.length := by
      unfold lastWord
      omega
    rw [if_pos hlt]
    refine ⟨_, _, rfl, ?_⟩
    simpa only [decide_eq_true_eq] using trueCount_iff hafter hpos hsize
  · -- no byte, no word
    have hzero : buffer.length = 0 := by omega
    have hlast : lastWord buffer.length = 0 := by rw [hzero]; rfl
    rw [if_neg (by omega)]
    refine ⟨_, _, rfl, fun _ => ⟨fun i hi => by omega, fun hsome => absurd hsome hpos⟩, fun _ => ?_⟩
    refine ⟨by omega, fun i hi => by omega, fun a _ => ?_⟩
    exact hafter.kept a (Or.inl (by omega))

end Count

/-- The settings take the ptrace path. -/
def MemorySettings.writesWords (s : MemorySettings) (p : MemoryTarget) : Prop :=
  p.isDebugged = true ∨ ¬ (s.searchOption = 0 ∧ p.memrw = true)

section WriteProcessMemory

variable {s : MemorySettings} {p : MemoryTarget} {address : UInt64} {buffer : List UInt8}
  {t : Tracee}

/-- The thread whose words are accessed. -/
theorem attachIf_run (reports : Nat) (attach : Bool) (pid otherwise : Int) :
    Prog.interp (Tracee.serve pid) (attachIf (reports + 1) attach pid otherwise) t =
      some (if attach then pid else otherwise, t) := by
  cases attach <;> rfl

theorem detachIf_run (attached : Bool) (pid tid : Int) :
    Prog.interp (Tracee.serve pid) (detachIf attached tid) t = some ((), t) := by
  cases attached <;> rfl

theorem writeVm_run (reports : Nat) :
    Prog.interp (Tracee.serve p.pid) (writeVm (reports + 1) s p address buffer) t = some (0, t) := by
  rw [writeVm, Prog.interp_bind, attachIf_run, Option.bind_some, Prog.perform_bind, Prog.interp_op]
  simp only [Tracee.serve, Option.bind_some]
  rw [Prog.interp_bind, detachIf_run]
  rfl

theorem writeLocked_run (reports : Nat) (hpath : ¬ (s.searchOption = 0 ∧ p.memrw = true))
    (hsize : buffer.length < 2 ^ 63) :
    ∃ n t', Prog.interp (Tracee.serve p.pid) (writeLocked (reports + 1) s p address buffer) t =
        some (n, t') ∧ (TrueCount t t' address buffer n ↔ t.Writes address buffer) := by
  obtain ⟨n, t', hrun, hcount⟩ := pokeWords_run t address p.pid p.pid hsize
  refine ⟨n, t', ?_, hcount⟩
  have hpid : (if s.attachToWrite then p.pid else p.pid) = p.pid := ite_self _
  rw [writeLocked, Prog.interp_bind, attachIf_run, Option.bind_some]
  dsimp only
  rw [hpid, if_pos (Or.inr p.pid_pos), writeBackEnd, if_neg hpath, Prog.interp_bind, hrun,
    Option.bind_some, Prog.interp_bind, detachIf_run]
  rfl

theorem writeOther_run (reports : Nat) (hpath : ¬ (s.searchOption = 0 ∧ p.memrw = true))
    (hsize : buffer.length < 2 ^ 63) :
    ∃ n s' t', Prog.interp (Tracee.serve p.pid) (writeOther (reports + 1) s p address buffer) t =
        some ((n, s'), t') ∧ (TrueCount t t' address buffer n ↔ t.Writes address buffer) := by
  have hoption : ∀ s' : MemorySettings, s'.searchOption = s.searchOption →
      ¬ (s'.searchOption = 0 ∧ p.memrw = true) := fun s' h => by rwa [h]
  generalize hs' : (if p.memrw then s else { s with attachToWrite := true }) = s'
  have hpath' := hoption s' (by rw [← hs']; split <;> rfl)
  obtain ⟨n, t', hrun, hcount⟩ := @writeLocked_run s' p address buffer t reports hpath' hsize
  refine ⟨n, s', t', ?_, hcount⟩
  rw [writeOther, Prog.perform_bind, Prog.interp_op]
  simp only [Tracee.serve, Option.bind_some, if_true]
  rw [hs', Prog.interp_bind, hrun]
  rfl

theorem trueCount_zero (hempty : buffer.length = 0) :
    TrueCount t t address buffer 0 ↔ t.Writes address buffer := by
  have hlast : lastWord buffer.length = 0 := by rw [hempty]; rfl
  refine ⟨fun _ => ⟨fun i hi => ?_, fun hpos => ?_⟩, fun _ => ⟨Nat.zero_le _, fun i hi => ?_,
    fun _ _ => rfl⟩⟩
  · omega
  · omega
  · omega

end WriteProcessMemory

/-- The count of `WriteProcessMemory` on the ptrace path. -/
theorem writeProcessMemory_true_iff (reports : Nat) (s : MemorySettings) (p : MemoryTarget)
    (address : UInt64) (buffer : List UInt8) (t : Tracee) (hpath : s.writesWords p)
    (hsize : buffer.length < 2 ^ 31) :
    ∃ n s' t', Prog.interp (Tracee.serve p.pid)
        (writeProcessMemory (reports + 1) s (some p) address buffer) t = some ((n, s'), t') ∧
      (TrueCount t t' address buffer n ↔ t.Writes address buffer) := by
  have hsize' : buffer.length < 2 ^ 63 := by omega
  rw [writeProcessMemory]
  by_cases hdebug : p.isDebugged = true
  · obtain ⟨n, t', hrun, hcount⟩ := pokeWords_run t address p.pid p.pid hsize'
    refine ⟨n, s, t', ?_, hcount⟩
    rw [if_pos hdebug, writeProcessMemoryDebug, Prog.interp_bind, Prog.perform_bind, Prog.interp_op]
    simp only [Tracee.serve, Option.bind_some]
    rw [hrun]
    rfl
  · have hwords := hpath.resolve_left hdebug
    rw [if_neg hdebug]
    by_cases hvm : s.writesVm = true
    · rw [if_pos hvm, Prog.interp_bind, writeVm_run, Option.bind_some]
      dsimp only
      by_cases hempty : buffer.length = 0
      · rw [if_pos (Or.inr hempty)]
        exact ⟨0, s, t, rfl, trueCount_zero hempty⟩
      · rw [if_neg (by simp [hempty])]
        exact writeOther_run reports hwords hsize'
    · rw [if_neg hvm]
      exact writeOther_run reports hwords hsize'

/-- A process that is accessed by words: option 1, without attaching. -/
def wordSettings : MemorySettings := ⟨1, false, false, true, true⟩

def wordTarget : MemoryTarget := ⟨7, true, true, false, Int.ofNat_succ_pos 6⟩

def oneWord : Tracee where
  bytes a := if 0x1008 ≤ a ∧ a < 0x1010 then some 0 else none
  writable _ := true

/-- The word at 0x1008 is written and counted. -/
theorem writeProcessMemory_true_one : ∃ n s' t', Prog.interp (Tracee.serve wordTarget.pid)
    (writeProcessMemory 1 wordSettings (some wordTarget) 0x1008 [1, 2, 3]) oneWord =
      some ((n, s'), t') ∧
    (TrueCount oneWord t' 0x1008 [1, 2, 3] n ↔ oneWord.Writes 0x1008 [1, 2, 3]) :=
  writeProcessMemory_true_iff 0 wordSettings wordTarget 0x1008 [1, 2, 3] oneWord
    (Or.inr (by decide)) (by decide)

/-- The word before it is not there, and is counted as well. -/
theorem writeProcessMemory_not_true : ∃ s' t', Prog.interp (Tracee.serve wordTarget.pid)
    (writeProcessMemory 1 wordSettings (some wordTarget) 0x1000 (List.replicate 16 1)) oneWord =
      some ((16, s'), t') ∧ ¬ TrueCount oneWord t' 0x1000 (List.replicate 16 1) 16 := by
  refine ⟨_, _, rfl, fun h => ?_⟩
  have hfirst := h.written 0 (by decide)
  exact absurd hfirst (by decide)

/-! ## The bytes of `ReadProcessMemory` -/

section MappedPrefix

variable {t : Tracee} {a : UInt64} {m n : Nat}

attribute [local simp] Tracee.mappedPrefix

theorem mappedPrefix_length_le : (t.mappedPrefix a n).length ≤ n := by
  induction n generalizing a with
  | zero => exact Nat.le_refl _
  | succ n ih =>
    rw [Tracee.mappedPrefix]
    split
    · rw [List.length_cons]
      exact Nat.succ_le_succ ih
    · exact Nat.zero_le _

/-- A shorter range gives the front of the longer one. -/
theorem take_mappedPrefix (h : n ≤ m) : (t.mappedPrefix a m).take n = t.mappedPrefix a n := by
  induction n generalizing a m with
  | zero => rfl
  | succ n ih =>
    obtain ⟨m, rfl⟩ : ∃ m', m = m' + 1 := ⟨m - 1, by omega⟩
    rw [Tracee.mappedPrefix, Tracee.mappedPrefix]
    split
    · rw [List.take_succ_cons, ih (by omega)]
    · rfl

theorem mappedPrefix_add (h : (t.mappedPrefix a m).length = m) :
    t.mappedPrefix a (m + n) = t.mappedPrefix a m ++ t.mappedPrefix (a + UInt64.ofNat m) n := by
  induction m generalizing a with
  | zero =>
    rw [Nat.zero_add, Tracee.mappedPrefix, List.nil_append]
    congr 1
    exact (UInt64.add_zero a).symm
  | succ m ih =>
    have hnext : a + 1 + UInt64.ofNat m = a + UInt64.ofNat (m + 1) := by
      rw [UInt64.ofNat_add, UInt64.add_assoc, UInt64.add_comm 1]
      rfl
    rw [Nat.succ_add]
    simp only [Tracee.mappedPrefix] at h ⊢
    split at h
    · rw [ih (by simpa using h), hnext]
      rfl
    · cases h

theorem getElem?_mappedPrefix (h : (t.mappedPrefix a n).length = n) {i : Nat} (hi : i < n) :
    (t.mappedPrefix a n)[i]? = t.bytes (a + UInt64.ofNat i) := by
  have hfront : (t.mappedPrefix a i).length = i := by
    rw [← take_mappedPrefix (Nat.le_of_lt hi), List.length_take, h]
    omega
  have hfull : (t.mappedPrefix (a + UInt64.ofNat i) (n - i)).length = n - i := by
    have hsplit := mappedPrefix_add (n := n - i) hfront
    rw [Nat.add_sub_cancel' (Nat.le_of_lt hi)] at hsplit
    rw [hsplit, List.length_append, hfront] at h
    omega
  have hsplit := mappedPrefix_add (n := n - i) hfront
  rw [Nat.add_sub_cancel' (Nat.le_of_lt hi)] at hsplit
  rw [hsplit, List.getElem?_append_right (by omega), hfront, Nat.sub_self]
  obtain ⟨k, hk⟩ : ∃ k, n - i = k + 1 := ⟨n - i - 1, by omega⟩
  rw [hk, Tracee.mappedPrefix] at hfull ⊢
  split at hfull
  · next b hb => rw [hb]; rfl
  · cases hfull

theorem mappedWord_iff : t.MappedWord a ↔ (t.mappedPrefix a 8).length = 8 := by
  constructor
  · intro h
    have hstep : ∀ n ≤ 8, (t.mappedPrefix a n).length = n := by
      intro n
      induction n with
      | zero => exact fun _ => rfl
      | succ n ih =>
        intro hn
        obtain ⟨b, hb⟩ := Option.isSome_iff_exists.1 (h n (by omega))
        have hfront := ih (by omega)
        rw [mappedPrefix_add hfront, List.length_append, hfront]
        simp [Tracee.mappedPrefix, hb]
    exact hstep 8 (Nat.le_refl _)
  · intro h i hi
    rw [← getElem?_mappedPrefix h hi, List.getElem?_eq_getElem (by omega)]
    rfl

theorem peek_eq (h : t.MappedWord a) : ∃ w, t.peek a = some w ∧ w.toList = t.mappedPrefix a 8 := by
  refine ⟨_, if_pos h, ?_⟩
  have hfull := mappedWord_iff.1 h
  refine List.ext_getElem (by rw [hfull, Vector.length_toList]) fun i hi hi' => ?_
  have hbyte := getElem?_mappedPrefix hfull (by omega : i < 8)
  rw [List.getElem?_eq_getElem hi'] at hbyte
  simp [← hbyte]

end MappedPrefix

section PeekWords

variable {t : Tracee} {address : UInt64} {size n : Nat}

def roundUp (size : Nat) : Nat := (size + 7) / 8 * 8

theorem mappedWord_iff_le (hn : n ≤ (t.mappedPrefix address (roundUp size)).length)
    (hfit : n + 8 ≤ roundUp size) :
    t.MappedWord (address + UInt64.ofNat n) ↔
      n + 8 ≤ (t.mappedPrefix address (roundUp size)).length := by
  have hfront : (t.mappedPrefix address n).length = n := by
    rw [← take_mappedPrefix (by omega : n ≤ roundUp size), List.length_take]
    omega
  have hnext : (t.mappedPrefix address (n + 8)).length =
      n + (t.mappedPrefix (address + UInt64.ofNat n) 8).length := by
    rw [mappedPrefix_add hfront, List.length_append, hfront]
  rw [← take_mappedPrefix hfit, List.length_take] at hnext
  rw [mappedWord_iff]
  omega

/-- The data with `k` more bytes. -/
theorem append_front {k : Nat} (hn : n ≤ (t.mappedPrefix address (roundUp size)).length)
    (hfit : n + k ≤ roundUp size) :
    (t.mappedPrefix address (roundUp size)).take n ++
        t.mappedPrefix (address + UInt64.ofNat n) k =
      (t.mappedPrefix address (roundUp size)).take (n + k) := by
  have hfront : (t.mappedPrefix address n).length = n := by
    rw [← take_mappedPrefix (by omega : n ≤ roundUp size), List.length_take]
    omega
  rw [take_mappedPrefix (by omega), take_mappedPrefix hfit, mappedPrefix_add hfront]

theorem peekLoop_run {pid tid : Int} {fuel : Nat} (hpos : 0 < size) (hword : 8 ∣ n)
    (hn : n ≤ (t.mappedPrefix address (roundUp size)).length) (hlast : n ≤ lastWord size)
    (hfuel : size ≤ n + fuel) :
    ∃ m readable, Prog.interp (Tracee.serve pid)
        (peekLoop tid address size fuel ((t.mappedPrefix address (roundUp size)).take n)) t =
        some (((t.mappedPrefix address (roundUp size)).take m, readable), t) ∧
      m = min ((t.mappedPrefix address (roundUp size)).length / 8 * 8) (lastWord size) ∧
      (readable = true ↔ lastWord size ≤ (t.mappedPrefix address (roundUp size)).length) := by
  have hround : roundUp size = lastWord size + 8 := by
    unfold roundUp lastWord
    omega
  unfold lastWord at *
  induction fuel generalizing n with
  | zero => exact ⟨n, true, rfl, by omega, by simp; omega⟩
  | succ fuel ih =>
    have hlen : ((t.mappedPrefix address (roundUp size)).take n).length = n := by
      rw [List.length_take]
      omega
    rw [peekLoop, hlen]
    by_cases hmore : n + 8 < size
    · rw [if_pos hmore, Prog.perform_bind, Prog.interp_op]
      simp only [Tracee.serve, Option.bind_some]
      by_cases hmapped : t.MappedWord (address + UInt64.ofNat n)
      · obtain ⟨w, hw, hbytes⟩ := peek_eq hmapped
        have hfit := (mappedWord_iff_le hn (by omega)).1 hmapped
        rw [hw]
        dsimp only
        rw [hbytes, append_front hn (by omega)]
        exact ih (by omega) hfit (by omega) (by omega)
      · have hshort := (mappedWord_iff_le hn (by omega)).not.1 hmapped
        rw [Tracee.peek, if_neg hmapped]
        exact ⟨n, false, rfl, by omega, by simp; omega⟩
    · rw [if_neg hmore]
      exact ⟨n, true, rfl, by omega, by simp; omega⟩

/-- The ptrace path gives whole words, and the last bytes only when their word is mapped
    as a whole. -/
theorem peekWords_run (t : Tracee) (address : UInt64) (pid tid : Int) (size : Nat) :
    Prog.interp (Tracee.serve pid) (peekWords tid address size) t =
      some ((t.mappedPrefix address (roundUp size)).take
        (if (t.mappedPrefix address (roundUp size)).length = roundUp size then size
          else (t.mappedPrefix address (roundUp size)).length / 8 * 8), t) := by
  rcases Nat.eq_zero_or_pos size with rfl | hpos
  · rfl
  · have hround : roundUp size = lastWord size + 8 := by
      unfold roundUp lastWord
      omega
    have hlast : lastWord size < size ∧ size ≤ lastWord size + 8 := by
      unfold lastWord
      omega
    have hword : 8 ∣ lastWord size := Nat.dvd_mul_left 8 _
    have hle : (t.mappedPrefix address (roundUp size)).length ≤ roundUp size :=
      mappedPrefix_length_le
    obtain ⟨m, readable, hrun, hm, hreadable⟩ := @peekLoop_run t address size 0 pid tid size hpos
      (Nat.dvd_zero 8) (Nat.zero_le _) (Nat.zero_le _) (by omega)
    rw [List.take_zero] at hrun
    have hlen : ((t.mappedPrefix address (roundUp size)).take m).length = m := by
      rw [List.length_take]
      omega
    rw [peekWords, Prog.interp_bind, hrun, Option.bind_some]
    dsimp only
    rw [hlen]
    by_cases hall : lastWord size ≤ (t.mappedPrefix address (roundUp size)).length
    · -- the word at the end
      have hmlast : m = lastWord size := by omega
      subst hmlast
      rw [if_pos ⟨hlast.1, hreadable.2 hall⟩, Prog.perform_bind, Prog.interp_op]
      simp only [Tracee.serve, Option.bind_some]
      have hfit := mappedWord_iff_le (t := t) hall (by omega)
      by_cases hmapped : t.MappedWord (address + UInt64.ofNat (lastWord size))
      · obtain ⟨w, hw, hbytes⟩ := peek_eq hmapped
        have hfull := hfit.1 hmapped
        have hbehind : size - lastWord size ≤ 8 := by omega
        have hsize : lastWord size + (size - lastWord size) = size := by omega
        rw [hw, if_pos (by omega)]
        dsimp only
        rw [hbytes, take_mappedPrefix hbehind, append_front hall (by omega), hsize]
        rfl
      · have hshort := hfit.not.1 hmapped
        have hwhole : (t.mappedPrefix address (roundUp size)).length / 8 * 8 = lastWord size := by
          omega
        rw [Tracee.peek, if_neg hmapped, if_neg (by omega), hwhole]
        rfl
    · have hwhole : (t.mappedPrefix address (roundUp size)).length / 8 * 8 = m := by omega
      rw [if_neg (by rw [hreadable]; omega), if_neg (by omega), hwhole]
      rfl

end PeekWords

section ReadProcessMemory

variable {s : MemorySettings} {p : MemoryTarget} {address : UInt64} {size : Nat} {t : Tracee}

/-- What the back end of an option gives. -/
def Tracee.readBy (t : Tracee) (s : MemorySettings) (address : UInt64) (size : Nat) : List UInt8 :=
  if s.searchOption = 0 then t.mappedPrefix address size
  else (t.mappedPrefix address (roundUp size)).take
    (if (t.mappedPrefix address (roundUp size)).length = roundUp size then size
      else (t.mappedPrefix address (roundUp size)).length / 8 * 8)

theorem read_getD : (t.read address size).getD [] = t.mappedPrefix address size := by
  unfold Tracee.read
  split
  · next h => exact h.2.symm
  · rfl

theorem readBackEnd_run (hmem : p.mem = true) (pid tid : Int) :
    Prog.interp (Tracee.serve pid) (readBackEnd s p tid address size) t =
      some (t.readBy s address size, t) := by
  by_cases hoption : s.searchOption = 0
  · rw [readBackEnd, if_pos hoption, if_pos hmem, Tracee.readBy, if_pos hoption, ← read_getD]
    rfl
  · rw [readBackEnd, if_neg hoption, Tracee.readBy, if_neg hoption]
    exact peekWords_run t address pid tid size

theorem readLocked_run (reports : Nat) (hmem : p.mem = true) :
    Prog.interp (Tracee.serve p.pid) (readLocked (reports + 1) s p address size) t =
      some (t.readBy s address size, t) := by
  have hpid : (if s.attachToAccess then p.pid else p.pid) = p.pid := ite_self _
  rw [readLocked, Prog.interp_bind, attachIf_run, Option.bind_some]
  dsimp only
  rw [hpid, if_pos (Or.inr p.pid_pos), Prog.interp_bind, readBackEnd_run hmem, Option.bind_some,
    Prog.interp_bind, detachIf_run]
  rfl

theorem readOther_run (reports : Nat) (hmem : p.mem = true) :
    Prog.interp (Tracee.serve p.pid) (readOther (reports + 1) s p address size) t =
      some (t.readBy s address size, t) := by
  unfold readOther
  split
  · unfold readProcessMemoryDebug Tracee.readBy
    split
    · rw [← read_getD]
      rfl
    · exact peekWords_run t address p.pid p.pid size
  · rw [Prog.perform_bind, Prog.interp_op]
    simp only [Tracee.serve, Option.bind_some, if_true]
    rw [Prog.interp_bind, readLocked_run reports hmem]
    rfl

def MemorySettings.withOption (s : MemorySettings) (option : Int) : MemorySettings :=
  { s with searchOption := option }

theorem readProcessMemory_run (reports : Nat) (hmem : p.mem = true) (haddress : address ≠ 0)
    (hoption : s.searchOption = 0 ∨ s.searchOption = 1) :
    Prog.interp (Tracee.serve p.pid) (readProcessMemory (reports + 1) s (some p) address size) t =
      some ((t.readBy s address size, s), t) := by
  have hvm : s.readsVm = false := by
    rcases hoption with h | h <;> simp [MemorySettings.readsVm, h]
  have htwo : s.searchOption ≠ 2 := by omega
  rw [readProcessMemory, if_neg haddress]
  dsimp only
  rw [hvm, if_neg htwo]
  simp only [Bool.false_eq_true, if_false]
  rw [Prog.interp_bind, readOther_run reports hmem]
  rfl

end ReadProcessMemory

/-- The two back ends agree just when the mapped front of the range, in whole words, is a
    number of whole words. -/
theorem readProcessMemory_agrees_iff (reports : Nat) (s : MemorySettings) (p : MemoryTarget)
    (address : UInt64) (size : Nat) (t : Tracee) (hmem : p.mem = true) (haddress : address ≠ 0) :
    ∃ data₀ data₁, Prog.interp (Tracee.serve p.pid)
        (readProcessMemory (reports + 1) (s.withOption 0) (some p) address size) t =
          some ((data₀, s.withOption 0), t) ∧
      Prog.interp (Tracee.serve p.pid)
        (readProcessMemory (reports + 1) (s.withOption 1) (some p) address size) t =
          some ((data₁, s.withOption 1), t) ∧
      (data₁ = data₀ ↔ 8 ∣ (t.mappedPrefix address (roundUp size)).length) := by
  refine ⟨_, _, readProcessMemory_run reports hmem haddress (Or.inl rfl),
    readProcessMemory_run reports hmem haddress (Or.inr rfl), ?_⟩
  have hround : size ≤ roundUp size ∧ roundUp size < size + 8 ∧ 8 ∣ roundUp size := by
    unfold roundUp
    omega
  have hle : (t.mappedPrefix address (roundUp size)).length ≤ roundUp size := mappedPrefix_length_le
  have hzero : (s.withOption 0).searchOption = 0 := rfl
  have hone : (s.withOption 1).searchOption ≠ 0 := Int.one_ne_zero
  rw [Tracee.readBy, if_neg hone, Tracee.readBy, if_pos hzero, ← take_mappedPrefix hround.1,
    List.take_eq_take_iff]
  split <;> omega

/-- A mapping that ends at 0x1010 is read by whole words up to there. -/
theorem readProcessMemory_agrees_one : ∃ data₀ data₁, Prog.interp (Tracee.serve wordTarget.pid)
      (readProcessMemory 1 (wordSettings.withOption 0) (some wordTarget) 0x1008 100) oneWord =
        some ((data₀, wordSettings.withOption 0), oneWord) ∧
    Prog.interp (Tracee.serve wordTarget.pid)
      (readProcessMemory 1 (wordSettings.withOption 1) (some wordTarget) 0x1008 100) oneWord =
        some ((data₁, wordSettings.withOption 1), oneWord) ∧
    (data₁ = data₀ ↔ 8 ∣ (oneWord.mappedPrefix 0x1008 (roundUp 100)).length) :=
  readProcessMemory_agrees_iff 0 wordSettings wordTarget 0x1008 100 oneWord rfl (by decide)

/-- The last three bytes of the mapping are not read by words. -/
theorem readProcessMemory_not_agrees :
    Prog.interp (Tracee.serve wordTarget.pid)
        (readProcessMemory 1 (wordSettings.withOption 0) (some wordTarget) 0x100d 3) oneWord =
          some (([0, 0, 0], wordSettings.withOption 0), oneWord) ∧
      Prog.interp (Tracee.serve wordTarget.pid)
        (readProcessMemory 1 (wordSettings.withOption 1) (some wordTarget) 0x100d 3) oneWord =
          some (([], wordSettings.withOption 1), oneWord) :=
  ⟨rfl, rfl⟩

end CheatEngine.Ceserver
