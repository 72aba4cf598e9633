/-
  CheatEngine.Client.Matches

  What the portable scanner should find: the addresses where the pattern is in the
  target's memory.  `scanBuffer` is compared with that, over a buffer that is a part of
  the memory.
-/
import CheatEngine.Client.Scan

namespace CheatEngine.Client

abbrev TargetMemory : Type := UInt64 → UInt8

def memBytes (mem : TargetMemory) : UInt64 → Nat → List UInt8
  | _, 0 => []
  | address, n + 1 => mem address :: memBytes mem (address + 1) n

/-- The pattern is in the memory at the address; a `?` of the mask fits every byte. -/
def MatchesAt (mem : TargetMemory) (pattern mask : List UInt8) (address : UInt64) : Prop :=
  ∀ i p, pattern[i]? = some p → mask[i]? = some '?'.toUInt8 ∨ mem (address + UInt64.ofNat i) = p

section Memory

variable {mem : TargetMemory} {address : UInt64}

@[simp] theorem memBytes_length (mem : TargetMemory) (address : UInt64) (n : Nat) :
    (memBytes mem address n).length = n := by
  induction n generalizing address with
  | zero => rfl
  | succ n ih => simp [memBytes, ih]

theorem ofNat_succ_add (address : UInt64) (n : Nat) :
    address + 1 + UInt64.ofNat n = address + UInt64.ofNat (n + 1) := by
  rw [UInt64.ofNat_add, UInt64.add_assoc, UInt64.add_comm 1]
  rfl

theorem memBytes_append (m n : Nat) :
    memBytes mem address (m + n) =
      memBytes mem address m ++ memBytes mem (address + UInt64.ofNat m) n := by
  induction m generalizing address with
  | zero => simp [memBytes]
  | succ m ih =>
    rw [Nat.succ_add, memBytes, memBytes, ih, ofNat_succ_add]
    rfl

/-- The end of a piece of memory is one. -/
theorem drop_memBytes (m n : Nat) :
    (memBytes mem address (m + n)).drop m = memBytes mem (address + UInt64.ofNat m) n := by
  rw [memBytes_append, List.drop_left' (memBytes_length mem address m)]

theorem matchesAt_nil (mask : List UInt8) : MatchesAt mem [] mask address := by
  intro i p hp
  simp at hp

theorem matchesAt_cons {p m : UInt8} {pattern mask : List UInt8} :
    MatchesAt mem (p :: pattern) (m :: mask) address ↔
      (m = '?'.toUInt8 ∨ mem address = p) ∧ MatchesAt mem pattern mask (address + 1) := by
  constructor
  · intro h
    refine ⟨by simpa using h 0 p rfl, fun i q hq => ?_⟩
    rw [ofNat_succ_add]
    exact h (i + 1) q hq
  · rintro ⟨hfirst, hrest⟩ i q hq
    cases i with
    | zero =>
      obtain rfl : p = q := by simpa using hq
      simpa using hfirst
    | succ i =>
      rw [← ofNat_succ_add]
      exact hrest i q (by simpa using hq)

/-- The inner loop of `scanBuffer`, over memory. -/
theorem matchesFront_iff {pattern mask : List UInt8} {n : Nat}
    (hmask : mask.length = pattern.length) (hn : pattern.length ≤ n) :
    matchesFront pattern mask (memBytes mem address n) = true ↔
      MatchesAt mem pattern mask address := by
  induction pattern generalizing mask address n with
  | nil => simp [matchesFront, matchesAt_nil]
  | cons p pattern ih =>
    obtain ⟨m, mask, rfl⟩ := List.exists_cons_of_length_pos (l := mask) (by simp [hmask])
    obtain ⟨n, rfl⟩ : ∃ n', n = n' + 1 := ⟨n - 1, by simp at hn; omega⟩
    rw [matchesAt_cons, ← ih (by simpa using hmask) (by simpa using hn)]
    simp [memBytes, matchesFront]

end Memory

def addressesFrom : UInt64 → Nat → List UInt64
  | _, 0 => []
  | address, n + 1 => address :: addressesFrom (address + 1) n

/-- The address may be reported, and the pattern is there. -/
def isHit (mem : TargetMemory) (pattern mask : List UInt8) (scanStart : UInt64) (alignment : Int64)
    (minimumCandidate address : UInt64) : Bool :=
  ¬ address < minimumCandidate ∧ (address - scanStart) % alignment.toUInt64 = 0 ∧
    matchesFront pattern mask (memBytes mem address pattern.length)

section ScanBuffer

variable {mem : TargetMemory} {pattern mask : List UInt8} {scanStart : UInt64}
  {alignment : Int64} {minimumCandidate address : UInt64} {maximumMatches : Nat}

theorem isHit_iff (hmask : mask.length = pattern.length) :
    isHit mem pattern mask scanStart alignment minimumCandidate address = true ↔
      ¬ address < minimumCandidate ∧ (address - scanStart) % alignment.toUInt64 = 0 ∧
        MatchesAt mem pattern mask address := by
  rw [isHit, decide_eq_true_iff, matchesFront_iff hmask (Nat.le_refl _)]

theorem scanBuffer_eq (hpattern : 0 < pattern.length) (hmask : mask.length = pattern.length)
    {found : List UInt64} (hfound : found.length < maximumMatches) (n : Nat) :
    scanBuffer pattern mask scanStart alignment minimumCandidate maximumMatches address
        (memBytes mem address n) found =
      (found ++ (addressesFrom address (n + 1 - pattern.length)).filter
        (isHit mem pattern mask scanStart alignment minimumCandidate)).take maximumMatches := by
  have hnone : ∀ address : UInt64, ∀ found : List UInt64, found.length < maximumMatches →
      found = (found ++ (addressesFrom address 0).filter
        (isHit mem pattern mask scanStart alignment minimumCandidate)).take maximumMatches := by
    intro address found hfound
    simp only [addressesFrom, List.filter_nil, List.append_nil]
    exact (List.take_of_length_le (Nat.le_of_lt hfound)).symm
  induction n generalizing address found with
  | zero =>
    have hzero : 0 + 1 - pattern.length = 0 := by omega
    rw [hzero, ← hnone address found hfound]
    simp [memBytes, scanBuffer, hpattern]
  | succ n ih =>
    by_cases hshort : n + 1 < pattern.length
    · have hzero : n + 1 + 1 - pattern.length = 0 := by omega
      rw [hzero, ← hnone address found hfound]
      simp [memBytes, scanBuffer, hshort]
    · have hsucc : n + 1 + 1 - pattern.length = n + 1 - pattern.length + 1 := by omega
      have hfront : matchesFront pattern mask (mem address :: memBytes mem (address + 1) n) = true ↔
          MatchesAt mem pattern mask address :=
        matchesFront_iff (n := n + 1) hmask (by omega)
      have hlen : ¬ (mem address :: memBytes mem (address + 1) n).length < pattern.length := by
        simpa using hshort
      rw [hsucc, addressesFrom, memBytes, scanBuffer, if_neg hlen]
      by_cases hhit : isHit mem pattern mask scanStart alignment minimumCandidate address = true
      · have hhit' := (isHit_iff hmask).1 hhit
        rw [← hfront] at hhit'
        have hrest := @ih (address + 1) (found ++ [address])
        rw [if_pos hhit', List.filter_cons_of_pos hhit]
        generalize (addressesFrom (address + 1) (n + 1 - pattern.length)).filter
          (isHit mem pattern mask scanStart alignment minimumCandidate) = hits at hrest ⊢
        have hmove : found ++ address :: hits = found ++ [address] ++ hits := by simp
        rw [hmove]
        split
        · next hlimit =>
          -- the limit is reached here
          have hmax : maximumMatches = (found ++ [address]).length := by
            simp only [List.length_append, List.length_singleton] at hlimit ⊢
            omega
          rw [hmax, List.take_left]
        · next hlimit => exact hrest (by omega)
      · have hhit' := (isHit_iff hmask).not.1 hhit
        rw [← hfront] at hhit'
        rw [if_neg hhit', List.filter_cons_of_neg hhit]
        exact ih hfound

end ScanBuffer

end CheatEngine.Client
