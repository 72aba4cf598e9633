/-
  CheatEngine.Dbvm.GuestMemory

  The memory of a guest as DBVM comes to it (vmpaging.c, mm.c).  `mapVMmemoryEx` maps the
  pages of a range of guest addresses one after the other and stops at the first one that
  is not present; `copymem` then writes to the mapped bytes.

  Addresses are 64 bits wide and wrap.  Sizes are `int`s and may be negative.
-/
import CheatEngine.Dbvm.MemoryManager
import Mathlib.Data.List.Basic

namespace CheatEngine.Dbvm

/-- The virtual memory of the guest: its bytes, and which of its pages are present. -/
structure GuestMemory where
  byte : Nat → UInt8
  present : Nat → Bool

def addressAt (address n : Nat) : Nat := (address + n) % 2 ^ 64

theorem addressAt_lt (address n : Nat) : addressAt address n < 2 ^ 64 := Nat.mod_lt _ (by omega)

theorem addressAt_add (address n m : Nat) :
    addressAt (addressAt address n) m = addressAt address (n + m) := by
  unfold addressAt
  omega

/-- The `int` that the difference of two addresses becomes. -/
def addressDifference (address start : Nat) : Int :=
  toInt32 ((address + (2 ^ 64 - start)) % 2 ^ 64)

/-- `size / 4096`, and one more when a part of a page is left. -/
def pageCount (size : Int) : Int := size.tdiv 4096 + if size.tmod 4096 ≠ 0 then 1 else 0

theorem pageCount_natCast (n : Nat) : pageCount n = ((n + 4095) / 4096 : Nat) := by
  have hdiv : (n : Int).tdiv 4096 = (n / 4096 : Nat) := rfl
  have hmod : (n : Int).tmod 4096 = (n % 4096 : Nat) := rfl
  unfold pageCount
  rw [hdiv, hmod]
  split <;> omega

theorem pageCount_neg (n : Nat) (h : 4096 ≤ n) : pageCount (-n) ≤ 0 := by
  have hdiv : (-(n : Int)).tdiv 4096 = -((n / 4096 : Nat) : Int) := Int.neg_tdiv n 4096
  unfold pageCount
  rw [hdiv]
  split <;> omega

/-- The inner loop of `mmFindMapPositionForSize` at entry `j`, with `rest` entries to the
    end of the table: the pages needed are free, one is used, or the table ends. -/
def freeFrom (used : Nat → Bool) : (rest j : Nat) → (needed : Int) → Option Bool
  | 0, _, needed => if needed = 0 then some true else none
  | rest + 1, j, needed =>
    if needed = 0 then some true
    else if used j then some false
    else if rest = 0 then none
    else freeFrom used rest (j + 1) (needed - 1)

/-- The outer loop at entry `i`. -/
def findPosition (used : Nat → Bool) (pagecount : Int) : (rest i : Nat) → Option Nat
  | 0, _ => none
  | rest + 1, i =>
    if used i then findPosition used pagecount rest (i + 1)
    else
      match freeFrom used rest (i + 1) (pagecount - 1) with
      | some true => some i
      | some false => findPosition used pagecount rest (i + 1)
      | none => none

/-- `mmFindMapPositionForSize`, where `used` are the entries of this CPU that are present. -/
def mmFindMapPositionForSize (used : Nat → Bool) (size : Int) : Option Nat :=
  if size = 0 then none else findPosition used (pageCount size) 1024 0

theorem freeFrom_of_neg (used : Nat → Bool) (rest j : Nat) {needed : Int} (h : needed < 0) :
    freeFrom used rest j needed ≠ some true := by
  induction rest generalizing j needed with
  | zero =>
    rw [freeFrom, if_neg (by omega)]
    simp
  | succ rest ih =>
    rw [freeFrom, if_neg (by omega)]
    split
    · simp
    · split
      · simp
      · exact ih (j + 1) (by omega)

theorem findPosition_of_nonpos (used : Nat → Bool) {pagecount : Int} (h : pagecount ≤ 0)
    (rest i : Nat) : findPosition used pagecount rest i = none := by
  induction rest generalizing i with
  | zero => rfl
  | succ rest ih =>
    rw [findPosition]
    split
    · exact ih (i + 1)
    · split
      · next hfree => exact absurd hfree (freeFrom_of_neg used rest (i + 1) (by omega))
      · exact ih (i + 1)
      · rfl

variable {size : Int}

/-- There is no place for less than minus one page. -/
theorem mmFindMapPositionForSize_of_neg (used : Nat → Bool) (h : size ≤ -4096) :
    mmFindMapPositionForSize used size = none := by
  obtain ⟨n, rfl⟩ : ∃ n : Nat, size = -n := ⟨(-size).toNat, by omega⟩
  have hcount := pageCount_neg n (by omega)
  rw [mmFindMapPositionForSize, findPosition_of_nonpos used hcount, ite_self]

/-! ## Mapping -/

/-- What `mapVMmemoryEx` reports, when it is asked to keep what it has mapped. -/
inductive MapResult
  | mapped
  /-- Error 1: the CPU has no place for the pages. -/
  | noRoom
  /-- Error 2, with the address of the first page that is not present. -/
  | pageFault (pagefaultaddress : Nat)
  | badSize

/-- The loop of `mapVMmemoryEx` over the pages from an address on: the first one that is not
    present. -/
def absentPage (present : Nat → Bool) : (pagecount address : Nat) → Option Nat
  | 0, _ => none
  | pagecount + 1, address =>
    if present (address / 4096) then absentPage present pagecount (addressAt address 4096)
    else some address

def mapVMmemoryEx (g : GuestMemory) (used : Nat → Bool) (address : Nat) (size : Int) : MapResult :=
  if size = 0 then .badSize
  else
    let offset := address % 4096
    let totalsize := size + offset
    if (mmFindMapPositionForSize used totalsize).isNone then .noRoom
    else
      match absentPage g.present (pageCount totalsize).toNat (address / 4096 * 4096) with
      | some pagefaultaddress => .pageFault pagefaultaddress
      | none => .mapped

variable {address n : Nat}

theorem absentPage_eq_some {present : Nat → Bool} {a : Nat} (haddress : address < 2 ^ 64)
    (h : absentPage present n address = some a) :
    ∃ k, k < n ∧ a = addressAt address (4096 * k) ∧ present (a / 4096) = false := by
  induction n generalizing address with
  | zero => cases h
  | succ n ih =>
    rw [absentPage] at h
    split at h
    · obtain ⟨k, hk, ha, habsent⟩ := ih (addressAt_lt _ _) h
      have haddr : addressAt (addressAt address 4096) (4096 * k) =
          addressAt address (4096 * (k + 1)) := by
        unfold addressAt
        omega
      exact ⟨k + 1, by omega, ha.trans haddr, habsent⟩
    · next hpresent =>
      obtain rfl := Option.some.inj h
      refine ⟨0, by omega, ?_, Bool.eq_false_iff.2 hpresent⟩
      unfold addressAt
      omega

theorem absentPage_eq_none {present : Nat → Bool} (haddress : address < 2 ^ 64)
    (h : absentPage present n address = none) {k : Nat} (hk : k < n) :
    present (addressAt address (4096 * k) / 4096) = true := by
  induction n generalizing address k with
  | zero => omega
  | succ n ih =>
    rw [absentPage] at h
    split at h
    · next hpresent =>
      cases k with
      | zero =>
        have haddr : addressAt address (4096 * 0) = address := by
          unfold addressAt
          omega
        rw [haddr]
        exact hpresent
      | succ k =>
        have haddr : addressAt address (4096 * (k + 1)) =
            addressAt (addressAt address 4096) (4096 * k) := by
          unfold addressAt
          omega
        rw [haddr]
        exact ih (addressAt_lt _ _) h (by omega)
    · cases h

namespace GuestMemory

/-- `copymem` to an address of the guest whose pages are mapped. -/
def write (g : GuestMemory) (address : Nat) (bytes : List UInt8) : GuestMemory :=
  { g with byte := fun a => (bytes[(a + (2 ^ 64 - address)) % 2 ^ 64]?).getD (g.byte a) }

theorem byte_write {g : GuestMemory} {address i : Nat} {bytes : List UInt8}
    (haddress : address < 2 ^ 64) (hi : i < 2 ^ 64) :
    (g.write address bytes).byte (addressAt address i) =
      (bytes[i]?).getD (g.byte (addressAt address i)) := by
  have hindex : (addressAt address i + (2 ^ 64 - address)) % 2 ^ 64 = i := by
    unfold addressAt
    omega
  show (bytes[(addressAt address i + (2 ^ 64 - address)) % 2 ^ 64]?).getD _ = _
  rw [hindex]

/-- All else stays. -/
theorem byte_write_of_ne {g : GuestMemory} {address a : Nat} {bytes : List UInt8}
    (haddress : address < 2 ^ 64) (ha : a < 2 ^ 64)
    (h : ∀ i, i < bytes.length → a ≠ addressAt address i) :
    (g.write address bytes).byte a = g.byte a := by
  -- the address is some distance behind the start, which the bytes do not reach
  have hdistance : a = addressAt address ((a + (2 ^ 64 - address)) % 2 ^ 64) := by
    unfold addressAt
    omega
  have hlength : bytes.length ≤ (a + (2 ^ 64 - address)) % 2 ^ 64 := by
    by_contra hlt
    exact h _ (by omega) hdistance
  show (bytes[(a + (2 ^ 64 - address)) % 2 ^ 64]?).getD _ = _
  rw [List.getElem?_eq_none hlength, Option.getD_none]

end GuestMemory

/-- A range can be mapped without a negative difference of addresses: it starts with a page,
    or the page it starts in is present. -/
def GuestMemory.StartsPresent (g : GuestMemory) (address : Nat) : Prop :=
  address % 4096 = 0 ∨ g.present (address / 4096) = true

instance (g : GuestMemory) (address : Nat) : Decidable (g.StartsPresent address) :=
  inferInstanceAs (Decidable (_ ∨ _))

theorem GuestMemory.StartsPresent.pageFault {g : GuestMemory} {used : Nat → Bool}
    {a : Nat} (haddress : address < 2 ^ 64) (hsize : 0 < size) (hle : size ≤ 2 ^ 30)
    (hstart : g.StartsPresent address) (h : mapVMmemoryEx g used address size = .pageFault a) :
    ∃ n : Nat, addressDifference a address = n ∧ (n : Int) < size ∧ a = addressAt address n ∧
      a % 4096 = 0 := by
  obtain ⟨m, rfl⟩ : ∃ m : Nat, size = m := ⟨size.toNat, by omega⟩
  rw [mapVMmemoryEx, if_neg (by omega)] at h
  dsimp only at h
  rw [← Int.natCast_add, pageCount_natCast, Int.toNat_natCast] at h
  split at h
  · cases h
  split at h
  · next a' habsent =>
    cases h
    obtain ⟨k, hk, ha, hmissing⟩ := absentPage_eq_some (by omega) habsent
    -- the first page is only missing where the range starts with it
    have hk0 : k = 0 → address % 4096 = 0 := by
      rintro rfl
      rcases hstart with haligned | hpresent
      · exact haligned
      · have hfirst : addressAt (address / 4096 * 4096) (4096 * 0) / 4096 = address / 4096 := by
          unfold addressAt
          omega
        rw [ha, hfirst, hpresent] at hmissing
        cases hmissing
    have hoffset : address % 4096 ≤ 4096 * k := by
      rcases Nat.eq_zero_or_pos k with rfl | hpos
      · omega
      · omega
    refine ⟨4096 * k - address % 4096, ?_, ?_, ?_, ?_⟩
    · unfold addressDifference toInt32
      rw [ha]
      unfold addressAt
      omega
    · omega
    · rw [ha]
      unfold addressAt
      omega
    · rw [ha]
      unfold addressAt
      omega
  · cases h

theorem present_of_mapped {g : GuestMemory} {used : Nat → Bool}
    (haddress : address < 2 ^ 64) (h : mapVMmemoryEx g used address size = .mapped)
    (hn : (n : Int) < size) : g.present (addressAt address n / 4096) = true := by
  obtain ⟨m, rfl⟩ : ∃ m : Nat, size = m := ⟨size.toNat, by omega⟩
  rw [mapVMmemoryEx, if_neg (by omega)] at h
  dsimp only at h
  rw [← Int.natCast_add, pageCount_natCast, Int.toNat_natCast] at h
  split at h
  · cases h
  split at h
  · cases h
  · next hpresent =>
    have hk : (address % 4096 + n) / 4096 < (m + address % 4096 + 4095) / 4096 := by omega
    have hpage := absentPage_eq_none (by omega) hpresent hk
    have haddr : addressAt (address / 4096 * 4096) (4096 * ((address % 4096 + n) / 4096)) / 4096 =
        addressAt address n / 4096 := by
      unfold addressAt
      omega
    rw [haddr] at hpage
    exact hpage

end CheatEngine.Dbvm
