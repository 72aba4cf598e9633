/-
  CheatEngine.Dbvm.AddressList

  The sorted list of addresses (list.c).  The entries stand in a block of
  memory, and every access is to an index of that block or does not return
  (`none`).  `addresslist_find` and `addresslist_remove` search with two halves;
  `addresslist_add` finds its place in the same way, moves the entries behind it
  and grows the block first when it is full.

  The growth asks `realloc` for `size + 32` bytes, where an entry has 16: the
  block it returns is smaller than the list.  Below that size the list acts as
  a finite map (`Holds`).
-/
import Mathlib.Algebra.Group.Nat.Defs
import Mathlib.Data.List.Basic
import Mathlib.Data.List.GetD

namespace CheatEngine.Dbvm

/-- `AddressListEntry`, with the pointer in it. -/
structure AddressListEntry where
  address : Nat
  data : Nat
  deriving DecidableEq, Repr, Inhabited

/-- `AddressList`: what is allocated for `list`, and its counters. -/
structure AddressList where
  memory : List AddressListEntry
  size : Nat
  capacity : Nat

namespace AddressList

/-! ## list.c -/

def write (m : List AddressListEntry) (i : Nat) (e : AddressListEntry) :
    Option (List AddressListEntry) :=
  if i < m.length then some (m.set i e) else none

/-- The loop of `addresslist_findclosestIndex`. -/
def closestLoop (m : List AddressListEntry) (address : Nat) : Nat → Nat → Nat → Option Nat
  | 0, first, _ => some first
  | fuel + 1, first, last =>
    if first < last then do
      let i := first + (last - first) / 2
      let v ← m[i]?
      if v.address = address then some i
      else if address < v.address then closestLoop m address fuel first i
      else closestLoop m address fuel (i + 1) last
    else some first

/-- `addresslist_findclosestIndex` of a list that is not empty. -/
def findclosestIndex (l : AddressList) (address : Nat) : Option Nat :=
  closestLoop l.memory address l.size 0 (l.size - 1)

/-- `realloc` of the block to as many entries as `bytes` bytes hold. -/
def realloc (m : List AddressListEntry) (bytes : Nat) : List AddressListEntry :=
  m.take (bytes / 16) ++ List.replicate (bytes / 16 - m.length) default

/-- `while ((l->list[s].address < address) && (s < l->size)) s++`. -/
def skipLoop (m : List AddressListEntry) (size address : Nat) : Nat → Nat → Option Nat
  | 0, s => some s
  | fuel + 1, s => do
    let v ← m[s]?
    if v.address < address ∧ s < size then skipLoop m size address fuel (s + 1) else some s

/-- Move everything from `s` on to the right, from index `i` down. -/
def moveRight (s : Nat) : Nat → List AddressListEntry → Option (List AddressListEntry)
  | 0, m => some m
  | i + 1, m =>
    if s < i + 1 then do
      let e ← m[i]?
      let m ← write m (i + 1) e
      moveRight s i m
    else some m

/-- `addresslist_add`.  An address that is in the list hangs the CPU. -/
def add (l : AddressList) (address data : Nat) : Option AddressList := do
  let s ← if l.size = 0 then some 0 else l.findclosestIndex address
  let memory := if l.capacity ≤ l.size then realloc l.memory (l.size + 32) else l.memory
  let capacity := if l.capacity ≤ l.size then l.size + 32 else l.capacity
  if l.size = 0 then
    let memory ← write memory 0 ⟨address, data⟩
    return ⟨memory, l.size + 1, capacity⟩
  else
    let v ← memory[s]?
    if v.address = address then none
    else
      let s ← skipLoop memory l.size address (l.size + 1) s
      let memory ← moveRight s l.size memory
      let memory ← write memory s ⟨address, data⟩
      return ⟨memory, l.size + 1, capacity⟩

/-- The search of `addresslist_find` and `addresslist_remove`: the index of the
    address, when it is there. -/
def searchLoop (m : List AddressListEntry) (address : Nat) :
    Nat → Nat → Nat → Option (Option Nat)
  | 0, _, _ => some none
  | fuel + 1, first, last =>
    if first < last then do
      let i := first + (last - first) / 2
      let v ← m[i]?
      if v.address = address then some (some i)
      else if address < v.address then searchLoop m address fuel first i
      else searchLoop m address fuel (i + 1) last
    else some none

def search (l : AddressList) (address : Nat) : Option (Option Nat) :=
  searchLoop l.memory address l.size 0 l.size

def find (l : AddressList) (address : Nat) : Option (Option Nat) := do
  match ← l.search address with
  | some i =>
    let e ← l.memory[i]?
    return some e.data
  | none => return none

/-- `for (j = i; j < l->size-1; j++) l->list[j] = l->list[j + 1]`. -/
def moveLeft (size : Nat) : Nat → Nat → List AddressListEntry → Option (List AddressListEntry)
  | 0, _, m => some m
  | fuel + 1, j, m =>
    if j < size - 1 then do
      let e ← m[j + 1]?
      let m ← write m j e
      moveLeft size fuel (j + 1) m
    else some m

def remove (l : AddressList) (address : Nat) : Option AddressList := do
  match ← l.search address with
  | some i =>
    let memory ← moveLeft l.size l.size i l.memory
    return { l with memory, size := l.size - 1 }
  | none => return l

def create : AddressList := ⟨List.replicate 32 default, 0, 32⟩

/-! ## Sorted blocks -/

def entryAt (m : List AddressListEntry) (i : Nat) : AddressListEntry := m.getD i default

/-- The addresses of the first `n` entries ascend. -/
def Ascending (m : List AddressListEntry) (n : Nat) : Prop :=
  ∀ i j, i < j → j < n → (entryAt m i).address < (entryAt m j).address

variable {m m' : List AddressListEntry} {n address i s : Nat}

theorem getElem?_eq_entryAt (h : i < m.length) : m[i]? = some (entryAt m i) := by
  rw [entryAt, List.getD_eq_getElem?_getD, List.getElem?_eq_getElem h]
  rfl

theorem entryAt_set (e : AddressListEntry) (j : Nat) (h : i < m.length) :
    entryAt (m.set i e) j = if j = i then e else entryAt m j := by
  rw [entryAt, entryAt, List.getD_eq_getElem?_getD, List.getD_eq_getElem?_getD, List.getElem?_set]
  by_cases hj : j = i
  · subst hj
    simp [h]
  · rw [if_neg (Ne.symm hj), if_neg hj]

theorem Ascending.le (hm : Ascending m n) {j : Nat} (hij : i ≤ j) (hj : j < n) :
    (entryAt m i).address ≤ (entryAt m j).address := by
  rcases Nat.lt_or_eq_of_le hij with hlt | rfl
  · exact Nat.le_of_lt (hm i j hlt hj)
  · exact Nat.le_refl _

theorem searchLoop_succ {fuel first last : Nat} (hlt : first < last)
    (hi : i = first + (last - first) / 2) (hlen : i < m.length) :
    searchLoop m address (fuel + 1) first last =
      if (entryAt m i).address = address then some (some i)
      else if address < (entryAt m i).address then searchLoop m address fuel first i
      else searchLoop m address fuel (i + 1) last := by
  subst hi
  simp [searchLoop, if_pos hlt, getElem?_eq_entryAt hlen]

/-- One round of the search for a place. -/
theorem closestLoop_succ {fuel first last : Nat} (hlt : first < last)
    (hi : i = first + (last - first) / 2) (hlen : i < m.length) :
    closestLoop m address (fuel + 1) first last =
      if (entryAt m i).address = address then some i
      else if address < (entryAt m i).address then closestLoop m address fuel first i
      else closestLoop m address fuel (i + 1) last := by
  subst hi
  simp [closestLoop, if_pos hlt, getElem?_eq_entryAt hlen]

theorem searchLoop_spec (address : Nat) (hm : Ascending m n) (hn : n ≤ m.length)
    (fuel first last : Nat) (hfuel : last - first ≤ fuel) (hlast : last ≤ n)
    (hbelow : ∀ k, k < first → (entryAt m k).address < address)
    (habove : ∀ k, last ≤ k → k < n → address < (entryAt m k).address) :
    (∃ i, i < n ∧ (entryAt m i).address = address ∧
        searchLoop m address fuel first last = some (some i)) ∨
      ((∀ k, k < n → (entryAt m k).address ≠ address) ∧
        searchLoop m address fuel first last = some none) := by
  induction fuel generalizing first last with
  | zero =>
    right
    refine ⟨?_, rfl⟩
    intro k hk
    by_cases hkf : k < first
    · exact Nat.ne_of_lt (hbelow k hkf)
    · exact Nat.ne_of_gt (habove k (by omega) hk)
  | succ fuel ih =>
    by_cases hlt : first < last
    · obtain ⟨i, hmid⟩ : ∃ i, i = first + (last - first) / 2 := ⟨_, rfl⟩
      have hfirst : first ≤ i := by omega
      have hlast' : i < last := by omega
      have hi : i < n := by omega
      rw [searchLoop_succ hlt hmid (Nat.lt_of_lt_of_le hi hn)]
      · split
        · next heq => exact .inl ⟨i, hi, heq, rfl⟩
        · next hne =>
          split
          · next hless =>
            -- everything from the middle on is above the address
            apply ih first i (by omega) (by omega) hbelow
            intro k hik hk
            exact Nat.lt_of_lt_of_le hless (hm.le hik hk)
          · next hge =>
            apply ih (i + 1) last (by omega) hlast _ habove
            intro k hk
            exact Nat.lt_of_le_of_lt (hm.le (Nat.le_of_lt_succ hk) hi) (by omega)
    · right
      refine ⟨?_, if_neg hlt⟩
      intro k hk
      by_cases hkf : k < first
      · exact Nat.ne_of_lt (hbelow k hkf)
      · exact Nat.ne_of_gt (habove k (by omega) hk)

/-- The place for an address that is not there: everything before it is below
    the address, everything behind it above. -/
theorem closestLoop_spec (hm : Ascending m n) (hn : n ≤ m.length) (fuel first last : Nat)
    (hfuel : last - first ≤ fuel) (hle : first ≤ last) (hlast : last < n)
    (hfresh : ∀ k, k < n → (entryAt m k).address ≠ address)
    (hbelow : ∀ k, k < first → (entryAt m k).address < address)
    (habove : ∀ k, last < k → k < n → address < (entryAt m k).address) :
    ∃ s, s < n ∧ closestLoop m address fuel first last = some s ∧
      (∀ k, k < s → (entryAt m k).address < address) ∧
      ∀ k, s < k → k < n → address < (entryAt m k).address := by
  induction fuel generalizing first last with
  | zero =>
    have heq : first = last := by omega
    subst heq
    exact ⟨first, hlast, rfl, hbelow, habove⟩
  | succ fuel ih =>
    by_cases hlt : first < last
    · obtain ⟨i, hmid⟩ : ∃ i, i = first + (last - first) / 2 := ⟨_, rfl⟩
      have hfirst : first ≤ i := by omega
      have hlast' : i < last := by omega
      have hi : i < n := by omega
      have hne := hfresh i hi
      rw [closestLoop_succ hlt hmid (Nat.lt_of_lt_of_le hi hn), if_neg hne]
      split
      · next hless =>
        apply ih first i (by omega) hfirst hi hbelow
        intro k hik hk
        exact Nat.lt_trans hless (hm i k hik hk)
      · next hge =>
        apply ih (i + 1) last (by omega) (by omega) hlast _ habove
        intro k hk
        exact Nat.lt_of_le_of_lt (hm.le (Nat.le_of_lt_succ hk) hi) (by omega)
    · have heq : first = last := by omega
      subst heq
      exact ⟨first, hlast, if_neg hlt, hbelow, habove⟩

/-! ## Moving entries -/

theorem write_eq (e : AddressListEntry) (h : i < m.length) : write m i e = some (m.set i e) :=
  if_pos h

theorem moveRight_spec (hs : s ≤ i) (hi : i < m.length) :
    ∃ m', moveRight s i m = some m' ∧ m'.length = m.length ∧
      ∀ k, entryAt m' k = if s < k ∧ k ≤ i then entryAt m (k - 1) else entryAt m k := by
  induction i generalizing m with
  | zero =>
    refine ⟨m, rfl, rfl, ?_⟩
    intro k
    rw [if_neg (by omega)]
  | succ i ih =>
    unfold moveRight
    by_cases hlt : s < i + 1
    · rw [if_pos hlt, getElem?_eq_entryAt (by omega)]
      simp only [Option.bind_eq_bind, Option.bind_some, write_eq _ hi]
      obtain ⟨m', hmove, hlen, hentry⟩ := ih (m := m.set (i + 1) (entryAt m i)) (by omega)
        (by rw [List.length_set]; omega)
      refine ⟨m', hmove, by rw [hlen, List.length_set], ?_⟩
      intro k
      rw [hentry, entryAt_set _ _ hi, entryAt_set _ _ hi]
      by_cases hki : k = i + 1
      · subst hki
        rw [if_neg (by omega), if_pos rfl, if_pos (by omega), Nat.add_sub_cancel]
      · rw [if_neg hki]
        by_cases hk : s < k ∧ k ≤ i
        · have hk1 : k - 1 ≠ i + 1 := by omega
          have hk2 : s < k ∧ k ≤ i + 1 := by omega
          rw [if_pos hk, if_neg hk1, if_pos hk2]
        · have hk2 : ¬ (s < k ∧ k ≤ i + 1) := by omega
          rw [if_neg hk, if_neg hk2]
    · rw [if_neg hlt]
      refine ⟨m, rfl, rfl, ?_⟩
      intro k
      rw [if_neg (by omega)]

theorem moveRight_outside (hs : s ≤ i) (hi : m.length ≤ i) :
    moveRight s (i + 1) m = none := by
  rw [moveRight, if_pos (by omega), List.getElem?_eq_none hi]
  rfl

theorem moveLeft_spec (fuel j : Nat) (hfuel : n - 1 - j ≤ fuel) (hn : n ≤ m.length) :
    ∃ m', moveLeft n fuel j m = some m' ∧ m'.length = m.length ∧
      ∀ k, entryAt m' k = if j ≤ k ∧ k < n - 1 then entryAt m (k + 1) else entryAt m k := by
  induction fuel generalizing m j with
  | zero =>
    refine ⟨m, rfl, rfl, ?_⟩
    intro k
    rw [if_neg (by omega)]
  | succ fuel ih =>
    unfold moveLeft
    by_cases hlt : j < n - 1
    · rw [if_pos hlt, getElem?_eq_entryAt (by omega)]
      have hj : j < m.length := by omega
      simp only [Option.bind_eq_bind, Option.bind_some, write_eq _ hj]
      obtain ⟨m', hmove, hlen, hentry⟩ := ih (m := m.set j (entryAt m (j + 1))) (j + 1)
        (by omega) (by rw [List.length_set]; omega)
      refine ⟨m', hmove, by rw [hlen, List.length_set], ?_⟩
      intro k
      rw [hentry, entryAt_set _ _ hj, entryAt_set _ _ hj]
      by_cases hkj : k = j
      · subst hkj
        rw [if_neg (by omega), if_pos rfl, if_pos (by omega)]
      · rw [if_neg hkj]
        by_cases hk : j + 1 ≤ k ∧ k < n - 1
        · have hk1 : k + 1 ≠ j := by omega
          have hk2 : j ≤ k ∧ k < n - 1 := by omega
          rw [if_pos hk, if_neg hk1, if_pos hk2]
        · have hk2 : ¬ (j ≤ k ∧ k < n - 1) := by omega
          rw [if_neg hk, if_neg hk2]
    · rw [if_neg hlt]
      refine ⟨m, rfl, rfl, ?_⟩
      intro k
      rw [if_neg (by omega)]

theorem skipLoop_spec (hn : n < m.length) (hs : s < n)
    (hfresh : ∀ k, k < n → (entryAt m k).address ≠ address)
    (hbelow : ∀ k, k < s → (entryAt m k).address < address)
    (habove : ∀ k, s < k → k < n → address < (entryAt m k).address) :
    ∃ s', s' ≤ n ∧ skipLoop m n address (n + 1) s = some s' ∧
      (∀ k, k < s' → (entryAt m k).address < address) ∧
      ∀ k, s' ≤ k → k < n → address < (entryAt m k).address := by
  have hround : ∀ fuel k, k < m.length → skipLoop m n address (fuel + 1) k =
      if (entryAt m k).address < address ∧ k < n then skipLoop m n address fuel (k + 1)
      else some k := by
    intro fuel k hk
    rw [skipLoop, getElem?_eq_entryAt hk]
    rfl
  rw [hround n s (by omega)]
  by_cases hless : (entryAt m s).address < address
  · rw [if_pos ⟨hless, hs⟩]
    obtain ⟨fuel, rfl⟩ : ∃ fuel, n = fuel + 1 := ⟨n - 1, by omega⟩
    have hstop : ¬ ((entryAt m (s + 1)).address < address ∧ s + 1 < fuel + 1) := by
      rintro ⟨hlt, hin⟩
      exact absurd (habove (s + 1) (by omega) hin) (by omega)
    refine ⟨s + 1, hs, by rw [hround fuel (s + 1) (by omega), if_neg hstop], ?_, ?_⟩
    · intro k hk
      by_cases hks : k = s
      · rw [hks]
        exact hless
      · exact hbelow k (by omega)
    · intro k hk hkn
      exact habove k (by omega) hkn
  · rw [if_neg (fun h => hless h.1)]
    refine ⟨s, Nat.le_of_lt hs, rfl, hbelow, ?_⟩
    intro k hk hkn
    by_cases hks : k = s
    · have hne := hfresh s hs
      rw [hks]
      omega
    · exact habove k (by omega) hkn

/-! ## The list as a finite map -/

def Holds (l : AddressList) (address data : Nat) : Prop :=
  ∃ k, k < l.size ∧ entryAt l.memory k = ⟨address, data⟩

/-- The block has the first capacity of the list, and its entries ascend. -/
structure WellFormed (l : AddressList) : Prop where
  capacity : l.capacity = 32
  length : l.memory.length = 32
  size : l.size ≤ 32
  ascending : Ascending l.memory l.size

variable {l : AddressList} {data : Nat}

theorem wellFormed_create : create.WellFormed where
  capacity := rfl
  length := rfl
  size := Nat.zero_le _
  ascending _ _ _ hj := absurd hj (Nat.not_lt_zero _)

theorem not_holds_create : ¬ create.Holds address data := by
  rintro ⟨k, hk, -⟩
  exact Nat.not_lt_zero k hk

theorem address_ne_of_not_holds (h : ∀ data, ¬ l.Holds address data) {k : Nat} (hk : k < l.size) :
    (entryAt l.memory k).address ≠ address := by
  rintro rfl
  exact h (entryAt l.memory k).data ⟨k, hk, rfl⟩

theorem Ascending.inj (hm : Ascending m n) {j : Nat} (hi : i < n) (hj : j < n)
    (h : (entryAt m i).address = (entryAt m j).address) : i = j := by
  rcases Nat.lt_trichotomy i j with hlt | heq | hgt
  · exact absurd h (Nat.ne_of_lt (hm i j hlt hj))
  · exact heq
  · exact absurd h (Nat.ne_of_gt (hm j i hgt hi))

theorem search_spec (address : Nat) (hl : l.WellFormed) :
    (∃ i, i < l.size ∧ (entryAt l.memory i).address = address ∧
        l.search address = some (some i)) ∨
      ((∀ data, ¬ l.Holds address data) ∧ l.search address = some none) := by
  have hn : l.size ≤ l.memory.length := by rw [hl.length]; exact hl.size
  rcases searchLoop_spec address hl.ascending hn l.size 0 l.size (by omega)
    (Nat.le_refl _) (fun k hk => absurd hk (Nat.not_lt_zero k)) (fun k hk hk' => by omega) with
    ⟨i, hi, hfound, hsearch⟩ | ⟨hnone, hsearch⟩
  · exact .inl ⟨i, hi, hfound, hsearch⟩
  · refine .inr ⟨?_, hsearch⟩
    rintro data ⟨k, hk, hentry⟩
    exact hnone k hk (congrArg AddressListEntry.address hentry)

theorem find_of_holds (hl : l.WellFormed) (h : l.Holds address data) :
    l.find address = some (some data) := by
  obtain ⟨k, hk, hentry⟩ := h
  rcases search_spec address hl with ⟨i, hi, hfound, hsearch⟩ | ⟨hnone, -⟩
  · have hik : i = k := by
      apply hl.ascending.inj hi hk
      rw [hfound, hentry]
    have hlen : i < l.memory.length := by rw [hl.length]; have := hl.size; omega
    rw [find, hsearch]
    simp only [Option.bind_eq_bind, Option.bind_some, getElem?_eq_entryAt hlen]
    rw [hik, hentry]
    rfl
  · exact absurd ⟨k, hk, hentry⟩ (hnone data)

theorem find_of_not_holds (hl : l.WellFormed) (h : ∀ data, ¬ l.Holds address data) :
    l.find address = some none := by
  rcases search_spec address hl with ⟨i, hi, hfound, -⟩ | ⟨-, hsearch⟩
  · exact absurd hfound (address_ne_of_not_holds h hi)
  · rw [find, hsearch]
    rfl

theorem ascending_insert (hm : Ascending m n) {e : AddressListEntry} (hs : s ≤ n)
    (hbelow : ∀ k, k < s → (entryAt m k).address < e.address)
    (habove : ∀ k, s ≤ k → k < n → e.address < (entryAt m k).address)
    (hm' : ∀ k, entryAt m' k =
      if k = s then e else if s < k ∧ k ≤ n then entryAt m (k - 1) else entryAt m k) :
    Ascending m' (n + 1) := by
  intro i j hij hj
  rw [hm' i, hm' j]
  by_cases hjs : j = s
  · rw [if_pos hjs, if_neg (by omega), if_neg (by omega)]
    exact hbelow i (by omega)
  · rw [if_neg hjs]
    by_cases his : i = s
    · rw [if_pos his, if_pos (by omega)]
      exact habove (j - 1) (by omega) (by omega)
    · rw [if_neg his]
      by_cases hjs' : s < j
      · have hj' : s < j ∧ j ≤ n := by omega
        rw [if_pos hj']
        by_cases his' : s < i
        · have hi' : s < i ∧ i ≤ n := by omega
          rw [if_pos hi']
          exact hm (i - 1) (j - 1) (by omega) (by omega)
        · have hi' : ¬ (s < i ∧ i ≤ n) := by omega
          rw [if_neg hi']
          exact hm i (j - 1) (by omega) (by omega)
      · have hj' : ¬ (s < j ∧ j ≤ n) := by omega
        have hi' : ¬ (s < i ∧ i ≤ n) := by omega
        rw [if_neg hj', if_neg hi']
        exact hm i j hij (by omega)

theorem findclosestIndex_spec (hl : l.WellFormed) (hsize : l.size ≠ 0)
    (hfresh : ∀ data, ¬ l.Holds address data) :
    ∃ s, s < l.size ∧ l.findclosestIndex address = some s ∧
      (∀ k, k < s → (entryAt l.memory k).address < address) ∧
      ∀ k, s < k → k < l.size → address < (entryAt l.memory k).address := by
  have hn : l.size ≤ l.memory.length := by rw [hl.length]; exact hl.size
  exact closestLoop_spec hl.ascending hn l.size 0 (l.size - 1) (by omega) (Nat.zero_le _)
    (by omega) (fun k hk => address_ne_of_not_holds hfresh hk)
    (fun k hk => absurd hk (Nat.not_lt_zero k)) (fun k hk hk' => by omega)

theorem holds_insert {l' : AddressList} {e : AddressListEntry} (hs : s ≤ l.size)
    (hsize : l'.size = l.size + 1)
    (hm' : ∀ k, entryAt l'.memory k = if k = s then e
      else if s < k ∧ k ≤ l.size then entryAt l.memory (k - 1) else entryAt l.memory k) :
    l'.Holds address data ↔ (address = e.address ∧ data = e.data) ∨ l.Holds address data := by
  constructor
  · rintro ⟨k, hk, hentry⟩
    rw [hm'] at hentry
    split at hentry
    · rw [hentry]
      exact .inl ⟨rfl, rfl⟩
    · split at hentry
      · next hks => exact .inr ⟨k - 1, by omega, hentry⟩
      · next hne hks => exact .inr ⟨k, by omega, hentry⟩
  · rintro (⟨rfl, rfl⟩ | ⟨k, hk, hentry⟩)
    · refine ⟨s, by omega, ?_⟩
      rw [hm', if_pos rfl]
    · by_cases hks : k < s
      · have hout : ¬ (s < k ∧ k ≤ l.size) := by omega
        refine ⟨k, by omega, ?_⟩
        rw [hm', if_neg (Nat.ne_of_lt hks), if_neg hout]
        exact hentry
      · have hin : s < k + 1 ∧ k + 1 ≤ l.size := by omega
        refine ⟨k + 1, by omega, ?_⟩
        rw [hm', if_neg (by omega), if_pos hin, Nat.add_sub_cancel]
        exact hentry

theorem add_spec (data : Nat) (hl : l.WellFormed) (hroom : l.size < 32)
    (hfresh : ∀ data, ¬ l.Holds address data) :
    ∃ l', l.add address data = some l' ∧ l'.WellFormed ∧ l'.size = l.size + 1 ∧
      ∀ a d, l'.Holds a d ↔ (a = address ∧ d = data) ∨ l.Holds a d := by
  have hcap : ¬ l.capacity ≤ l.size := by rw [hl.capacity]; omega
  have hlen := hl.length
  by_cases hzero : l.size = 0
  · have hm' : ∀ k, entryAt (l.memory.set 0 ⟨address, data⟩) k = if k = 0 then ⟨address, data⟩
        else if 0 < k ∧ k ≤ l.size then entryAt l.memory (k - 1) else entryAt l.memory k := by
      intro k
      have hout : ¬ (0 < k ∧ k ≤ l.size) := by omega
      rw [entryAt_set _ _ (by omega), if_neg hout]
    refine ⟨⟨l.memory.set 0 ⟨address, data⟩, l.size + 1, l.capacity⟩, ?_, ⟨hl.capacity, ?_, hroom,
      ascending_insert hl.ascending (Nat.zero_le _) ?_ ?_ hm'⟩, rfl, ?_⟩
    · have hpos : 0 < l.memory.length := by omega
      simp only [add, if_pos hzero, if_neg hcap, write_eq ⟨address, data⟩ hpos]
      rfl
    · rw [List.length_set, hlen]
    · intro k hk
      exact absurd hk (Nat.not_lt_zero k)
    · intro k _ hk
      omega
    · intro a d
      exact holds_insert (l := l) (e := ⟨address, data⟩) (Nat.zero_le _) rfl hm'
  · obtain ⟨s, hs, hclosest, hbelow, habove⟩ := findclosestIndex_spec hl hzero hfresh
    have hne := fun k hk => address_ne_of_not_holds (k := k) hfresh hk
    obtain ⟨s', hs', hskip, hbelow', habove'⟩ :=
      skipLoop_spec (by omega) hs hne hbelow habove
    obtain ⟨m, hmove, hmlen, hm⟩ := moveRight_spec hs' (by omega : l.size < l.memory.length)
    have hm' : ∀ k, entryAt (m.set s' ⟨address, data⟩) k = if k = s' then ⟨address, data⟩
        else if s' < k ∧ k ≤ l.size then entryAt l.memory (k - 1) else entryAt l.memory k := by
      intro k
      rw [entryAt_set _ _ (by omega), hm]
    refine ⟨⟨m.set s' ⟨address, data⟩, l.size + 1, l.capacity⟩, ?_, ⟨hl.capacity, ?_, hroom,
      ascending_insert hl.ascending hs' hbelow' habove' hm'⟩, rfl, ?_⟩
    · have hread : l.memory[s]? = some (entryAt l.memory s) := getElem?_eq_entryAt (by omega)
      simp [add, if_neg hcap, hzero, hclosest, hread, hne s hs, hskip, hmove,
        write_eq ⟨address, data⟩ (by omega : s' < m.length)]
    · rw [List.length_set, hmlen, hlen]
    · intro a d
      exact holds_insert (e := ⟨address, data⟩) hs' rfl hm'

/-- What was read is inside the block, so the place is at most one behind. -/
theorem skipLoop_le (fuel : Nat) {s' : Nat} (h : skipLoop m n address fuel s = some s') :
    s' ≤ max s m.length := by
  induction fuel generalizing s with
  | zero =>
    rw [← Option.some.inj h]
    exact Nat.le_max_left ..
  | succ fuel ih =>
    rw [skipLoop, Option.bind_eq_bind, Option.bind_eq_some_iff] at h
    obtain ⟨v, hv, hrest⟩ := h
    have hlt : s < m.length := (List.getElem?_eq_some_iff.1 hv).1
    split at hrest
    · have hle := ih hrest
      omega
    · rw [← Option.some.inj hrest]
      exact Nat.le_max_left ..

theorem add_full (data : Nat) (hl : l.WellFormed) (hfull : l.size = 32)
    (hfresh : ∀ data, ¬ l.Holds address data) : l.add address data = none := by
  have hcap : l.capacity ≤ l.size := Nat.le_of_eq (hl.capacity.trans hfull.symm)
  have hsize : l.size ≠ 0 := by omega
  obtain ⟨s, hs, hclosest, -, -⟩ := findclosestIndex_spec hl hsize hfresh
  have hlen : (realloc l.memory (l.size + 32)).length = 4 := by
    simp [realloc, hl.length, hfull]
  simp only [add, if_pos hcap, if_neg hsize, hclosest, Option.bind_eq_bind, Option.bind_some]
  rw [Option.bind_eq_none_iff]
  intro v hv
  have hs4 : s < 4 := by
    rw [← hlen]
    exact (List.getElem?_eq_some_iff.1 hv).1
  split
  · rfl
  rw [Option.bind_eq_none_iff]
  intro s' hskip
  have hs' := skipLoop_le _ hskip
  rw [hlen] at hs'
  -- the moves start at index 32
  have hmove : moveRight s' l.size (realloc l.memory (l.size + 32)) = none := by
    generalize realloc l.memory (l.size + 32) = m at hlen
    rw [hfull]
    exact moveRight_outside (by omega) (by omega)
  rw [hmove]
  rfl

theorem remove_spec (hl : l.WellFormed) (address : Nat) :
    ∃ l', l.remove address = some l' ∧ l'.WellFormed ∧
      (∀ a d, l'.Holds a d ↔ a ≠ address ∧ l.Holds a d) ∧
      ((∀ data, ¬ l.Holds address data) → l' = l) ∧
      (∀ data, l.Holds address data → l'.size + 1 = l.size) := by
  have hlen := hl.length
  have hsize := hl.size
  rcases search_spec address hl with ⟨i, hi, hfound, hsearch⟩ | ⟨hnone, hsearch⟩
  · obtain ⟨m, hmove, hmlen, hm⟩ :=
      moveLeft_spec (m := l.memory) (n := l.size) l.size i (by omega) (by omega)
    -- the entry at `k` comes from `k`, or from one further
    have hfrom : ∀ k, k < l.size - 1 → ∃ k', k' < l.size ∧ k' ≠ i ∧
        entryAt m k = entryAt l.memory k' ∧ (k' = k ∧ k < i ∨ k' = k + 1 ∧ i ≤ k) := by
      intro k hk
      rw [hm]
      by_cases hik : i ≤ k
      · exact ⟨k + 1, by omega, by omega, by rw [if_pos ⟨hik, hk⟩], .inr ⟨rfl, hik⟩⟩
      · exact ⟨k, by omega, by omega, by rw [if_neg (fun h => hik h.1)], .inl ⟨rfl, by omega⟩⟩
    refine ⟨{ l with memory := m, size := l.size - 1 }, ?_, ⟨hl.capacity, by rw [hmlen, hlen], ?_,
      ?_⟩, ?_, ?_, ?_⟩
    · simp only [remove, hsearch, Option.bind_eq_bind, Option.bind_some, hmove]
      rfl
    · show l.size - 1 ≤ 32
      omega
    · intro a b hab hb
      have hb' : b < l.size - 1 := hb
      obtain ⟨a', ha', -, hea, hca⟩ := hfrom a (by omega)
      obtain ⟨b', hb'', -, heb, hcb⟩ := hfrom b hb'
      show (entryAt m a).address < (entryAt m b).address
      rw [hea, heb]
      exact hl.ascending a' b' (by omega) hb''
    · intro a d
      constructor
      · rintro ⟨k, hk, hentry⟩
        obtain ⟨k', hk', hne, hek, -⟩ := hfrom k hk
        have hentry' : entryAt l.memory k' = ⟨a, d⟩ := hek.symm.trans hentry
        refine ⟨?_, k', hk', hentry'⟩
        rintro rfl
        apply hne
        apply hl.ascending.inj hk' hi
        rw [hfound, hentry']
      · rintro ⟨hne, k, hk, hentry⟩
        have hki : k ≠ i := by
          rintro rfl
          rw [hentry] at hfound
          exact hne hfound
        by_cases hlt : k < i
        · refine ⟨k, show k < l.size - 1 by omega, ?_⟩
          show entryAt m k = _
          have hout : ¬ (i ≤ k ∧ k < l.size - 1) := by omega
          rw [hm, if_neg hout]
          exact hentry
        · refine ⟨k - 1, show k - 1 < l.size - 1 by omega, ?_⟩
          show entryAt m (k - 1) = _
          have hin : i ≤ k - 1 ∧ k - 1 < l.size - 1 := by omega
          rw [hm, if_pos hin, Nat.sub_add_cancel (by omega)]
          exact hentry
    · intro h
      exact absurd hfound (address_ne_of_not_holds h hi)
    · intro data _
      show l.size - 1 + 1 = l.size
      omega
  · refine ⟨l, ?_, hl, ?_, fun _ => rfl, ?_⟩
    · rw [remove, hsearch]
      rfl
    · intro a d
      constructor
      · intro h
        refine ⟨?_, h⟩
        rintro rfl
        exact hnone d h
      · exact fun h => h.2
    · intro data h
      exact absurd h (hnone data)

end AddressList

end CheatEngine.Dbvm
