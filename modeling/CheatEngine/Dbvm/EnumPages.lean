/-
  CheatEngine.Dbvm.EnumPages

  DBVM's own page tables, and `mmEnumAllPageEntries` (mm.c), which goes through all of
  them.  The tables map themselves, so that the entries of one level form one array
  (`pagedirptrtables`, `pagedirtables`, `pagetables`): the index of an entry is the
  virtual address from the bits of its level on.
-/
import Mathlib.Algebra.Group.Nat.Defs
import Mathlib.Data.List.Basic
import Mathlib.Data.Nat.Bitwise

namespace CheatEngine.Dbvm

/-- An entry of a page directory or a page table; `page` is its part in
    `MAXPHYADDRMASKPB` as a page number.  A page table has no `PS` bit. -/
structure DbvmEntry where
  P : Bool
  PS : Bool
  page : Nat

/-- The arrays of entries, and the pages of memory DBVM was given.  Entries of the
    upper two levels are only looked at for `P`. -/
structure DbvmTables where
  pml4table : Nat → Bool
  pagedirptrtables : Nat → Bool
  pagedirtables : Nat → DbvmEntry
  pagetables : Nat → DbvmEntry
  PhysicalPageListSize : Nat
  size_lt : PhysicalPageListSize < 2 ^ 19

/-- What the callback of an enumeration gets. -/
structure EnumEntry where
  VirtualAddress : Nat
  PhysicalAddress : Nat
  size : Nat
  deriving DecidableEq, Repr

def BASE_VIRTUAL_ADDRESS : Nat := 0x1000000000

def indexesToVirtualAddress (pml4index pagedirptrindex pagedirindex pagetableindex : Nat) : Nat :=
  pml4index <<< 39 ||| pagedirptrindex <<< 30 ||| pagedirindex <<< 21 ||| pagetableindex <<< 12

def canonical (VirtualAddress : Nat) : Nat :=
  if VirtualAddress &&& 2 ^ 47 ≠ 0 then VirtualAddress ||| 0xffff000000000000 else VirtualAddress

namespace DbvmTables

variable (T : DbvmTables)

def lastAddedPhysicalMemory : Nat := BASE_VIRTUAL_ADDRESS + 4096 * T.PhysicalPageListSize

/-- An entry is reported with `selfonly` only for DBVM's own addresses. -/
def report (selfonly : Bool) (e : EnumEntry) : List EnumEntry :=
  if selfonly = false ∨ 0x00400000 ≤ e.VirtualAddress ∧
      e.VirtualAddress < T.lastAddedPhysicalMemory then [e] else []

/-- The loop over the page table of a page directory entry. -/
def enumPagetable (selfonly : Bool) (pml4index pagedirptrindex pagedirindex : Nat) :
    List EnumEntry :=
  (List.range' (pagedirindex <<< 9) 512).flatMap fun pagetableindex =>
    if (T.pagetables pagetableindex).P then
      T.report selfonly ⟨canonical (indexesToVirtualAddress pml4index pagedirptrindex pagedirindex
        pagetableindex), (T.pagetables pagetableindex).page * 4096, 4096⟩
    else []

/-- `mmEnumAllPageEntries`: what the callback is called with, in order. -/
def mmEnumAllPageEntries (selfonly : Bool) : List EnumEntry :=
  (List.range 512).flatMap fun pml4index =>
    if T.pml4table pml4index then
      (List.range' (pml4index <<< 9) 512).flatMap fun pagedirptrindex =>
        if T.pagedirptrtables pagedirptrindex then
          (List.range' (pagedirptrindex <<< 9) 512).flatMap fun pagedirindex =>
            if (T.pagedirtables pagedirindex).P then
              if (T.pagedirtables pagedirindex).PS then
                T.report selfonly ⟨canonical (indexesToVirtualAddress pml4index pagedirptrindex
                  pagedirindex 0), (T.pagedirtables pagedirindex).page * 4096, 2 * 1024 * 1024⟩
              else T.enumPagetable selfonly pml4index pagedirptrindex pagedirindex
            else []
        else []
    else []

/-- The entry that maps a page of virtual memory: whether it maps 2 MB, and its page
    field. -/
def entryOf (v : Nat) : Option (Bool × Nat) :=
  if T.pml4table (v / 2 ^ 27) ∧ T.pagedirptrtables (v / 2 ^ 18) ∧
      (T.pagedirtables (v / 2 ^ 9)).P then
    if (T.pagedirtables (v / 2 ^ 9)).PS then some (true, (T.pagedirtables (v / 2 ^ 9)).page)
    else if (T.pagetables v).P then some (false, (T.pagetables v).page)
    else none
  else none

/-- The physical page of a page of virtual memory. -/
def translate (v : Nat) : Option Nat :=
  (T.entryOf v).map fun e => if e.1 then e.2 / 512 * 512 + v % 512 else e.2

/-- A page of virtual memory in the range that is to be hidden. -/
def InRange (v : Nat) : Prop :=
  0x00400000 ≤ v * 4096 ∧ v * 4096 < T.lastAddedPhysicalMemory

/-- The physical page is behind a virtual address in the range. -/
def Backs (page : Nat) : Prop := ∃ v, T.InRange v ∧ T.translate v = some page

/-- The page is the page field of an entry in the range. -/
def Listed (page : Nat) : Prop :=
  ∃ v, T.InRange v ∧ (T.entryOf v = some (false, page) ∨
    v % 512 = 0 ∧ T.entryOf v = some (true, page))

end DbvmTables

/-! ## Index arithmetic -/

/-- The upper bits are in the lower index already. -/
theorem shiftLeft_or_shiftLeft {a b k : Nat} (h : b / 512 = a) :
    a <<< (k + 9) ||| b <<< k = b <<< k := by
  have hb : b = a <<< 9 ||| b % 512 := by
    rw [← Nat.shiftLeft_add_eq_or_of_lt (Nat.mod_lt b (by decide)), Nat.shiftLeft_eq, ← h]
    omega
  have hshift : a <<< (k + 9) = (a <<< 9) <<< k := by
    rw [Nat.add_comm, Nat.shiftLeft_add]
  rw [hb, hshift, Nat.shiftLeft_or_distrib, ← Nat.or_assoc, Nat.or_self]

theorem indexesToVirtualAddress_eq (v : Nat) :
    indexesToVirtualAddress (v / 2 ^ 27) (v / 2 ^ 18) (v / 2 ^ 9) v = v * 4096 := by
  have h₁ := shiftLeft_or_shiftLeft (k := 30) (a := v / 2 ^ 27) (b := v / 2 ^ 18) (by omega)
  have h₂ := shiftLeft_or_shiftLeft (k := 21) (a := v / 2 ^ 18) (b := v / 2 ^ 9) (by omega)
  have h₃ := shiftLeft_or_shiftLeft (k := 12) (a := v / 2 ^ 9) (b := v) (by omega)
  rw [indexesToVirtualAddress, h₁, h₂, h₃, Nat.shiftLeft_eq]

theorem indexesToVirtualAddress_big (d : Nat) :
    indexesToVirtualAddress (d / 2 ^ 18) (d / 2 ^ 9) d 0 = d * 512 * 4096 := by
  have h₁ := shiftLeft_or_shiftLeft (k := 30) (a := d / 2 ^ 18) (b := d / 2 ^ 9) (by omega)
  have h₂ := shiftLeft_or_shiftLeft (k := 21) (a := d / 2 ^ 9) (b := d) (by omega)
  rw [indexesToVirtualAddress, h₁, h₂, Nat.zero_shiftLeft, Nat.or_zero, Nat.shiftLeft_eq]
  omega

theorem canonical_of_lt {va : Nat} (h : va < 2 ^ 47) : canonical va = va := by
  have hbit : va &&& 2 ^ 47 = 0 := by
    rw [Nat.and_two_pow, Nat.testBit_lt_two_pow h]
    rfl
  exact if_neg (not_not.2 hbit)

theorem le_canonical (va : Nat) : va ≤ canonical va := by
  unfold canonical
  split
  · exact Nat.left_le_or
  · exact Nat.le_refl va

namespace DbvmTables

variable {T : DbvmTables}

theorem lastAddedPhysicalMemory_lt (T : DbvmTables) : T.lastAddedPhysicalMemory < 2 ^ 47 := by
  have h := T.size_lt
  unfold lastAddedPhysicalMemory BASE_VIRTUAL_ADDRESS
  omega

variable {v : Nat}

theorem InRange.lt (h : T.InRange v) : v < 2 ^ 35 := by
  have hlast := T.lastAddedPhysicalMemory_lt
  have hv := h.2
  omega

variable {e : EnumEntry}

/-- The addresses of DBVM are in the lower half, so that the upper bits do not matter. -/
theorem mem_report {PhysicalAddress size : Nat} :
    e ∈ T.report true ⟨canonical (v * 4096), PhysicalAddress, size⟩ ↔
      T.InRange v ∧ e = ⟨v * 4096, PhysicalAddress, size⟩ := by
  have hlast := T.lastAddedPhysicalMemory_lt
  by_cases hv : v * 4096 < 2 ^ 47
  · rw [canonical_of_lt hv]
    by_cases hrange : T.InRange v
    · have hreport : T.report true ⟨v * 4096, PhysicalAddress, size⟩ =
          [⟨v * 4096, PhysicalAddress, size⟩] := if_pos (Or.inr hrange)
      simp [hreport, hrange]
    · have hreport : T.report true ⟨v * 4096, PhysicalAddress, size⟩ = [] :=
        if_neg fun h => hrange (h.resolve_left (by decide))
      simp [hreport, hrange]
  · have hge := le_canonical (v * 4096)
    have hreport : T.report true ⟨canonical (v * 4096), PhysicalAddress, size⟩ = [] := by
      refine if_neg ?_
      rintro (h | ⟨-, h⟩)
      · cases h
      · simp only at h
        omega
    have hrange : ¬ T.InRange v := fun h => hv (Nat.lt_trans h.2 hlast)
    simp [hreport, hrange]

theorem mem_loop {n : Nat} {body : Nat → List EnumEntry} :
    e ∈ (List.range' (n <<< 9) 512).flatMap body ↔ ∃ i, i / 512 = n ∧ e ∈ body i := by
  simp only [List.mem_flatMap, List.mem_range'_1, Nat.shiftLeft_eq]
  constructor
  · rintro ⟨i, hi, he⟩
    exact ⟨i, by omega, he⟩
  · rintro ⟨i, hi, he⟩
    exact ⟨i, by omega, he⟩

theorem mem_ite {c : Bool} {l : List EnumEntry} :
    e ∈ (if c then l else []) ↔ c = true ∧ e ∈ l := by
  cases c with
  | true => simp
  | false => simp

theorem mem_enumPagetable {d : Nat} :
    e ∈ T.enumPagetable true (d / 2 ^ 18) (d / 2 ^ 9) d ↔
      ∃ v, v / 2 ^ 9 = d ∧ (T.pagetables v).P = true ∧ T.InRange v ∧
        e = ⟨v * 4096, (T.pagetables v).page * 4096, 4096⟩ := by
  simp only [enumPagetable, mem_loop, mem_ite]
  refine exists_congr fun v => and_congr_right fun hv => and_congr_right fun _ => ?_
  have h₁ : d / 2 ^ 18 = v / 2 ^ 27 := by omega
  have h₂ : d / 2 ^ 9 = v / 2 ^ 18 := by omega
  have h₃ : d = v / 2 ^ 9 := hv.symm
  rw [h₁, h₂, h₃, indexesToVirtualAddress_eq]
  exact mem_report

theorem entryOf_eq_some {page : Nat} {big : Bool} :
    T.entryOf v = some (big, page) ↔
      (T.pml4table (v / 2 ^ 27) = true ∧ T.pagedirptrtables (v / 2 ^ 18) = true ∧
        (T.pagedirtables (v / 2 ^ 9)).P = true) ∧
      (T.pagedirtables (v / 2 ^ 9)).PS = big ∧
      (if big then (T.pagedirtables (v / 2 ^ 9)).page = page
        else (T.pagetables v).P = true ∧ (T.pagetables v).page = page) := by
  unfold entryOf
  by_cases hup : T.pml4table (v / 2 ^ 27) = true ∧ T.pagedirptrtables (v / 2 ^ 18) = true ∧
      (T.pagedirtables (v / 2 ^ 9)).P = true
  · rw [if_pos hup, and_iff_right hup]
    cases hPS : (T.pagedirtables (v / 2 ^ 9)).PS with
    | true => cases big <;> simp
    | false => cases big <;> simp
  · rw [if_neg hup]
    exact iff_of_false (by simp) fun h => hup h.1

theorem mem_loops :
    e ∈ T.mmEnumAllPageEntries true ↔ ∃ d, d / 2 ^ 18 < 512 ∧
      (T.pml4table (d / 2 ^ 18) = true ∧ T.pagedirptrtables (d / 2 ^ 9) = true ∧
        (T.pagedirtables d).P = true) ∧
      e ∈ (if (T.pagedirtables d).PS then
        T.report true ⟨canonical (indexesToVirtualAddress (d / 2 ^ 18) (d / 2 ^ 9) d 0),
          (T.pagedirtables d).page * 4096, 2 * 1024 * 1024⟩
        else T.enumPagetable true (d / 2 ^ 18) (d / 2 ^ 9) d) := by
  rw [mmEnumAllPageEntries, List.mem_flatMap]
  simp only [List.mem_range, mem_ite, mem_loop]
  constructor
  · rintro ⟨i, hi, hP, j, rfl, hPj, d, rfl, hPd, he⟩
    have hdiv : d / 512 / 512 = d / 2 ^ 18 := by omega
    rw [hdiv] at hi hP he
    exact ⟨d, hi, ⟨hP, hPj, hPd⟩, he⟩
  · rintro ⟨d, hi, ⟨hP, hPj, hPd⟩, he⟩
    exact ⟨d / 2 ^ 18, hi, hP, d / 2 ^ 9, by omega, hPj, d, rfl, hPd, he⟩

theorem mem_mmEnumAllPageEntries :
    e ∈ T.mmEnumAllPageEntries true ↔ ∃ v page, T.InRange v ∧
      (T.entryOf v = some (false, page) ∧ e = ⟨v * 4096, page * 4096, 4096⟩ ∨
        v % 512 = 0 ∧ T.entryOf v = some (true, page) ∧
          e = ⟨v * 4096, page * 4096, 2 * 1024 * 1024⟩) := by
  rw [mem_loops]
  constructor
  · rintro ⟨d, -, hup, he⟩
    by_cases hPS : (T.pagedirtables d).PS = true
    · rw [if_pos hPS, indexesToVirtualAddress_big] at he
      obtain ⟨hrange, rfl⟩ := mem_report.1 he
      have h₁ : d * 512 / 2 ^ 27 = d / 2 ^ 18 := by omega
      have h₂ : d * 512 / 2 ^ 18 = d / 2 ^ 9 := by omega
      have h₃ : d * 512 / 2 ^ 9 = d := by omega
      refine ⟨d * 512, (T.pagedirtables d).page, hrange, Or.inr ⟨by omega, ?_, rfl⟩⟩
      rw [entryOf_eq_some, h₁, h₂, h₃]
      exact ⟨hup, hPS, rfl⟩
    · rw [if_neg hPS] at he
      obtain ⟨v, rfl, hPv, hrange, rfl⟩ := mem_enumPagetable.1 he
      have h₁ : v / 2 ^ 9 / 2 ^ 18 = v / 2 ^ 27 := by omega
      have h₂ : v / 2 ^ 9 / 2 ^ 9 = v / 2 ^ 18 := by omega
      rw [h₁, h₂] at hup
      refine ⟨v, (T.pagetables v).page, hrange, Or.inl ⟨?_, rfl⟩⟩
      rw [entryOf_eq_some]
      exact ⟨hup, by simpa using hPS, hPv, rfl⟩
  · rintro ⟨v, page, hrange, hentry⟩
    have hv := hrange.lt
    have h₁ : v / 2 ^ 27 = v / 2 ^ 9 / 2 ^ 18 := by omega
    have h₂ : v / 2 ^ 18 = v / 2 ^ 9 / 2 ^ 9 := by omega
    simp only [entryOf_eq_some, h₁, h₂] at hentry
    rcases hentry with ⟨⟨hup, hPS, hPv, rfl⟩, rfl⟩ | ⟨hfirst, ⟨hup, hPS, rfl⟩, rfl⟩
    · refine ⟨v / 2 ^ 9, by omega, hup, ?_⟩
      rw [hPS, if_neg (by decide), mem_enumPagetable]
      exact ⟨v, rfl, hPv, hrange, rfl⟩
    · have hback : v / 2 ^ 9 * 512 = v := by omega
      refine ⟨v / 2 ^ 9, by omega, hup, ?_⟩
      rw [if_pos hPS, indexesToVirtualAddress_big, hback, mem_report]
      exact ⟨hrange, rfl⟩

theorem listed_iff {page : Nat} :
    T.Listed page ↔ ∃ e ∈ T.mmEnumAllPageEntries true, e.PhysicalAddress / 4096 = page := by
  constructor
  · rintro ⟨v, hrange, h | ⟨hfirst, h⟩⟩
    · exact ⟨_, mem_mmEnumAllPageEntries.2 ⟨v, page, hrange, Or.inl ⟨h, rfl⟩⟩, by simp⟩
    · exact ⟨_, mem_mmEnumAllPageEntries.2 ⟨v, page, hrange, Or.inr ⟨hfirst, h, rfl⟩⟩, by simp⟩
  · rintro ⟨e, he, rfl⟩
    obtain ⟨v, page, hrange, h⟩ := mem_mmEnumAllPageEntries.1 he
    rcases h with ⟨h, rfl⟩ | ⟨hfirst, h, rfl⟩
    · exact ⟨v, hrange, Or.inl (by simpa using h)⟩
    · exact ⟨v, hrange, Or.inr ⟨hfirst, by simpa using h⟩⟩

end DbvmTables

end CheatEngine.Dbvm
