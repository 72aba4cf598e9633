/-
  CheatEngine.Dbvm.MemoryRanges

  `sanitizeMemoryRegions` (epthandler.c): the memory ranges that the MTRRs give are made
  free of overlaps.  Two ranges that overlap are taken apart into left, overlap and right;
  the outer parts are appended to the list that is being scanned, and the second range is
  deleted from it.  At the end the ranges of the default type are deleted and the list is
  sorted.  The prints are left out, and so is the growing of the array.
-/
import CheatEngine.Dbvm.EptTables
import CheatEngine.Lib.ExchangeSort
import CheatEngine.Lib.Loop
import CheatEngine.Lib.Overlay
import Mathlib.Algebra.GroupWithZero.Nat

namespace CheatEngine.Dbvm

open CheatEngine.Lib (TagInterval LeavesWith Visits exchangeSort loop)

/-! ## Memory types -/

def MTC_UC : Nat := 0
def MTC_WC : Nat := 1
def MTC_WT : Nat := 3
def MTC_WP : Nat := 5
def MTC_WB : Nat := 6

/-- "memory type cache rock paper scissors" -/
def MTC_RPS (mt1 mt2 : Nat) : Nat :=
  if mt1 = mt2 then mt1
  else if mt1 = MTC_UC ∨ mt2 = MTC_UC then MTC_UC
  else if (mt1 = MTC_WT ∧ mt2 = MTC_WB) ∨ (mt2 = MTC_WT ∧ mt1 = MTC_WB) then MTC_WT
  else if mt1 = MTC_WP ∨ mt2 = MTC_WP then MTC_WP
  else if mt1 = MTC_WB ∨ mt2 ≠ MTC_WB then mt2
  else min mt1 mt2

/-- Write-through: as the header has it, and as the registers have it. -/
def IsWriteThrough (wt : Nat) : Prop := wt = MTC_WT ∨ wt = 4

/-- The types that may meet: equal ones, UC with any, and WT with WB. -/
def Compatible (wt t u : Nat) : Prop :=
  t = u ∨ t = MTC_UC ∨ u = MTC_UC ∨ (t = wt ∧ u = MTC_WB) ∨ (t = MTC_WB ∧ u = wt)

instance (wt t u : Nat) : Decidable (Compatible wt t u) := inferInstanceAs (Decidable (_ ∨ _))

/-- The type wins where both meet, whichever of the two comes first: UC over every type, WP
    over every other one, and every type over WB. -/
def Wins (t u : Nat) : Prop :=
  t = u ∨ t = MTC_UC ∨ (t = MTC_WP ∧ u ≠ MTC_UC) ∨ (u = MTC_WB ∧ t ≤ MTC_WB)

section Wins

variable {wt t u v : Nat}

theorem Wins.refl (t : Nat) : Wins t t := .inl rfl

theorem Wins.trans (h : Wins t u) (h' : Wins u v) : Wins t v := by
  simp only [Wins, MTC_UC, MTC_WP, MTC_WB] at *
  omega

theorem Wins.antisymm (h : Wins t u) (h' : Wins u t) : t = u := by
  simp only [Wins, MTC_UC, MTC_WP, MTC_WB] at *
  omega

theorem Compatible.wins (hwt : IsWriteThrough wt) (h : Compatible wt t u) :
    Wins t u ∨ Wins u t := by
  simp only [IsWriteThrough, Compatible, Wins, MTC_UC, MTC_WT, MTC_WP, MTC_WB] at *
  omega

theorem MTC_RPS_of_wins (h : Wins t u) : MTC_RPS t u = t ∧ MTC_RPS u t = t := by
  simp only [Wins, MTC_UC, MTC_WP, MTC_WB] at h
  unfold MTC_RPS MTC_UC MTC_WT MTC_WP MTC_WB
  constructor
  · split_ifs <;> omega
  · split_ifs <;> omega

/-- The winner is the type that is taken. -/
theorem MTC_RPS_eq_left_iff : MTC_RPS t u = t ↔ Wins t u := by
  refine ⟨fun h => ?_, fun h => (MTC_RPS_of_wins h).1⟩
  unfold MTC_RPS MTC_UC MTC_WT MTC_WP MTC_WB at h
  unfold Wins MTC_UC MTC_WP MTC_WB
  split_ifs at h <;> omega

theorem MTC_RPS_wins (h : Wins t u ∨ Wins u t) :
    (MTC_RPS t u = t ∨ MTC_RPS t u = u) ∧ Wins (MTC_RPS t u) t ∧ Wins (MTC_RPS t u) u := by
  rcases h with h | h
  · rw [(MTC_RPS_of_wins h).1]
    exact ⟨.inl rfl, Wins.refl t, h⟩
  · rw [(MTC_RPS_of_wins h).2]
    exact ⟨.inr rfl, h, Wins.refl u⟩

end Wins

namespace MemRange

def stop (r : MemRange) : Nat := (r.startaddress + r.size + (2 ^ 64 - 1)) % 2 ^ 64

/-- `(starta <= stopb) && (startb <= stopa)` -/
def overlaps (a b : MemRange) : Bool := a.startaddress ≤ b.stop && b.startaddress ≤ a.stop

def left (a b : MemRange) : MemRange :=
  let newstart := min a.startaddress b.startaddress
  let newstop := max a.startaddress b.startaddress
  { startaddress := newstart
    size := newstop - newstart
    memtype := if a.startaddress < b.startaddress then a.memtype else b.memtype }

def right (a b : MemRange) : MemRange :=
  let newstart := (min a.stop b.stop + 1) % 2 ^ 64
  let newstop := (max a.stop b.stop + 1) % 2 ^ 64
  { startaddress := newstart
    size := (newstop + 2 ^ 64 - newstart) % 2 ^ 64
    memtype := if b.stop < a.stop then a.memtype else b.memtype }

def overlap (a b : MemRange) : MemRange :=
  let startaddress := ((left a b).startaddress + (left a b).size) % 2 ^ 64
  { startaddress
    size := ((right a b).startaddress + 2 ^ 64 - startaddress) % 2 ^ 64
    memtype := MTC_RPS a.memtype b.memtype }

end MemRange

def addToMemoryRanges (memoryranges : List MemRange) (r : MemRange) : List MemRange :=
  if r.size = 0 then memoryranges else memoryranges ++ [r]

/-- The list, the index of the outer loop, and the index of the inner loop while the
    program is in it. -/
structure Scan where
  memoryranges : List MemRange
  i : Nat
  j : Option Nat

namespace Scan

def start (memoryranges : List MemRange) : Scan := ⟨memoryranges, 0, none⟩

def split (memoryranges : List MemRange) (i j : Nat) (a b : MemRange) : List MemRange :=
  let memoryranges := addToMemoryRanges memoryranges (a.left b)
  let memoryranges := addToMemoryRanges memoryranges (a.right b)
  (memoryranges.set i (a.overlap b)).eraseIdx j

def turn (s : Scan) : Scan ⊕ List MemRange :=
  match s.j, s.memoryranges[s.i]? with
  | none, none => .inr s.memoryranges
  | none, some a =>
    if a.size = 0 then .inl { s with i := s.i + 1 }
    else if s.i > 100 then .inl s    -- "It's OVER 100!!!!!!", for ever
    else .inl { s with j := some (s.i + 1) }
  | some _, none => .inl { s with i := s.i + 1, j := none }
  | some j, some a =>
    match s.memoryranges[j]? with
    | none => .inl { s with i := s.i + 1, j := none }
    | some b =>
      if j = s.i ∨ b.size = 0 then .inl s    -- `continue` without `j++`
      else if j > 100 then .inl s
      else if a.overlaps b then
        .inl { s with memoryranges := split s.memoryranges s.i j a b }
      else .inl { s with j := some (j + 1) }

end Scan

/-- What follows the scan: "delete entries with the same type as the default", and
    "sort the list". -/
def dropAndSort (defType : Nat) (memoryranges : List MemRange) : List MemRange :=
  exchangeSort MemRange.startaddress (memoryranges.filter fun r => r.memtype ≠ defType)

/-- `sanitizeMemoryRegions`, given up after a number of turns. -/
def sanitizeMemoryRegions (turns defType : Nat) (memoryranges : List MemRange) :
    Option (List MemRange) :=
  (loop Scan.turn turns (Scan.start memoryranges)).map (dropAndSort defType)

example : sanitizeMemoryRegions 20 0
    [⟨0x100000, 0x300000, MTC_WB⟩, ⟨0x200000, 0x100000, MTC_UC⟩] =
      some [⟨0x100000, 0x100000, MTC_WB⟩, ⟨0x300000, 0x100000, MTC_WB⟩] := by
  decide

/-! ## What the lists say -/

def MemRange.Covers (r : MemRange) (address : Nat) : Prop :=
  r.startaddress ≤ address ∧ address < r.startaddress + r.size

def Covered (memoryranges : List MemRange) (address t : Nat) : Prop :=
  ∃ r ∈ memoryranges, r.Covers address ∧ r.memtype = t

/-- The combined type: UC if any is UC, WT if WT and WB meet, else the common type. -/
def CombinedType (wt : Nat) (memoryranges : List MemRange) (address t : Nat) : Prop :=
  (Covered memoryranges address MTC_UC ∧ t = MTC_UC) ∨
    (¬ Covered memoryranges address MTC_UC ∧ Covered memoryranges address wt ∧
      Covered memoryranges address MTC_WB ∧ t = wt) ∨
    (¬ Covered memoryranges address MTC_UC ∧
      ¬ (Covered memoryranges address wt ∧ Covered memoryranges address MTC_WB) ∧
      Covered memoryranges address t ∧ ∀ u, Covered memoryranges address u → u = t)

/-- No address lies in both. -/
def MemRange.Apart (a b : MemRange) : Prop := ∀ address, a.Covers address → ¬ b.Covers address

/-- A range that is not empty and does not wrap. -/
structure MemRange.Sound (r : MemRange) : Prop where
  pos : 0 < r.size
  size_lt : r.size < 2 ^ 64
  fits : r.startaddress + r.size ≤ 2 ^ 64

/-- The list that may be sanitized: overlapping ranges have types that may meet. -/
structure Sanitizable (wt : Nat) (memoryranges : List MemRange) : Prop where
  sound : ∀ r ∈ memoryranges, r.Sound
  compatible : ∀ a ∈ memoryranges, ∀ b ∈ memoryranges, ¬ a.Apart b →
    Compatible wt a.memtype b.memtype

/-- Where ranges overlap, the type of one wins. -/
structure Mergeable (memoryranges : List MemRange) : Prop where
  sound : ∀ r ∈ memoryranges, r.Sound
  wins : ∀ a ∈ memoryranges, ∀ b ∈ memoryranges, ¬ a.Apart b →
    Wins a.memtype b.memtype ∨ Wins b.memtype a.memtype

/-- The type that wins at an address. -/
def Winner (memoryranges : List MemRange) (address t : Nat) : Prop :=
  Covered memoryranges address t ∧ ∀ u, Covered memoryranges address u → Wins t u

/-- No more than 100 ranges arise. -/
def AtMost100 (memoryranges : List MemRange) : Prop :=
  ∀ s, Visits Scan.turn (Scan.start memoryranges) s → s.memoryranges.length ≤ 100

namespace MemRange

variable {a b r : MemRange} {l l' : List MemRange}

def interval (r : MemRange) : TagInterval Nat :=
  ⟨r.startaddress, r.startaddress + r.size, r.memtype⟩

theorem interval_injective : Function.Injective interval := by
  rintro ⟨s, n, t⟩ ⟨s', n', t'⟩ h
  simp only [interval, TagInterval.mk.injEq] at h
  obtain ⟨rfl, hsum, rfl⟩ := h
  rw [Nat.add_left_cancel hsum]

theorem covers_iff (r : MemRange) (x : Nat) : r.Covers x ↔ r.interval.Has x := Iff.rfl

theorem apart_iff (a b : MemRange) : a.Apart b ↔ a.interval.Disjoint b.interval := Iff.rfl

theorem Apart.symm (h : a.Apart b) : b.Apart a := fun x hb ha => h x ha hb

theorem Sound.proper (h : r.Sound) : r.interval.Proper := by
  have hpos := h.pos
  simp only [TagInterval.Proper, interval]
  omega

theorem covered_iff (l : List MemRange) (x t : Nat) :
    Covered l x t ↔ TagInterval.TagAt (l.map interval) x t := by
  simp only [Covered, TagInterval.TagAt, List.mem_map, exists_exists_and_eq_and]
  rfl

theorem Sound.stop_eq (h : r.Sound) : r.stop = r.startaddress + r.size - 1 := by
  have := h.pos
  have := h.fits
  simp only [stop]
  omega

/-- The comparison finds exactly the ranges that share an address. -/
theorem overlaps_iff (ha : a.Sound) (hb : b.Sound) : a.overlaps b = true ↔ ¬ a.Apart b := by
  rw [apart_iff, TagInterval.not_disjoint_iff ha.proper hb.proper]
  have hposa := ha.pos
  have hposb := hb.pos
  simp only [overlaps, ha.stop_eq, hb.stop_eq, interval, Bool.and_eq_true, decide_eq_true_eq]
  omega

theorem interval_left (a b : MemRange) : (a.left b).interval = a.interval.left b.interval := by
  simp only [interval, left, TagInterval.left, TagInterval.mk.injEq, true_and]
  exact ⟨by omega, rfl⟩

section Overlapping

variable (ha : a.Sound) (hb : b.Sound)
include ha hb

theorem overlap_bounds (hover : a.overlaps b = true) : a.startaddress < b.startaddress + b.size ∧
    b.startaddress < a.startaddress + a.size :=
  (TagInterval.not_disjoint_iff ha.proper hb.proper).1 ((overlaps_iff ha hb).1 hover)

/-- `minq(stopa,stopb)+1`, which wraps only at the end of the addresses. -/
theorem right_startaddress : (a.right b).startaddress =
    min (a.startaddress + a.size) (b.startaddress + b.size) % 2 ^ 64 := by
  have hposa := ha.pos
  have hposb := hb.pos
  show (min a.stop b.stop + 1) % 2 ^ 64 = _
  rw [ha.stop_eq, hb.stop_eq]
  congr 1
  omega

theorem right_size : (a.right b).size =
    max (a.startaddress + a.size) (b.startaddress + b.size) -
      min (a.startaddress + a.size) (b.startaddress + b.size) := by
  have hposa := ha.pos
  have hposb := hb.pos
  have hfita := ha.fits
  have hfitb := hb.fits
  show ((max a.stop b.stop + 1) % 2 ^ 64 + 2 ^ 64 - (a.right b).startaddress) % 2 ^ 64 = _
  have hlast : max a.stop b.stop + 1 =
      max (a.startaddress + a.size) (b.startaddress + b.size) := by
    rw [ha.stop_eq, hb.stop_eq]
    omega
  rw [right_startaddress ha hb, hlast]
  have horder : min (a.startaddress + a.size) (b.startaddress + b.size) ≤
      max (a.startaddress + a.size) (b.startaddress + b.size) := by omega
  have hfirst : 0 < min (a.startaddress + a.size) (b.startaddress + b.size) := by omega
  have hend : max (a.startaddress + a.size) (b.startaddress + b.size) ≤ 2 ^ 64 := by omega
  generalize max (a.startaddress + a.size) (b.startaddress + b.size) = last at *
  generalize min (a.startaddress + a.size) (b.startaddress + b.size) = first at *
  omega

theorem right_memtype : (a.right b).memtype =
    if b.startaddress + b.size < a.startaddress + a.size then a.memtype else b.memtype := by
  have hposa := ha.pos
  have hposb := hb.pos
  have hstop : b.stop < a.stop ↔ b.startaddress + b.size < a.startaddress + a.size := by
    rw [ha.stop_eq, hb.stop_eq]
    omega
  simp only [right, hstop]

theorem interval_right (h : (a.right b).size ≠ 0) :
    (a.right b).interval = a.interval.right b.interval := by
  have hfita := ha.fits
  have hfitb := hb.fits
  have hsize := right_size ha hb
  have hstart := right_startaddress ha hb
  -- a part that is not empty begins before the end of the addresses
  rw [Nat.mod_eq_of_lt (by omega)] at hstart
  simp only [interval, TagInterval.right, TagInterval.mk.injEq]
  exact ⟨hstart, by omega, right_memtype ha hb⟩

theorem interval_overlap (hover : a.overlaps b = true) :
    (a.overlap b).interval = a.interval.common b.interval (MTC_RPS a.memtype b.memtype) := by
  obtain ⟨hab, hba⟩ := overlap_bounds ha hb hover
  have hlta := ha.size_lt
  have hltb := hb.size_lt
  have hfita := ha.fits
  have hfitb := hb.fits
  have hstart : (a.overlap b).startaddress = max a.startaddress b.startaddress := by
    show (min a.startaddress b.startaddress +
      (max a.startaddress b.startaddress - min a.startaddress b.startaddress)) % 2 ^ 64 = _
    rw [Nat.add_sub_cancel' (by omega), Nat.mod_eq_of_lt (by omega)]
  have hsize : (a.overlap b).size =
      min (a.startaddress + a.size) (b.startaddress + b.size) -
        max a.startaddress b.startaddress := by
    show ((a.right b).startaddress + 2 ^ 64 - (a.overlap b).startaddress) % 2 ^ 64 = _
    rw [hstart, right_startaddress ha hb]
    have hmax : max a.startaddress b.startaddress <
        min (a.startaddress + a.size) (b.startaddress + b.size) := by
      have := ha.pos
      have := hb.pos
      omega
    have hmin : min (a.startaddress + a.size) (b.startaddress + b.size) ≤ 2 ^ 64 := by omega
    -- only a range of all addresses would get the size 0
    have hpos : 0 < max a.startaddress b.startaddress ∨
        min (a.startaddress + a.size) (b.startaddress + b.size) < 2 ^ 64 := by omega
    generalize max a.startaddress b.startaddress = first at *
    generalize min (a.startaddress + a.size) (b.startaddress + b.size) = last at *
    omega
  simp only [interval, TagInterval.common, TagInterval.mk.injEq]
  exact ⟨hstart, by omega, rfl⟩

theorem overlap_sound (hover : a.overlaps b = true) : (a.overlap b).Sound := by
  have hproper := TagInterval.common_proper (m := MTC_RPS a.memtype b.memtype) ha.proper hb.proper
    ((overlaps_iff ha hb).1 hover)
  have hparts := interval_overlap ha hb hover
  have hlta := ha.size_lt
  have hfita := ha.fits
  rw [← hparts] at hproper
  simp only [interval, TagInterval.common, TagInterval.Proper, TagInterval.mk.injEq]
    at hparts hproper
  exact ⟨by omega, by omega, by omega⟩

theorem left_sound (h : (a.left b).size ≠ 0) : (a.left b).Sound := by
  have hfita := ha.fits
  have hfitb := hb.fits
  have hposa := ha.pos
  have hposb := hb.pos
  simp only [left] at h
  exact ⟨by simp only [left]; omega, by simp only [left]; omega, by simp only [left]; omega⟩

theorem right_sound (h : (a.right b).size ≠ 0) : (a.right b).Sound := by
  have hfita := ha.fits
  have hfitb := hb.fits
  have hposa := ha.pos
  have hposb := hb.pos
  have hsize := right_size ha hb
  have hparts := interval_right ha hb h
  simp only [interval, TagInterval.right, TagInterval.mk.injEq] at hparts
  exact ⟨by omega, by omega, by omega⟩

end Overlapping

/-! ## Taking two ranges apart -/

def outer (a b : MemRange) : List MemRange := [a.left b, a.right b].filter fun r => r.size ≠ 0

theorem sum_filter_size (l : List MemRange) :
    ((l.filter fun r => r.size ≠ 0).map size).sum = (l.map size).sum := by
  induction l with
  | nil => rfl
  | cons r l ih =>
    rw [List.filter_cons, List.map_cons, List.sum_cons, ← ih]
    by_cases h : r.size = 0
    · rw [if_neg (by simp [h]), h, Nat.zero_add]
    · rw [if_pos (by simp [h]), List.map_cons, List.sum_cons]

theorem addToMemoryRanges_eq (l : List MemRange) (r : MemRange) :
    addToMemoryRanges l r = l ++ [r].filter fun r => r.size ≠ 0 := by
  unfold addToMemoryRanges
  by_cases h : r.size = 0
  · simp [h]
  · simp [h]

theorem split_eq (pre mid rest : List MemRange) (a b : MemRange) :
    Scan.split (pre ++ a :: (mid ++ b :: rest)) pre.length (pre.length + 1 + mid.length) a b =
      pre ++ a.overlap b :: (mid ++ (rest ++ outer a b)) := by
  have houter : addToMemoryRanges (addToMemoryRanges (pre ++ a :: (mid ++ b :: rest)) (a.left b))
      (a.right b) = pre ++ a :: (mid ++ b :: (rest ++ outer a b)) := by
    rw [addToMemoryRanges_eq, addToMemoryRanges_eq, List.append_assoc, ← List.filter_append]
    simp [outer]
  show ((addToMemoryRanges (addToMemoryRanges (pre ++ a :: (mid ++ b :: rest)) (a.left b))
    (a.right b)).set pre.length (a.overlap b)).eraseIdx (pre.length + 1 + mid.length) = _
  rw [houter, List.set_append_right _ _ (Nat.le_refl _), Nat.sub_self, List.set_cons_zero,
    List.eraseIdx_append_of_length_le (by omega),
    show pre.length + 1 + mid.length - pre.length = mid.length + 1 by omega,
    List.eraseIdx_cons_succ, List.eraseIdx_append_of_length_le (Nat.le_refl _), Nat.sub_self,
    List.eraseIdx_cons_zero]

section Overlapping

variable (ha : a.Sound) (hb : b.Sound) (hover : a.overlaps b = true)
include ha hb hover

theorem parts_eq : (a.overlap b :: outer a b).map interval =
    TagInterval.parts a.interval b.interval (MTC_RPS a.memtype b.memtype) := by
  have hleft : ((a.left b).size ≠ 0) ↔ (TagInterval.left a.interval b.interval).Proper := by
    rw [← interval_left]
    simp only [TagInterval.Proper, interval]
    omega
  have hright : ((a.right b).size ≠ 0) ↔ (TagInterval.right a.interval b.interval).Proper := by
    rw [right_size ha hb]
    simp only [TagInterval.Proper, interval, TagInterval.right]
    omega
  rw [List.map_cons, interval_overlap ha hb hover]
  unfold TagInterval.parts outer
  congr 1
  by_cases hl : (a.left b).size = 0
  · by_cases hr : (a.right b).size = 0
    · simp [hl, hr, ← hleft, ← hright]
    · simp [hl, hr, ← hleft, ← hright, interval_right ha hb hr]
  · by_cases hr : (a.right b).size = 0
    · simp [hl, hr, ← hleft, ← hright, interval_left]
    · simp [hl, hr, ← hleft, ← hright, interval_left, interval_right ha hb hr]

theorem part_sound (hr : r ∈ a.overlap b :: outer a b) : r.Sound := by
  rcases List.mem_cons.1 hr with rfl | hr
  · exact overlap_sound ha hb hover
  · obtain ⟨hmem, hsize⟩ := List.mem_filter.1 hr
    simp only [List.mem_cons, List.not_mem_nil, or_false, decide_eq_true_eq] at hmem hsize
    rcases hmem with rfl | rfl
    · exact left_sound ha hb hsize
    · exact right_sound ha hb hsize

theorem apart_of_part {c : MemRange} (hca : c.Apart a) (hcb : c.Apart b)
    (hr : r ∈ a.overlap b :: outer a b) : c.Apart r := by
  have hmem : r.interval ∈
      TagInterval.parts a.interval b.interval (MTC_RPS a.memtype b.memtype) := by
    rw [← parts_eq ha hb hover]
    exact List.mem_map_of_mem hr
  have hdisj : c.interval.Disjoint r.interval := TagInterval.disjoint_of_mem_parts ha.proper
    hb.proper ((overlaps_iff ha hb).1 hover) hca hcb hmem
  exact hdisj

theorem apart_overlap {c : MemRange} (hca : a.Apart c) : (a.overlap b).Apart c := by
  intro x hx
  refine hca x ?_
  rw [covers_iff, interval_overlap ha hb hover] at hx
  simp only [TagInterval.Has, TagInterval.common, interval] at hx
  show a.startaddress ≤ x ∧ x < a.startaddress + a.size
  omega

theorem sum_parts : ((a.overlap b :: outer a b).map size).sum < a.size + b.size := by
  have hsizes : ((outer a b).map size).sum = (a.left b).size + (a.right b).size :=
    (sum_filter_size [a.left b, a.right b]).trans (by rw [List.map_cons, List.map_cons,
      List.map_nil, List.sum_cons, List.sum_cons, List.sum_nil, Nat.add_zero])
  have hleft : (a.left b).size =
      max a.startaddress b.startaddress - min a.startaddress b.startaddress := rfl
  have hoverlap : (a.overlap b).interval.last = min (a.startaddress + a.size)
      (b.startaddress + b.size) := by
    rw [interval_overlap ha hb hover]
    rfl
  have hfirst : (a.overlap b).interval.first = max a.startaddress b.startaddress := by
    rw [interval_overlap ha hb hover]
    rfl
  have hsize : (a.overlap b).size =
      (a.overlap b).interval.last - (a.overlap b).interval.first := by
    generalize a.overlap b = c
    exact (Nat.add_sub_cancel_left _ _).symm
  obtain ⟨hab, hba⟩ := overlap_bounds ha hb hover
  have hposa := ha.pos
  have hposb := hb.pos
  rw [List.map_cons, List.sum_cons, hsizes, right_size ha hb, hleft, hsize, hoverlap, hfirst]
  omega

end Overlapping

end MemRange

namespace Scan

variable {l l' pre mid rest : List MemRange} {a b : MemRange} {s s' : Scan}

/-- The list says the same as the one that the scan began with. -/
structure Keeps (l l' : List MemRange) : Prop where
  sound : ∀ r ∈ l', r.Sound
  refines : TagInterval.Refines Wins (l'.map MemRange.interval) (l.map MemRange.interval)

/-- Where the scan is: the ranges before `i` overlap nothing any more, and the one at `i`
    overlaps nothing up to `j`. -/
inductive Inv (l : List MemRange) : Scan → Prop
  | outer (pre rest : List MemRange) : Keeps l (pre ++ rest) →
      pre.Pairwise MemRange.Apart → (∀ p ∈ pre, ∀ r ∈ rest, p.Apart r) →
      Inv l ⟨pre ++ rest, pre.length, none⟩
  | inner (pre : List MemRange) (a : MemRange) (mid rest : List MemRange) :
      Keeps l (pre ++ a :: (mid ++ rest)) → pre.Pairwise MemRange.Apart →
      (∀ p ∈ pre, ∀ r ∈ a :: (mid ++ rest), p.Apart r) → (∀ r ∈ mid, a.Apart r) →
      Inv l ⟨pre ++ a :: (mid ++ rest), pre.length, some (pre.length + 1 + mid.length)⟩

/-- What a turn takes something off: first of the sizes together, then of the way to go. -/
def measure (s : Scan) : Nat :=
  (s.memoryranges.map MemRange.size).sum * 100000 + (101 - s.i) * 200 +
    match s.j with
    | none => 150
    | some j => 120 - j

theorem Keeps.refl (h : Mergeable l) : Keeps l l :=
  ⟨h.sound, TagInterval.Refines.of_mem Wins.refl fun _ => Iff.rfl⟩

theorem comparable_of_mergeable (h : Mergeable l) :
    TagInterval.Comparable Wins (l.map MemRange.interval) := by
  intro x t u ht hu
  obtain ⟨a, ha, hax, rfl⟩ := (MemRange.covered_iff l x t).2 ht
  obtain ⟨b, hb, hbx, rfl⟩ := (MemRange.covered_iff l x u).2 hu
  exact h.wins a ha b hb fun hapart => hapart x hax hbx

theorem Keeps.wins (hl : Mergeable l) (h : Keeps l l') (ha : a ∈ l') (hb : b ∈ l')
    (hover : a.overlaps b = true) : Wins a.memtype b.memtype ∨ Wins b.memtype a.memtype := by
  have hmeet := (MemRange.overlaps_iff (h.sound a ha) (h.sound b hb)).1 hover
  have hcomp := h.refines.comparable (comparable_of_mergeable hl)
  obtain ⟨x, hx⟩ := not_forall.1 hmeet
  obtain ⟨hax, hbx⟩ := Classical.not_imp.1 hx
  exact hcomp x _ _ ((MemRange.covered_iff l' x _).1 ⟨a, ha, hax, rfl⟩)
    ((MemRange.covered_iff l' x _).1 ⟨b, hb, not_not.1 hbx, rfl⟩)

theorem Keeps.split (hl : Mergeable l)
    (h : Keeps l (pre ++ a :: (mid ++ b :: rest))) (hover : a.overlaps b = true) :
    Keeps l (pre ++ a.overlap b :: (mid ++ (rest ++ a.outer b))) := by
  have ha := h.sound a (by simp)
  have hb := h.sound b (by simp)
  have hmeet := (MemRange.overlaps_iff ha hb).1 hover
  obtain ⟨htag, hwa, hwb⟩ :=
    MTC_RPS_wins (h.wins hl (a := a) (b := b) (by simp) (by simp) hover)
  constructor
  · intro r hr
    by_cases hpart : r ∈ a.overlap b :: a.outer b
    · exact MemRange.part_sound ha hb hover hpart
    · refine h.sound r ?_
      simp only [List.mem_append, List.mem_cons] at hr hpart ⊢
      tauto
  · have hparts := TagInterval.parts_refines ha.proper hb.proper hmeet (Wins.refl) htag hwa hwb
      ((pre ++ (mid ++ rest)).map MemRange.interval)
    rw [← MemRange.parts_eq ha hb hover, ← List.map_append, ← List.map_cons,
      ← List.map_cons] at hparts
    -- the same ranges in another order
    have hnew : TagInterval.Refines Wins
        ((pre ++ a.overlap b :: (mid ++ (rest ++ a.outer b))).map MemRange.interval)
        ((a.overlap b :: a.outer b ++ (pre ++ (mid ++ rest))).map MemRange.interval) := by
      refine TagInterval.Refines.of_mem (Wins.refl) fun r => ?_
      simp only [List.mem_map, List.mem_append, List.mem_cons]
      refine exists_congr fun c => and_congr_left fun _ => ?_
      tauto
    have hold : TagInterval.Refines Wins
        ((a :: b :: (pre ++ (mid ++ rest))).map MemRange.interval)
        ((pre ++ a :: (mid ++ b :: rest)).map MemRange.interval) := by
      refine TagInterval.Refines.of_mem (Wins.refl) fun r => ?_
      simp only [List.mem_map, List.mem_append, List.mem_cons]
      refine exists_congr fun c => and_congr_left fun _ => ?_
      tauto
    have htrans : ∀ t u v, Wins t u → Wins u v → Wins t v := fun _ _ _ => Wins.trans
    exact ((hnew.trans htrans hparts).trans htrans hold).trans htrans h.refines

/-! ## One turn -/

theorem turn_outer_end (pre : List MemRange) :
    turn ⟨pre ++ [], pre.length, none⟩ = .inr pre := by
  simp [turn]

theorem turn_outer (ha : a.Sound) (h100 : pre.length ≤ 100) :
    turn ⟨pre ++ a :: rest, pre.length, none⟩ =
      .inl ⟨pre ++ a :: rest, pre.length, some (pre.length + 1)⟩ := by
  have hsize : a.size ≠ 0 := Nat.ne_of_gt ha.pos
  simp [turn, hsize, Nat.not_lt.2 h100]

theorem turn_inner_end (pre : List MemRange) (a : MemRange) (mid : List MemRange) :
    turn ⟨pre ++ a :: (mid ++ []), pre.length, some (pre.length + 1 + mid.length)⟩ =
      .inl ⟨pre ++ a :: (mid ++ []), pre.length + 1, none⟩ := by
  have hlast : (pre ++ a :: (mid ++ []))[pre.length + 1 + mid.length]? = none := by
    rw [List.getElem?_eq_none]
    simp
    omega
  have hfirst : (pre ++ a :: (mid ++ []))[pre.length]? = some a := by simp
  simp only [turn, hfirst, hlast]

theorem turn_inner (pre mid rest : List MemRange) (a : MemRange) (hb : b.Sound)
    (h100 : pre.length + 1 + mid.length ≤ 100) :
    turn ⟨pre ++ a :: (mid ++ b :: rest), pre.length, some (pre.length + 1 + mid.length)⟩ =
      if a.overlaps b then
        .inl ⟨pre ++ a.overlap b :: (mid ++ (rest ++ a.outer b)), pre.length,
          some (pre.length + 1 + mid.length)⟩
      else .inl ⟨pre ++ a :: (mid ++ b :: rest), pre.length,
        some (pre.length + 1 + mid.length + 1)⟩ := by
  have hfirst : (pre ++ a :: (mid ++ b :: rest))[pre.length]? = some a := by simp
  have hsecond : (pre ++ a :: (mid ++ b :: rest))[pre.length + 1 + mid.length]? = some b := by
    rw [List.getElem?_append_right (by omega),
      show pre.length + 1 + mid.length - pre.length = mid.length + 1 by omega,
      List.getElem?_cons_succ, List.getElem?_append_right (Nat.le_refl _), Nat.sub_self,
      List.getElem?_cons_zero]
  have hsize : ¬ (pre.length + 1 + mid.length = pre.length ∨ b.size = 0) := by
    have := hb.pos
    omega
  simp only [turn, hfirst, hsecond, if_neg hsize, gt_iff_lt, if_neg (Nat.not_lt.2 h100),
    MemRange.split_eq]

/-- What a turn does from a state of the invariant: it goes on to another one with a
    smaller measure, or the list is free of overlaps. -/
theorem turn_spec (hl : Mergeable l) (h : Inv l s) (h100 : s.memoryranges.length ≤ 100) :
    (∃ s', turn s = .inl s' ∧ Inv l s' ∧ s'.measure < s.measure) ∨
      ∃ l', turn s = .inr l' ∧ Keeps l l' ∧ l'.Pairwise MemRange.Apart := by
  cases h with
  | outer pre rest hkeeps hpre hrest =>
    cases rest with
    | nil =>
      rw [List.append_nil] at hkeeps
      exact .inr ⟨pre, turn_outer_end pre, hkeeps, hpre⟩
    | cons a rest =>
      have hlen : pre.length ≤ 100 := by
        simp only [List.length_append, List.length_cons] at h100
        omega
      refine .inl ⟨_, turn_outer (hkeeps.sound a (by simp)) hlen, ?_, ?_⟩
      · exact Inv.inner pre a [] rest hkeeps hpre hrest (by simp)
      · simp only [measure]
        omega
  | inner pre a mid rest hkeeps hpre hrest hmid =>
    have hlen : pre.length + 1 + mid.length + rest.length ≤ 100 := by
      simp only [List.length_append, List.length_cons] at h100
      omega
    cases rest with
    | nil =>
      refine .inl ⟨_, turn_inner_end pre a mid, ?_, ?_⟩
      · -- the range at `i` joins those that overlap nothing
        have hnext : Inv l ⟨pre ++ [a] ++ mid, (pre ++ [a]).length, none⟩ :=
          Inv.outer (pre ++ [a]) mid
          (by simpa using hkeeps)
          (List.pairwise_append.2 ⟨hpre, List.pairwise_singleton _ _, fun p hp r hr => by
            rw [List.mem_singleton.1 hr]
            exact hrest p hp a (by simp)⟩)
          (fun p hp r hr => by
            rcases List.mem_append.1 hp with hp | hp
            · exact hrest p hp r (by simp [hr])
            · rw [List.mem_singleton.1 hp]
              exact hmid r hr)
        simpa using hnext
      · simp only [measure]
        omega
    | cons b rest =>
      rw [List.length_cons] at hlen
      have ha := hkeeps.sound a (by simp)
      have hb := hkeeps.sound b (by simp)
      have hturn := turn_inner pre mid rest a hb (by omega)
      by_cases hover : a.overlaps b = true
      · rw [if_pos hover] at hturn
        refine .inl ⟨_, hturn, ?_, ?_⟩
        · refine Inv.inner pre (a.overlap b) mid (rest ++ a.outer b)
            (hkeeps.split hl hover) hpre ?_ ?_
          · intro p hp r hr
            by_cases hpart : r ∈ a.overlap b :: a.outer b
            · exact MemRange.apart_of_part ha hb hover (hrest p hp a (by simp))
                (hrest p hp b (by simp)) hpart
            · refine hrest p hp r ?_
              simp only [List.mem_cons, List.mem_append] at hr hpart ⊢
              tauto
          · exact fun r hr => MemRange.apart_overlap ha hb hover (hmid r hr)
        · -- the overlap was counted twice
          have hsum := MemRange.sum_parts ha hb hover
          simp only [measure, List.map_append, List.map_cons, List.sum_append,
            List.sum_cons] at hsum ⊢
          omega
      · rw [if_neg hover] at hturn
        refine .inl ⟨_, hturn, ?_, ?_⟩
        · have hnext : Inv l ⟨pre ++ a :: (mid ++ [b] ++ rest), pre.length,
              some (pre.length + 1 + (mid ++ [b]).length)⟩ :=
            Inv.inner pre a (mid ++ [b]) rest
            (by simpa using hkeeps) hpre (by simpa using hrest)
            (fun r hr => by
              rcases List.mem_append.1 hr with hr | hr
              · exact hmid r hr
              · rw [List.mem_singleton.1 hr]
                by_contra hmeet
                exact hover ((MemRange.overlaps_iff ha hb).2 hmeet))
          simpa [Nat.add_assoc] using hnext
        · simp only [measure]
          omega

/-- The whole scan. -/
theorem leaves (hl : Mergeable l) (h100 : AtMost100 l) :
    ∃ l', loop turn (measure (start l) + 1) (start l) = some l' ∧ Keeps l l' ∧
      l'.Pairwise MemRange.Apart := by
  have hstart : Inv l (start l) :=
    Inv.outer [] l (Keeps.refl hl) List.Pairwise.nil (by simp)
  refine Lib.loop_of_measure (I := fun s => Inv l s ∧ Visits turn (start l) s) measure ?_
    ⟨hstart, .start⟩
  rintro s ⟨hinv, hvisits⟩
  rcases turn_spec hl hinv (h100 s hvisits) with ⟨s', hgo, hinv', hless⟩ | hend
  · exact .inl ⟨s', hgo, ⟨hinv', hvisits.go hgo⟩, hless⟩
  · exact .inr hend

end Scan

/-! ## The result -/

section Result

variable {wt defType : Nat} {l l' l'' : List MemRange}

theorem leastTag_iff_winner (l : List MemRange) (address t : Nat) :
    TagInterval.LeastTag Wins (l.map MemRange.interval) address t ↔ Winner l address t := by
  simp only [TagInterval.LeastTag, ← MemRange.covered_iff]
  rfl

theorem Sanitizable.mergeable (hwt : IsWriteThrough wt) (h : Sanitizable wt l) : Mergeable l :=
  ⟨h.sound, fun a ha b hb hmeet => (h.compatible a ha b hb hmeet).wins hwt⟩

theorem winner_iff_combinedType (hwt : IsWriteThrough wt) (hl : Sanitizable wt l)
    (address t : Nat) : Winner l address t ↔ CombinedType wt l address t := by
  have hcomp : ∀ t u, Covered l address t → Covered l address u → Compatible wt t u := by
    rintro t u ⟨a, ha, hax, rfl⟩ ⟨b, hb, hbx, rfl⟩
    exact hl.compatible a ha b hb fun hapart => hapart address hax hbx
  have hne : wt ≠ MTC_WB ∧ wt ≠ MTC_UC ∧ MTC_UC ≠ MTC_WB := by
    simp only [IsWriteThrough, MTC_WT, MTC_WB, MTC_UC] at hwt ⊢
    omega
  -- a type that wins over one that it may meet is equal, UC, or WT against WB
  have hwins : ∀ t u, Covered l address t → Covered l address u → Wins t u →
      t = u ∨ t = MTC_UC ∨ (t = wt ∧ u = MTC_WB) := by
    intro t u ht hu h
    have hmay := hcomp t u ht hu
    simp only [IsWriteThrough, Compatible, Wins, MTC_UC, MTC_WT, MTC_WP, MTC_WB] at hwt hmay h ⊢
    omega
  constructor
  · rintro ⟨ht, hall⟩
    by_cases huc : Covered l address MTC_UC
    · rcases hwins t _ ht huc (hall _ huc) with h | h | ⟨-, h⟩
      · exact .inl ⟨huc, h⟩
      · exact .inl ⟨huc, h⟩
      · exact absurd h hne.2.2
    · by_cases hmeet : Covered l address wt ∧ Covered l address MTC_WB
      · rcases hwins t _ ht hmeet.1 (hall _ hmeet.1) with h | h | ⟨h, -⟩
        · exact .inr (.inl ⟨huc, hmeet.1, hmeet.2, h⟩)
        · exact absurd (h ▸ ht) huc
        · exact .inr (.inl ⟨huc, hmeet.1, hmeet.2, h⟩)
      · refine .inr (.inr ⟨huc, hmeet, ht, fun u hu => ?_⟩)
        rcases hwins t u ht hu (hall u hu) with h | h | ⟨rfl, rfl⟩
        · exact h.symm
        · exact absurd (h ▸ ht) huc
        · exact absurd ⟨ht, hu⟩ hmeet
  · rintro (⟨huc, rfl⟩ | ⟨huc, hwtc, hwb, rfl⟩ | ⟨-, -, ht, hall⟩)
    · exact ⟨huc, fun u _ => .inr (.inl rfl)⟩
    · refine ⟨hwtc, fun u hu => ?_⟩
      have hmay := hcomp t u hwtc hu
      have hnot : u ≠ MTC_UC := fun h => huc (h ▸ hu)
      simp only [IsWriteThrough, Compatible, Wins, MTC_UC, MTC_WT, MTC_WP,
        MTC_WB] at hwt hmay hnot ⊢
      omega
    · exact ⟨ht, fun u hu => .inl (hall u hu).symm⟩

theorem mem_iff_isPiece (hkeeps : Scan.Keeps l l') (hapart : l'.Pairwise MemRange.Apart)
    (r : MemRange) : r ∈ l' ↔ TagInterval.IsPiece Wins (l.map MemRange.interval) r.interval := by
  rw [← TagInterval.mem_iff_isPiece Wins.refl (fun _ _ _ => Wins.trans)
    (fun _ _ => Wins.antisymm) hkeeps.refines]
  · exact (List.mem_map_of_injective MemRange.interval_injective).symm
  · exact List.pairwise_map.2 hapart
  · intro i hi
    obtain ⟨c, hc, rfl⟩ := List.mem_map.1 hi
    exact (hkeeps.sound c hc).proper

theorem covered_iff_winner (hkeeps : Scan.Keeps l l') (hapart : l'.Pairwise MemRange.Apart)
    (address t : Nat) : Covered l' address t ↔ Winner l address t := by
  rw [← leastTag_iff_winner, MemRange.covered_iff]
  exact TagInterval.tagAt_iff_leastTag Wins.refl (fun _ _ _ => Wins.trans)
    (fun _ _ => Wins.antisymm) hkeeps.refines (List.pairwise_map.2 hapart) address t

theorem winner_of_covered (hkeeps : Scan.Keeps l l') (hapart : l'.Pairwise MemRange.Apart)
    {address u : Nat} (h : Covered l address u) : ∃ t, Winner l address t := by
  obtain ⟨t, -, ht⟩ := hkeeps.refines.below address u ((MemRange.covered_iff l address u).1 h)
  exact ⟨t, (covered_iff_winner hkeeps hapart address t).1
    ((MemRange.covered_iff l' address t).2 ht)⟩

theorem mem_dropAndSort {r : MemRange} :
    r ∈ dropAndSort defType l ↔ r ∈ l ∧ r.memtype ≠ defType := by
  unfold dropAndSort
  rw [(Lib.exchangeSort_perm _ _).mem_iff, List.mem_filter, decide_eq_true_eq]

theorem covered_dropAndSort (address t : Nat) :
    Covered (dropAndSort defType l) address t ↔ Covered l address t ∧ t ≠ defType := by
  constructor
  · rintro ⟨r, hr, hcov, rfl⟩
    obtain ⟨hr, hne⟩ := mem_dropAndSort.1 hr
    exact ⟨⟨r, hr, hcov, rfl⟩, hne⟩
  · rintro ⟨⟨r, hr, hcov, rfl⟩, hne⟩
    exact ⟨r, mem_dropAndSort.2 ⟨hr, hne⟩, hcov, rfl⟩

theorem apart_dropAndSort (defType : Nat) (h : l.Pairwise MemRange.Apart) :
    (dropAndSort defType l).Pairwise MemRange.Apart :=
  ((Lib.exchangeSort_perm _ _).pairwise_iff MemRange.Apart.symm).2 (h.filter _)

theorem sorted_dropAndSort (defType : Nat) (hsound : ∀ r ∈ l, r.Sound)
    (h : l.Pairwise MemRange.Apart) :
    (dropAndSort defType l).Pairwise fun a b => a.startaddress < b.startaddress := by
  have hsorted := Lib.exchangeSort_sorted MemRange.startaddress
    (l.filter fun r => r.memtype ≠ defType)
  refine (hsorted.and (apart_dropAndSort defType h)).imp_of_mem ?_
  rintro a b ha hb ⟨hle, hapart⟩
  have hposa := (hsound a (mem_dropAndSort.1 ha).1).pos
  have hposb := (hsound b (mem_dropAndSort.1 hb).1).pos
  refine Nat.lt_of_le_of_ne hle fun heq => hapart a.startaddress ?_ ?_
  · exact ⟨Nat.le_refl _, by omega⟩
  · exact ⟨by omega, by omega⟩

theorem dropAndSort_congr (hmem : ∀ r, r ∈ l' ↔ r ∈ l'') (hsound : ∀ r ∈ l', r.Sound)
    (h' : l'.Pairwise MemRange.Apart) (h'' : l''.Pairwise MemRange.Apart) :
    dropAndSort defType l' = dropAndSort defType l'' := by
  have hsorted' := sorted_dropAndSort defType hsound h'
  have hsorted'' := sorted_dropAndSort defType
    (fun r hr => hsound r ((hmem r).2 hr)) h''
  have hnodup : ∀ {m : List MemRange},
      (m.Pairwise fun a b => a.startaddress < b.startaddress) → m.Nodup := fun hm =>
    List.Pairwise.imp (fun {a b} hlt (heq : a = b) => Nat.ne_of_lt hlt (heq ▸ rfl)) hm
  refine List.Perm.eq_of_pairwise (fun a b _ _ hab hba => absurd (Nat.lt_trans hab hba)
    (Nat.lt_irrefl _)) hsorted' hsorted'' ?_
  refine (List.perm_ext_iff_of_nodup (hnodup hsorted') (hnodup hsorted'')).2 fun r => ?_
  rw [mem_dropAndSort, mem_dropAndSort, hmem]

end Result

def scanTurns (memoryranges : List MemRange) : Nat := (Scan.start memoryranges).measure + 1

/-- What `sanitizeMemoryRegions` makes of a list. -/
structure Sanitized (defType : Nat) (memoryranges result : List MemRange) : Prop where
  sorted : result.Pairwise fun a b => a.startaddress < b.startaddress
  apart : result.Pairwise MemRange.Apart
  sound : ∀ r ∈ result, r.Sound
  covered : ∀ address t, Covered result address t ↔ Winner memoryranges address t ∧ t ≠ defType
  winner : ∀ address u, Covered memoryranges address u → ∃ t, Winner memoryranges address t
  bounds : ∀ r ∈ result,
    TagInterval.IsBound (memoryranges.map MemRange.interval) r.startaddress ∧
      TagInterval.IsBound (memoryranges.map MemRange.interval) (r.startaddress + r.size)

theorem sanitize_mergeable (defType : Nat) {l : List MemRange} (h : Mergeable l)
    (h100 : AtMost100 l) :
    ∃ result, sanitizeMemoryRegions (scanTurns l) defType l = some result ∧
      Sanitized defType l result := by
  obtain ⟨l', hturns, hkeeps, hapart⟩ := Scan.leaves h h100
  refine ⟨dropAndSort defType l', ?_, ?_⟩
  · rw [sanitizeMemoryRegions, scanTurns, hturns]
    rfl
  · refine ⟨sorted_dropAndSort defType hkeeps.sound hapart, apart_dropAndSort defType hapart,
      fun r hr => hkeeps.sound r (mem_dropAndSort.1 hr).1, fun address t => ?_,
      fun address u => winner_of_covered hkeeps hapart, fun r hr => ?_⟩
    · rw [covered_dropAndSort, covered_iff_winner hkeeps hapart]
    · have hmem := List.mem_map_of_mem (f := MemRange.interval) (mem_dropAndSort.1 hr).1
      exact ⟨(hkeeps.refines.bounds _).1 ⟨_, hmem, .inl rfl⟩,
        (hkeeps.refines.bounds _).1 ⟨_, hmem, .inr rfl⟩⟩

theorem Mergeable.perm {l l' : List MemRange} (h : Mergeable l) (hperm : l'.Perm l) :
    Mergeable l' :=
  ⟨fun r hr => h.sound r (hperm.mem_iff.1 hr), fun a ha b hb =>
    h.wins a (hperm.mem_iff.1 ha) b (hperm.mem_iff.1 hb)⟩

theorem sanitize_perm (defType : Nat) {l l' : List MemRange} (h : Mergeable l)
    (h100 : AtMost100 l) (hperm : l'.Perm l) (h100' : AtMost100 l') :
    sanitizeMemoryRegions (scanTurns l') defType l' =
      sanitizeMemoryRegions (scanTurns l) defType l := by
  obtain ⟨m, hturns, hkeeps, hapart⟩ := Scan.leaves h h100
  obtain ⟨m', hturns', hkeeps', hapart'⟩ := Scan.leaves (h.perm hperm) h100'
  have hsame : ∀ r, r ∈ m' ↔ r ∈ m := by
    intro r
    rw [mem_iff_isPiece ⟨hkeeps'.sound, hkeeps'.refines.trans (fun _ _ _ => Wins.trans)
      (TagInterval.Refines.of_mem Wins.refl fun i => (hperm.map _).mem_iff)⟩ hapart',
      mem_iff_isPiece hkeeps hapart]
  rw [sanitizeMemoryRegions, sanitizeMemoryRegions, scanTurns, scanTurns, hturns, hturns',
    Option.map_some, Option.map_some, dropAndSort_congr hsame hkeeps'.sound hapart' hapart]

/-- `sanitizeMemoryRegions` ends with a list that is sorted, free of overlaps and covers an
    address with its combined type unless that is the default type; another order of the
    ranges gives the same list. -/
theorem sanitizeMemoryRegions_spec (wt defType : Nat) (hwt : IsWriteThrough wt)
    (memoryranges : List MemRange) (h : Sanitizable wt memoryranges)
    (h100 : AtMost100 memoryranges) :
    ∃ result, (∃ turns, sanitizeMemoryRegions turns defType memoryranges = some result) ∧
      (result.Pairwise fun a b => a.startaddress < b.startaddress) ∧
      result.Pairwise MemRange.Apart ∧
      (∀ address t, Covered result address t ↔
        CombinedType wt memoryranges address t ∧ t ≠ defType) ∧
      ∀ other, other.Perm memoryranges → AtMost100 other →
        ∃ turns, sanitizeMemoryRegions turns defType other = some result := by
  have hmerge := h.mergeable hwt
  obtain ⟨result, hresult, hspec⟩ := sanitize_mergeable defType hmerge h100
  refine ⟨result, ⟨_, hresult⟩, hspec.sorted, hspec.apart, fun address t => ?_,
    fun other hperm hother => ⟨scanTurns other, ?_⟩⟩
  · rw [hspec.covered, winner_iff_combinedType hwt h]
  · rw [sanitize_perm defType hmerge h100 hperm hother, hresult]

/-- A UC range in the middle of a WB range. -/
theorem sanitizeMemoryRegions_spec_ofTwo :
    Sanitizable 4 [⟨0x100000, 0x300000, MTC_WB⟩, ⟨0x200000, 0x100000, MTC_UC⟩] ∧
      AtMost100 [⟨0x100000, 0x300000, MTC_WB⟩, ⟨0x200000, 0x100000, MTC_UC⟩] ∧
      ∃ result, ∀ address t, Covered result address t ↔
        CombinedType 4 [⟨0x100000, 0x300000, MTC_WB⟩, ⟨0x200000, 0x100000, MTC_UC⟩] address t ∧
          t ≠ 7 := by
  have hcompatible : ∀ a ∈ [MemRange.mk 0x100000 0x300000 MTC_WB, ⟨0x200000, 0x100000, MTC_UC⟩],
      ∀ b ∈ [MemRange.mk 0x100000 0x300000 MTC_WB, ⟨0x200000, 0x100000, MTC_UC⟩],
        Compatible 4 a.memtype b.memtype := by decide
  have hsound : ∀ r ∈ [MemRange.mk 0x100000 0x300000 MTC_WB, ⟨0x200000, 0x100000, MTC_UC⟩],
      0 < r.size ∧ r.size < 2 ^ 64 ∧ r.startaddress + r.size ≤ 2 ^ 64 := by decide
  have hgood : Sanitizable 4 [⟨0x100000, 0x300000, MTC_WB⟩, ⟨0x200000, 0x100000, MTC_UC⟩] :=
    ⟨fun r hr => ⟨(hsound r hr).1, (hsound r hr).2.1, (hsound r hr).2.2⟩,
      fun a ha b hb _ => hcompatible a ha b hb⟩
  have h100 : AtMost100 [⟨0x100000, 0x300000, MTC_WB⟩, ⟨0x200000, 0x100000, MTC_UC⟩] := by
    intro s hs
    have hall : ∀ s ∈ Lib.visited Scan.turn 20 (Scan.start
        [⟨0x100000, 0x300000, MTC_WB⟩, ⟨0x200000, 0x100000, MTC_UC⟩]),
        s.memoryranges.length ≤ 100 := by decide
    exact hall s (Lib.mem_visited (r := [⟨0x200000, 0x100000, MTC_UC⟩,
      ⟨0x100000, 0x100000, MTC_WB⟩, ⟨0x300000, 0x100000, MTC_WB⟩]) (by decide) hs)
  obtain ⟨result, -, -, -, hcovered, -⟩ :=
    sanitizeMemoryRegions_spec 4 7 (.inr rfl) _ hgood h100
  exact ⟨hgood, h100, result, hcovered⟩

end CheatEngine.Dbvm
