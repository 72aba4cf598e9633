/-
  CheatEngine.PointerScan.Chains

  What a scan stores.  A worker shares the arrays of offsets and values between all levels
  of `rscan`; without them, a path is a chain of entries of the pointer map, each of which
  holds a pointer to the next one or near it.
-/
import CheatEngine.PointerScan.PointerLookup
import CheatEngine.PointerScan.Progress

namespace CheatEngine.PointerScan

open CheatEngine.Lib

variable {s : Settings} {t : Target} {a : Arrays} {level : Nat} {visited : List UInt64}
  {value : UInt64} {p : Path}

/-- A list that a call looks at: one with a value in the window, or the smallest one when
    all are above the window. -/
def Found (s : Settings) (t : Target) (level : Nat) (value : UInt64) (l : PointerList) : Prop :=
  l ∈ t.pointerlisthandler.lists ∧ ∃ startvalue stopvalue,
    window s t value level = some (startvalue, stopvalue) ∧ startvalue ≤ stopvalue ∧
      startvalue ≤ l.pointervalue ∧ t.pointerlisthandler.InReach stopvalue l

/-- From the entry, the offsets lead to the value, the last one first.  The entries between
    are not static, and with `noLoop` no value comes twice. -/
def Leads (s : Settings) (t : Target) :
    List UInt32 → Nat → List UInt64 → UInt64 → PointerEntry → Prop
  | [], _, _, _, _ => False
  | offset :: offsets, level, visited, value, e =>
    ¬ (s.noLoop ∧ value ∈ visited) ∧ ∃ l, Found s t level value l ∧ ∃ e' ∈ l.list,
      offset = (value - l.pointervalue).toUInt32 ∧ (offsets = [] ∧ e' = e ∨
        e'.staticdata = none ∧ Leads s t offsets (level + 1) (value :: visited) e'.address e)

/-- The path that begins at an entry. -/
def Starts (s : Settings) (e : PointerEntry) (offsets : List UInt32) (p : Path) : Prop :=
  match e.staticdata with
  | some static => p = (offsets.length - 1, static.moduleindex, static.offset, offsets)
  | none => s.staticonly = false ∧ p = (offsets.length - 1, -1, e.address, offsets)

/-- The path goes on from a value with a chain, behind the offsets that were found. -/
def Continues (s : Settings) (t : Target) (level : Nat) (visited : List UInt64) (p : Path)
    (front : List UInt32) (value : UInt64) : Prop :=
  ∃ offsets e, level + offsets.length ≤ s.maxlevel ∧ Leads s t offsets level visited value e ∧
    Starts s e (front ++ offsets) p

/-- It goes on through an entry of the list. -/
def Passes (s : Settings) (t : Target) (level : Nat) (visited : List UInt64) (p : Path)
    (front : List UInt32) (value : UInt64) (l : PointerList) : Prop :=
  let front := front ++ [(value - l.pointervalue).toUInt32]
  ∃ e ∈ l.list, Starts s e front p ∨
    e.staticdata = none ∧ Continues s t (level + 1) visited p front e.address

/-- The offsets that were found before a call. -/
def Arrays.front (a : Arrays) (level : Nat) : List UInt32 := (List.range level).map a.tempresults

/-- `valuelist` has the values that were visited. -/
def Arrays.Visited (s : Settings) (a : Arrays) (level : Nat) (visited : List UInt64) : Prop :=
  s.noLoop = true → ∀ v, v ∈ visited ↔ ∃ i < level, a.valuelist i = v

theorem front_setOffset (level : Nat) (value stopvalue : UInt64) :
    (a.setOffset level value stopvalue).front level = a.front level :=
  List.map_congr_left fun _ hi => a.setOffset_of_ne (Nat.ne_of_lt (List.mem_range.1 hi)) _ _

theorem front_succ : a.front (level + 1) = a.front level ++ [a.tempresults level] := by
  simp [Arrays.front, List.range_succ]

theorem path_storeCall (moduleid : Int) (offset : UInt64) :
    StoreCall.path ⟨level, moduleid, offset, a.tempresults⟩ =
      ((a.front (level + 1)).length - 1, moduleid, offset, a.front (level + 1)) := by
  simp [StoreCall.path, Arrays.front]

/-! ## The lists of a call -/

/-- No limit of different offsets, and no stop at a static entry. -/
structure Settings.Exhaustive (s : Settings) : Prop where
  limit : s.limitToMaxOffsetsPerNode = false
  static : s.onlyOneStaticInPath = false

/-- A call at the entries that are left of a list. -/
abbrev node (level : Nat) (value startvalue : UInt64) (previous : List PointerList)
    (entries : List PointerEntry) : Frame :=
  ⟨level, value, startvalue, previous, entries, none, false, 0⟩

section

variable {startvalue : UInt64} (hall : s.Exhaustive)
  (hdeeper : ∀ (b : Arrays) address, b.Visited s (level + 1) visited →
    (p ∈ (if level + 1 < s.maxlevel then callPaths s t (level + 1) b address else 0) ↔
      Continues s t (level + 1) visited p (b.front (level + 1)) address))
include hall hdeeper

theorem mem_framePaths_entries (hvisited : a.Visited s (level + 1) visited)
    (previous : List PointerList) (entries : List PointerEntry) :
    p ∈ framePaths s t (node level value startvalue previous entries) a ↔
      p ∈ framePaths s t (node level value startvalue previous []) a ∨
      ∃ e ∈ entries, Starts s e (a.front (level + 1)) p ∨ e.staticdata = none ∧
        Continues s t (level + 1) visited p (a.front (level + 1)) e.address := by
  induction entries with
  | nil => simp
  | cons e entries ih =>
    cases hstatic : e.staticdata with
    | some static =>
      have hcons : framePaths s t (node level value startvalue previous (e :: entries)) a =
          paths [⟨level, static.moduleindex, static.offset, a.tempresults⟩] +
            framePaths s t (node level value startvalue previous entries) a := by
        rw [framePaths_static rfl rfl hstatic, hall.static]
        rfl
      rw [hcons, Multiset.mem_add, ih, paths]
      simp [path_storeCall, Starts, hstatic, or_left_comm]
    | none =>
      have hcons : framePaths s t (node level value startvalue previous (e :: entries)) a =
          (if level + 1 < s.maxlevel then callPaths s t (level + 1) a e.address else 0) +
            (paths (if s.staticonly then [] else [⟨level, -1, e.address, a.tempresults⟩]) +
              framePaths s t (node level value startvalue previous entries) a) := by
        rw [framePaths_deeper rfl rfl hstatic rfl, framePaths_storing]
        rfl
      have hstarts : p ∈ paths (if s.staticonly then [] else
            [⟨level, -1, e.address, a.tempresults⟩]) ↔ Starts s e (a.front (level + 1)) p := by
        cases hstored : s.staticonly <;> simp [paths, path_storeCall, Starts, hstatic, hstored]
      rw [hcons, Multiset.mem_add, Multiset.mem_add, hdeeper a e.address hvisited, hstarts, ih,
        List.exists_mem_cons_iff]
      simp only [hstatic, true_and, or_assoc, or_left_comm]

/-- All lists of a call, by induction on those that are left. -/
theorem mem_framePaths_lists (hvisited : a.Visited s (level + 1) visited) (plist : PointerList)
    (previous : List PointerList)
    (hoffset : a.tempresults level = (value - plist.pointervalue).toUInt32) :
    p ∈ framePaths s t (node level value startvalue previous plist.list) a ↔
      ∃ l ∈ plist :: previous.takeWhile fun l => startvalue ≤ l.pointervalue,
        Passes s t level visited p (a.front level) value l := by
  have hlist : ∀ {a : Arrays} {plist} previous, a.Visited s (level + 1) visited →
      a.tempresults level = (value - plist.pointervalue).toUInt32 →
      (p ∈ framePaths s t (node level value startvalue previous plist.list) a ↔
        p ∈ framePaths s t (node level value startvalue previous []) a ∨
          Passes s t level visited p (a.front level) value plist) := by
    intro a plist previous hvisited hoffset
    rw [mem_framePaths_entries hall hdeeper hvisited, front_succ, hoffset]
    rfl
  induction previous generalizing plist a with
  | nil =>
    rw [hlist [] hvisited hoffset, framePaths_nextList rfl rfl]
    simp [nextList]
  | cons plist' previous ih =>
    have htail : p ∈ framePaths s t (node level value startvalue (plist' :: previous) []) a ↔
        ∃ l ∈ (plist' :: previous).takeWhile fun l => startvalue ≤ l.pointervalue,
          Passes s t level visited p (a.front level) value l := by
      rw [framePaths_nextList rfl rfl]
      simp only [nextList, Frame.countOffset, hall.limit, Bool.false_eq_true, false_and, if_false]
      by_cases hbelow : plist'.pointervalue < startvalue
      · simp [hbelow, UInt64.not_le.2 hbelow]
      · have hrest := ih (a := a.setOffset level value plist'.pointervalue) hvisited plist'
          (by simp)
        rw [front_setOffset] at hrest
        simpa [hbelow, UInt64.not_lt.1 hbelow] using hrest
    rw [hlist _ hvisited hoffset, htail, List.exists_mem_cons_iff, or_comm]

end

/-! ## The chains of a scan -/

theorem Arrays.Visited.add (h : a.Visited s level visited) :
    Arrays.Visited s (if s.noLoop then
      { a with valuelist := Function.update a.valuelist level value } else a)
      (level + 1) (value :: visited) := by
  intro hno v
  rw [if_pos hno, List.mem_cons, h hno]
  constructor
  · rintro (rfl | ⟨i, hi, rfl⟩)
    · exact ⟨level, Nat.lt_succ_self _, Function.update_self ..⟩
    · exact ⟨i, Nat.lt_succ_of_lt hi, Function.update_of_ne (Nat.ne_of_lt hi) ..⟩
  · rintro ⟨i, hi, rfl⟩
    rcases Nat.lt_succ_iff_lt_or_eq.1 hi with hi | rfl
    · exact .inr ⟨i, hi, (Function.update_of_ne (Nat.ne_of_lt hi) ..).symm⟩
    · exact .inl (Function.update_self ..)

/-- The chains from a value, by their first step. -/
theorem continues_iff {front : List UInt32} :
    Continues s t level visited p front value ↔
      level < s.maxlevel ∧ ¬ (s.noLoop ∧ value ∈ visited) ∧
        ∃ l, Found s t level value l ∧ Passes s t level (value :: visited) p front value l := by
  constructor
  · rintro ⟨_ | ⟨offset, offsets⟩, e, hlength, hleads, hstarts⟩
    · exact hleads.elim
    · rw [List.length_cons] at hlength
      obtain ⟨hnew, l, hl, e', he', rfl, ⟨rfl, rfl⟩ | ⟨hstatic, hleads⟩⟩ := hleads
      · exact ⟨by omega, hnew, l, hl, e', he', .inl hstarts⟩
      · refine ⟨by omega, hnew, l, hl, e', he', .inr ⟨hstatic, offsets, e, by omega, hleads, ?_⟩⟩
        rwa [List.append_assoc, List.singleton_append]
  · rintro ⟨hlt, hnew, l, hl, e, he, hstarts | ⟨hstatic, offsets, e', hlength, hleads, hstarts⟩⟩
    · exact ⟨[_], e, hlt, ⟨hnew, l, hl, e, he, rfl, .inl ⟨rfl, rfl⟩⟩, hstarts⟩
    · refine ⟨_ :: offsets, e', by rw [List.length_cons]; omega,
        ⟨hnew, l, hl, e, he, rfl, .inr ⟨hstatic, hleads⟩⟩, ?_⟩
      rwa [List.append_assoc, List.singleton_append] at hstarts

theorem mem_callPaths_iff {h : BuiltMap} (h64 : h.map.maxlevel = 15)
    (ht : t.pointerlisthandler = h.map) (hall : s.Exhaustive)
    (hvisited : a.Visited s level visited) :
    p ∈ callPaths s t level a value ↔ Continues s t level visited p (a.front level) value := by
  generalize hn : s.maxlevel - level = n
  induction n generalizing level visited a value with
  | zero =>
    have hle : s.maxlevel ≤ level := by omega
    rw [callPaths_eq, enter, if_pos (.inl hle), continues_iff]
    exact iff_of_false (Multiset.notMem_zero _) fun hcont => Nat.not_lt.2 hle hcont.1
  | succ n ih =>
    have hlt : level < s.maxlevel := by omega
    have hdeeper : ∀ (b : Arrays) address, b.Visited s (level + 1) (value :: visited) →
        (p ∈ (if level + 1 < s.maxlevel then callPaths s t (level + 1) b address else 0) ↔
          Continues s t (level + 1) (value :: visited) p (b.front (level + 1)) address) := by
      intro b address hb
      split
      · exact ih hb (by omega)
      · next hlast =>
        rw [continues_iff]
        exact iff_of_false (Multiset.notMem_zero _) fun hcont => hlast hcont.1
    have hloop : (s.noLoop ∧ ∃ i < level, a.valuelist i = value) ↔ s.noLoop ∧ value ∈ visited :=
      and_congr_right fun hno => (hvisited hno value).symm
    have hvisited' := @Arrays.Visited.add _ _ _ _ value hvisited
    generalize ha : (if s.noLoop then
      { a with valuelist := Function.update a.valuelist level value } else a) = b at hvisited'
    have hfront : b.front level = a.front level := by
      rw [← ha]
      split <;> rfl
    rw [callPaths_eq, enter, if_neg (by simpa using hlt), continues_iff]
    simp only [hloop, ha, hlt, true_and]
    cases hwindow : window s t value level with
    | none => simp [Found, hwindow]
    | some range =>
      obtain ⟨startvalue, stopvalue⟩ := range
      dsimp only
      by_cases hseen : s.noLoop ∧ value ∈ visited
      · simp [hseen]
      have hfound : ∀ l, Found s t level value l ↔ startvalue ≤ stopvalue ∧
          l ∈ (h.map.findPointerValue startvalue stopvalue).takeWhile fun l =>
            startvalue ≤ l.pointervalue := by
        intro l
        rw [h.mem_found_iff startvalue (by rw [h64]; exact stopvalue.toNat_lt)]
        simp [Found, hwindow, ht, and_left_comm]
      rw [if_neg hseen]
      simp only [hfound, hseen, not_false_iff, true_and]
      by_cases hrange : stopvalue < startvalue
      · simp [hrange, UInt64.not_le.2 hrange]
      rw [if_neg hrange, ht]
      cases hfind : h.map.findPointerValue startvalue stopvalue with
      | nil => simp
      | cons plist previous =>
        have hhead : startvalue ≤ plist.pointervalue := by
          unfold PointerMap.findPointerValue at hfind
          grind
        refine (mem_framePaths_lists (a := b.setOffset level value plist.pointervalue) hall
          hdeeper hvisited' plist previous (b.setOffset_self ..)).trans ?_
        rw [front_setOffset, hfront]
        simp [UInt64.not_lt.1 hrange, hhead]

theorem running_of_run {workers : List Arrays} {inputs : List ScanInput}
    (hinputs : ∀ i ∈ inputs, i.Undisturbed)
    (hrun : execM (ScanState.step s t automaticaddress) (ScanState.initial workers) inputs =
      some st) : st.Ended ∨ Running s t automaticaddress st := by
  apply execM_preserves_along
    (I := fun st => st.Ended ∨ Running s t automaticaddress st)
    (P := fun _ input => input.Undisturbed) ?_ (.inr (running_initial workers))
    (alongM_of_forall fun _ i hi => hinputs i hi) hrun
  intro st₁ input st₂ hI hinput hstep
  exact hI.elim (fun hended => .inl (hended.step hstep))
    fun hrunning => (hrunning.step hinput hstep).symm

end CheatEngine.PointerScan
