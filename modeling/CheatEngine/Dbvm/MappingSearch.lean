/-
  CheatEngine.Dbvm.MappingSearch

  The search for free mapping entries, `mmFindMapPositionForSize` (mm.c).  From each entry
  that is not present it counts the next ones, and gives up when the count comes to the end
  of the table, also where the last entry was all that was missing.
-/
import CheatEngine.Dbvm.Mappings
import Mathlib.Data.Nat.Find

namespace CheatEngine.Dbvm

variable {used : Nat → Bool} {n rest i : Nat}

/-- The entries that the inner loop reads, from entry `j` on. -/
def freeReads (used : Nat → Bool) : (rest j : Nat) → (needed : Int) → List Nat
  | 0, j, needed => if needed = 0 then [] else [j]
  | rest + 1, j, needed =>
    if needed = 0 then []
    else if used j then [j]
    else if rest = 0 then [j]
    else j :: freeReads used rest (j + 1) (needed - 1)

def findReads (used : Nat → Bool) (pagecount : Int) : (rest i : Nat) → List Nat
  | 0, _ => []
  | rest + 1, i =>
    if used i then i :: findReads used pagecount rest (i + 1)
    else
      i :: freeReads used rest (i + 1) (pagecount - 1) ++
        match freeFrom used rest (i + 1) (pagecount - 1) with
        | some false => findReads used pagecount rest (i + 1)
        | _ => []

/-- A run of `n` entries that are not present. -/
def FreeRun (used : Nat → Bool) (n pos : Nat) : Prop := ∀ k < n, used (pos + k) = false

/-- The smallest position with a run inside of the table is found, if there is one, and no
    entry behind the table is read. -/
def Searches (used : Nat → Bool) (size : Nat) : Prop :=
  let n := (pageCount size).toNat
  (∀ pos, mmFindMapPositionForSize used size = some pos ↔
    pos + n ≤ 1024 ∧ FreeRun used n pos ∧
      ∀ p, p + n ≤ 1024 → FreeRun used n p → pos ≤ p) ∧
  ∀ i ∈ findReads used (pageCount size) 1024 0, i < 1024

/-- One page is asked for; or a run ends before the last entry; or there is none at all, and
    the last entry is present or follows another free one. -/
def Roomy (used : Nat → Bool) (n : Nat) : Prop :=
  n = 1 ∨ (∃ pos, pos + n < 1024 ∧ FreeRun used n pos) ∨
    (∀ pos, pos + n ≤ 1024 → ¬ FreeRun used n pos) ∧ (used 1022 = true → used 1023 = true)

theorem freeRun_succ {j : Nat} :
    FreeRun used (n + 1) j ↔ used j = false ∧ FreeRun used n (j + 1) := by
  constructor
  · intro h
    refine ⟨h 0 (Nat.succ_pos n), fun k hk => ?_⟩
    have hnext := h (k + 1) (Nat.succ_lt_succ hk)
    rwa [← Nat.add_assoc, Nat.add_right_comm] at hnext
  · rintro ⟨hfirst, hnext⟩ k hk
    cases k with
    | zero => exact hfirst
    | succ k =>
      rw [← Nat.add_assoc, Nat.add_right_comm]
      exact hnext k (Nat.lt_of_succ_lt_succ hk)

/-- The inner loop: the run is free and ends before the table does, or an entry of it is
    present, or all entries up to the end of the table are free. -/
theorem freeFrom_spec (used : Nat → Bool) (rest j m : Nat) :
    freeFrom used rest j m = some true ∧ (m = 0 ∨ m < rest) ∧ FreeRun used m j ∨
      freeFrom used rest j m = some false ∧ (∃ k < m, k < rest ∧ used (j + k) = true) ∨
      freeFrom used rest j m = none ∧ 0 < m ∧ rest ≤ m ∧ FreeRun used rest j := by
  induction rest generalizing j m with
  | zero =>
    cases m with
    | zero => exact .inl ⟨rfl, .inl rfl, fun k hk => absurd hk (Nat.not_lt_zero k)⟩
    | succ m =>
      exact .inr (.inr ⟨if_neg (by omega), by omega, by omega,
        fun k hk => absurd hk (Nat.not_lt_zero k)⟩)
  | succ rest ih =>
    cases m with
    | zero => exact .inl ⟨rfl, .inl rfl, fun k hk => absurd hk (Nat.not_lt_zero k)⟩
    | succ m =>
      rw [freeFrom, if_neg (by omega)]
      cases hused : used j with
      | true => exact .inr (.inl ⟨rfl, 0, by omega, by omega, hused⟩)
      | false =>
        rw [if_neg (by decide)]
        by_cases hrest : rest = 0
        · -- the entry is the last one of the table
          subst hrest
          refine .inr (.inr ⟨if_pos rfl, by omega, by omega, freeRun_succ.2 ⟨hused, ?_⟩⟩)
          exact fun k hk => absurd hk (Nat.not_lt_zero k)
        · have hneeded : ((m + 1 : Nat) : Int) - 1 = (m : Nat) := by omega
          rw [if_neg hrest, hneeded]
          rcases ih (j + 1) m with ⟨h, hm, hfree⟩ | ⟨h, k, hk, hkr, hk'⟩ | ⟨h, hm, hr, hfree⟩
          · exact .inl ⟨h, by omega, freeRun_succ.2 ⟨hused, hfree⟩⟩
          · refine .inr (.inl ⟨h, k + 1, by omega, by omega, ?_⟩)
            rwa [← Nat.add_assoc, Nat.add_right_comm]
          · exact .inr (.inr ⟨h, by omega, by omega, freeRun_succ.2 ⟨hused, hfree⟩⟩)

/-- Behind the last entry only the first entry that is not there can be read. -/
theorem freeReads_lt {j x : Nat} {needed : Int} (h : x ∈ freeReads used rest j needed) :
    x < j + rest ∨ rest = 0 ∧ needed ≠ 0 := by
  induction rest generalizing j needed with
  | zero =>
    rw [freeReads] at h
    by_cases hneeded : needed = 0
    · rw [if_pos hneeded] at h
      cases h
    · exact .inr ⟨rfl, hneeded⟩
  | succ rest ih =>
    refine .inl ?_
    rw [freeReads] at h
    by_cases hneeded : needed = 0
    · rw [if_pos hneeded] at h
      cases h
    · rw [if_neg hneeded] at h
      by_cases hone : used j = true ∨ rest = 0
      · have hj : x = j := by rcases hone with hone | hone <;> simpa [hone] using h
        omega
      · rw [if_neg (fun h => hone (.inl h)), if_neg (fun h => hone (.inr h)), List.mem_cons] at h
        rcases h with rfl | h
        · omega
        · rcases ih h with hlt | ⟨hzero, -⟩
          · omega
          · exact absurd (.inr hzero) hone

theorem findPosition_eq_some {p : Nat} (hi : i + rest = 1024) :
    findPosition used (n + 1 : Nat) rest i = some p ↔
      i ≤ p ∧ p < 1024 ∧ (n = 0 ∨ p + n < 1023) ∧ FreeRun used (n + 1) p ∧
        ∀ q, i ≤ q → q < p → ¬ FreeRun used (n + 1) q := by
  induction rest generalizing i with
  | zero =>
    refine iff_of_false (by simp [findPosition]) ?_
    rintro ⟨hp, hlt, -⟩
    omega
  | succ rest ih =>
    -- where there is no run at `i`, it begins behind
    have hskip : ¬ FreeRun used (n + 1) i →
        (findPosition used (n + 1 : Nat) rest (i + 1) = some p ↔
          i ≤ p ∧ p < 1024 ∧ (n = 0 ∨ p + n < 1023) ∧ FreeRun used (n + 1) p ∧
            ∀ q, i ≤ q → q < p → ¬ FreeRun used (n + 1) q) := by
      intro hno
      rw [ih (by omega)]
      constructor
      · rintro ⟨hp, hlt, hend, hrun, hfirst⟩
        refine ⟨by omega, hlt, hend, hrun, fun q hq hqp => ?_⟩
        by_cases hqi : q = i
        · exact hqi ▸ hno
        · exact hfirst q (by omega) hqp
      · rintro ⟨hp, hlt, hend, hrun, hfirst⟩
        have hne : p ≠ i := fun h => hno (h ▸ hrun)
        exact ⟨by omega, hlt, hend, hrun, fun q hq hqp => hfirst q (by omega) hqp⟩
    have hneeded : ((n + 1 : Nat) : Int) - 1 = (n : Nat) := by omega
    rw [findPosition, hneeded]
    cases hused : used i with
    | true =>
      rw [if_pos rfl]
      refine hskip fun hrun => ?_
      rw [(freeRun_succ.1 hrun).1] at hused
      cases hused
    | false =>
      rw [if_neg (by decide)]
      rcases freeFrom_spec used rest (i + 1) n with
        ⟨h, hm, hfree⟩ | ⟨h, k, hk, -, hk'⟩ | ⟨h, hm, hr, -⟩
      · rw [h]
        have hrun := freeRun_succ.2 ⟨hused, hfree⟩
        constructor
        · intro hp
          obtain rfl := Option.some.inj hp
          exact ⟨Nat.le_refl i, by omega, by omega, hrun, fun q hq hqi => by omega⟩
        · rintro ⟨hp, -, -, -, hfirst⟩
          by_cases hne : i < p
          · exact absurd hrun (hfirst i (Nat.le_refl i) hne)
          · rw [Nat.le_antisymm hp (Nat.le_of_not_lt hne)]
      · rw [h]
        refine hskip fun hrun => ?_
        rw [(freeRun_succ.1 hrun).2 k hk] at hk'
        cases hk'
      · rw [h]
        refine iff_of_false (by simp) ?_
        rintro ⟨hp, -, hend, -⟩
        omega

/-- The entry behind the table is read at the last one only, when it follows one that is
    present and nothing was found before. -/
theorem findReads_iff (hi : i + rest = 1024) :
    (∃ x ∈ findReads used (n + 1 : Nat) rest i, 1024 ≤ x) ↔
      i ≤ 1023 ∧ 0 < n ∧ used 1023 = false ∧ (i < 1023 → used 1022 = true) ∧
        ∀ p, i ≤ p → p + n < 1024 → ¬ FreeRun used (n + 1) p := by
  induction rest generalizing i with
  | zero =>
    refine iff_of_false (by simp [findReads]) ?_
    rintro ⟨hle, -⟩
    omega
  | succ rest ih =>
    -- where there is no run at `i`, the search goes on behind
    have hskip : ¬ FreeRun used (n + 1) i → (i = 1023 → used 1023 = true) →
        (i = 1022 → used 1022 = true ∨ used 1023 = true) →
        ((∃ x ∈ findReads used (n + 1 : Nat) rest (i + 1), 1024 ≤ x) ↔
          i ≤ 1023 ∧ 0 < n ∧ used 1023 = false ∧ (i < 1023 → used 1022 = true) ∧
            ∀ p, i ≤ p → p + n < 1024 → ¬ FreeRun used (n + 1) p) := by
      intro hno hlast hlast'
      rw [ih (by omega)]
      constructor
      · rintro ⟨hle, hn, hfree, hbefore, hnone⟩
        refine ⟨by omega, hn, hfree, fun _ => ?_, fun p hp hend => ?_⟩
        · by_cases hi' : i = 1022
          · rcases hlast' hi' with h | h
            · exact h
            · rw [hfree] at h
              cases h
          · exact hbefore (by omega)
        · by_cases hpi : p = i
          · exact hpi ▸ hno
          · exact hnone p (by omega) hend
      · rintro ⟨hle, hn, hfree, hbefore, hnone⟩
        have hne : i ≠ 1023 := by
          intro h
          rw [hlast h] at hfree
          cases hfree
        exact ⟨by omega, hn, hfree, fun _ => hbefore (by omega),
          fun p hp hend => hnone p (by omega) hend⟩
    have hneeded : ((n + 1 : Nat) : Int) - 1 = (n : Nat) := by omega
    rw [findReads, hneeded]
    have hlt : ¬ 1024 ≤ i := by omega
    cases hused : used i with
    | true =>
      have hno : ¬ FreeRun used (n + 1) i := fun hrun => by
        rw [(freeRun_succ.1 hrun).1] at hused
        cases hused
      rw [if_pos rfl, ← hskip hno (fun h => h ▸ hused) (fun h => .inl (h ▸ hused))]
      simp [hlt]
    | false =>
      rw [if_neg (by decide)]
      have hread : 0 < rest ∨ n = 0 → ∀ x ∈ freeReads used rest (i + 1) n, ¬ 1024 ≤ x := by
        intro hrest x hx
        rcases freeReads_lt hx with h | ⟨h, h'⟩ <;> omega
      rcases freeFrom_spec used rest (i + 1) n with
        ⟨h, hm, hfree⟩ | ⟨h, k, hk, hkr, hk'⟩ | ⟨h, hm, hr, hfree⟩
      · -- a run is found
        rw [h]
        refine iff_of_false ?_ ?_
        · have hreads := hread (by omega)
          simpa [hlt] using hreads
        · rintro ⟨-, hn, -, -, hnone⟩
          exact hnone i (Nat.le_refl i) (by omega) (freeRun_succ.2 ⟨hused, hfree⟩)
      · rw [h, ← hskip]
        · have hreads := hread (by omega)
          simp only [List.mem_append, List.mem_cons, or_and_right, exists_or, exists_eq_left, hlt,
            false_or]
          exact or_iff_right fun ⟨x, hx, hle⟩ => hreads x hx hle
        · intro hrun
          rw [(freeRun_succ.1 hrun).2 k hk] at hk'
          cases hk'
        · omega
        · intro hi'
          have hentry : i + 1 + k = 1023 := by omega
          exact .inr (hentry ▸ hk')
      · -- the table ends: at the last entry the one behind it is read
        rw [h]
        by_cases hrest : rest = 0
        · subst hrest
          have hi' : i = 1023 := by omega
          subst hi'
          refine iff_of_true ⟨1024, ?_, Nat.le_refl _⟩
            ⟨Nat.le_refl _, hm, hused, by omega, fun p hp hend => by omega⟩
          rw [freeReads, if_neg (by omega)]
          simp
        · refine iff_of_false ?_ ?_
          · have hreads := hread (by omega)
            simpa [hlt] using hreads
          · rintro ⟨-, -, -, hbefore, -⟩
            have hused' := hbefore (by omega)
            have hfree' : used 1022 = false := by
              by_cases hi' : i = 1022
              · exact hi' ▸ hused
              · have hentry : i + 1 + (1022 - (i + 1)) = 1022 := by omega
                exact hentry ▸ hfree (1022 - (i + 1)) (by omega)
            rw [hfree'] at hused'
            cases hused'

/-! ## The search -/

theorem searches_iff_roomy (used : Nat → Bool) {size : Nat} (hsize : 0 < size) :
    Searches used size ↔ Roomy used (pageCount size).toNat := by
  obtain ⟨n, hn⟩ : ∃ n : Nat, pageCount size = (n + 1 : Nat) :=
    ⟨(size + 4095) / 4096 - 1, by rw [pageCount_natCast]; omega⟩
  have hcount : (pageCount size).toNat = n + 1 := by omega
  have hfind : ∀ pos, mmFindMapPositionForSize used size = some pos ↔
      pos < 1024 ∧ (n = 0 ∨ pos + n < 1023) ∧ FreeRun used (n + 1) pos ∧
        ∀ q < pos, ¬ FreeRun used (n + 1) q := by
    intro pos
    rw [mmFindMapPositionForSize, if_neg (by omega), hn, findPosition_eq_some rfl]
    simp
  have hreads : (∃ x ∈ findReads used (n + 1 : Nat) 1024 0, 1024 ≤ x) ↔ _ := findReads_iff rfl
  unfold Searches Roomy
  dsimp only
  rw [hcount, hn]
  constructor
  · rintro ⟨hleast, hinside⟩
    by_cases hzero : n = 0
    · exact .inl (by omega)
    by_cases hrun : ∃ pos, pos + (n + 1) < 1024 ∧ FreeRun used (n + 1) pos
    · exact .inr (.inl hrun)
    have hnone : ∀ pos, pos + (n + 1) ≤ 1024 → ¬ FreeRun used (n + 1) pos := by
      -- the first run would end with the table and is not found
      classical
      intro pos hpos hfree
      have hex : ∃ pos, pos + (n + 1) ≤ 1024 ∧ FreeRun used (n + 1) pos := ⟨pos, hpos, hfree⟩
      obtain ⟨hend, hfirst⟩ := Nat.find_spec hex
      have hfound := (hleast _).2 ⟨hend, hfirst, fun p hp hp' => Nat.find_min' hex ⟨hp, hp'⟩⟩
      obtain ⟨-, hbefore, -⟩ := (hfind _).1 hfound
      exact hrun ⟨_, by omega, hfirst⟩
    refine .inr (.inr ⟨hnone, fun hused => ?_⟩)
    by_contra hfree
    obtain ⟨x, hx, hle⟩ := hreads.2 ⟨by omega, by omega, Bool.eq_false_iff.2 hfree,
      fun _ => hused, fun p _ hend => hnone p (by omega)⟩
    exact absurd (hinside x hx) (by omega)
  · intro hroomy
    refine ⟨fun pos => (hfind pos).trans ⟨?_, ?_⟩, fun x hx => ?_⟩
    · rintro ⟨hlt, hend, hfree, hfirst⟩
      refine ⟨by omega, hfree, fun p _ hp => ?_⟩
      by_contra hbefore
      exact hfirst p (by omega) hp
    · rintro ⟨hend, hfree, hleast⟩
      refine ⟨by omega, ?_, hfree, fun q hq hq' => ?_⟩
      · rcases hroomy with h | ⟨p, hp, hp'⟩ | ⟨hnone, -⟩
        · exact .inl (by omega)
        · have hle := hleast p (by omega) hp'
          exact .inr (by omega)
        · exact absurd hfree (hnone pos hend)
      · have hle := hleast q (by omega) hq'
        omega
    · by_contra hle
      obtain ⟨-, hpos, hlast, hbefore, hnone⟩ := hreads.1 ⟨x, hx, by omega⟩
      rcases hroomy with h | ⟨p, hp, hp'⟩ | ⟨-, himp⟩
      · omega
      · exact hnone p (Nat.zero_le p) (by omega) hp'
      · rw [himp (hbefore (by decide))] at hlast
        cases hlast

theorem freeRun_of_found {size : Int} {pos : Nat}
    (h : mmFindMapPositionForSize used size = some pos) :
    FreeRun used (pageCount size).toNat pos := by
  rw [mmFindMapPositionForSize] at h
  split at h
  · cases h
  · by_cases hcount : pageCount size ≤ 0
    · rw [findPosition_of_nonpos used hcount] at h
      cases h
    · obtain ⟨n, hn⟩ : ∃ n : Nat, pageCount size = (n + 1 : Nat) :=
        ⟨(pageCount size - 1).toNat, by omega⟩
      rw [hn] at h ⊢
      exact ((findPosition_eq_some rfl).1 h).2.2.2.1

theorem mapPhysicalMemory_keeps {M PhysicalAddress v : Nat} {size : Int} {s s' : Mappings}
    (h : mapPhysicalMemory M PhysicalAddress size s = .ok (v, s')) {i : Nat} (hi : s i ≠ none) :
    s' i = s i := by
  unfold mapPhysicalMemory at h
  dsimp only at h
  split at h
  · cases h
  · next pos hpos =>
    obtain ⟨-, rfl⟩ := Prod.mk.inj (Except.ok.inj h)
    refine Lib.Windows.opened_of_not_mem s fun hmem => hi ?_
    simp only [List.map_map, List.mem_map, List.mem_range, Function.comp] at hmem
    obtain ⟨k, hk, rfl⟩ := hmem
    exact Option.isNone_iff_eq_none.1 (by simpa using freeRun_of_found hpos k hk)

/-- The first run of free entries is found and nothing behind the table is read, exactly when
    the table is `Roomy`; what is mapped stays mapped in any case. -/
theorem searches_iff (s : Mappings) (size : Nat) (hsize : 0 < size) :
    (Searches (fun i => (s i).isSome) size ↔
      Roomy (fun i => (s i).isSome) (pageCount size).toNat) ∧
    ∀ M PhysicalAddress n v s', mapPhysicalMemory M PhysicalAddress n s = .ok (v, s') →
      ∀ i, s i ≠ none → s' i = s i :=
  ⟨searches_iff_roomy _ hsize, fun _ _ _ _ _ h _ => mapPhysicalMemory_keeps h⟩

theorem searches_empty :
    0 < 8192 ∧ Searches (fun i => ((fun _ => none : Mappings) i).isSome) 8192 :=
  ⟨by decide, (searches_iff _ 8192 (by decide)).1.2 (.inr (.inl ⟨0, by decide, fun _ _ => rfl⟩))⟩

theorem last_entries_not_found :
    ¬ ∀ used size, 0 < size → Searches used size := by
  intro h
  obtain ⟨hleast, -⟩ := h (fun i => decide (i < 1022)) 8192 (by decide)
  have hnone : mmFindMapPositionForSize (fun i => decide (i < 1022)) (8192 : Nat) = none := by
    decide +kernel
  have hfound := (hleast 1022).2 ⟨by decide, fun k _ => by simp, fun p hp hfree => ?_⟩
  · rw [hnone] at hfound
    cases hfound
  · have hfirst := hfree 0 (by decide)
    simpa using hfirst

end CheatEngine.Dbvm
