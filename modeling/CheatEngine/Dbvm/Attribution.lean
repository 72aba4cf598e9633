/-
  CheatEngine.Dbvm.Attribution

  Which of the watches of a page `ept_handleWatchEvent` takes an event for.  Its loop asks
  for the type of the watch found so far and not of the one it looks at, so the first
  watch of another type ends the search.
-/
import CheatEngine.Dbvm.Watch

namespace CheatEngine.Dbvm

open CheatEngine.Lib

namespace WatchState

variable {κ : Type} {s : WatchState κ} {l : List WatchEntry} {violation : Violation}
  {address : Nat} {ID k n : Nat}

/-- An event with this violation at this address belongs to the watch: it is active, the
    address is in its range, and its type fits. -/
def Belongs (violation : Violation) (address : Nat) (w : WatchEntry) : Prop :=
  w.isPerfectMatch address = true ∧ violation.isFor w.type = true

/-- `ept_handleWatchEvent` takes the event for a watch that it belongs to. -/
def Attributed (s : WatchState κ) (violation : Violation) (address : Nat) : Prop :=
  ∃ ID w, s.eventWatch violation address = some ID ∧ s.eptWatchList[ID]? = some w ∧
    Belongs violation address w

/-- The type of entry `i` fits, if it is an active watch of the page. -/
def FitsIfWatching (l : List WatchEntry) (violation : Violation) (address i : Nat) : Prop :=
  ∀ w, l[i]? = some w → w.isMatch (pageOf address) = true → violation.isFor w.type = true

/-- The event belongs to entry `g`, a watch of its page, and from `k` to there all watches of
    the page fit. -/
def Reached (l : List WatchEntry) (violation : Violation) (address k g : Nat) : Prop :=
  (∃ w, l[g]? = some w ∧ w.page = pageOf address ∧ Belongs violation address w) ∧
    ∀ i, k ≤ i → i < g → FitsIfWatching l violation address i

/-! ## The loop -/

variable {w : WatchEntry}

theorem selectWatch_stuck (hw : l[ID]? = some w)
    (hfor : violation.isFor w.type = false) (is : List Nat) :
    selectWatch l violation address ID is = ID := by
  induction is with
  | nil => rfl
  | cons i is ih =>
    rw [selectWatch, hw, Option.any_some, hfor, Bool.and_false]
    exact ih

/-- One round with a watch found that fits: it is taken at once, taken for now, or passed. -/
theorem selectWatch_cons {w' : WatchEntry} {i : Nat} {is : List Nat} (hw : l[ID]? = some w)
    (hfor : violation.isFor w.type = true) (hi : l[i]? = some w') :
    selectWatch l violation address ID (i :: is) =
      if w'.isMatch (pageOf address) = true then
        if w'.isPerfectMatch address = true then i else selectWatch l violation address i is
      else selectWatch l violation address ID is := by
  rw [selectWatch, hw, hi]
  simp only [Option.any_some, hfor, Bool.and_true]

theorem Reached.eq_of_not_fits {g : Nat} (h : Reached l violation address k g) (hk : k ≤ g)
    (hw : l[k]? = some w) (hmatch : w.isMatch (pageOf address) = true)
    (hfor : violation.isFor w.type = false) : False := by
  rcases Nat.eq_or_lt_of_le hk with rfl | hlt
  · obtain ⟨⟨w', hw', -, hbelongs⟩, -⟩ := h
    obtain rfl := Option.some.inj (hw.symm.trans hw')
    exact Bool.false_ne_true (hfor.symm.trans hbelongs.2)
  · exact Bool.false_ne_true (hfor.symm.trans (h.2 k (Nat.le_refl k) hlt w hw hmatch))

theorem exists_reached_succ_iff (hfits : FitsIfWatching l violation address k)
    (hnot : ¬ ∃ w, l[k]? = some w ∧ w.page = pageOf address ∧ Belongs violation address w) :
    (∃ g, k + 1 ≤ g ∧ Reached l violation address (k + 1) g) ↔
      ∃ g, k ≤ g ∧ Reached l violation address k g := by
  constructor
  · rintro ⟨g, hg, hfound, hbetween⟩
    refine ⟨g, by omega, hfound, fun i hi hig => ?_⟩
    rcases Nat.eq_or_lt_of_le hi with rfl | hlt
    · exact hfits
    · exact hbetween i hlt hig
  · rintro ⟨g, hg, hfound, hbetween⟩
    rcases Nat.eq_or_lt_of_le hg with rfl | hlt
    · exact absurd hfound hnot
    · exact ⟨g, hlt, hfound, fun i hi hig => hbetween i (by omega) hig⟩

/-- Entry `k` is a watch of the page that the loop came to: it is taken at once, or for now. -/
theorem found_iff (hk : l[k]? = some w) (hmatch : w.isMatch (pageOf address) = true)
    (hrest : violation.isFor w.type = true → w.isPerfectMatch address = false →
      ((∃ w', l[selectWatch l violation address k (List.range' (k + 1) n)]? = some w' ∧
          Belongs violation address w') ↔
        ∃ g, k + 1 ≤ g ∧ Reached l violation address (k + 1) g)) :
    (∃ w', l[if w.isPerfectMatch address = true then k
          else selectWatch l violation address k (List.range' (k + 1) n)]? = some w' ∧
        Belongs violation address w') ↔
      ∃ g, k ≤ g ∧ Reached l violation address k g := by
  cases hfor : violation.isFor w.type with
  | false =>
    -- it hides all behind it
    have hID : (if w.isPerfectMatch address = true then k
        else selectWatch l violation address k (List.range' (k + 1) n)) = k := by
      split
      · rfl
      · exact selectWatch_stuck hk hfor _
    rw [hID]
    constructor
    · rintro ⟨w', hw', hbelongs⟩
      obtain rfl := Option.some.inj (hk.symm.trans hw')
      exact absurd (hfor.symm.trans hbelongs.2) Bool.false_ne_true
    · rintro ⟨g, hg, hreached⟩
      exact (hreached.eq_of_not_fits hg hk hmatch hfor).elim
  | true =>
    by_cases hperfect : w.isPerfectMatch address = true
    · rw [if_pos hperfect]
      have hpage := (isMatch_iff.1 hmatch).2
      refine ⟨fun _ => ⟨k, Nat.le_refl k, ⟨w, hk, hpage, hperfect, hfor⟩, ?_⟩,
        fun _ => ⟨w, hk, hperfect, hfor⟩⟩
      intro i hi hik
      omega
    · rw [if_neg hperfect, hrest hfor (Bool.eq_false_iff.2 hperfect)]
      refine exists_reached_succ_iff (fun w' hw' _ => ?_) ?_
      · obtain rfl := Option.some.inj (hk.symm.trans hw')
        exact hfor
      · rintro ⟨w', hw', -, hbelongs⟩
        obtain rfl := Option.some.inj (hk.symm.trans hw')
        exact hperfect hbelongs.1

theorem selectWatch_iff (hw : l[ID]? = some w)
    (hfor : violation.isFor w.type = true) (hperfect : w.isPerfectMatch address = false)
    (hn : k + n = l.length) :
    (∃ w', l[selectWatch l violation address ID (List.range' k n)]? = some w' ∧
        Belongs violation address w') ↔
      ∃ g, k ≤ g ∧ Reached l violation address k g := by
  induction n generalizing k ID w with
  | zero =>
    constructor
    · rintro ⟨w', hw', hbelongs⟩
      obtain rfl := Option.some.inj (hw.symm.trans hw')
      exact absurd (hperfect.symm.trans hbelongs.1) Bool.false_ne_true
    · rintro ⟨g, hg, ⟨w', hw', -⟩, -⟩
      obtain ⟨hlt, -⟩ := List.getElem?_eq_some_iff.1 hw'
      omega
  | succ n ih =>
    have hlt : k < l.length := by omega
    obtain ⟨wk, hk⟩ : ∃ wk, l[k]? = some wk := ⟨l[k], List.getElem?_eq_getElem hlt⟩
    rw [List.range'_succ, selectWatch_cons hw hfor hk]
    by_cases hmatch : wk.isMatch (pageOf address) = true
    · rw [if_pos hmatch]
      exact found_iff hk hmatch fun hkfor hkperfect => ih hk hkfor hkperfect (by omega)
    · rw [if_neg hmatch, ih hw hfor hperfect (by omega)]
      refine exists_reached_succ_iff (fun w' hw' hmatch' => ?_) ?_
      · obtain rfl := Option.some.inj (hk.symm.trans hw')
        exact absurd hmatch' hmatch
      · rintro ⟨w', hw', hpage, hbelongs⟩
        obtain rfl := Option.some.inj (hk.symm.trans hw')
        exact hmatch (isMatch_iff.2 ⟨(Bool.and_eq_true_iff.1 hbelongs.1).1, hpage⟩)

/-- For every list of watches and every violation: the event is taken for a watch that it
    belongs to if and only if it belongs to a watch of its page in front of which every
    active watch of the page is of a type that fits. -/
theorem attributed_iff (s : WatchState κ) (violation : Violation) (address : Nat) :
    s.Attributed violation address ↔ ∃ g, Reached s.eptWatchList violation address 0 g := by
  rw [Attributed, eventWatch]
  cases hfirst : s.eptWatchList.findIdx? (·.isMatch (pageOf address)) with
  | none =>
    have hnone := List.findIdx?_eq_none_iff.1 hfirst
    constructor
    · rintro ⟨ID, w, heq, -⟩
      cases heq
    · rintro ⟨g, ⟨w, hw, hpage, hbelongs⟩, -⟩
      have hmatch := isMatch_iff.2 ⟨(Bool.and_eq_true_iff.1 hbelongs.1).1, hpage⟩
      exact absurd hmatch (Bool.eq_false_iff.1 (hnone w (List.mem_of_getElem? hw)))
  | some ID =>
    obtain ⟨hlt, hmatch, hbefore⟩ := List.findIdx?_eq_some_iff_getElem.1 hfirst
    have hID : s.eptWatchList[ID]? = some s.eptWatchList[ID] := List.getElem?_eq_getElem hlt
    obtain ⟨n, hn⟩ : ∃ n, s.eptWatchList.length - ID = n + 1 := ⟨s.eptWatchList.length - ID - 1, by omega⟩
    rw [Option.map_some, hn, List.range'_succ]
    -- the loop starts with the watch it starts from
    have hselect : selectWatch s.eptWatchList violation address ID (ID :: List.range' (ID + 1) n) =
        if s.eptWatchList[ID].isPerfectMatch address = true then ID
        else selectWatch s.eptWatchList violation address ID (List.range' (ID + 1) n) := by
      cases hfor : violation.isFor s.eptWatchList[ID].type with
      | true => rw [selectWatch_cons hID hfor hID, if_pos hmatch]
      | false =>
        rw [selectWatch_stuck hID hfor, selectWatch_stuck hID hfor]
        exact (ite_self ID).symm
    have hfound := found_iff hID hmatch
      fun (hfor : violation.isFor s.eptWatchList[ID].type = true) hperfect =>
        selectWatch_iff (n := n) hID hfor hperfect (by omega)
    rw [hselect]
    constructor
    · rintro ⟨ID', w, heq, hw, hbelongs⟩
      obtain rfl := Option.some.inj heq
      obtain ⟨g, -, hreached, hbetween⟩ := hfound.1 ⟨w, hw, hbelongs⟩
      refine ⟨g, hreached, fun i _ hig w' hw' hmatch' => ?_⟩
      by_cases hi : i < ID
      · -- no watch of the page is in front of the first
        obtain ⟨hlt', rfl⟩ := List.getElem?_eq_some_iff.1 hw'
        exact absurd hmatch' (hbefore i hi)
      · exact hbetween i (by omega) hig w' hw' hmatch'
    · rintro ⟨g, ⟨w, hw, hpage, hbelongs⟩, hbetween⟩
      have hg : ID ≤ g := by
        by_contra hlt'
        obtain ⟨_, rfl⟩ := List.getElem?_eq_some_iff.1 hw
        have hmatch' := isMatch_iff.2 ⟨(Bool.and_eq_true_iff.1 hbelongs.1).1, hpage⟩
        exact absurd hmatch' (hbefore g (by omega))
      obtain ⟨w', hw', hbelongs'⟩ := hfound.2
        ⟨g, hg, ⟨w, hw, hpage, hbelongs⟩, fun i _ hig => hbetween i (Nat.zero_le i) hig⟩
      exact ⟨_, w', rfl, hw', hbelongs'⟩

/-- An execute watch behind a write watch on the same page. -/
def writeAndExecute : WatchState Unit :=
  exec (step true) oneCpu
    [.activate ⟨0x1000, 8, .write, 0, 16, 0, 0⟩ fun _ => true,
      .activate ⟨0x1100, 1, .execute, 0, 16, 0, 0⟩ fun _ => true]

/-- The instruction of the execute watch is taken for the write watch. -/
theorem not_attributed : ¬ ∀ (s : WatchState Unit) (violation : Violation) (address : Nat),
    (∃ w ∈ s.eptWatchList, Belongs violation address w) → s.Attributed violation address := by
  intro hall
  obtain ⟨ID, w, hID, hw, hbelongs⟩ := hall writeAndExecute (.ept false false true true false false)
    0x1100 ⟨⟨0x1100, 1, .execute, 0, 0, 0, true⟩, by decide, by decide, by decide⟩
  have hfirst : writeAndExecute.eventWatch (.ept false false true true false false) 0x1100 = some 0 := by
    decide
  obtain rfl := Option.some.inj (hfirst.symm.trans hID)
  have hwrite : writeAndExecute.eptWatchList[0]? = some ⟨0x1000, 8, .write, 0, 0, 0, true⟩ := by
    decide
  obtain rfl := Option.some.inj (hwrite.symm.trans hw)
  exact absurd hbelongs.2 (by decide)

end WatchState

end CheatEngine.Dbvm
