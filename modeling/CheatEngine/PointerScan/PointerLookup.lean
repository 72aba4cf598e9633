/-
  CheatEngine.PointerScan.PointerLookup

  What `findPointerValue` finds.  It follows the digits of `stopvalue` as far as there are
  values with them, and then looks above and below the next digit; that leads to the
  largest value that is not above `stopvalue`.  Where all values are above it, the smallest
  one is found instead.
-/
import CheatEngine.PointerScan.MapFile

namespace CheatEngine.PointerScan

namespace PointerMap

/-- The value without the digits from `level` on. -/
def upper (m : PointerMap) (level : Nat) (value : UInt64) : Nat :=
  value.toNat / 16 ^ (m.maxlevel + 1 - level)

variable {m : PointerMap} {level : Nat} {v w stopvalue : UInt64} {l : PointerList}
  {front previous lists : List PointerList}

theorem upper_mono (level : Nat) (h : v ≤ w) : m.upper level v ≤ m.upper level w :=
  Nat.div_le_div_right (UInt64.le_iff_toNat_le.1 h)

theorem upper_succ (hlevel : level ≤ m.maxlevel) (v : UInt64) :
    m.upper level v = m.upper (level + 1) v / 16 ∧
      m.entrynr level v = m.upper (level + 1) v % 16 := by
  rw [upper, upper, entrynr, Nat.add_sub_add_right, Nat.div_div_eq_div_mul, ← Nat.pow_succ,
    Nat.succ_eq_add_one, Nat.sub_add_comm hlevel]
  exact ⟨rfl, rfl⟩

theorem sharesPath_iff (hv : v.toNat < 16 ^ (m.maxlevel + 1))
    (hw : w.toNat < 16 ^ (m.maxlevel + 1)) (hlevel : level ≤ m.maxlevel + 1) :
    m.SharesPath level v w ↔ m.upper level v = m.upper level w := by
  induction level with
  | zero =>
    rw [upper, upper, Nat.sub_zero, Nat.div_eq_of_lt hv, Nat.div_eq_of_lt hw]
    exact ⟨fun _ => rfl, fun _ => nofun⟩
  | succ level ih =>
    have hlt : level ≤ m.maxlevel := Nat.le_of_lt_succ hlevel
    have hstep : m.SharesPath (level + 1) v w ↔
        m.SharesPath level v w ∧ m.entrynr level v = m.entrynr level w := by
      simp only [SharesPath, Nat.lt_succ_iff_lt_or_eq, or_imp, forall_and, forall_eq]
    rw [hstep, ih (Nat.le_of_lt hlevel), (upper_succ hlt v).1, (upper_succ hlt v).2,
      (upper_succ hlt w).1, (upper_succ hlt w).2]
    omega

theorem fromLast_cases {α : Type} (P : α → Bool) (xs : List α) :
    (fromLast P xs = [] ∧ ∀ x ∈ xs, ¬ P x = true) ∨
      ∃ front x rest, fromLast P xs = x :: rest ∧ P x = true ∧ xs = front ++ x :: rest := by
  induction xs with
  | nil => exact .inl ⟨rfl, nofun⟩
  | cons y ys ih =>
    rw [fromLast]
    rcases ih with ⟨hnil, hnone⟩ | ⟨front, x, rest, hcons, hx, rfl⟩
    · rw [hnil]
      by_cases hy : P y = true
      · exact .inr ⟨[], y, ys, by simp [hy], hy, rfl⟩
      · exact .inl ⟨by simp [hy], List.forall_mem_cons.2 ⟨hy, hnone⟩⟩
    · rw [hcons]
      exact .inr ⟨y :: front, x, rest, rfl, hx, rfl⟩

theorem dropWhile_cases {α : Type} (P : α → Prop) [DecidablePred P] (xs : List α) :
    (xs.dropWhile (fun x => ¬ P x) = [] ∧ ∀ x ∈ xs, ¬ P x) ∨
      ∃ front x rest, xs.dropWhile (fun x => ¬ P x) = x :: rest ∧ P x ∧
        (∀ y ∈ front, ¬ P y) ∧ xs = front ++ x :: rest := by
  induction xs with
  | nil => exact .inl ⟨rfl, nofun⟩
  | cons y ys ih =>
    by_cases hy : P y
    · exact .inr ⟨[], y, ys, by simp [hy], hy, nofun, rfl⟩
    · rcases ih with ⟨hnil, hnone⟩ | ⟨front, x, rest, hcons, hx, hfront, rfl⟩
      · exact .inl ⟨by simpa [hy] using hnil, List.forall_mem_cons.2 ⟨hy, hnone⟩⟩
      · exact .inr ⟨y :: front, x, rest, by simpa [hy] using hcons, hx,
          List.forall_mem_cons.2 ⟨hy, hfront⟩, rfl⟩

theorem notAbove_append (hfront : ∀ x ∈ front, stopvalue < x.pointervalue) :
    m.notAbove stopvalue (front ++ lists) = m.notAbove stopvalue lists := by
  rw [notAbove, notAbove, List.dropWhile_append_of_pos (by simpa using hfront)]

theorem larger_of_before
    (hdescending : m.lists.Pairwise fun l l' => l'.pointervalue < l.pointervalue)
    (hlists : m.lists = front ++ l :: previous) : ∀ x ∈ front, l.pointervalue < x.pointervalue := by
  rw [hlists, List.pairwise_append] at hdescending
  exact fun x hx => hdescending.2.2 x hx l List.mem_cons_self

section

variable (hdescending : m.lists.Pairwise fun l l' => l'.pointervalue < l.pointervalue)
  (hvalues : ∀ l ∈ m.lists, l.pointervalue.toNat < 16 ^ (m.maxlevel + 1))
  (hstop : stopvalue.toNat < 16 ^ (m.maxlevel + 1))
include hdescending hvalues hstop

/-- Where values have the digits of `stopvalue` up to a level, but none has the next one. -/
theorem findClosestPointer_eq (hlevel : level ≤ m.maxlevel)
    (hsome : m.lists = [] ∨ ∃ l ∈ m.lists, m.SharesPath level l.pointervalue stopvalue)
    (hnone : ∀ l ∈ m.lists, ¬ m.SharesPath (level + 1) l.pointervalue stopvalue) :
    m.findClosestPointer level stopvalue = m.notAbove stopvalue m.lists := by
  have hshares : ∀ l ∈ m.lists, m.SharesPath level l.pointervalue stopvalue ↔
      m.upper level l.pointervalue = m.upper level stopvalue := fun l hl =>
    sharesPath_iff (hvalues l hl) hstop (Nat.le_succ_of_le hlevel)
  have hne : ∀ l ∈ m.lists, m.upper (level + 1) l.pointervalue ≠ m.upper (level + 1) stopvalue :=
    fun l hl => mt (sharesPath_iff (hvalues l hl) hstop (Nat.succ_le_succ hlevel)).2 (hnone l hl)
  have hupper := upper_succ (m := m) hlevel
  unfold findClosestPointer
  rcases fromLast_cases (fun l => m.SharesPath level l.pointervalue stopvalue ∧
    m.entrynr level stopvalue < m.entrynr level l.pointervalue) m.lists with
    ⟨hnil, habove⟩ | ⟨front, l, previous, hcons, hl, hlists⟩
  · rw [hnil]
    rcases dropWhile_cases (fun l : PointerList => m.SharesPath level l.pointervalue stopvalue ∧
      m.entrynr level l.pointervalue < m.entrynr level stopvalue) m.lists with
      ⟨hnil', hbelow⟩ | ⟨front, l, previous, hcons, hl, hfront, hlists⟩
    · rcases hsome with hempty | ⟨l, hl, hshare⟩
      · simp [hempty, notAbove, firstPointerValue]
      · have hsame := (hshares l hl).1 hshare
        have hdigit := hne l hl
        have hnot := habove l hl
        have hnot' := hbelow l hl
        simp only [hshare, true_and, decide_eq_true_eq] at hnot hnot'
        have hl' := hupper l.pointervalue
        have hs := hupper stopvalue
        omega
    · -- what is before the largest value below would be found itself, if it were not above
      have habove' : ∀ x ∈ front, stopvalue < x.pointervalue := by
        intro x hx
        by_contra hnot
        have hmem : x ∈ m.lists := hlists ▸ List.mem_append_left _ hx
        have hlmem : l ∈ m.lists := hlists ▸ List.mem_append_right _ List.mem_cons_self
        have hle := UInt64.not_lt.1 hnot
        have hlow := upper_mono (m := m) level
          (UInt64.le_of_lt (larger_of_before hdescending hlists x hx))
        have hhigh := upper_mono (m := m) level hle
        have hnext := upper_mono (m := m) (level + 1) hle
        have hsame := (hshares l hlmem).1 hl.1
        have hdigit := hne x hmem
        refine hfront x hx ⟨(hshares x hmem).2 (by omega), ?_⟩
        have hx' := hupper x.pointervalue
        have hs := hupper stopvalue
        omega
      simp only [hcons]
      conv_rhs => rw [hlists, notAbove_append habove']
  · -- the smallest value above, and so all before it, are above `stopvalue`
    simp only [decide_eq_true_eq] at hl
    have hmem : l ∈ m.lists := hlists ▸ List.mem_append_right _ List.mem_cons_self
    have habove : stopvalue < l.pointervalue := by
      by_contra hnot
      have hnext := upper_mono (m := m) (level + 1) (UInt64.not_lt.1 hnot)
      have hsame := (hshares l hmem).1 hl.1
      have hl' := hupper l.pointervalue
      have hs := hupper stopvalue
      omega
    have hfront : ∀ x ∈ front, stopvalue < x.pointervalue := fun x hx =>
      UInt64.lt_trans habove (larger_of_before hdescending hlists x hx)
    simp only [hcons]
    conv_rhs => rw [hlists, notAbove_append hfront]

theorem descend_eq {n : Nat} (hn : n + level = m.maxlevel + 1)
    (hsome : m.lists = [] ∨ ∃ l ∈ m.lists, m.SharesPath level l.pointervalue stopvalue) :
    m.descend stopvalue n level = m.notAbove stopvalue m.lists := by
  induction n generalizing level with
  | zero =>
    rw [descend]
    rcases dropWhile_cases (fun l : PointerList =>
      m.SharesPath (m.maxlevel + 1) l.pointervalue stopvalue) m.lists with
      ⟨hnil, hnone⟩ | ⟨front, l, previous, hcons, hl, -, hlists⟩
    · rcases hsome with hempty | ⟨l, hl, hshare⟩
      · simp [hempty, notAbove, firstPointerValue]
      · obtain rfl : level = m.maxlevel + 1 := by omega
        exact absurd hshare (hnone l hl)
    · have hmem : l ∈ m.lists := hlists ▸ List.mem_append_right _ List.mem_cons_self
      obtain rfl := hl.eq (hvalues l hmem) hstop
      rw [hcons]
      conv_rhs => rw [hlists, notAbove_append (larger_of_before hdescending hlists)]
      simp [notAbove]
  | succ n ih =>
    rw [descend]
    split
    · next hany =>
      refine ih (by omega) (.inr ?_)
      simpa using hany
    · next hany =>
      refine findClosestPointer_eq hdescending hvalues hstop (by omega) hsome ?_
      simpa using hany

end

theorem mem_takeWhile_iff {startvalue : UInt64}
    (hdescending : lists.Pairwise fun l l' => l'.pointervalue < l.pointervalue) :
    (l ∈ lists.takeWhile fun l => startvalue ≤ l.pointervalue) ↔
      l ∈ lists ∧ startvalue ≤ l.pointervalue := by
  induction lists with
  | nil => simp
  | cons l' lists ih =>
    obtain ⟨hfirst, hdescending⟩ := List.pairwise_cons.1 hdescending
    by_cases hle : startvalue ≤ l'.pointervalue
    · simp only [List.takeWhile_cons, hle, decide_true, if_true, List.mem_cons, ih hdescending]
      grind
    · have hbelow : ∀ l ∈ lists, ¬ startvalue ≤ l.pointervalue := fun l hl hge =>
        hle (UInt64.le_trans hge (UInt64.le_of_lt (hfirst l hl)))
      simp only [List.takeWhile_cons, hle, decide_false, List.mem_cons]
      grind

end PointerMap

/-- A value in the window up to `stopvalue`, or the smallest one when all are above it. -/
def PointerMap.InReach (m : PointerMap) (stopvalue : UInt64) (l : PointerList) : Prop :=
  l.pointervalue ≤ stopvalue ∨
    ∀ l' ∈ m.lists, stopvalue < l'.pointervalue ∧ l.pointervalue ≤ l'.pointervalue

namespace BuiltMap

variable (h : BuiltMap) {stopvalue : UInt64} {l : PointerList}

/-- `notAbove` leaves out the lists that are not in reach. -/
theorem exists_split : ∃ front, h.map.lists = front ++ h.map.notAbove stopvalue h.map.lists ∧
    (∀ l ∈ front, ¬ h.map.InReach stopvalue l) ∧
    ∀ l ∈ h.map.notAbove stopvalue h.map.lists, h.map.InReach stopvalue l := by
  have hout : ∀ {x y}, stopvalue < x.pointervalue → y ∈ h.map.lists →
      y.pointervalue < x.pointervalue → ¬ h.map.InReach stopvalue x := by
    rintro x y habove hy hlt (hle | hall)
    · exact UInt64.not_le.2 habove hle
    · exact UInt64.not_le.2 hlt (hall y hy).2
  have hcases := PointerMap.dropWhile_cases (fun l => l.pointervalue ≤ stopvalue) h.map.lists
  simp only [UInt64.not_le] at hcases
  rw [PointerMap.notAbove]
  rcases hcases with ⟨hnil, habove⟩ | ⟨front, plist, previous, hcons, hle, habove, hsplit⟩
  · rw [hnil, PointerMap.firstPointerValue]
    rcases List.eq_nil_or_concat' h.map.lists with hnone | ⟨front, last, hsplit⟩
    · simp [hnone]
    · have hsmallest := PointerMap.larger_of_before h.descending hsplit
      have hlast : (front ++ [last]).drop ((front ++ [last]).length - 1) = [last] := by simp
      have hmem : last ∈ h.map.lists := by simp [hsplit]
      refine ⟨front, by rw [hsplit, hlast], fun x hx => ?_, fun x hx => .inr fun y hy => ?_⟩
      · exact hout (habove x (by simp [hsplit, hx])) hmem (hsmallest x hx)
      · rw [hsplit, hlast] at hx
        obtain rfl := List.mem_singleton.1 hx
        refine ⟨habove y hy, ?_⟩
        rcases List.mem_append.1 (hsplit ▸ hy) with hy | hy
        · exact UInt64.le_of_lt (hsmallest y hy)
        · exact List.mem_singleton.1 hy ▸ UInt64.le_refl _
  · have hmem : plist ∈ h.map.lists := by simp [hsplit]
    rw [hcons]
    refine ⟨front, hsplit, fun x hx => ?_, fun x hx => .inl ?_⟩
    · exact hout (habove x hx) hmem (PointerMap.larger_of_before h.descending hsplit x hx)
    · have hdescending := h.descending
      rw [hsplit, List.pairwise_append] at hdescending
      rcases List.mem_cons.1 hx with rfl | hx
      · exact hle
      · exact UInt64.le_trans (UInt64.le_of_lt (List.rel_of_pairwise_cons hdescending.2.1 hx)) hle

/-- The lists that are found, up to the first one below `startvalue`. -/
theorem mem_found_iff (startvalue : UInt64)
    (hstop : stopvalue.toNat < 16 ^ (h.map.maxlevel + 1)) :
    (l ∈ (h.map.findPointerValue startvalue stopvalue).takeWhile fun l =>
        startvalue ≤ l.pointervalue) ↔
      l ∈ h.map.lists ∧ startvalue ≤ l.pointervalue ∧ h.map.InReach stopvalue l := by
  have hsome : h.map.lists = [] ∨ ∃ l ∈ h.map.lists, h.map.SharesPath 0 l.pointervalue stopvalue :=
    (List.eq_nil_or_concat' h.map.lists).imp_right fun ⟨_, l, hl⟩ =>
      ⟨l, hl ▸ List.mem_append_right _ (List.mem_singleton_self l), fun _ => nofun⟩
  have hlists : ((h.map.findPointerValue startvalue stopvalue).takeWhile fun l =>
      startvalue ≤ l.pointervalue) =
      (h.map.notAbove stopvalue h.map.lists).takeWhile fun l => startvalue ≤ l.pointervalue := by
    rw [PointerMap.findPointerValue,
      PointerMap.descend_eq h.descending h.values hstop (Nat.add_zero _) hsome]
    cases h.map.notAbove stopvalue h.map.lists with
    | nil => rfl
    | cons plist previous =>
      by_cases hbelow : plist.pointervalue < startvalue
      · simp [hbelow, UInt64.not_le.2 hbelow]
      · simp [hbelow]
  obtain ⟨front, hsplit, hout, hin⟩ := @exists_split h stopvalue
  have hdescending := h.descending
  rw [hsplit, List.pairwise_append] at hdescending
  rw [hlists, PointerMap.mem_takeWhile_iff hdescending.2.1]
  constructor
  · rintro ⟨hl, hge⟩
    exact ⟨hsplit ▸ List.mem_append_right _ hl, hge, hin l hl⟩
  · rintro ⟨hl, hge, hreach⟩
    rw [hsplit] at hl
    exact ⟨(List.mem_append.1 hl).resolve_left fun hfront => hout l hfront hreach, hge⟩

end BuiltMap

end CheatEngine.PointerScan
