/-
  CheatEngine.Dbvm.HideDbvm

  `ept_hideDBVMPhysicalAddresses` (epthandler.c) on Intel: every entry of DBVM's own
  page tables is reported to a callback, which maps the physical page in the EPT of the
  CPU as a small page and lets it lead to a frame that is not there.

  The callback ignores the size of the entry.  Of a 2 MB page only the page that the
  entry names is hidden, and the other 511 stay readable for the guest.
-/
import CheatEngine.Dbvm.EnumPages
import CheatEngine.Dbvm.EptMapping

namespace CheatEngine.Dbvm

open CheatEngine.Lib

/-- `MAXPHYADDRMASK >> 13` in a field of 36 bits. -/
def EptPlatform.dummyFrame (P : EptPlatform) : Nat := (2 ^ P.maxphyaddr - 1) / 2 ^ 13 % 2 ^ 36

/-- `eptentry->PFN=MAXPHYADDRMASK >> 13` and `eptentry->MEMTYPE = 0`. -/
def EptEntry.hide (P : EptPlatform) (e : EptEntry) : EptEntry :=
  { e with page := e.page / 2 ^ 36 * 2 ^ 36 + P.dummyFrame, MEMTYPE := 0 }

/-- `ept_hideDBVMPhysicalAddresses_callbackIntel`; `malloc2` gives pages by what is
    allocated. -/
def hideCallbackIntel (P : EptPlatform) (malloc2 : EptTables → List Nat) (s : EptTables)
    (e : EnumEntry) : Option EptTables := do
  let (s, eptentryAddress) ← eptMapPhysicalMemory P s (malloc2 s) e.PhysicalAddress true
  let table := eptentryAddress / 4096
  let index := eptentryAddress % 4096 / 8
  some (s.write table index ((s.mem table index).hide P))

def eptHideDBVMPhysicalAddresses (P : EptPlatform) (malloc2 : EptTables → List Nat)
    (T : DbvmTables) (s : EptTables) : Option EptTables :=
  execM (hideCallbackIntel P malloc2) s (T.mmEnumAllPageEntries true)

/-! ## One entry -/

/-- The entry of a page table holds a frame of 36 bits, whatever it allows. -/
def FrameEntry (m : Nat) (e : EptEntry) : Prop := m < 2 ^ 36 → e.page < 2 ^ 36

theorem frameEntry_last {P : EptPlatform} {m : Nat} {e e' : EptEntry} (h : FrameEntry m e)
    (he' : lastEntry P m e = some e') : FrameEntry m e' := by
  intro hm
  obtain ⟨e'', he'', -, hpage⟩ := lastEntry_spec P m e
  obtain rfl : e'' = e' := Option.some.inj (he''.symm.trans he')
  rcases hpage with ⟨-, hpage⟩ | ⟨-, hpage⟩
  · rw [hpage]
    exact h hm
  · rw [hpage]
    exact hm

/-- The page leads to the dummy frame, through a page table. -/
def HiddenAt (P : EptPlatform) (s : EptTables) (page : Nat) : Prop :=
  ∃ leaf, s.walk page = some leaf ∧ leaf.level = 0 ∧ leaf.page = P.dummyFrame

theorem HiddenAt.keeps {P : EptPlatform} {s s' : EptTables} {page : Nat}
    (h : HiddenAt P s page) (hkeeps : KeepsWalk s s' page) : HiddenAt P s' page := by
  obtain ⟨leaf, hleaf, hlevel, hpage⟩ := h
  rcases hkeeps with hsame | ⟨hbig, -⟩
  · exact ⟨leaf, hsame.trans hleaf, hlevel, hpage⟩
  · have := hbig leaf hleaf
    omega

section Callback

variable {P : EptPlatform} {malloc2 : EptTables → List Nat} {s : EptTables} {roles : Roles}
  {e : EnumEntry}

theorem EptPlatform.dummyFrame_lt (P : EptPlatform) : P.dummyFrame < 2 ^ 36 :=
  Nat.mod_lt _ (by decide)

theorem Shape.hide (hs : Shape FrameEntry s roles) {page : Nat} (h48 : page < 2 ^ 36)
    {leaf : EptLeaf} (hleaf : walkFrom s.mem 3 s.pml4 page = some leaf) (hlevel : leaf.level = 0)
    (P : EptPlatform) :
    leaf.index = tableIndex 0 page ∧
      Shape FrameEntry (s.write leaf.table leaf.index ((s.mem leaf.table leaf.index).hide P)) roles ∧
      HiddenAt P (s.write leaf.table leaf.index ((s.mem leaf.table leaf.index).hide P)) page ∧
      ∀ p, p ≠ page →
        KeepsWalk s (s.write leaf.table leaf.index ((s.mem leaf.table leaf.index).hide P)) p := by
  have hroot := hs.root_part h48
  obtain ⟨-, hindex, hr⟩ := hs.walkFrom_of_changes (.refl roles page s) hroot hleaf hlevel
  rw [hindex]
  generalize hhide : (s.mem leaf.table (tableIndex 0 page)).hide P = e
  have hentry : FrameEntry page (s.mem leaf.table (tableIndex 0 page)) ∧
      (s.mem leaf.table (tableIndex 0 page)).present = true := by
    rcases hs.leaf_cases hroot hleaf with ⟨hpos, -⟩ | ⟨-, hsmall, hpresent, -⟩
    · omega
    · exact ⟨hsmall, hpresent⟩
  -- the upper bits of the frame are zero already
  have hpage : e.page = P.dummyFrame := by
    have hlt := hentry.1 h48
    simp only [← hhide, EptEntry.hide]
    omega
  have hpresent : e.present = true := hhide ▸ hentry.2
  have hwrite : Changes roles page s (s.write leaf.table (tableIndex 0 page) e) :=
    .write hr rfl (hs.owned _ _ hr) (Or.inl rfl) e
  refine ⟨rfl, hs.write hr ?_, ?_, fun p hp => Or.inl (hs.walk_write_small hr hp _)⟩
  · rw [part_tableIndex]
    simp only [Nat.mul_zero, Nat.pow_zero, Nat.div_one]
    exact .small fun _ => hpage ▸ P.dummyFrame_lt
  · obtain ⟨hpath, -⟩ := hs.walkFrom_of_changes hwrite hroot hleaf hlevel
    refine ⟨⟨leaf.table, tableIndex 0 page, 0, P.dummyFrame, e.RA, e.WA, e.XA⟩, ?_, rfl, rfl⟩
    rw [EptTables.walk_of_lt h48, EptTables.write_pml4, hpath]
    simp only [walkFrom, EptTables.write_self, hpresent, hpage, if_true]

theorem hideCallbackIntel_spec (hs : Shape FrameEntry s roles)
    (hf : Fresh P s (malloc2 s) ∧ 3 ≤ (malloc2 s).length)
    (hmax : e.PhysicalAddress / 4096 < 2 ^ (P.maxphyaddr - 12))
    (h48 : e.PhysicalAddress / 4096 < 2 ^ 36) :
    ∃ s' roles', hideCallbackIntel P malloc2 s e = some s' ∧ Shape FrameEntry s' roles' ∧
      HiddenAt P s' (e.PhysicalAddress / 4096) ∧
      ∀ page, page ≠ e.PhysicalAddress / 4096 → KeepsWalk s s' page := by
  obtain ⟨s₁, address, roles₁, leaf, hrun, hmapped⟩ :=
    eptMapPhysicalMemory_spec hs (fun _ _ => by decide) (fun _ _ _ => frameEntry_last) hf.1 hf.2
      hmax h48 fun h : true = false => nomatch h
  have hlevel : leaf.level = 0 := hmapped.level.resolve_right (by decide)
  have hwalk := hmapped.walk
  rw [← hmapped.changes.pml4] at hwalk
  obtain ⟨hindex, hshape, hhidden, hkeeps⟩ := hmapped.shape.hide h48 hwalk hlevel P
  have hlt := tableIndex_lt 0 (e.PhysicalAddress / 4096)
  -- the callback comes back to the entry from its address
  have htable : address / 4096 = leaf.table := by
    have := hmapped.address
    omega
  have hslot : address % 4096 / 8 = leaf.index := by
    have := hmapped.address
    omega
  refine ⟨_, roles₁, ?_, hshape, hhidden, fun page hne =>
    (hmapped.keeps page hne).trans (hkeeps page hne)⟩
  simp [hideCallbackIntel, hrun, htable, hslot]

/-- `malloc2` has pages left for every callback of a run. -/
structure Supplied (P : EptPlatform) (malloc2 : EptTables → List Nat) (s : EptTables)
    (entries : List EnumEntry) : Prop where
  along : AlongM (hideCallbackIntel P malloc2)
    (fun s _ => Fresh P s (malloc2 s) ∧ 3 ≤ (malloc2 s).length) s entries

theorem hide_run (P : EptPlatform) (malloc2 : EptTables → List Nat) (entries : List EnumEntry)
    (hs : Shape FrameEntry s roles)
    (hpages : ∀ e ∈ entries, e.PhysicalAddress / 4096 < 2 ^ (P.maxphyaddr - 12) ∧
      e.PhysicalAddress / 4096 < 2 ^ 36)
    (hmem : Supplied P malloc2 s entries) :
    ∃ s' roles', execM (hideCallbackIntel P malloc2) s entries = some s' ∧
      Shape FrameEntry s' roles' ∧
      (∀ e ∈ entries, HiddenAt P s' (e.PhysicalAddress / 4096)) ∧
      ∀ page, (∀ e ∈ entries, e.PhysicalAddress / 4096 ≠ page) → KeepsWalk s s' page := by
  induction entries generalizing s roles with
  | nil => exact ⟨s, roles, rfl, hs, by simp, fun _ _ => Or.inl rfl⟩
  | cons e entries ih =>
    obtain ⟨hmax, h48⟩ := hpages e List.mem_cons_self
    obtain ⟨s₁, roles₁, hs₁, hshape₁, hhidden₁, hkeeps₁⟩ :=
      hideCallbackIntel_spec hs hmem.along.1 hmax h48
    obtain ⟨s', roles', hrun, hshape, hhidden, hkeeps⟩ :=
      ih hshape₁ (fun e' he' => hpages e' (List.mem_cons_of_mem e he')) ⟨hmem.along.2 s₁ hs₁⟩
    refine ⟨s', roles', ?_, hshape, ?_, ?_⟩
    · rw [execM_cons, hs₁]
      exact hrun
    · intro e' he'
      rcases List.mem_cons.1 he' with rfl | he'
      · -- hidden again by a later entry, or kept
        by_cases hlater : ∀ e ∈ entries, e.PhysicalAddress / 4096 ≠ e'.PhysicalAddress / 4096
        · exact hhidden₁.keeps (hkeeps _ hlater)
        · push Not at hlater
          obtain ⟨e'', he'', heq⟩ := hlater
          exact heq ▸ hhidden e'' he''
      · exact hhidden e' he'
    · intro page hne
      have hfirst := hne e List.mem_cons_self
      exact (hkeeps₁ page hfirst.symm).trans
        (hkeeps page fun e' he' => hne e' (List.mem_cons_of_mem e he'))

end Callback

/-! ## What is hidden -/

def EptTables.frame (s : EptTables) (page : Nat) : Option Nat := (s.walk page).map EptLeaf.page

/-- A page is not mapped now, or as before, or it was not mapped and is itself now. -/
def NotRedirected (s s' : EptTables) (page : Nat) : Prop :=
  s'.frame page = none ∨ s'.frame page = s.frame page ∨
    s.frame page = none ∧ s'.frame page = some page

/-- Exactly the memory of DBVM leads to the dummy frame. -/
def Hides (P : EptPlatform) (T : DbvmTables) (s s' : EptTables) : Prop :=
  (∀ page, T.Backs page → s'.frame page = some P.dummyFrame) ∧
    ∀ page, ¬ T.Backs page → NotRedirected s s' page

/-- Every page of DBVM's memory is itself named by an entry, and every page that an entry
    names is memory of DBVM; what led to the dummy frame before does not count. -/
def DbvmTables.Named (P : EptPlatform) (T : DbvmTables) (s : EptTables) : Prop :=
  ∀ page, s.frame page ≠ some P.dummyFrame → (T.Backs page ↔ T.Listed page)

/-- What holds of a call: the EPT is a tree; physical addresses have `MAXPHYADDR` bits;
    `malloc2` has pages left; and the dummy frame is "unallocated memory". -/
structure HideGiven (P : EptPlatform) (malloc2 : EptTables → List Nat) (T : DbvmTables)
    (s : EptTables) : Prop where
  shape : ∃ roles, Shape FrameEntry s roles
  pages : ∀ page, T.Listed page → page < 2 ^ (P.maxphyaddr - 12)
  memory : Supplied P malloc2 s (T.mmEnumAllPageEntries true)
  dummy : ¬ T.Backs P.dummyFrame ∧ ¬ T.Listed P.dummyFrame

section Hides

variable {P : EptPlatform} {T : DbvmTables} {s s' : EptTables} {roles : Roles} {page : Nat}

theorem HiddenAt.frame (h : HiddenAt P s page) : s.frame page = some P.dummyFrame := by
  obtain ⟨leaf, hleaf, -, hpage⟩ := h
  simp [EptTables.frame, hleaf, hpage]

theorem KeepsWalk.frame_eq_dummy (hs : Shape FrameEntry s roles) (h : KeepsWalk s s' page)
    (hne : page ≠ P.dummyFrame) :
    s'.frame page = some P.dummyFrame ↔ s.frame page = some P.dummyFrame := by
  rcases h with hsame | ⟨hbefore, hafter⟩
  · rw [EptTables.frame, EptTables.frame, hsame]
  · -- before and after the page is itself, if it is mapped
    refine iff_of_false (fun hframe => ?_) (fun hframe => ?_)
    · obtain ⟨leaf, hleaf, hpage⟩ := Option.map_eq_some_iff.1 hframe
      exact hne ((hafter leaf hleaf).1.symm.trans hpage)
    · obtain ⟨leaf, hleaf, hpage⟩ := Option.map_eq_some_iff.1 hframe
      have hpos := hbefore leaf hleaf
      have hlt := EptTables.lt_of_walk hleaf
      rw [EptTables.walk_of_lt hlt] at hleaf
      rcases hs.leaf_cases (hs.root_part hlt) hleaf with ⟨-, hself⟩ | ⟨hzero, -⟩
      · exact hne (hself.symm.trans hpage)
      · omega

theorem KeepsWalk.notRedirected (hs : Shape FrameEntry s roles) (h : KeepsWalk s s' page) :
    NotRedirected s s' page := by
  rcases h with hsame | ⟨hbefore, hafter⟩
  · exact Or.inr (Or.inl (by rw [EptTables.frame, EptTables.frame, hsame]))
  · cases hnow : s'.walk page with
    | none => exact Or.inl (by simp [EptTables.frame, hnow])
    | some leaf' =>
      have hself' : s'.frame page = some page := by
        simp [EptTables.frame, hnow, (hafter leaf' hnow).1]
      cases hold : s.walk page with
      | none => exact Or.inr (Or.inr ⟨by simp [EptTables.frame, hold], hself'⟩)
      | some leaf =>
        have hpos := hbefore leaf hold
        have hlt := EptTables.lt_of_walk hold
        have hwalk := hold
        rw [EptTables.walk_of_lt hlt] at hwalk
        have hself : leaf.page = page := by
          rcases hs.leaf_cases (hs.root_part hlt) hwalk with ⟨-, hself⟩ | ⟨hzero, -⟩
          · exact hself
          · omega
        have hframe : s.frame page = some page := by
          simp [EptTables.frame, hold, hself]
        exact Or.inr (Or.inl (hself'.trans hframe.symm))

theorem notRedirected_dummy (hnow : s'.frame page = some P.dummyFrame) (hne : page ≠ P.dummyFrame) :
    NotRedirected s s' page ↔ s.frame page = some P.dummyFrame := by
  unfold NotRedirected
  rw [hnow]
  constructor
  · rintro (h | h | ⟨-, h⟩)
    · cases h
    · exact h.symm
    · exact absurd (Option.some.inj h).symm hne
  · exact fun h => Or.inr (Or.inl h.symm)

/-- For physical addresses of 48 bits, the call returns, and it hides DBVM's memory
    exactly when each of its pages is named by an entry. -/
theorem hides_iff_named (P : EptPlatform) (malloc2 : EptTables → List Nat) (T : DbvmTables)
    (s : EptTables) (hgiven : HideGiven P malloc2 T s)
    (h48 : ∀ page, T.Listed page → page < 2 ^ 36) :
    ∃ s', eptHideDBVMPhysicalAddresses P malloc2 T s = some s' ∧
      (Hides P T s s' ↔ T.Named P s) := by
  obtain ⟨roles, hs⟩ := hgiven.shape
  have hpages : ∀ e ∈ T.mmEnumAllPageEntries true,
      e.PhysicalAddress / 4096 < 2 ^ (P.maxphyaddr - 12) ∧ e.PhysicalAddress / 4096 < 2 ^ 36 := by
    intro e he
    have hlisted := DbvmTables.listed_iff.2 ⟨e, he, rfl⟩
    exact ⟨hgiven.pages _ hlisted, h48 _ hlisted⟩
  obtain ⟨s', roles', hrun, -, hhidden, hkeeps⟩ :=
    hide_run P malloc2 (T.mmEnumAllPageEntries true) hs hpages hgiven.memory
  have hin : ∀ page, T.Listed page → s'.frame page = some P.dummyFrame := by
    intro page hlisted
    obtain ⟨e, he, rfl⟩ := DbvmTables.listed_iff.1 hlisted
    exact (hhidden e he).frame
  have hout : ∀ page, ¬ T.Listed page → KeepsWalk s s' page := by
    intro page hnot
    exact hkeeps page fun e he heq => hnot (DbvmTables.listed_iff.2 ⟨e, he, heq⟩)
  have hne : ∀ page, T.Backs page ∨ T.Listed page → page ≠ P.dummyFrame := by
    rintro page (h | h) rfl
    · exact hgiven.dummy.1 h
    · exact hgiven.dummy.2 h
  refine ⟨s', hrun, ?_⟩
  constructor
  · rintro ⟨hbacks, hothers⟩ page hframe
    constructor
    · intro hback
      by_contra hnot
      exact hframe ((hout page hnot).frame_eq_dummy hs (hne page (Or.inl hback)) |>.1
        (hbacks page hback))
    · intro hlisted
      by_contra hnot
      exact hframe ((notRedirected_dummy (hin page hlisted) (hne page (Or.inr hlisted))).1
        (hothers page hnot))
  · intro hnamed
    constructor
    · intro page hback
      by_cases hlisted : T.Listed page
      · exact hin page hlisted
      · refine (hout page hlisted).frame_eq_dummy hs (hne page (Or.inl hback)) |>.2 ?_
        by_contra hframe
        exact hlisted ((hnamed page hframe).1 hback)
    · intro page hback
      by_cases hlisted : T.Listed page
      · refine (notRedirected_dummy (hin page hlisted) (hne page (Or.inr hlisted))).2 ?_
        by_contra hframe
        exact hback ((hnamed page hframe).2 hlisted)
      · exact (hout page hlisted).notRedirected hs

end Hides

/-- One entry at the first address: of a page table, for page 7, or of a page directory,
    for the 2 MB from page 512 on. -/
def DbvmTables.oneEntry (big : Bool) : DbvmTables where
  pml4table i := i == 0
  pagedirptrtables i := i == 0
  pagedirtables i := ⟨i == 2, big, 512⟩
  pagetables i := ⟨i == 1024, false, 7⟩
  PhysicalPageListSize := 16
  size_lt := by decide

theorem DbvmTables.oneEntry_enum (big : Bool) :
    (oneEntry big).mmEnumAllPageEntries true =
      [if big then ⟨0x400000, 512 * 4096, 2 * 1024 * 1024⟩ else ⟨0x400000, 7 * 4096, 4096⟩] := by
  cases big <;> decide +kernel

theorem DbvmTables.oneEntry_listed {big : Bool} {page : Nat} (h : (oneEntry big).Listed page) :
    page = if big then 512 else 7 := by
  obtain ⟨e, he, rfl⟩ := listed_iff.1 h
  rw [oneEntry_enum, List.mem_singleton] at he
  subst he
  cases big <;> rfl

theorem DbvmTables.oneEntry_backs {big : Bool} {page : Nat} (h : (oneEntry big).Backs page) :
    page < 1024 := by
  obtain ⟨v, hrange, hpage⟩ := h
  obtain ⟨⟨big', field⟩, hentry, rfl⟩ := Option.map_eq_some_iff.1 hpage
  obtain ⟨-, -, hfield⟩ := entryOf_eq_some.1 hentry
  cases big' with
  | true =>
    obtain rfl : field = 512 := hfield.symm
    have hoffset := Nat.mod_lt v (show 0 < 512 by decide)
    exact Nat.add_lt_add_left hoffset 512
  | false =>
    obtain rfl : field = 7 := hfield.2.symm
    exact (by decide : 7 < 1024)

theorem HideGiven.oneEntry (big : Bool) :
    HideGiven .uniform (fun _ => [2, 3, 4]) (.oneEntry big) .zeros := by
  have hlisted : ∀ page, (DbvmTables.oneEntry big).Listed page → page < 1024 := by
    intro page h
    rw [DbvmTables.oneEntry_listed h]
    cases big <;> decide
  have hdummy : ¬ EptPlatform.uniform.dummyFrame < 1024 := by decide
  refine ⟨⟨_, EptTables.zeros_initial.shape _⟩, fun page h => ?_, ⟨?_⟩, fun h =>
    hdummy (DbvmTables.oneEntry_backs h), fun h => hdummy (hlisted _ h)⟩
  · exact Nat.lt_of_lt_of_le (hlisted page h) (by decide)
  · rw [DbvmTables.oneEntry_enum]
    exact ⟨⟨EptCall.first_given.fresh, by decide⟩, fun _ _ => trivial⟩

/-- A single small page is hidden. -/
theorem hides_iff_named_small :
    ∃ s', eptHideDBVMPhysicalAddresses .uniform (fun _ => [2, 3, 4]) (.oneEntry false) .zeros =
        some s' ∧
      (Hides .uniform (.oneEntry false) .zeros s' ↔
        DbvmTables.Named .uniform (.oneEntry false) .zeros) := by
  refine hides_iff_named _ _ _ _ (.oneEntry false) fun page h => ?_
  rw [DbvmTables.oneEntry_listed h]
  decide

/-- Of a 2 MB page only the first page is hidden: the second one is not mapped. -/
theorem not_hides_big :
    HideGiven .uniform (fun _ => [2, 3, 4]) (.oneEntry true) .zeros ∧
    ∃ s', eptHideDBVMPhysicalAddresses .uniform (fun _ => [2, 3, 4]) (.oneEntry true) .zeros =
        some s' ∧
      (DbvmTables.oneEntry true).Backs 513 ∧ ¬ Hides .uniform (.oneEntry true) .zeros s' := by
  have hview : (eptHideDBVMPhysicalAddresses .uniform (fun _ => [2, 3, 4]) (.oneEntry true)
      .zeros).map (fun s' => s'.frame 513) = some none := by
    decide +kernel
  obtain ⟨s', hs', hframe⟩ := Option.map_eq_some_iff.1 hview
  have hback : (DbvmTables.oneEntry true).Backs 513 :=
    ⟨1025, ⟨by decide, by decide⟩, by decide⟩
  refine ⟨.oneEntry true, s', hs', hback, fun hhides => ?_⟩
  have hhidden := hhides.1 513 hback
  rw [hframe] at hhidden
  cases hhidden

end CheatEngine.Dbvm
