/-
  CheatEngine.Dbvm.EptMapping

  Runs of `EPTMapPhysicalMemory` on one CPU (epthandler.c), from an empty PML4 on.

  The function takes an entry with a read bit for a table unless `forcesmallpage` is
  set, so a second call for an address in a big page uses guest memory as a table and
  writes into it.  And `VirtualAddressToIndexes` drops the address bits from 48 on.
  Without these two the map is an identity map that is kept in its own tables.
-/
import CheatEngine.Dbvm.EptTree

namespace CheatEngine.Dbvm

open CheatEngine.Lib

/-! ## One call -/

variable {L : Nat}

theorem EptPlatform.bigPage_spec {P : EptPlatform} {page : Nat} {forcesmallpage : Bool}
    {e : EptEntry} (h : P.bigPage L page forcesmallpage = some e) :
    forcesmallpage = false ∧ e.Allowed ∧ e.BIG = true ∧
      e.page = page / 2 ^ (9 * L) * 2 ^ (9 * L) := by
  simp only [EptPlatform.bigPage, Option.ite_none_right_eq_some, Option.map_eq_some_iff] at h
  obtain ⟨⟨-, hforce⟩, memtype, -, rfl⟩ := h
  exact ⟨hforce, ⟨rfl, rfl, rfl⟩, rfl, rfl⟩

theorem lastEntry_spec (P : EptPlatform) (page : Nat) (e : EptEntry) :
    ∃ e', lastEntry P page e = some e' ∧ e'.Allowed ∧
      (e.RA = true ∧ e'.page = e.page ∨ e.RA = false ∧ e'.page = page) := by
  by_cases hRA : e.RA = true
  · exact ⟨e.allow, if_pos hRA, e.allowed_allow, Or.inl ⟨hRA, rfl⟩⟩
  · obtain ⟨memtype, hmem⟩ := mapInfo_page P.defType page P.memoryranges P.whole
    have hinfo : P.getMTRRMapInfo (page * 4096) 4096 = some memtype := hmem
    refine ⟨{ (EptEntry.ofPage page).allow with MEMTYPE := memtype % 8 }, ?_, ⟨rfl, rfl, rfl⟩,
      Or.inr ⟨by simpa using hRA, rfl⟩⟩
    rw [lastEntry, if_neg hRA, hinfo, Option.map_some]

theorem Changes.leads {roles : Roles} {page : Nat} {s s₁ : EptTables}
    (h : Changes roles page s s₁) {p n i t : Nat} (hr : roles p = some (L + 1, n))
    (hi : i < 512) (hl : (s.mem p i).Leads t) : (s₁.mem p i).Leads t := by
  rw [h.link hr hi hl.allowed.present hl.small]
  exact hl

/-- The walk for the page ends in no big page. -/
def SmallOnly (mem : EptMemory) (L table page : Nat) : Prop :=
  ∀ leaf, walkFrom mem L table page = some leaf → leaf.level = 0

theorem SmallOnly.down {mem mem' : EptMemory} {table t page : Nat}
    (h : SmallOnly mem (L + 1) table page)
    (hwalk : walkFrom mem' L t page = walkFrom mem (L + 1) table page ∨
      walkFrom mem' L t page = none) : SmallOnly mem' L t page := by
  intro leaf hleaf
  rcases hwalk with hwalk | hwalk
  · exact h leaf (hwalk ▸ hleaf)
  · simp [hwalk] at hleaf

theorem Shape.not_big_of_smallOnly {Small : Nat → EptEntry → Prop} {s : EptTables}
    {roles : Roles} {table page : Nat} (hs : Shape Small s roles)
    (hr : roles table = some (L + 1, page / 2 ^ (9 * (L + 1 + 1))))
    (hsmall : SmallOnly s.mem (L + 1) table page)
    (hRA : (s.mem table (tableIndex (L + 1) page)).RA = true) :
    (s.mem table (tableIndex (L + 1) page)).BIG = false := by
  cases hs.entry hr with
  | empty hempty => simp [EptEntry.present, hRA] at hempty
  | whole hL ha hb hp =>
    have hlevel := hsmall _ (walkFrom_of_whole hL ha hb hp)
    simp at hlevel
  | table ha hb hp => exact hb

/-- `EPTMapPhysicalMemory` below the PML4, from a table of level `L` on. -/
def mapFrom (P : EptPlatform) (page : Nat) (forcesmallpage : Bool) :
    Nat → EptTables → List Nat → Nat → Option (EptTables × Nat)
  | 0, s, _, table => do
    let e ← lastEntry P page (s.mem table (tableIndex 0 page))
    some (s.write table (tableIndex 0 page) e, table * 4096 + 8 * tableIndex 0 page)
  | L + 1, s, pages, table => do
    let (s, pages, next) ← nextTable P s pages table (tableIndex (L + 1) page) forcesmallpage
      (P.bigPage (L + 1) page forcesmallpage)
    match next with
    | none => some (s, table * 4096 + 8 * tableIndex (L + 1) page)
    | some next => mapFrom P page forcesmallpage L s pages next

theorem eptMapPhysicalMemory_eq (P : EptPlatform) (s : EptTables) (pages : List Nat)
    (physicalAddress : Nat) (forcesmallpage : Bool) :
    eptMapPhysicalMemory P s pages physicalAddress forcesmallpage =
      (nextTable P s pages s.pml4
        (tableIndex 3 (physicalAddress / 4096 % 2 ^ (P.maxphyaddr - 12))) false none).bind
        fun r => match r.2.2 with
          | none => none
          | some pagedirptr => mapFrom P (physicalAddress / 4096 % 2 ^ (P.maxphyaddr - 12))
              forcesmallpage 2 r.1 r.2.1 pagedirptr := rfl

/-- What a call gives from a table of level `L` on, where no big page is in its way. -/
structure Mapped (Small : Nat → EptEntry → Prop) (page : Nat) (forcesmallpage : Bool)
    (L table : Nat) (s : EptTables) (roles : Roles) (s' : EptTables) (address : Nat)
    (roles' : Roles) (leaf : EptLeaf) : Prop where
  shape : Shape Small s' roles'
  changes : Changes roles page s s'
  keeps : ∀ p, p ≠ page → KeepsWalk s s' p
  walk : walkFrom s'.mem L table page = some leaf
  allowed : leaf.RA = true ∧ leaf.WA = true ∧ leaf.XA = true
  address : address = leaf.table * 4096 + 8 * leaf.index
  level : leaf.level = 0 ∨ forcesmallpage = false

section Call

variable {Small : Nat → EptEntry → Prop} {P : EptPlatform} {s : EptTables} {roles : Roles}
  {pages : List Nat} {page table address : Nat} {forcesmallpage : Bool}

theorem mapped_last (hs : Shape Small s roles)
    (hlast : ∀ m e e', Small m e → lastEntry P m e = some e' → Small m e')
    (hr : roles table = some (0, page / 2 ^ (9 * (0 + 1)))) {e : EptEntry} (ha : e.Allowed)
    (he : lastEntry P page (s.mem table (tableIndex 0 page)) = some e) :
    Mapped Small page forcesmallpage 0 table s roles (s.write table (tableIndex 0 page) e)
      (table * 4096 + 8 * tableIndex 0 page) roles
      ⟨table, tableIndex 0 page, 0, e.page, true, true, true⟩ := by
  have hentry := hs.entry hr
  have hsmall : EntryOk roles Small 0 (page / 2 ^ (9 * 0)) e := by
    simp only [Nat.mul_zero, Nat.pow_zero, Nat.div_one] at hentry ⊢
    cases hentry with
    | small hsmall => exact .small (hlast page _ e hsmall he)
  refine ⟨hs.write hr ?_, .write hr rfl (hs.owned _ _ hr) (Or.inl rfl) e,
    fun p hp => Or.inl (hs.walk_write_small hr hp e), ?_, ⟨rfl, rfl, rfl⟩, rfl, Or.inl rfl⟩
  · rw [part_tableIndex]
    exact hsmall
  · simp [walkFrom, ha.present, ha.1, ha.2.1, ha.2.2]

theorem Mapped.of_down {L next : Nat} {s₁ s' : EptTables} {roles₁ roles' : Roles}
    {pages₁ : List Nat} {leaf : EptLeaf}
    (hr : roles table = some (L + 1, page / 2 ^ (9 * (L + 1 + 1))))
    (hdown : Down Small P page s pages roles s₁ pages₁ roles₁)
    (hleads : (s₁.mem table (tableIndex (L + 1) page)).Leads next)
    (h : Mapped Small page forcesmallpage L next s₁ roles₁ s' address roles' leaf) :
    Mapped Small page forcesmallpage (L + 1) table s roles s' address roles' leaf := by
  refine ⟨h.shape, hdown.changes.trans hdown.le h.changes,
    fun p hp => (hdown.keeps p).trans (h.keeps p hp), ?_, h.allowed, h.address, h.level⟩
  rw [walkFrom_of_leads (h.changes.leads (hdown.le _ _ hr) (tableIndex_lt _ _) hleads)]
  exact h.walk

theorem mapFrom_spec (hzero : ∀ m, Small m .zero)
    (hlast : ∀ m e e', Small m e → lastEntry P m e = some e' → Small m e') {L : Nat} (hL : L ≤ 2)
    (hs : Shape Small s roles) (hf : Fresh P s pages) (hlen : L ≤ pages.length)
    (hr : roles table = some (L, page / 2 ^ (9 * (L + 1))))
    (hsmall : forcesmallpage = false → SmallOnly s.mem L table page) :
    ∃ s' address roles' leaf,
      mapFrom P page forcesmallpage L s pages table = some (s', address) ∧
      Mapped Small page forcesmallpage L table s roles s' address roles' leaf := by
  induction L generalizing s roles pages table with
  | zero =>
    obtain ⟨e, he, ha, -⟩ := lastEntry_spec P page (s.mem table (tableIndex 0 page))
    exact ⟨_, _, _, _, by simp [mapFrom, he], mapped_last hs hlast hr ha he⟩
  | succ L ih =>
    have hclear : (s.mem table (tableIndex (L + 1) page)).RA = true →
        (s.mem table (tableIndex (L + 1) page)).BIG = true → forcesmallpage = true := by
      intro hRA hBIG
      by_contra hforce
      have hnot := hs.not_big_of_smallOnly hr (hsmall (by simpa using hforce)) hRA
      simp [hnot] at hBIG
    have hbig : ∀ e, P.bigPage (L + 1) page forcesmallpage = some e → L < 2 ∧ e.Allowed ∧
        e.BIG = true ∧ e.page = page / 2 ^ (9 * (L + 1)) * 2 ^ (9 * (L + 1)) :=
      fun e he => ⟨hL, (P.bigPage_spec he).2⟩
    rcases nextTable_spec hs hzero hf (by omega) hr hclear hbig with
      ⟨s₁, e, he, hnext, hdown, hmem⟩ | ⟨s₁, pages₁, t, roles₁, hnext, hdown, hleads, ht, hwalk⟩
    · -- mapped as a big page
      obtain ⟨hforce, ha, hb, hp⟩ := P.bigPage_spec he
      subst hmem
      exact ⟨s₁, _, roles, _, by simp [mapFrom, hnext], hdown.shape, hdown.changes,
        fun p _ => hdown.keeps p, walkFrom_of_whole hL ha hb hp, ⟨rfl, rfl, rfl⟩, rfl,
        Or.inr hforce⟩
    · have hlen₁ : L ≤ pages₁.length := by
        have := hdown.length
        omega
      obtain ⟨s', address, roles', leaf, hrest, hmapped⟩ :=
        ih (by omega) hdown.shape hdown.fresh hlen₁ ht fun hforce => (hsmall hforce).down hwalk
      exact ⟨s', address, roles', leaf, by simp [mapFrom, hnext, hrest],
        hmapped.of_down hr hdown hleads⟩

theorem eptMapPhysicalMemory_spec (hs : Shape Small s roles) (hzero : ∀ m, Small m .zero)
    (hlast : ∀ m e e', Small m e → lastEntry P m e = some e' → Small m e')
    (hf : Fresh P s pages) (hlen : 3 ≤ pages.length) {physicalAddress : Nat}
    (hmax : physicalAddress / 4096 < 2 ^ (P.maxphyaddr - 12))
    (h48 : physicalAddress / 4096 < 2 ^ 36)
    (hsmall : forcesmallpage = false → SmallOnly s.mem 3 s.pml4 (physicalAddress / 4096)) :
    ∃ s' address roles' leaf,
      eptMapPhysicalMemory P s pages physicalAddress forcesmallpage = some (s', address) ∧
      Mapped Small (physicalAddress / 4096) forcesmallpage 3 s.pml4 s roles s' address roles'
        leaf := by
  have hr := hs.root_part h48
  -- no entry of the PML4 is a big page
  have hclear : (s.mem s.pml4 (tableIndex (2 + 1) (physicalAddress / 4096))).RA = true →
      (s.mem s.pml4 (tableIndex (2 + 1) (physicalAddress / 4096))).BIG = true →
      false = true := by
    intro hRA hBIG
    cases hs.entry hr with
    | empty hempty => simp [EptEntry.present, hRA] at hempty
    | whole hL ha hb hp => omega
    | table ha hb hp => simp [hb] at hBIG
  rw [eptMapPhysicalMemory_eq, Nat.mod_eq_of_lt hmax]
  have hbig : ∀ e, (none : Option EptEntry) = some e → 2 < 2 ∧ e.Allowed ∧ e.BIG = true ∧
      e.page = physicalAddress / 4096 / 2 ^ (9 * (2 + 1)) * 2 ^ (9 * (2 + 1)) := by
    simp
  rcases nextTable_spec hs hzero hf (by omega) hr hclear hbig with
    ⟨s₁, e, he, -⟩ | ⟨s₁, pages₁, t, roles₁, hnext, hdown, hleads, ht, hwalk⟩
  · cases he
  · have hlen₁ : 2 ≤ pages₁.length := by
      have := hdown.length
      omega
    obtain ⟨s', address, roles', leaf, hrest, hmapped⟩ :=
      mapFrom_spec hzero hlast (Nat.le_refl 2) hdown.shape hdown.fresh hlen₁ ht
        fun hforce => (hsmall hforce).down hwalk
    exact ⟨s', address, roles', leaf, by simp [hnext, hrest], hmapped.of_down hr hdown hleads⟩

end Call

/-! ## Runs -/

/-- The entry of a page table: not used, or the page itself with every access. -/
def IdentityEntry (m : Nat) (e : EptEntry) : Prop := e.present = true → e.Allowed ∧ e.page = m

theorem identityEntry_last {P : EptPlatform} {m : Nat} {e e' : EptEntry} (h : IdentityEntry m e)
    (he' : lastEntry P m e = some e') : IdentityEntry m e' := by
  obtain ⟨e'', he'', ha, hpage⟩ := lastEntry_spec P m e
  obtain rfl : e'' = e' := Option.some.inj (he''.symm.trans he')
  refine fun _ => ⟨ha, ?_⟩
  rcases hpage with ⟨hRA, hpage⟩ | ⟨-, hpage⟩
  · have hpresent : e.present = true := by simp [EptEntry.present, hRA]
    rw [hpage]
    exact (h hpresent).2
  · exact hpage

theorem Shape.page_of_walk {s : EptTables} {roles : Roles} (hs : Shape IdentityEntry s roles)
    {page : Nat} {leaf : EptLeaf} (hleaf : s.walk page = some leaf) : leaf.page = page := by
  have hpage := EptTables.lt_of_walk hleaf
  rw [EptTables.walk_of_lt hpage] at hleaf
  rcases hs.leaf_cases (hs.root_part hpage) hleaf with ⟨-, h⟩ | ⟨-, hsmall, hpresent, h⟩
  · exact h
  · exact h.trans (hsmall hpresent).2

/-- A call, with the pages that `malloc2` would give in it. -/
structure EptCall where
  physicalAddress : Nat
  forcesmallpage : Bool
  pages : List Nat

namespace EptCall

variable (P : EptPlatform)

def run (s : EptTables) (c : EptCall) : Option (EptTables × Nat) :=
  eptMapPhysicalMemory P s c.pages c.physicalAddress c.forcesmallpage

def step (s : EptTables) (c : EptCall) : Option EptTables := (c.run P s).map Prod.fst

/-- The address is one of the platform, and `malloc2` has pages left. -/
structure Given (s : EptTables) (c : EptCall) : Prop where
  address : c.physicalAddress < 2 ^ P.maxphyaddr
  fresh : Fresh P s c.pages
  length : 3 ≤ c.pages.length

/-- The address has 48 bits, and unless small pages are forced it is in no big page. -/
def Meets (s : EptTables) (c : EptCall) : Prop :=
  c.physicalAddress < 2 ^ 48 ∧ (c.forcesmallpage = true ∨
    ∀ leaf, s.walk (c.physicalAddress / 4096) = some leaf → leaf.level = 0)

/-- The call returns, and it kept an identity map in its own tables. -/
def Identity (s : EptTables) (c : EptCall) : Prop :=
  ∃ s' address, c.run P s = some (s', address) ∧
    -- only the PML4 and the pages of tables are written
    (∀ p, p ≠ s.pml4 → p ∉ s'.tables → s'.mem p = s.mem p) ∧
    -- the walk for the address gives the address, and ends in the entry that is returned
    (∃ leaf, s'.walk (c.physicalAddress / 4096) = some leaf ∧
      leaf.page = c.physicalAddress / 4096 ∧
      (leaf.RA = true ∧ leaf.WA = true ∧ leaf.XA = true) ∧
      address = leaf.table * 4096 + 8 * leaf.index) ∧
    (∀ page leaf, s'.walk page = some leaf → leaf.page = page) ∧
    ∀ page leaf, s.walk page = some leaf → leaf.level = 0 → ∃ leaf', s'.walk page = some leaf' ∧
      leaf'.level = 0 ∧ leaf'.table = leaf.table ∧ leaf'.index = leaf.index

variable {P} {s : EptTables} {roles : Roles} {c : EptCall}

theorem run_spec (hs : Shape IdentityEntry s roles) (hgiven : c.Given P s) (hmeets : c.Meets s) :
    c.physicalAddress / 4096 < 2 ^ 36 ∧ ∃ s' address roles' leaf,
      c.run P s = some (s', address) ∧
      Mapped IdentityEntry (c.physicalAddress / 4096) c.forcesmallpage 3 s.pml4 s roles s' address
        roles' leaf := by
  have h48 : c.physicalAddress / 4096 < 2 ^ 36 := by
    have h := hmeets.1
    omega
  have hmax : c.physicalAddress / 4096 < 2 ^ (P.maxphyaddr - 12) := by
    rw [Nat.div_lt_iff_lt_mul (by decide)]
    calc c.physicalAddress < 2 ^ P.maxphyaddr := hgiven.address
      _ ≤ 2 ^ (P.maxphyaddr - 12 + 12) := Nat.pow_le_pow_right (by decide) (by omega)
      _ = 2 ^ (P.maxphyaddr - 12) * 4096 := Nat.pow_add 2 _ 12
  refine ⟨h48, eptMapPhysicalMemory_spec hs (fun _ h => by cases h)
    (fun _ _ _ => identityEntry_last) hgiven.fresh hgiven.length hmax h48 fun hforce => ?_⟩
  rcases hmeets.2 with h | h
  · simp [h] at hforce
  · intro leaf hleaf
    exact h leaf (by rw [EptTables.walk_of_lt h48]; exact hleaf)

theorem leaf_stays {s' : EptTables} {address page : Nat} {roles' : Roles} {leaf₀ leaf : EptLeaf}
    (hs : Shape IdentityEntry s roles)
    (hmapped : Mapped IdentityEntry (c.physicalAddress / 4096) c.forcesmallpage 3 s.pml4 s roles s'
      address roles' leaf₀)
    (hleaf : s.walk page = some leaf) (hlevel : leaf.level = 0) :
    ∃ leaf', s'.walk page = some leaf' ∧ leaf'.level = 0 ∧ leaf'.table = leaf.table ∧
      leaf'.index = leaf.index := by
  have hpage := EptTables.lt_of_walk hleaf
  rw [EptTables.walk_of_lt hpage] at hleaf
  obtain ⟨hpath, hindex, -⟩ :=
    hs.walkFrom_of_changes hmapped.changes (hs.root_part hpage) hleaf hlevel
  by_cases heq : page = c.physicalAddress / 4096
  · subst heq
    have hthere := hmapped.walk
    rw [hpath] at hthere
    refine ⟨leaf₀, ?_, ?_⟩
    · rw [EptTables.walk_of_lt hpage, hmapped.changes.pml4]
      exact hmapped.walk
    · simp only [walkFrom] at hthere
      split at hthere
      · obtain rfl := Option.some.inj hthere
        exact ⟨rfl, rfl, hindex.symm⟩
      · cases hthere
  · have hbefore : s.walk page = some leaf := by rw [EptTables.walk_of_lt hpage, hleaf]
    rcases hmapped.keeps page heq with hkeep | ⟨hbig, -⟩
    · exact ⟨leaf, hkeep.trans hbefore, hlevel, rfl, rfl⟩
    · have := hbig leaf hbefore
      omega

theorem identity_of_shape (hs : Shape IdentityEntry s roles) (hgiven : c.Given P s)
    (hmeets : c.Meets s) :
    c.Identity P s ∧ ∀ s', c.step P s = some s' → ∃ roles', Shape IdentityEntry s' roles' := by
  obtain ⟨h48, s', address, roles', leaf, hrun, hmapped⟩ := run_spec hs hgiven hmeets
  have hwalk : s'.walk (c.physicalAddress / 4096) = some leaf := by
    rw [EptTables.walk_of_lt h48, hmapped.changes.pml4]
    exact hmapped.walk
  have hself : ∀ page leaf, s'.walk page = some leaf → leaf.page = page :=
    fun page leaf => hmapped.shape.page_of_walk
  refine ⟨⟨s', address, hrun, hmapped.changes.outside,
    ⟨leaf, hwalk, hself _ _ hwalk, hmapped.allowed, hmapped.address⟩, hself,
    fun page leaf' hleaf hlevel => leaf_stays hs hmapped hleaf hlevel⟩, ?_⟩
  intro s'' hs''
  obtain rfl : s' = s'' := by simpa [step, hrun] using hs''
  exact ⟨roles', hmapped.shape⟩

end EptCall

/-- An empty PML4 in a memory that is the guest's otherwise. -/
structure EptTables.Initial (s : EptTables) : Prop where
  empty : ∀ i, s.mem s.pml4 i = .zero
  tables : s.tables = []

theorem EptTables.Initial.shape {s : EptTables} (h : s.Initial) (Small : Nat → EptEntry → Prop) :
    Shape Small s (Function.update (fun _ => none) s.pml4 (some (3, 0))) := by
  refine ⟨Function.update_self .., fun p r hp => ?_, fun p L n hp i _ => ?_⟩
  · by_cases hne : p = s.pml4
    · exact Or.inl hne
    · simp [hne] at hp
  · by_cases hne : p = s.pml4
    · subst hne
      obtain ⟨rfl, rfl⟩ : 3 = L ∧ 0 = n := by simpa using hp
      rw [h.empty]
      exact .empty rfl
    · simp [hne] at hp

/-- Calls for addresses of 48 bits that force small pages wherever a big page is mapped
    keep an identity map in its own tables, in every run. -/
theorem identity_of_meets (P : EptPlatform) (s : EptTables) (hs : s.Initial) (calls : List EptCall)
    (hrun : AlongM (fun s c => c.step P s) (fun s c => c.Given P s ∧ c.Meets s) s calls) :
    AlongM (fun s c => c.step P s) (fun s c => c.Identity P s) s calls := by
  refine AlongM.imp (I := fun s => ∃ roles, Shape IdentityEntry s roles) ?_ ⟨_, hs.shape _⟩ hrun
  rintro s c ⟨roles, hshape⟩ ⟨hgiven, hmeets⟩
  exact EptCall.identity_of_shape hshape hgiven hmeets

/-- A platform with both sizes of big pages, and one memory type. -/
def EptPlatform.uniform : EptPlatform := ⟨36, true, true, 6, [], by simp⟩

/-- A memory of zeros with the PML4 in page 1. -/
def EptTables.zeros : EptTables := ⟨fun _ _ => .zero, 1, []⟩

/-- The first call for address 0 maps a 1 GB page. -/
def EptCall.first : EptCall := ⟨0, false, [2, 3, 4]⟩

theorem EptTables.zeros_initial : zeros.Initial := ⟨fun _ => rfl, rfl⟩

theorem EptCall.first_given : first.Given .uniform .zeros :=
  ⟨by decide, ⟨by decide, by decide, by decide⟩, by decide⟩

theorem EptCall.first_step {s' : EptTables} (h : first.step .uniform .zeros = some s') :
    s'.pml4 = 1 ∧ s'.tables = [2] ∧ s'.mem 2 0 = ⟨true, true, true, 6, true, 0, 0⟩ := by
  have hview : (first.step .uniform .zeros).map (fun s => (s.pml4, s.tables, s.mem 2 0)) =
      some (1, [2], ⟨true, true, true, 6, true, 0, 0⟩) := by
    decide
  rw [h] at hview
  simpa using hview

theorem EptCall.second_given {s' : EptTables} (h : first.step .uniform .zeros = some s')
    (forcesmallpage : Bool) : EptCall.Given .uniform s' ⟨0, forcesmallpage, [3, 4, 5]⟩ := by
  obtain ⟨hpml4, htables, -⟩ := first_step h
  refine ⟨by simp [EptPlatform.uniform], ⟨by simp, ?_, by simp [EptPlatform.uniform]⟩, by simp⟩
  rw [hpml4, htables]
  simp

/-- The big page of the first call is divided by a second one that forces small pages. -/
theorem identity_of_meets_divided :
    AlongM (fun s c => EptCall.step .uniform s c) (fun s c => EptCall.Identity .uniform s c) .zeros
      [.first, ⟨0, true, [3, 4, 5]⟩] := by
  refine identity_of_meets .uniform .zeros EptTables.zeros_initial _
    ⟨⟨EptCall.first_given, by decide, Or.inr fun leaf hleaf => ?_⟩, fun s' hs' =>
      ⟨⟨EptCall.second_given hs' true, by decide, Or.inl rfl⟩, fun _ _ => trivial⟩⟩
  have hnone : EptTables.zeros.walk (0 / 4096) = none := by decide
  exact nomatch hnone.symm.trans hleaf

/-- A second call for address 0 that does not force small pages takes the first page of
    the guest for a table, and writes an entry to it. -/
theorem not_identity_big :
    EptTables.zeros.Initial ∧
    AlongM (fun s c => EptCall.step .uniform s c) (fun s c => EptCall.Given .uniform s c) .zeros
      [.first, ⟨0, false, [3, 4, 5]⟩] ∧
    ¬ AlongM (fun s c => EptCall.step .uniform s c) (fun s c => EptCall.Identity .uniform s c)
      .zeros [.first, ⟨0, false, [3, 4, 5]⟩] := by
  refine ⟨EptTables.zeros_initial, ⟨EptCall.first_given, fun s' hs' =>
    ⟨EptCall.second_given hs' false, fun _ _ => trivial⟩⟩, fun h => ?_⟩
  have hview : ((EptCall.first.step .uniform .zeros).bind fun s =>
      (EptCall.run .uniform s ⟨0, false, [3, 4, 5]⟩).map fun r =>
        (r.1.tables, (s.mem 0 0).RA, (r.1.mem 0 0).RA)) = some ([2], false, true) := by
    decide
  obtain ⟨s₁, hs₁, hsecond⟩ := Option.bind_eq_some_iff.1 hview
  obtain ⟨r, hr, hsame⟩ := Option.map_eq_some_iff.1 hsecond
  obtain ⟨s₂, address, hs₂, houtside, -⟩ := (h.2 s₁ hs₁).1
  obtain rfl : r = (s₂, address) := Option.some.inj (hr.symm.trans hs₂)
  obtain ⟨htables, hbefore, hafter⟩ : s₂.tables = [2] ∧ (s₁.mem 0 0).RA = false ∧
      (s₂.mem 0 0).RA = true := by
    simpa using hsame
  have hmem : s₂.mem 0 = s₁.mem 0 := by
    refine houtside 0 ?_ ?_
    · rw [(EptCall.first_step hs₁).1]
      decide
    · rw [htables]
      decide
  rw [hmem, hbefore] at hafter
  cases hafter

end CheatEngine.Dbvm
