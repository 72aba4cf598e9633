/-
  CheatEngine.Dbvm.EptTree

  The tables of the EPT as a tree.  `Shape` says which page is the table of which
  part of the memory (`Roles`), and that every entry is empty, maps its part as one
  page, or leads to the table of its part; what the entries of the page tables hold
  is a parameter, since watches and cloaks change these.  `Changes` says what a step
  down the tree may write.
-/
import CheatEngine.Dbvm.EptTables

namespace CheatEngine.Dbvm

theorem tableIndex_lt (L page : Nat) : tableIndex L page < 512 := Nat.mod_lt _ (by decide)

theorem part_tableIndex (L page : Nat) :
    page / 2 ^ (9 * (L + 1)) * 512 + tableIndex L page = page / 2 ^ (9 * L) := by
  have hpow : 2 ^ (9 * (L + 1)) = 2 ^ (9 * L) * 512 := by
    rw [Nat.mul_add, Nat.pow_add]
  rw [hpow, ← Nat.div_div_eq_div_mul, tableIndex]
  exact Nat.div_add_mod' _ 512

/-! ## Shape -/

/-- Of a page that is a table, the level and the number of the part it is for. -/
abbrev Roles : Type := Nat → Option (Nat × Nat)

/-- The entry of part `m` in a table of level `L`. -/
inductive EntryOk (roles : Roles) (Small : Nat → EptEntry → Prop) : Nat → Nat → EptEntry → Prop
  | small {m : Nat} {e : EptEntry} (h : Small m e) : EntryOk roles Small 0 m e
  | empty {L m : Nat} {e : EptEntry} (h : e.present = false) : EntryOk roles Small (L + 1) m e
  | whole {L m : Nat} {e : EptEntry} (hL : L < 2) (ha : e.Allowed) (hb : e.BIG = true)
      (hp : e.page = m * 2 ^ (9 * (L + 1))) : EntryOk roles Small (L + 1) m e
  | table {L m : Nat} {e : EptEntry} (ha : e.Allowed) (hb : e.BIG = false)
      (hp : roles e.page = some (L, m)) : EntryOk roles Small (L + 1) m e

/-- The tables are a tree with the PML4 as its root. -/
structure Shape (Small : Nat → EptEntry → Prop) (s : EptTables) (roles : Roles) : Prop where
  root : roles s.pml4 = some (3, 0)
  owned : ∀ p r, roles p = some r → p = s.pml4 ∨ p ∈ s.tables
  entries : ∀ p L n, roles p = some (L, n) → ∀ i < 512,
    EntryOk roles Small L (n * 512 + i) (s.mem p i)

/-- Every table stays one, of the same part. -/
def Roles.Le (roles roles' : Roles) : Prop := ∀ p r, roles p = some r → roles' p = some r

theorem Roles.Le.refl (roles : Roles) : roles.Le roles := fun _ _ h => h

theorem Roles.le_update {roles : Roles} {p : Nat} (h : roles p = none) (r : Nat × Nat) :
    roles.Le (Function.update roles p (some r)) := by
  intro q r' hq
  have hne : q ≠ p := by
    rintro rfl
    simp [h] at hq
  simp [hne, hq]

theorem EntryOk.mono {roles roles' : Roles} {Small : Nat → EptEntry → Prop} {L m : Nat}
    {e : EptEntry} (hle : roles.Le roles') (h : EntryOk roles Small L m e) :
    EntryOk roles' Small L m e := by
  cases h with
  | small h => exact .small h
  | empty h => exact .empty h
  | whole hL ha hb hp => exact .whole hL ha hb hp
  | table ha hb hp => exact .table ha hb (hle _ _ hp)

/-- Pages that `malloc2` may give: free ones that an entry can hold, and no page twice. -/
structure Fresh (P : EptPlatform) (s : EptTables) (pages : List Nat) : Prop where
  nodup : pages.Nodup
  unused : ∀ p ∈ pages, p ≠ s.pml4 ∧ p ∉ s.tables
  fits : ∀ p ∈ pages, p < 2 ^ (P.maxphyaddr - 12)

section Shape

variable {Small : Nat → EptEntry → Prop} {P : EptPlatform} {s : EptTables} {roles : Roles}

theorem Shape.roles_of_fresh (hs : Shape Small s roles) {pages : List Nat} (hf : Fresh P s pages)
    {p : Nat} (hp : p ∈ pages) : roles p = none := by
  cases hr : roles p with
  | none => rfl
  | some r =>
    obtain ⟨hroot, htables⟩ := hf.unused p hp
    rcases hs.owned p r hr with h | h
    · exact absurd h hroot
    · exact absurd h htables

theorem Shape.write (hs : Shape Small s roles) {table L n index : Nat} {e : EptEntry}
    (hr : roles table = some (L, n)) (he : EntryOk roles Small L (n * 512 + index) e) :
    Shape Small (s.write table index e) roles := by
  refine ⟨hs.root, hs.owned, fun p L' n' hp i hi => ?_⟩
  by_cases h : p = table ∧ i = index
  · obtain ⟨rfl, rfl⟩ := h
    obtain ⟨rfl, rfl⟩ : L' = L ∧ n' = n := by simpa [hr, eq_comm] using hp
    rw [s.write_self]
    exact he
  · rw [s.write_of_ne h]
    exact hs.entries p L' n' hp i hi

theorem Shape.newTable (hs : Shape Small s roles) (hzero : ∀ m, Small m .zero) {temp : Nat}
    (hroot : temp ≠ s.pml4) (hnew : roles temp = none) (L m : Nat) :
    Shape Small (s.newTable temp) (Function.update roles temp (some (L, m))) := by
  have hle := Roles.le_update hnew (L, m)
  refine ⟨hle _ _ hs.root, fun p r hp => ?_, fun p L' n' hp i hi => ?_⟩
  · by_cases hpt : p = temp
    · exact Or.inr (hpt ▸ List.mem_cons_self)
    · rw [Function.update_of_ne hpt] at hp
      exact (hs.owned p r hp).imp id (List.mem_cons_of_mem temp)
  · by_cases hpt : p = temp
    · subst hpt
      rw [s.newTable_self]
      cases L' with
      | zero => exact .small (hzero _)
      | succ L' => exact .empty rfl
    · rw [Function.update_of_ne hpt] at hp
      rw [s.newTable_of_ne hpt]
      exact (hs.entries p L' n' hp i hi).mono hle

end Shape

/-- What the way down to `page` may change: pages of the tables only, and in a table
    only the entry of the part that `page` is in, which above the page tables had to be
    empty or a big page. -/
structure Changes (roles : Roles) (page : Nat) (s s' : EptTables) : Prop where
  pml4 : s'.pml4 = s.pml4
  tables : s.tables ⊆ s'.tables
  outside : ∀ p, p ≠ s.pml4 → p ∉ s'.tables → s'.mem p = s.mem p
  inside : ∀ p L n i, roles p = some (L, n) → i < 512 → s'.mem p i = s.mem p i ∨
    n * 512 + i = page / 2 ^ (9 * L) ∧
      (L = 0 ∨ (s.mem p i).present = false ∨ (s.mem p i).BIG = true)

section Changes

variable {roles : Roles} {page : Nat} {s s₁ s₂ : EptTables}

theorem Changes.refl (roles : Roles) (page : Nat) (s : EptTables) : Changes roles page s s :=
  ⟨rfl, fun _ h => h, fun _ _ _ => rfl, fun _ _ _ _ _ _ => Or.inl rfl⟩

theorem Changes.trans {roles₁ : Roles} (hle : roles.Le roles₁) (h₁ : Changes roles page s s₁)
    (h₂ : Changes roles₁ page s₁ s₂) : Changes roles page s s₂ := by
  refine ⟨h₂.pml4.trans h₁.pml4, fun p hp => h₂.tables (h₁.tables hp), ?_, ?_⟩
  · intro p hroot htables
    rw [h₂.outside p (h₁.pml4 ▸ hroot) htables]
    exact h₁.outside p hroot fun hp => htables (h₂.tables hp)
  · intro p L n i hr hi
    rcases h₁.inside p L n i hr hi with heq | hchange
    · rw [← heq]
      exact h₂.inside p L n i (hle _ _ hr) hi
    · exact Or.inr hchange

theorem Changes.link (h : Changes roles page s s₁) {p L n i : Nat}
    (hr : roles p = some (L + 1, n)) (hi : i < 512) (hp : (s.mem p i).present = true)
    (hb : (s.mem p i).BIG = false) : s₁.mem p i = s.mem p i := by
  rcases h.inside p (L + 1) n i hr hi with heq | ⟨-, hzero | hempty | hbig⟩
  · exact heq
  · omega
  · simp [hp] at hempty
  · simp [hb] at hbig

theorem Changes.write {table L n : Nat} (hr : roles table = some (L, n))
    (hn : n = page / 2 ^ (9 * (L + 1))) (hown : table = s.pml4 ∨ table ∈ s.tables)
    (hold : L = 0 ∨ (s.mem table (tableIndex L page)).present = false ∨
      (s.mem table (tableIndex L page)).BIG = true) (e : EptEntry) :
    Changes roles page s (s.write table (tableIndex L page) e) := by
  refine ⟨rfl, fun _ h => h, fun p hroot htables => ?_, fun p L' n' i hp hi => ?_⟩
  · have hne : p ≠ table := by
      rintro rfl
      exact hown.elim hroot htables
    funext i
    exact s.write_of_ne (fun h => hne h.1) e
  · by_cases h : p = table ∧ i = tableIndex L page
    · obtain ⟨rfl, rfl⟩ := h
      obtain ⟨rfl, rfl⟩ : L' = L ∧ n' = n := by simpa [hr, eq_comm] using hp
      refine Or.inr ⟨?_, hold⟩
      rw [hn]
      exact part_tableIndex L' page
    · exact Or.inl (s.write_of_ne h e)

theorem Changes.newTable {temp : Nat} (hnew : roles temp = none) :
    Changes roles page s (s.newTable temp) := by
  refine ⟨rfl, fun p hp => List.mem_cons_of_mem temp hp, fun p _ htables => ?_,
    fun p L n i hp _ => Or.inl ?_⟩
  · have hne : p ≠ temp := fun h => htables (h ▸ List.mem_cons_self)
    exact s.newTable_of_ne hne
  · have hne : p ≠ temp := by
      rintro rfl
      simp [hnew] at hp
    rw [s.newTable_of_ne hne]

end Changes

/-! ## Walks -/

/-- The entry leads to a table. -/
structure EptEntry.Leads (e : EptEntry) (t : Nat) : Prop where
  allowed : e.Allowed
  small : e.BIG = false
  page : e.page = t

theorem EptLeaf.restrict_of_allowed {e : EptEntry} (h : e.Allowed) (leaf : EptLeaf) :
    leaf.restrict e = leaf := by
  obtain ⟨hr, hw, hx⟩ := h
  simp [EptLeaf.restrict, hr, hw, hx]

variable {mem : EptMemory} {t : Nat}

theorem walkFrom_of_leads {L table page : Nat} (h : (mem table (tableIndex (L + 1) page)).Leads t) :
    walkFrom mem (L + 1) table page = walkFrom mem L t page := by
  have hid : EptLeaf.restrict (mem table (tableIndex (L + 1) page)) = id :=
    funext (EptLeaf.restrict_of_allowed h.allowed)
  simp [walkFrom, h.allowed.present, h.small, h.page, hid]

theorem walkFrom_of_empty {L table page : Nat}
    (h : (mem table (tableIndex L page)).present = false) :
    walkFrom mem L table page = none := by
  cases L with
  | zero => simp [walkFrom, h]
  | succ L => simp [walkFrom, h]

theorem walkFrom_of_whole {L table page : Nat} (hL : L < 2)
    (ha : (mem table (tableIndex (L + 1) page)).Allowed)
    (hb : (mem table (tableIndex (L + 1) page)).BIG = true)
    (hp : (mem table (tableIndex (L + 1) page)).page =
      page / 2 ^ (9 * (L + 1)) * 2 ^ (9 * (L + 1))) :
    walkFrom mem (L + 1) table page =
      some ⟨table, tableIndex (L + 1) page, L + 1, page, true, true, true⟩ := by
  have hle : L + 1 ≤ 2 := hL
  have hpos : 0 < 2 ^ (9 * (L + 1)) := Nat.pow_pos (by decide)
  have hdiv : page / 2 ^ (9 * (L + 1)) * 2 ^ (9 * (L + 1)) / 2 ^ (9 * (L + 1)) *
      2 ^ (9 * (L + 1)) + page % 2 ^ (9 * (L + 1)) = page := by
    rw [Nat.mul_div_cancel _ hpos]
    exact Nat.div_add_mod' page _
  simp only [walkFrom, ha.present, hb, hp, hdiv, ha.1, ha.2.1, ha.2.2, hle]
  simp

theorem Shape.entry {Small : Nat → EptEntry → Prop} {s : EptTables} {roles : Roles}
    {L table page : Nat} (hs : Shape Small s roles)
    (hr : roles table = some (L, page / 2 ^ (9 * (L + 1)))) :
    EntryOk roles Small L (page / 2 ^ (9 * L)) (s.mem table (tableIndex L page)) := by
  have h := hs.entries table L _ hr _ (tableIndex_lt L page)
  rwa [part_tableIndex] at h

theorem Shape.walkFrom_succ {Small : Nat → EptEntry → Prop} {s : EptTables} {roles : Roles}
    {mem' : EptMemory} {L page : Nat} (hs : Shape Small s roles)
    (ht : roles t = some (L + 1, page / 2 ^ (9 * (L + 1 + 1))))
    (hsame : mem' t (tableIndex (L + 1) page) = s.mem t (tableIndex (L + 1) page)) :
    walkFrom mem' (L + 1) t page = walkFrom s.mem (L + 1) t page ∨
      ∃ t', roles t' = some (L, page / 2 ^ (9 * (L + 1))) ∧
        walkFrom mem' (L + 1) t page = walkFrom mem' L t' page ∧
        walkFrom s.mem (L + 1) t page = walkFrom s.mem L t' page := by
  cases hs.entry ht with
  | empty hempty =>
    exact Or.inl (by rw [walkFrom_of_empty (hsame ▸ hempty), walkFrom_of_empty hempty])
  | whole hL ha hb hp =>
    exact Or.inl (by rw [walkFrom_of_whole hL ha hb hp,
      walkFrom_of_whole hL (hsame ▸ ha) (hsame ▸ hb) (hsame ▸ hp)])
  | table ha hb hp =>
    have hleads : (s.mem t (tableIndex (L + 1) page)).Leads _ := ⟨ha, hb, rfl⟩
    exact Or.inr ⟨_, hp, walkFrom_of_leads (hsame ▸ hleads), walkFrom_of_leads hleads⟩

theorem Shape.walkFrom_newTable {Small : Nat → EptEntry → Prop} {s : EptTables} {roles : Roles}
    {temp page : Nat} (hs : Shape Small s roles) (hnew : roles temp = none) {L : Nat}
    (ht : roles t = some (L, page / 2 ^ (9 * (L + 1)))) :
    walkFrom (s.newTable temp).mem L t page = walkFrom s.mem L t page := by
  induction L generalizing t with
  | zero =>
    have hne : t ≠ temp := by
      rintro rfl
      simp [hnew] at ht
    simp [walkFrom, s.newTable_of_ne hne]
  | succ L ih =>
    have hne : t ≠ temp := by
      rintro rfl
      simp [hnew] at ht
    have hsame := congrFun (s.newTable_of_ne hne) (tableIndex (L + 1) page)
    rcases hs.walkFrom_succ ht hsame with heq | ⟨t', ht', hnew', hold'⟩
    · exact heq
    · rw [hnew', hold']
      exact ih ht'

theorem Shape.walkFrom_write {Small : Nat → EptEntry → Prop} {s : EptTables} {roles : Roles}
    {table L₀ n index page : Nat} (hs : Shape Small s roles) (hr : roles table = some (L₀, n))
    (hold : L₀ = 0 ∨ (s.mem table index).present = false ∨ (s.mem table index).BIG = true)
    (e : EptEntry) {L : Nat} (ht : roles t = some (L, page / 2 ^ (9 * (L + 1)))) :
    walkFrom (s.write table index e).mem L t page = walkFrom s.mem L t page ∨
      (∀ leaf, walkFrom s.mem L t page = some leaf → L₀ ≤ leaf.level) ∧
        tableIndex L₀ page = index ∧ n = page / 2 ^ (9 * (L₀ + 1)) ∧
        walkFrom (s.write table index e).mem L t page =
          walkFrom (s.write table index e).mem L₀ table page := by
  induction L generalizing t with
  | zero =>
    by_cases h : t = table ∧ tableIndex 0 page = index
    · obtain ⟨rfl, rfl⟩ := h
      obtain ⟨rfl, rfl⟩ : L₀ = 0 ∧ n = page / 2 ^ (9 * (0 + 1)) := by simpa [hr] using ht
      exact Or.inr ⟨fun leaf _ => Nat.zero_le _, rfl, rfl, rfl⟩
    · exact Or.inl (by simp [walkFrom, s.write_of_ne h])
  | succ L ih =>
    by_cases h : t = table ∧ tableIndex (L + 1) page = index
    · obtain ⟨rfl, rfl⟩ := h
      obtain ⟨rfl, rfl⟩ : L₀ = L + 1 ∧ n = page / 2 ^ (9 * (L + 1 + 1)) := by
        simpa [hr] using ht
      refine Or.inr ⟨fun leaf hleaf => ?_, rfl, rfl, rfl⟩
      cases hs.entry ht with
      | empty hempty => simp [walkFrom_of_empty hempty] at hleaf
      | whole hL ha hb hp =>
        rw [walkFrom_of_whole hL ha hb hp] at hleaf
        obtain rfl := Option.some.inj hleaf
        exact Nat.le_refl _
      | table ha hb hp => simp [ha.present, hb] at hold
    · rcases hs.walkFrom_succ ht (s.write_of_ne h e) with heq | ⟨t', ht', hnew', hold'⟩
      · exact Or.inl heq
      · rw [hnew', hold']
        exact ih ht'

theorem Shape.leaf_cases {Small : Nat → EptEntry → Prop} {s : EptTables} {roles : Roles}
    {page : Nat} (hs : Shape Small s roles) {L : Nat}
    (ht : roles t = some (L, page / 2 ^ (9 * (L + 1)))) {leaf : EptLeaf}
    (hleaf : walkFrom s.mem L t page = some leaf) :
    0 < leaf.level ∧ leaf.page = page ∨
      leaf.level = 0 ∧ Small page (s.mem leaf.table (tableIndex 0 page)) ∧
        (s.mem leaf.table (tableIndex 0 page)).present = true ∧
        leaf.page = (s.mem leaf.table (tableIndex 0 page)).page := by
  induction L generalizing t with
  | zero =>
    have hentry := hs.entry ht
    simp only [Nat.mul_zero, Nat.pow_zero, Nat.div_one] at hentry
    simp only [walkFrom] at hleaf
    split at hleaf
    · next hpresent =>
      obtain rfl := Option.some.inj hleaf
      cases hentry with
      | small hsmall => exact Or.inr ⟨rfl, hsmall, hpresent, rfl⟩
    · cases hleaf
  | succ L ih =>
    cases hs.entry ht with
    | empty hempty => simp [walkFrom_of_empty hempty] at hleaf
    | whole hL ha hb hp =>
      rw [walkFrom_of_whole hL ha hb hp] at hleaf
      obtain rfl := Option.some.inj hleaf
      exact Or.inl ⟨Nat.succ_pos L, rfl⟩
    | table ha hb hp =>
      rw [walkFrom_of_leads ⟨ha, hb, rfl⟩] at hleaf
      exact ih hp hleaf

theorem Shape.walkFrom_of_changes {Small : Nat → EptEntry → Prop} {s s' : EptTables}
    {roles : Roles} {page m : Nat} (hs : Shape Small s roles) (hchanges : Changes roles m s s')
    {L : Nat} (ht : roles t = some (L, page / 2 ^ (9 * (L + 1)))) {leaf : EptLeaf}
    (hleaf : walkFrom s.mem L t page = some leaf) (hlevel : leaf.level = 0) :
    walkFrom s'.mem L t page = walkFrom s'.mem 0 leaf.table page ∧
      leaf.index = tableIndex 0 page ∧ roles leaf.table = some (0, page / 2 ^ (9 * (0 + 1))) := by
  induction L generalizing t with
  | zero =>
    simp only [walkFrom] at hleaf
    split at hleaf
    · obtain rfl := Option.some.inj hleaf
      exact ⟨rfl, rfl, ht⟩
    · cases hleaf
  | succ L ih =>
    cases hs.entry ht with
    | empty hempty => simp [walkFrom_of_empty hempty] at hleaf
    | whole hL ha hb hp =>
      rw [walkFrom_of_whole hL ha hb hp] at hleaf
      obtain rfl := Option.some.inj hleaf
      simp at hlevel
    | table ha hb hp =>
      have hleads : (s.mem t (tableIndex (L + 1) page)).Leads _ := ⟨ha, hb, rfl⟩
      have hleads' : (s'.mem t (tableIndex (L + 1) page)).Leads
          (s.mem t (tableIndex (L + 1) page)).page := by
        rw [hchanges.link ht (tableIndex_lt _ _) ha.present hb]
        exact hleads
      rw [walkFrom_of_leads hleads] at hleaf
      rw [walkFrom_of_leads hleads']
      exact ih hp hleaf

/-- The walk for a page is as before; or it did not end in a page table before, and if
    it ends now, then in a big page that is the page itself. -/
def KeepsWalk (s s' : EptTables) (page : Nat) : Prop :=
  s'.walk page = s.walk page ∨
    (∀ leaf, s.walk page = some leaf → 0 < leaf.level) ∧
      ∀ leaf, s'.walk page = some leaf → leaf.page = page ∧ 0 < leaf.level

theorem KeepsWalk.trans {s s₁ s₂ : EptTables} {page : Nat} (h₁ : KeepsWalk s s₁ page)
    (h₂ : KeepsWalk s₁ s₂ page) : KeepsWalk s s₂ page := by
  rcases h₁ with h₁ | ⟨hold₁, hnew₁⟩
  · rcases h₂ with h₂ | h₂
    · exact Or.inl (h₂.trans h₁)
    · exact Or.inr (h₁ ▸ h₂)
  · rcases h₂ with h₂ | ⟨-, hnew₂⟩
    · exact Or.inr ⟨hold₁, h₂ ▸ hnew₁⟩
    · exact Or.inr ⟨hold₁, hnew₂⟩

section KeepsWalk

variable {Small : Nat → EptEntry → Prop} {s : EptTables} {roles : Roles} {page : Nat}

theorem Shape.root_part (hs : Shape Small s roles) (h : page < 2 ^ 36) :
    roles s.pml4 = some (3, page / 2 ^ (9 * (3 + 1))) := by
  rw [hs.root, Nat.div_eq_of_lt h]

theorem EptTables.walk_of_lt (h : page < 2 ^ 36) : s.walk page = walkFrom s.mem 3 s.pml4 page :=
  if_pos h

theorem EptTables.lt_of_walk {leaf : EptLeaf} (h : s.walk page = some leaf) : page < 2 ^ 36 := by
  by_contra hpage
  rw [EptTables.walk, if_neg hpage] at h
  cases h

theorem Shape.keepsWalk_newTable (hs : Shape Small s roles) {temp : Nat}
    (hnew : roles temp = none) : KeepsWalk s (s.newTable temp) page := by
  refine Or.inl ?_
  simp only [EptTables.walk, s.newTable_pml4]
  split
  · next hpage => exact hs.walkFrom_newTable hnew (hs.root_part hpage)
  · rfl

theorem Shape.keepsWalk_write (hs : Shape Small s roles) {table L n index : Nat}
    (hr : roles table = some (L + 1, n))
    (hold : (s.mem table index).present = false ∨ (s.mem table index).BIG = true) {e : EptEntry}
    (he : tableIndex (L + 1) page = index → n = page / 2 ^ (9 * (L + 1 + 1)) →
      ∀ leaf, walkFrom (s.write table index e).mem (L + 1) table page = some leaf →
        leaf.page = page ∧ 0 < leaf.level) :
    KeepsWalk s (s.write table index e) page := by
  unfold KeepsWalk EptTables.walk
  by_cases hpage : page < 2 ^ 36
  · simp only [hpage, if_true, s.write_pml4]
    rcases hs.walkFrom_write hr (Or.inr hold) e (hs.root_part hpage) with
      heq | ⟨hbefore, hindex, hn, hthere⟩
    · exact Or.inl heq
    · rw [hthere]
      refine Or.inr ⟨fun leaf hleaf => ?_, he hindex hn⟩
      exact Nat.lt_of_lt_of_le (Nat.succ_pos L) (hbefore leaf hleaf)
  · rw [if_neg hpage, if_neg hpage]
    exact Or.inl (Eq.refl _)

theorem Shape.walk_write_small (hs : Shape Small s roles) {table m : Nat}
    (hr : roles table = some (0, m / 2 ^ (9 * (0 + 1)))) (hne : page ≠ m) (e : EptEntry) :
    (s.write table (tableIndex 0 m) e).walk page = s.walk page := by
  unfold EptTables.walk
  by_cases hpage : page < 2 ^ 36
  · simp only [hpage, if_true, s.write_pml4]
    rcases hs.walkFrom_write hr (Or.inl rfl) e (hs.root_part hpage) with heq | ⟨-, hindex, hn, -⟩
    · exact heq
    · have hm := part_tableIndex 0 m
      have hp := part_tableIndex 0 page
      rw [hn, ← hindex, hp] at hm
      simp only [Nat.mul_zero, Nat.pow_zero, Nat.div_one] at hm
      exact absurd hm hne
  · exact (if_neg hpage).trans (if_neg hpage).symm

end KeepsWalk

/-! ## One level down -/

section NextTable

variable {Small : Nat → EptEntry → Prop} {P : EptPlatform} {s : EptTables} {roles : Roles}
  {pages : List Nat} {page L table : Nat}

theorem Fresh.write (hf : Fresh P s pages) (index : Nat) (e : EptEntry) :
    Fresh P (s.write table index e) pages :=
  ⟨hf.nodup, hf.unused, hf.fits⟩

theorem Fresh.newTable {temp : Nat} (hf : Fresh P s (temp :: pages)) :
    Fresh P (s.newTable temp) pages := by
  refine ⟨(List.nodup_cons.1 hf.nodup).2, fun p hp => ?_, fun p hp =>
    hf.fits p (List.mem_cons_of_mem temp hp)⟩
  obtain ⟨hroot, htables⟩ := hf.unused p (List.mem_cons_of_mem temp hp)
  have hne : p ≠ temp := by
    rintro rfl
    exact (List.nodup_cons.1 hf.nodup).1 hp
  exact ⟨hroot, fun hmem => (List.mem_cons.1 hmem).elim hne htables⟩

theorem clearBig_spec (hs : Shape Small s roles)
    (hr : roles table = some (L + 1, page / 2 ^ (9 * (L + 1 + 1)))) {clear : Bool}
    (hclear : (s.mem table (tableIndex (L + 1) page)).RA = true →
      (s.mem table (tableIndex (L + 1) page)).BIG = true → clear = true) :
    ∃ s', s.clearBig table (tableIndex (L + 1) page) clear = s' ∧ Shape Small s' roles ∧
      Changes roles page s s' ∧ (∀ p, KeepsWalk s s' p) ∧
      s'.pml4 = s.pml4 ∧ s'.tables = s.tables ∧
      ((s'.mem table (tableIndex (L + 1) page)).present = false ∨
        s' = s ∧ ∃ t, (s.mem table (tableIndex (L + 1) page)).Leads t ∧
          roles t = some (L, page / 2 ^ (9 * (L + 1)))) := by
  have hentry := hs.entry hr
  generalize he : s.mem table (tableIndex (L + 1) page) = e at *
  cases hentry with
  | empty hempty =>
    have hRA : e.RA = false := by
      simp only [EptEntry.present, Bool.or_eq_false_iff] at hempty
      exact hempty.1.1
    refine ⟨s, ?_, hs, .refl roles page s, fun _ => Or.inl rfl, rfl, rfl, Or.inl (he ▸ hempty)⟩
    simp [EptTables.clearBig, he, hRA]
  | whole hL ha hb hp =>
    have hcl := hclear ha.1 hb
    have hzero : (s.write table (tableIndex (L + 1) page) .zero).mem table
        (tableIndex (L + 1) page) = .zero := s.write_self _ _ _
    refine ⟨s.write table (tableIndex (L + 1) page) .zero, ?_, hs.write hr (.empty rfl),
      .write hr rfl (hs.owned _ _ hr) (Or.inr (Or.inr (he ▸ hb))) _, fun p => ?_, rfl, rfl,
      Or.inl (by rw [hzero]; rfl)⟩
    · simp [EptTables.clearBig, he, ha.1, hb, hcl]
    · refine hs.keepsWalk_write hr (Or.inr (he ▸ hb)) fun hindex _ leaf hleaf => ?_
      rw [← hindex] at hzero hleaf
      rw [walkFrom_of_empty (by rw [hzero]; rfl)] at hleaf
      cases hleaf
  | table ha hb hp =>
    refine ⟨s, ?_, hs, .refl roles page s, fun _ => Or.inl rfl, rfl, rfl,
      Or.inr ⟨rfl, e.page, ⟨ha, hb, rfl⟩, hp⟩⟩
    simp [EptTables.clearBig, he, hb]

/-- The state after one level, from `s` with `pages` to `s'` with `pages'`. -/
structure Down (Small : Nat → EptEntry → Prop) (P : EptPlatform) (page : Nat) (s : EptTables)
    (pages : List Nat) (roles : Roles) (s' : EptTables) (pages' : List Nat) (roles' : Roles) :
    Prop where
  shape : Shape Small s' roles'
  le : roles.Le roles'
  changes : Changes roles page s s'
  keeps : ∀ p, KeepsWalk s s' p
  fresh : Fresh P s' pages'
  length : pages.length ≤ pages'.length + 1

theorem Down.of_changes {s₁ s' : EptTables} {pages' : List Nat} {roles' : Roles}
    (hchanges : Changes roles page s s₁) (hkeeps : ∀ p, KeepsWalk s s₁ p)
    (h : Down Small P page s₁ pages roles s' pages' roles') :
    Down Small P page s pages roles s' pages' roles' :=
  ⟨h.shape, h.le, hchanges.trans (.refl roles) h.changes, fun p => (hkeeps p).trans (h.keeps p),
    h.fresh, h.length⟩

theorem Down.write_whole (hs : Shape Small s roles) (hf : Fresh P s pages)
    (hr : roles table = some (L + 1, page / 2 ^ (9 * (L + 1 + 1))))
    (hempty : (s.mem table (tableIndex (L + 1) page)).present = false) {e : EptEntry}
    (hL : L < 2) (ha : e.Allowed) (hb : e.BIG = true)
    (hp : e.page = page / 2 ^ (9 * (L + 1)) * 2 ^ (9 * (L + 1))) :
    Down Small P page s pages roles (s.write table (tableIndex (L + 1) page) e) pages roles := by
  have hself := s.write_self table (tableIndex (L + 1) page) e
  refine ⟨hs.write hr ?_, .refl roles, .write hr rfl (hs.owned _ _ hr) (Or.inr (Or.inl hempty)) e,
    fun p => hs.keepsWalk_write hr (Or.inl hempty) fun hindex hn leaf hleaf => ?_, hf.write _ e,
    Nat.le_succ _⟩
  · rw [part_tableIndex]
    exact .whole hL ha hb hp
  · -- every page that comes to the entry is in the part that the entry maps
    have hpart : page / 2 ^ (9 * (L + 1)) = p / 2 ^ (9 * (L + 1)) := by
      rw [← part_tableIndex (L + 1) page, ← part_tableIndex (L + 1) p, hindex, hn]
    rw [hpart] at hp
    rw [← hindex] at hself hleaf
    rw [walkFrom_of_whole hL (by rw [hself]; exact ha) (by rw [hself]; exact hb)
      (by rw [hself]; exact hp)] at hleaf
    obtain rfl := Option.some.inj hleaf
    exact ⟨rfl, Nat.succ_pos L⟩

theorem Down.write_newTable (hs : Shape Small s roles) (hzero : ∀ m, Small m .zero) {temp : Nat}
    (hf : Fresh P s (temp :: pages)) (hr : roles table = some (L + 1, page / 2 ^ (9 * (L + 1 + 1))))
    (hempty : (s.mem table (tableIndex (L + 1) page)).present = false) :
    ∃ roles', Down Small P page s (temp :: pages) roles
        ((s.newTable temp).write table (tableIndex (L + 1) page) (EptEntry.ofPage temp).allow)
        pages roles' ∧
      roles' temp = some (L, page / 2 ^ (9 * (L + 1))) ∧
      ∀ i, ((s.newTable temp).write table (tableIndex (L + 1) page)
        (EptEntry.ofPage temp).allow).mem temp i = .zero := by
  -- the page is no table yet, so that it is not the table of the entry
  have hnew := hs.roles_of_fresh hf List.mem_cons_self
  have hne : table ≠ temp := by
    rintro rfl
    simp [hnew] at hr
  have hs₁ := hs.newTable hzero (hf.unused temp List.mem_cons_self).1 hnew L
    (page / 2 ^ (9 * (L + 1)))
  have hle := Roles.le_update hnew (L, page / 2 ^ (9 * (L + 1)))
  have htemp : Function.update roles temp (some (L, page / 2 ^ (9 * (L + 1)))) temp =
      some (L, page / 2 ^ (9 * (L + 1))) := Function.update_self ..
  have hempty₁ : ((s.newTable temp).mem table (tableIndex (L + 1) page)).present = false := by
    rw [s.newTable_of_ne hne]
    exact hempty
  have hr₁ := hle _ _ hr
  have hwrite := Changes.write hr₁ rfl (hs₁.owned _ _ hr₁) (Or.inr (Or.inl hempty₁))
    (EptEntry.ofPage temp).allow
  have hclear : ∀ i, ((s.newTable temp).write table (tableIndex (L + 1) page)
      (EptEntry.ofPage temp).allow).mem temp i = .zero := by
    intro i
    rw [EptTables.write_of_ne _ fun h => hne h.1.symm, s.newTable_self]
  have hself := (s.newTable temp).write_self table (tableIndex (L + 1) page)
    (EptEntry.ofPage temp).allow
  refine ⟨_, ⟨hs₁.write hr₁ ?_, hle, (Changes.newTable hnew).trans hle hwrite, fun p => ?_,
    hf.newTable.write _ _, Nat.le_refl _⟩, htemp, hclear⟩
  · rw [part_tableIndex]
    exact .table (EptEntry.allowed_allow _) rfl htemp
  · refine (hs.keepsWalk_newTable hnew).trans
      (hs₁.keepsWalk_write hr₁ (Or.inl hempty₁) fun hindex _ leaf hleaf => ?_)
    have hleads : ((EptEntry.ofPage temp).allow).Leads temp := ⟨EptEntry.allowed_allow _, rfl, rfl⟩
    rw [← hindex] at hself hleaf hclear
    rw [walkFrom_of_leads (hself ▸ hleads), walkFrom_of_empty (by rw [hclear]; rfl)] at hleaf
    cases hleaf

/-- One level of `EPTMapPhysicalMemory` where no big page is in the way: the part is
    mapped as a big page, or the entry leads to a table, which is the old one or empty. -/
theorem nextTable_spec (hs : Shape Small s roles) (hzero : ∀ m, Small m .zero)
    (hf : Fresh P s pages) (hlen : 0 < pages.length)
    (hr : roles table = some (L + 1, page / 2 ^ (9 * (L + 1 + 1)))) {clear : Bool}
    (hclear : (s.mem table (tableIndex (L + 1) page)).RA = true →
      (s.mem table (tableIndex (L + 1) page)).BIG = true → clear = true) {big : Option EptEntry}
    (hbig : ∀ e, big = some e → L < 2 ∧ e.Allowed ∧ e.BIG = true ∧
      e.page = page / 2 ^ (9 * (L + 1)) * 2 ^ (9 * (L + 1))) :
    (∃ s' e, big = some e ∧
      nextTable P s pages table (tableIndex (L + 1) page) clear big = some (s', pages, none) ∧
      Down Small P page s pages roles s' pages roles ∧
      s'.mem table (tableIndex (L + 1) page) = e) ∨
    ∃ s' pages' t roles',
      nextTable P s pages table (tableIndex (L + 1) page) clear big = some (s', pages', some t) ∧
      Down Small P page s pages roles s' pages' roles' ∧
      (s'.mem table (tableIndex (L + 1) page)).Leads t ∧
      roles' t = some (L, page / 2 ^ (9 * (L + 1))) ∧
      (walkFrom s'.mem L t page = walkFrom s.mem (L + 1) table page ∨
        walkFrom s'.mem L t page = none) := by
  obtain ⟨s₁, hs₁, hshape, hchanges, hkeeps, hpml4, htables, hentry⟩ := clearBig_spec hs hr hclear
  have hf₁ : Fresh P s₁ pages := ⟨hf.nodup, by rw [hpml4, htables]; exact hf.unused, hf.fits⟩
  rcases hentry with hempty | ⟨rfl, t, hleads, ht⟩
  · have hRA : (s₁.mem table (tableIndex (L + 1) page)).RA = false := by
      simp only [EptEntry.present, Bool.or_eq_false_iff] at hempty
      exact hempty.1.1
    cases big with
    | some e =>
      obtain ⟨hL, ha, hb, hp⟩ := hbig e rfl
      have hdown := Down.write_whole hshape hf₁ hr hempty hL ha hb hp
      refine Or.inl ⟨_, e, rfl, ?_, hdown.of_changes hchanges hkeeps, s₁.write_self _ _ e⟩
      simp [nextTable, hs₁, hRA]
    | none =>
      obtain ⟨temp, pages', rfl⟩ := List.exists_cons_of_length_pos hlen
      have hmod : temp % 2 ^ (P.maxphyaddr - 12) = temp :=
        Nat.mod_eq_of_lt (hf.fits temp List.mem_cons_self)
      obtain ⟨roles', hdown, htemp, hclear'⟩ := Down.write_newTable hshape hzero hf₁ hr hempty
      refine Or.inr ⟨_, pages', temp, roles', ?_, hdown.of_changes hchanges hkeeps, ?_, htemp,
        Or.inr (walkFrom_of_empty (by rw [hclear']; rfl))⟩
      · simp [nextTable, hs₁, hRA, hmod]
      · rw [EptTables.write_self]
        exact ⟨EptEntry.allowed_allow _, rfl, rfl⟩
  · refine Or.inr ⟨s₁, pages, t, roles, ?_, ⟨hshape, .refl roles, hchanges, hkeeps, hf₁,
      Nat.le_succ _⟩, hleads, ht, Or.inl (walkFrom_of_leads hleads).symm⟩
    simp [nextTable, hs₁, hleads.allowed.1, hleads.page]

end NextTable

end CheatEngine.Dbvm
