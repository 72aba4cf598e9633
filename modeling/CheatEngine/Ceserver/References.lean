/-
  CheatEngine.Ceserver.References

  Reference counts of process handles.  `OpenProcess` returns the handle that
  a process already has and counts the reference; it lists the first module of
  a process it opens, and that list opens the process once more and closes it
  again.

  A ledger keeps the opens that the connections have not yet matched by a
  close.
-/
import CheatEngine.Ceserver.Sessions

namespace CheatEngine.Ceserver

open CheatEngine.Lib

namespace HandleTable

variable {t : HandleTable}

def live (t : HandleTable) : Nat :=
  (List.range' 1 (t.max - 1)).countP fun i => (t.entry i).type ≠ .htEmpty

theorem create_of_live (p : Pointer) (type : HandleType) (hmax : t.max = 0 ∨ t.max = 256)
    (hlive : t.live < 255) :
    ∃ i : Nat, 0 < i ∧ i < 256 ∧ (t.entry i).type = .htEmpty ∧
      t.createHandleFromPointer p type = (↑i, t.ensure.put i ⟨type, p⟩) := by
  have hensure : t.ensure.max = 256 := ensure_max hmax
  cases hfree : t.ensure.freeSlot with
  | some i =>
    obtain ⟨hpos, hlt, hempty⟩ := freeSlot_some hfree
    rw [ensure_entry] at hempty
    rw [hensure] at hlt
    exact ⟨i, hpos, hlt, hempty, by simp only [createHandleFromPointer, hfree]⟩
  | none =>
    exfalso
    have hall : ∀ i, 0 < i → i < 256 → (t.entry i).type ≠ .htEmpty := by
      intro i hpos hlt
      rw [← ensure_entry]
      exact freeSlot_eq_none.1 hfree i hpos (by omega)
    rcases hmax with hzero | hfull
    · -- a list that is not there has no handle
      have hnil : t.handleList = [] := List.length_eq_zero_iff.1 hzero
      exact hall 1 (by decide) (by decide) (by simp [entry, hnil, HandleListEntry.zero])
    · have hcount : t.live = 255 := by
        rw [live, List.countP_eq_length.2, List.length_range', hfull]
        intro i hi
        rw [List.mem_range'_1] at hi
        exact decide_eq_true (hall i (by omega) (by omega))
      omega

end HandleTable

def OpenedProcess.closed (r : OpenedProcess) : Option OpenedProcess :=
  if r.referenceCount - 1 ≤ 0 then none
  else some { r with referenceCount := r.referenceCount - 1 }

namespace ServerState

variable {s s' : ServerState} {h h' : Int} {p q : Pointer} {r : OpenedProcess} {pid : Int32}

def opened (s : ServerState) (h : Int) : Option OpenedProcess := (s.processOf h).bind s.process

/-- The handle list has its first size; every process handle has process data
    of its own, with a reference, and no two of them are of one process. -/
structure Sound (s : ServerState) : Prop where
  max : s.handles.max = 0 ∨ s.handles.max = 256
  live : ∀ h p, s.processOf h = some p → ∃ r, s.process p = some r
  inj : ∀ h h' p, s.processOf h = some p → s.processOf h' = some p → h = h'
  counted : ∀ h r, s.opened h = some r → 1 ≤ r.referenceCount
  pid : ∀ h h' r r', s.opened h = some r → s.opened h' = some r' → r.data.pid = r'.data.pid →
    h = h'

theorem opened_eq_some : s.opened h = some r ↔
    ∃ p, s.processOf h = some p ∧ s.process p = some r := by
  rw [opened, Option.bind_eq_some_iff]

theorem sound_initial : Sound initial := by
  have hnone : ∀ h, initial.processOf h = none := by
    intro h
    cases hp : initial.processOf h with
    | none => rfl
    | some p =>
      obtain ⟨hpos, hlt, -⟩ := processOf_eq_some.1 hp
      have hmax : initial.handles.max = 0 := rfl
      omega
  refine ⟨.inl rfl, ?_, ?_, ?_, ?_⟩
  · intro h p hp
    exact nomatch (hnone h).symm.trans hp
  · intro h h' p hp
    exact nomatch (hnone h).symm.trans hp
  · intro h r hr
    obtain ⟨p, hp, -⟩ := opened_eq_some.1 hr
    exact nomatch (hnone h).symm.trans hp
  · intro h h' r r' hr
    obtain ⟨p, hp, -⟩ := opened_eq_some.1 hr
    exact nomatch (hnone h).symm.trans hp

theorem Sound.opened_eq_none (hs : Sound s) : s.opened h = none ↔ s.processOf h = none := by
  cases hp : s.processOf h with
  | none => simp [opened, hp]
  | some p =>
    obtain ⟨r, hr⟩ := hs.live h p hp
    simp [opened, hp, hr]

theorem Sound.of_opened (hs : Sound s) (hmax : s'.handles.max = 0 ∨ s'.handles.max = 256)
    (hlive : ∀ h p, s'.processOf h = some p → ∃ r, s'.process p = some r)
    (hinj : ∀ h h' p, s'.processOf h = some p → s'.processOf h' = some p → h = h')
    (hopened : ∀ h r, s'.opened h = some r → 1 ≤ r.referenceCount ∧
      ∃ r', s.opened h = some r' ∧ r.data.pid = r'.data.pid) : Sound s' where
  max := hmax
  live := hlive
  inj := hinj
  counted h r hr := (hopened h r hr).1
  pid h h' r r' hr hr' hpid := by
    obtain ⟨-, r₁, hr₁, hpid₁⟩ := hopened h r hr
    obtain ⟨-, r₂, hr₂, hpid₂⟩ := hopened h' r' hr'
    exact hs.pid h h' r₁ r₂ hr₁ hr₂ (by rw [← hpid₁, ← hpid₂, hpid])

/-! ## The handle list -/

theorem processOf_removeHandle (h h' : Int) :
    { s with handles := s.handles.removeHandle h }.processOf h' =
      if h' = h then none else s.processOf h' := by
  have hframe : ∀ p, h' ≠ h → ({ s with handles := s.handles.removeHandle h }.processOf h' = some p
      ↔ s.processOf h' = some p) := by
    intro p hne
    rw [processOf_eq_some, processOf_eq_some]
    constructor
    · rintro ⟨hpos, hlt, hentry⟩
      rw [HandleTable.removeHandle_entry (by omega)] at hentry
      exact ⟨hpos, by simpa using hlt, hentry⟩
    · rintro ⟨hpos, hlt, hentry⟩
      refine ⟨hpos, by simpa using hlt, ?_⟩
      rw [HandleTable.removeHandle_entry (by omega)]
      exact hentry
  by_cases hh : h' = h
  · rw [if_pos hh, Option.eq_none_iff_forall_ne_some]
    subst hh
    intro p hp
    obtain ⟨hpos, hlt, hentry⟩ := processOf_eq_some.1 hp
    have hlt' : h' < s.handles.max := by simpa using hlt
    by_cases hused : s.handles.used h' = true
    · simp only [HandleTable.removeHandle, hused, if_true] at hentry
      rw [HandleTable.entry_put (by omega), if_pos rfl] at hentry
      exact HandleType.noConfusion (congrArg HandleListEntry.type hentry)
    · have hempty : s.handles.entry h'.toNat = ⟨.htProcesHandle, p⟩ := by
        simp only [HandleTable.removeHandle, if_neg hused] at hentry
        exact hentry
      refine hused (HandleTable.used_iff.2 ⟨hpos, hlt', ?_⟩)
      rw [hempty]
      exact fun hcon => HandleType.noConfusion hcon
  · rw [if_neg hh]
    apply Option.ext
    intro p
    exact hframe p hh

theorem processOf_createHandle_of_live (hmax : s.handles.max = 0 ∨ s.handles.max = 256)
    (hlive : s.handles.live < 255) (q : Pointer) (type : HandleType) :
    0 < (s.createHandle q type).1 ∧ s.processOf (s.createHandle q type).1 = none ∧
      (s.createHandle q type).2.handles.max = 256 ∧
      ∀ h, (s.createHandle q type).2.processOf h =
        if h = (s.createHandle q type).1 then
          if type = .htProcesHandle then some q else none
        else s.processOf h := by
  obtain ⟨i, hpos, hlt, hempty, hcreate⟩ := HandleTable.create_of_live q type hmax hlive
  have hensure : s.handles.ensure.max = 256 := HandleTable.ensure_max hmax
  have hfst : (s.createHandle q type).1 = i := by rw [createHandle, hcreate]
  have hhandles : (s.createHandle q type).2.handles = s.handles.ensure.put i ⟨type, q⟩ := by
    rw [createHandle, hcreate]
  have hentry : ∀ j, (s.createHandle q type).2.handles.entry j =
      if i = j then ⟨type, q⟩ else s.handles.entry j := by
    intro j
    rw [hhandles, HandleTable.entry_put (by omega), HandleTable.ensure_entry]
  have hmax' : (s.createHandle q type).2.handles.max = 256 := by
    rw [hhandles, HandleTable.put_max, hensure]
  rw [hfst]
  refine ⟨by omega, ?_, hmax', ?_⟩
  · rw [Option.eq_none_iff_forall_ne_some]
    intro p hp
    have hentry' := (processOf_eq_some.1 hp).2.2
    rw [Int.toNat_natCast] at hentry'
    rw [hentry'] at hempty
    exact HandleType.noConfusion hempty
  · intro h
    apply Option.ext
    intro p
    rw [processOf_eq_some, hentry, hmax']
    by_cases hh : h = i
    · subst hh
      rw [if_pos rfl, Int.toNat_natCast, if_pos rfl, HandleListEntry.mk.injEq]
      split
      · next htype => simp [htype, hpos, hlt]
      · next htype => simp [htype]
    · rw [if_neg hh, processOf_eq_some]
      have hle : s.handles.max ≤ 256 := by omega
      constructor
      · rintro ⟨hpos', -, heq⟩
        rw [if_neg (by omega)] at heq
        refine ⟨hpos', ?_, heq⟩
        -- beyond the end of the list nothing is a process
        by_contra hge
        have hzero : s.handles.entry h.toNat = .zero := by
          have hout : s.handles.handleList.length ≤ h.toNat := by
            have hlen : s.handles.handleList.length = s.handles.max := rfl
            omega
          rw [HandleTable.entry, List.getD_eq_getElem?_getD, List.getElem?_eq_none hout]
          rfl
        rw [hzero] at heq
        exact HandleType.noConfusion (congrArg HandleListEntry.type heq)
      · rintro ⟨hpos', hlt', heq⟩
        exact ⟨hpos', by omega, by rw [if_neg (by omega)]; exact heq⟩

theorem opened_createHandle_other (hs : Sound s) (hlive : s.handles.live < 255) (q : Pointer)
    (type : HandleType) (hne : type ≠ .htProcesHandle) :
    Sound (s.createHandle q type).2 ∧ ∀ h, (s.createHandle q type).2.opened h = s.opened h := by
  obtain ⟨-, hnone, hmax, hprocessOf⟩ := processOf_createHandle_of_live hs.max hlive q type
  have hsame : ∀ h, (s.createHandle q type).2.processOf h = s.processOf h := by
    intro h
    rw [hprocessOf, if_neg hne]
    split
    · next heq => rw [heq, hnone]
    · rfl
  have hopened : ∀ h, (s.createHandle q type).2.opened h = s.opened h := by
    intro h
    rw [opened, hsame]
    rfl
  refine ⟨hs.of_opened (.inr hmax) ?_ ?_ ?_, hopened⟩
  · intro h p hp
    rw [hsame] at hp
    exact hs.live h p hp
  · intro h h' p hp hp'
    rw [hsame] at hp hp'
    exact hs.inj h h' p hp hp'
  · intro h r hr
    rw [hopened] at hr
    exact ⟨hs.counted h r hr, r, hr, rfl⟩

theorem opened_createProcess (hs : Sound s) (hlive : s.handles.live < 255)
    (hnew : ∀ h r, s.opened h = some r → r.data.pid ≠ pid) {o : Int × ServerState}
    (ho : o = (s.malloc (.new pid)).2.createHandle s.heap.length .htProcesHandle) :
    Sound o.2 ∧ o.1 ≠ 0 ∧ s.opened o.1 = none ∧
      ∀ h, o.2.opened h = if h = o.1 then some (.new pid) else s.opened h := by
  subst ho
  have hm := processOf_createHandle_of_live (s := (s.malloc (.new pid)).2) hs.max hlive
    s.heap.length .htProcesHandle
  generalize hoeq : (s.malloc (.new pid)).2.createHandle s.heap.length .htProcesHandle = o at hm ⊢
  obtain ⟨hpos, hnone, hmax, hprocessOf⟩ := hm
  have hnone' : s.processOf o.1 = none := hnone
  have hheap : o.2.heap = s.heap ++ [some (.new pid)] := by rw [← hoeq]; rfl
  have hnewdata : o.2.process s.heap.length = some (.new pid) := by
    rw [process, hheap]
    simp
  have hold : ∀ p r, s.process p = some r → o.2.process p = some r := by
    intro p r hr
    have hlt := lt_of_process hr
    rw [process, hheap, List.getElem?_append_left hlt]
    exact hr
  have hother : ∀ h, h ≠ o.1 → o.2.processOf h = s.processOf h := by
    intro h hh
    rw [hprocessOf, if_neg hh]
    rfl
  have hthis : o.2.processOf o.1 = some s.heap.length := by
    rw [hprocessOf, if_pos rfl, if_pos rfl]
  have hopened : ∀ h, o.2.opened h = if h = o.1 then some (.new pid) else s.opened h := by
    intro h
    split
    · next heq =>
      subst heq
      rw [opened, hthis]
      exact hnewdata
    · next hne =>
      rw [opened, hother h hne]
      cases hp : s.processOf h with
      | none => rw [(hs.opened_eq_none).2 hp]; rfl
      | some p =>
        obtain ⟨r, hr⟩ := hs.live h p hp
        rw [opened_eq_some.2 ⟨p, hp, hr⟩]
        exact hold p r hr
  -- no older handle has the new pointer
  have hfresh : ∀ h, s.processOf h ≠ some s.heap.length := by
    intro h hp
    obtain ⟨r, hr⟩ := hs.live h _ hp
    exact Nat.lt_irrefl _ (lt_of_process hr)
  refine ⟨⟨.inr hmax, ?_, ?_, ?_, ?_⟩, by omega, hs.opened_eq_none.2 hnone', hopened⟩
  · intro h p hp
    by_cases hh : h = o.1
    · rw [hh, hthis] at hp
      rw [← Option.some.inj hp]
      exact ⟨_, hnewdata⟩
    · rw [hother h hh] at hp
      obtain ⟨r, hr⟩ := hs.live h p hp
      exact ⟨r, hold p r hr⟩
  · intro h h' p hp hp'
    by_cases hh : h = o.1
    · by_cases hh' : h' = o.1
      · rw [hh, hh']
      · rw [hh, hthis] at hp
        rw [hother h' hh', ← Option.some.inj hp] at hp'
        exact absurd hp' (hfresh h')
    · by_cases hh' : h' = o.1
      · rw [hh', hthis] at hp'
        rw [hother h hh, ← Option.some.inj hp'] at hp
        exact absurd hp (hfresh h)
      · rw [hother h hh] at hp
        rw [hother h' hh'] at hp'
        exact hs.inj h h' p hp hp'
  · intro h r hr
    rw [hopened] at hr
    split at hr
    · rw [← Option.some.inj hr]
      exact Int.le_refl 1
    · exact hs.counted h r hr
  · intro h h' r r' hr hr' hpid
    rw [hopened] at hr hr'
    split at hr
    · next hh =>
      split at hr'
      · next hh' => rw [hh, hh']
      · rw [← Option.some.inj hr] at hpid
        exact absurd hpid.symm (hnew h' r' hr')
    · split at hr'
      · rw [← Option.some.inj hr'] at hpid
        exact absurd hpid (hnew h r hr)
      · exact hs.pid h h' r r' hr hr' hpid

theorem opened_modify (hs : Sound s) (hp : s.processOf h = some p) (hr : s.process p = some r)
    {n : Int} (hn : 1 ≤ n) {f : OpenedProcess → OpenedProcess}
    (hf : f r = { r with referenceCount := n }) :
    Sound (s.modify p f) ∧ ∀ h', (s.modify p f).opened h' =
      if h' = h then some { r with referenceCount := n } else s.opened h' := by
  have hopened : ∀ h', (s.modify p f).opened h' =
      if h' = h then some { r with referenceCount := n } else s.opened h' := by
    intro h'
    have hsame : (s.modify p f).processOf h' = s.processOf h' := rfl
    rw [opened, hsame]
    split
    · next heq =>
      rw [heq, hp]
      show (s.modify p f).process p = _
      rw [process_modify_self, hr, Option.map_some, hf]
    · next hne =>
      cases hq : s.processOf h' with
      | none => rw [hs.opened_eq_none.2 hq]; rfl
      | some q =>
        have hpq : p ≠ q := by
          rintro rfl
          exact hne (hs.inj h' h p hq hp)
        rw [opened, hq]
        show (s.modify p f).process q = s.process q
        exact process_modify_ne hpq
  refine ⟨hs.of_opened hs.max ?_ hs.inj ?_, hopened⟩
  · intro h' q hq
    obtain ⟨r', hr'⟩ := hs.live h' q hq
    rw [process_modify]
    split
    · exact ⟨f r', by rw [hr']; rfl⟩
    · exact ⟨r', hr'⟩
  · intro h' r' hr'
    rw [hopened] at hr'
    split at hr'
    · next heq =>
      rw [← Option.some.inj hr', heq]
      exact ⟨hn, r, opened_eq_some.2 ⟨p, hp, hr⟩, rfl⟩
    · exact ⟨hs.counted h' r' hr', r', hr', rfl⟩

theorem opened_closeHandle (hs : Sound s) (h : Int) :
    Sound (s.closeHandle h) ∧ ∀ h', (s.closeHandle h).opened h' =
      if h' = h then (s.opened h).bind OpenedProcess.closed else s.opened h' := by
  have hremove : ∀ heap : List (Option OpenedProcess),
      (∀ h' q, h' ≠ h → s.processOf h' = some q → (heap[q]?).join = s.process q) →
      Sound { s with heap, handles := s.handles.removeHandle h } ∧
        ∀ h', { s with heap, handles := s.handles.removeHandle h }.opened h' =
          if h' = h then none else s.opened h' := by
    intro heap hheap
    have hprocessOf : ∀ h', { s with heap, handles := s.handles.removeHandle h }.processOf h' =
        if h' = h then none else s.processOf h' := fun h' => processOf_removeHandle h h'
    have hopened : ∀ h', { s with heap, handles := s.handles.removeHandle h }.opened h' =
        if h' = h then none else s.opened h' := by
      intro h'
      rw [opened, hprocessOf]
      split
      · rfl
      · next hne =>
        rw [opened]
        cases hq : s.processOf h' with
        | none => rfl
        | some q => exact hheap h' q hne hq
    refine ⟨hs.of_opened ?_ ?_ ?_ ?_, hopened⟩
    · simpa using hs.max
    · intro h' q hq
      rw [hprocessOf] at hq
      split at hq
      · exact nomatch hq
      · next hne =>
        obtain ⟨r, hr⟩ := hs.live h' q hq
        exact ⟨r, (hheap h' q hne hq).trans hr⟩
    · intro h₁ h₂ q hq₁ hq₂
      rw [hprocessOf] at hq₁ hq₂
      split at hq₁
      · exact nomatch hq₁
      · split at hq₂
        · exact nomatch hq₂
        · exact hs.inj h₁ h₂ q hq₁ hq₂
    · intro h' r hr
      rw [hopened] at hr
      split at hr
      · exact nomatch hr
      · exact ⟨hs.counted h' r hr, r, hr, rfl⟩
  unfold closeHandle
  cases hp : s.processOf h with
  | none =>
    obtain ⟨hsound, hopened⟩ := hremove s.heap (fun _ _ _ _ => rfl)
    refine ⟨hsound, ?_⟩
    intro h'
    rw [hopened h', hs.opened_eq_none.2 hp]
    rfl
  | some p =>
    obtain ⟨r, hr⟩ := hs.live h p hp
    have hopen : s.opened h = some r := opened_eq_some.2 ⟨p, hp, hr⟩
    rw [hopen, Option.bind_some, OpenedProcess.closed]
    simp only [hr]
    by_cases hlast : r.referenceCount - 1 ≤ 0
    · rw [if_pos hlast, if_pos hlast]
      refine hremove (s.heap.set p none) ?_
      intro h' q hne hq
      have hpq : p ≠ q := by
        rintro rfl
        exact hne (hs.inj h' h p hq hp)
      rw [List.getElem?_set, if_neg hpq]
      rfl
    · rw [if_neg hlast, if_neg hlast]
      exact opened_modify hs hp hr (by omega) rfl

/-! ## OpenProcess and lists of modules -/

/-- `o` is what `OpenProcess` of `pid` yields in `s`: one reference more, or
    nothing, or a new process. -/
structure OpensOne (s : ServerState) (pid : Int32) (o : Int × ServerState) : Prop where
  sound : Sound o.2
  cases : (∃ r, o.1 ≠ 0 ∧ s.opened o.1 = some r ∧ r.data.pid = pid ∧ ∀ h, o.2.opened h =
      if h = o.1 then some { r with referenceCount := r.referenceCount + 1 } else s.opened h) ∨
    (o.1 = 0 ∧ ∀ h, o.2.opened h = s.opened h) ∨
    (o.1 ≠ 0 ∧ s.opened o.1 = none ∧ ∀ h, o.2.opened h =
      if h = o.1 then some (.new pid) else s.opened h)

theorem opened_zero : s.opened 0 = none := by
  rw [opened, processOf_zero]
  rfl

theorem OpensOne.closeHandle {o : Int × ServerState} (hs : Sound s) (ho : OpensOne s pid o) :
    Sound (o.2.closeHandle o.1) ∧ ∀ h, (o.2.closeHandle o.1).opened h = s.opened h := by
  obtain ⟨hsound, hopened⟩ := opened_closeHandle ho.sound o.1
  refine ⟨hsound, ?_⟩
  intro h
  rw [hopened]
  rcases ho.cases with ⟨r, -, hr, -, hafter⟩ | ⟨hzero, hafter⟩ | ⟨-, hnone, hafter⟩
  · have hcount := hs.counted o.1 r hr
    have hmore : ¬ r.referenceCount + 1 - 1 ≤ 0 := by omega
    have hsub : r.referenceCount + 1 - 1 = r.referenceCount := by omega
    rw [hafter, hafter, if_pos rfl, Option.bind_some, OpenedProcess.closed, if_neg hmore, hsub]
    split
    · next heq => rw [heq, hr]
    · rfl
  · rw [hafter, hafter, hzero, opened_zero]
    split
    · next heq => rw [heq, opened_zero]; rfl
    · rfl
  · rw [hafter, hafter, if_pos rfl, Option.bind_some]
    split
    · next heq => rw [heq, hnone]; rfl
    · rfl

theorem opened_moduleSnapshot (opens : ServerState → Int32 → Int × ServerState) (maps : Bool)
    (pid : Int32) (hs : Sound s) (ho : maps = true → OpensOne s pid (opens s pid))
    (hlive : maps = true → ((opens s pid).2.closeHandle (opens s pid).1).handles.live < 255) :
    Sound (moduleSnapshot opens maps s pid).2 ∧
      ∀ h, (moduleSnapshot opens maps s pid).2.opened h = s.opened h := by
  cases maps with
  | false => exact ⟨hs, fun _ => rfl⟩
  | true =>
    obtain ⟨hsound, hclosed⟩ := (ho rfl).closeHandle hs
    obtain ⟨hsound', hcreate⟩ :=
      opened_createHandle_other hsound (hlive rfl) 0 .htTHSModule (by decide)
    refine ⟨hsound', ?_⟩
    intro h
    exact (hcreate h).trans (hclosed h)

theorem openedHandle_spec (hfound : s.openedHandle pid ≠ 0) :
    ∃ r, s.processOf (s.openedHandle pid) =
        some (s.handles.getPointerFromHandle (s.openedHandle pid)) ∧
      s.process (s.handles.getPointerFromHandle (s.openedHandle pid)) = some r ∧
      r.data.pid = pid := by
  unfold openedHandle HandleTable.searchHandleList at hfound ⊢
  cases hfind : (List.range' 1 (s.handles.max - 1)).find? fun i =>
      (s.handles.entry i).type = .htProcesHandle ∧
        (s.process (s.handles.entry i).pointer).any (·.data.pid = pid) = true with
  | none =>
    rw [hfind] at hfound
    exact absurd rfl hfound
  | some i =>
    have hmem := List.mem_range'_1.1 (List.mem_of_find?_eq_some hfind)
    have hmatch := List.find?_some hfind
    rw [decide_eq_true_eq] at hmatch
    obtain ⟨htype, hany⟩ := hmatch
    have hpointer : s.handles.getPointerFromHandle i = (s.handles.entry i).pointer := by
      apply HandleTable.getPointerFromHandle_of_used
      refine HandleTable.used_iff.2 ⟨by omega, by omega, ?_⟩
      rw [Int.toNat_natCast, htype]
      decide
    have hprocessOf : s.processOf i = some (s.handles.entry i).pointer := by
      rw [processOf_eq_some]
      refine ⟨by omega, by omega, ?_⟩
      rw [Int.toNat_natCast, ← htype]
    rw [Option.any_eq_true] at hany
    obtain ⟨r, hr, hpid⟩ := hany
    refine ⟨r, ?_, ?_, by simpa using hpid⟩
    · show s.processOf i = some (s.handles.getPointerFromHandle i)
      rw [hprocessOf, hpointer]
    · show s.process (s.handles.getPointerFromHandle i) = some r
      rw [hpointer]
      exact hr

theorem openedHandle_eq_zero (hzero : s.openedHandle pid = 0) (hr : s.opened h = some r) :
    r.data.pid ≠ pid := by
  intro hpid
  obtain ⟨p, hp, hprocess⟩ := opened_eq_some.1 hr
  obtain ⟨hpos, hlt, hentry⟩ := processOf_eq_some.1 hp
  refine HandleTable.searchHandleList_ne_zero hpos hlt ?_ hzero
  rw [hentry]
  refine ⟨rfl, ?_⟩
  show (s.process p).any _ = true
  rw [hprocess]
  simpa using hpid

/-- The handle lists in which `OpenProcess` creates a handle, in order. -/
def openProcessCreates (proc : ProcAnswers) (s : ServerState) (pid : Int32) : List HandleTable :=
  if s.openedHandle pid ≠ 0 then []
  else if proc.chdir then
    let o := (s.malloc (.new pid)).2.createHandle s.heap.length .htProcesHandle
    let i := openProcess proc 1 o.2 pid
    s.handles :: if proc.firstMaps then [(i.2.closeHandle i.1).handles] else []
  else []

theorem opensOne_found (proc : ProcAnswers) (fuel : Nat) (hs : Sound s)
    (hfound : s.openedHandle pid ≠ 0) : OpensOne s pid (openProcess proc (fuel + 1) s pid) := by
  obtain ⟨r, hp, hr, hpid⟩ := openedHandle_spec hfound
  have hcount := hs.counted _ r (opened_eq_some.2 ⟨_, hp, hr⟩)
  have heq : openProcess proc (fuel + 1) s pid = (s.openedHandle pid,
      s.modify (s.handles.getPointerFromHandle (s.openedHandle pid)) fun r =>
        { r with referenceCount := r.referenceCount + 1 }) := by
    simp only [openProcess, if_pos hfound]
  obtain ⟨hsound, hopened⟩ := opened_modify hs hp hr (n := r.referenceCount + 1) (by omega)
    (f := fun r => { r with referenceCount := r.referenceCount + 1 }) rfl
  rw [heq]
  exact ⟨hsound, .inl ⟨r, hfound, opened_eq_some.2 ⟨_, hp, hr⟩, hpid, hopened⟩⟩

theorem opensOne_openProcess (proc : ProcAnswers) (hs : Sound s)
    (hroom : ∀ t ∈ openProcessCreates proc s pid, t.live < 255) :
    OpensOne s pid (openProcess proc 2 s pid) := by
  by_cases hfound : s.openedHandle pid ≠ 0
  · exact opensOne_found proc 1 hs hfound
  rw [openProcessCreates, if_neg hfound] at hroom
  cases hdir : proc.chdir with
  | false =>
    have heq : openProcess proc 2 s pid = (0, s) := by
      simp only [openProcess, if_neg hfound, hdir]
      rfl
    rw [heq]
    exact ⟨hs, .inr (.inl ⟨rfl, fun _ => rfl⟩)⟩
  | true =>
    rw [hdir, if_pos rfl] at hroom
    have hzero : s.openedHandle pid = 0 := not_not.1 hfound
    generalize ho : (s.malloc (.new pid)).2.createHandle s.heap.length .htProcesHandle = o
      at hroom
    have heq : openProcess proc 2 s pid = (o.1,
        if (moduleSnapshot (openProcess proc 1) proc.firstMaps o.2 pid).1 ≠ 0 then
          (moduleSnapshot (openProcess proc 1) proc.firstMaps o.2 pid).2.closeHandle
            (moduleSnapshot (openProcess proc 1) proc.firstMaps o.2 pid).1
        else (moduleSnapshot (openProcess proc 1) proc.firstMaps o.2 pid).2) := by
      rw [← ho]
      simp only [openProcess, if_neg hfound, hdir]
      rfl
    obtain ⟨hsound, hne, hnone, hopened⟩ := opened_createProcess hs
      (hroom s.handles (List.mem_cons_self ..)) (fun h r hr => openedHandle_eq_zero hzero hr)
      ho.symm
    -- the list of the first module finds the new process
    have hagain : o.2.openedHandle pid ≠ 0 := by
      intro hzero'
      have hthis : o.2.opened o.1 = some (.new pid) := by rw [hopened, if_pos rfl]
      exact openedHandle_eq_zero hzero' hthis rfl
    obtain ⟨hsound', hlist⟩ := opened_moduleSnapshot (openProcess proc 1)
      proc.firstMaps pid hsound
      (fun _ => opensOne_found proc 0 hsound hagain) (by
        intro hmaps
        apply hroom
        rw [hmaps]
        exact List.mem_cons_of_mem _ (List.mem_cons_self ..))
    have hclosed : ∀ m : Int × ServerState, Sound m.2 → m.2.processOf m.1 = none →
        Sound (if m.1 ≠ 0 then m.2.closeHandle m.1 else m.2) ∧
        ∀ h, (if m.1 ≠ 0 then m.2.closeHandle m.1 else m.2).opened h = m.2.opened h := by
      intro m hm hmnone
      split
      · obtain ⟨hm', hmopened⟩ := opened_closeHandle hm m.1
        refine ⟨hm', ?_⟩
        intro h
        rw [hmopened]
        split
        · next heq => rw [heq, hm.opened_eq_none.2 hmnone]; rfl
        · rfl
      · exact ⟨hm, fun _ => rfl⟩
    obtain ⟨hsound'', hend⟩ := hclosed _ hsound' processOf_moduleSnapshot
    rw [heq]
    refine ⟨hsound'', .inr (.inr ⟨hne, hnone, ?_⟩)⟩
    intro h
    rw [hend, hlist, hopened]

end ServerState

/-! ## Commands -/

/-- What the system answers to a snapshot. -/
structure SnapshotAnswers where
  /-- `ATTACH_PID` is not set, or is the process. -/
  attached : Bool
  /-- For a list of modules. -/
  proc : ProcAnswers
  /-- `opendir` of the tasks of the process. -/
  tasks : Bool

/-- `TH32CS_SNAPPROCESS`, `TH32CS_SNAPTHREAD`, `TH32CS_SNAPMODULE` and
    `TH32CS_SNAPFIRSTMODULE`. -/
def th32csSnapProcess : UInt32 := 0x2
def th32csSnapThread : UInt32 := 0x4
def th32csSnapModule : UInt32 := 0x8
def th32csSnapFirstModule : UInt32 := 0x40000000

def hasFlag (dwFlags flag : UInt32) : Bool := dwFlags &&& flag ≠ 0

namespace ServerState

section

variable (s : ServerState) (dwFlags : UInt32) (pid : Int32) (answers : SnapshotAnswers)

def createToolhelp32Snapshot : Int × ServerState :=
  if hasFlag dwFlags th32csSnapProcess then s.createHandle 0 .htTHSProcess
  else if (hasFlag dwFlags th32csSnapModule || hasFlag dwFlags th32csSnapFirstModule) &&
      answers.attached then
    moduleSnapshot (openProcess answers.proc 2) answers.proc.maps s pid
  else if hasFlag dwFlags th32csSnapThread then
    if pid = 0 then (0, s)
    else if answers.tasks then s.createHandle 0 .htTHSThread
    else (0, s)
  else (0, s)

/-- The handle lists in which `CreateToolhelp32Snapshot` creates a handle. -/
def createToolhelp32SnapshotCreates : List HandleTable :=
  if hasFlag dwFlags th32csSnapProcess then [s.handles]
  else if (hasFlag dwFlags th32csSnapModule || hasFlag dwFlags th32csSnapFirstModule) &&
      answers.attached then
    if answers.proc.maps then
      let o := openProcess answers.proc 2 s pid
      openProcessCreates answers.proc s pid ++ [(o.2.closeHandle o.1).handles]
    else []
  else if hasFlag dwFlags th32csSnapThread && pid ≠ 0 && answers.tasks then [s.handles]
  else []

/-- `CMD_CREATETOOLHELP32SNAPSHOTEX` sends a list of threads or modules at once
    and closes its snapshot. -/
def createToolhelp32SnapshotEx : ServerState :=
  let (r, s) := s.createToolhelp32Snapshot dwFlags pid answers
  if (hasFlag dwFlags th32csSnapThread || hasFlag dwFlags th32csSnapModule) && r ≠ 0 then
    s.closeHandle r
  else s

end

variable {s : ServerState} {h : Int} {pid : Int32}

theorem opened_createToolhelp32Snapshot (hs : Sound s) (dwFlags : UInt32)
    (answers : SnapshotAnswers)
    (hroom : ∀ t ∈ s.createToolhelp32SnapshotCreates dwFlags pid answers, t.live < 255) :
    Sound (s.createToolhelp32Snapshot dwFlags pid answers).2 ∧
      (s.createToolhelp32Snapshot dwFlags pid answers).2.processOf
        (s.createToolhelp32Snapshot dwFlags pid answers).1 = none ∧
      ∀ h, (s.createToolhelp32Snapshot dwFlags pid answers).2.opened h = s.opened h := by
  have hfail : Sound (0, s).2 ∧ (0, s).2.processOf (0, s).1 = none ∧
      ∀ h, (0, s).2.opened h = s.opened h := ⟨hs, processOf_zero, fun _ => rfl⟩
  have hcreate : ∀ type, type ≠ .htProcesHandle → s.handles.live < 255 →
      Sound (s.createHandle 0 type).2 ∧
        (s.createHandle 0 type).2.processOf (s.createHandle 0 type).1 = none ∧
        ∀ h, (s.createHandle 0 type).2.opened h = s.opened h := by
    intro type hne hlive
    obtain ⟨hsound, hopened⟩ := opened_createHandle_other hs hlive 0 type hne
    exact ⟨hsound, processOf_createHandle_other hne, hopened⟩
  unfold createToolhelp32Snapshot
  unfold createToolhelp32SnapshotCreates at hroom
  split
  · next hprocess =>
    rw [if_pos hprocess] at hroom
    exact hcreate _ (by decide) (hroom _ (List.mem_cons_self ..))
  · next hprocess =>
    rw [if_neg hprocess] at hroom
    split
    · next hmodule =>
      rw [if_pos hmodule] at hroom
      have hlist := opened_moduleSnapshot (openProcess answers.proc 2) answers.proc.maps pid hs
        (by
          intro hmaps
          rw [if_pos hmaps] at hroom
          apply opensOne_openProcess answers.proc hs
          intro t ht
          exact hroom t (List.mem_append_left _ ht))
        (by
          intro hmaps
          rw [if_pos hmaps] at hroom
          exact hroom _ (List.mem_append_right _ (List.mem_cons_self ..)))
      exact ⟨hlist.1, processOf_moduleSnapshot, hlist.2⟩
    · next hmodule =>
      rw [if_neg hmodule] at hroom
      split
      · next hthread =>
        split
        · exact hfail
        · next hpid =>
          split
          · next htasks =>
            rw [if_pos (by simp [hthread, hpid, htasks])] at hroom
            exact hcreate _ (by decide) (hroom _ (List.mem_cons_self ..))
          · exact hfail
      · exact hfail

theorem opened_createToolhelp32SnapshotEx (hs : Sound s) (dwFlags : UInt32)
    (answers : SnapshotAnswers)
    (hroom : ∀ t ∈ s.createToolhelp32SnapshotCreates dwFlags pid answers, t.live < 255) :
    Sound (s.createToolhelp32SnapshotEx dwFlags pid answers) ∧
      ∀ h, (s.createToolhelp32SnapshotEx dwFlags pid answers).opened h = s.opened h := by
  obtain ⟨hsound, hnone, hopened⟩ := opened_createToolhelp32Snapshot hs dwFlags answers hroom
  unfold createToolhelp32SnapshotEx
  dsimp only
  split
  · obtain ⟨hsound', hclosed⟩ := opened_closeHandle hsound
      (s.createToolhelp32Snapshot dwFlags pid answers).1
    refine ⟨hsound', ?_⟩
    intro h
    rw [hclosed]
    split
    · next heq =>
      rw [heq, ← hopened, hsound.opened_eq_none.2 hnone]
      rfl
    · exact hopened h
  · exact ⟨hsound, hopened⟩

end ServerState

/-- The commands on handles of processes and snapshots. -/
inductive ProcessCommand
  | openProcess (c : ConnectionId) (pid : Int32) (proc : ProcAnswers)
  | createToolhelp32Snapshot (c : ConnectionId) (dwFlags : UInt32) (pid : Int32)
      (answers : SnapshotAnswers)
  | createToolhelp32SnapshotEx (c : ConnectionId) (dwFlags : UInt32) (pid : Int32)
      (answers : SnapshotAnswers)
  | closeHandle (c : ConnectionId) (h : Int32)

/-! ## The ledger -/

/-- An open that was not matched by a close. -/
structure OpenRecord where
  client : ConnectionId
  handle : Int
  pid : Int32
  deriving DecidableEq, Repr

/-- The server and the unmatched opens of its clients. -/
structure Ledger where
  server : ServerState
  opens : List OpenRecord

namespace Ledger

open ServerState

/-- No client has opened anything. -/
def initial : Ledger := ⟨.initial, []⟩

/-- One command.  A close of a process handle matches an open of the same
    client. -/
def step (l : Ledger) : ProcessCommand → Ledger
  | .openProcess c pid proc =>
    let (h, server) := openProcess proc 2 l.server pid
    ⟨server, if h ≠ 0 then ⟨c, h, pid⟩ :: l.opens else l.opens⟩
  | .createToolhelp32Snapshot _ dwFlags pid answers =>
    ⟨(l.server.createToolhelp32Snapshot dwFlags pid answers).2, l.opens⟩
  | .createToolhelp32SnapshotEx _ dwFlags pid answers =>
    ⟨l.server.createToolhelp32SnapshotEx dwFlags pid answers, l.opens⟩
  | .closeHandle c h =>
    ⟨l.server.closeHandle h.toInt,
      if (l.server.processOf h.toInt).isSome then
        l.opens.eraseP fun o => o.client = c ∧ o.handle = h.toInt
      else l.opens⟩

/-- Each handle is created while fewer than 255 are in use. -/
def Room (l : Ledger) : ProcessCommand → Prop
  | .openProcess _ pid proc => ∀ t ∈ openProcessCreates proc l.server pid, t.live < 255
  | .createToolhelp32Snapshot _ dwFlags pid answers
  | .createToolhelp32SnapshotEx _ dwFlags pid answers =>
    ∀ t ∈ l.server.createToolhelp32SnapshotCreates dwFlags pid answers, t.live < 255
  | .closeHandle _ _ => True

instance (l : Ledger) (cmd : ProcessCommand) : Decidable (l.Room cmd) :=
  match cmd with
  | .openProcess _ pid proc =>
    inferInstanceAs (Decidable (∀ t ∈ openProcessCreates proc l.server pid, t.live < 255))
  | .createToolhelp32Snapshot _ dwFlags pid answers
  | .createToolhelp32SnapshotEx _ dwFlags pid answers =>
    inferInstanceAs (Decidable (∀ t ∈ l.server.createToolhelp32SnapshotCreates dwFlags pid answers,
      t.live < 255))
  | .closeHandle _ _ => inferInstanceAs (Decidable True)

/-- A client that closes a process handle has an open to match. -/
def Matched (l : Ledger) : ProcessCommand → Prop
  | .closeHandle c h => (l.server.processOf h.toInt).isSome →
      ∃ o ∈ l.opens, o.client = c ∧ o.handle = h.toInt
  | _ => True

def unmatched (l : Ledger) (h : Int) : Nat := l.opens.countP (·.handle = h)

/-- Every handle with an unmatched open is a process handle of its process,
    counted as often as it is open, and no two process handles are of one
    process. -/
structure Balanced (l : Ledger) : Prop where
  opens : ∀ o ∈ l.opens, l.server.handles.getHandleType o.handle = .htProcesHandle ∧
    ∃ r, l.server.process (l.server.handles.getPointerFromHandle o.handle) = some r ∧
      r.data.pid = o.pid ∧ r.referenceCount = l.unmatched o.handle
  distinct : ∀ h h' r r',
    l.server.handles.getHandleType h = .htProcesHandle →
    l.server.handles.getHandleType h' = .htProcesHandle →
    l.server.process (l.server.handles.getPointerFromHandle h) = some r →
    l.server.process (l.server.handles.getPointerFromHandle h') = some r' →
    r.data.pid = r'.data.pid → h = h'

/-- The opened processes are those of the ledger. -/
structure Inv (l : Ledger) : Prop where
  sound : Sound l.server
  count : ∀ h r, l.server.opened h = some r → r.referenceCount = l.unmatched h
  /-- What is open in the ledger is an opened process. -/
  pid : ∀ o ∈ l.opens, ∃ r, l.server.opened o.handle = some r ∧ r.data.pid = o.pid

variable {l l' : Ledger}

theorem inv_initial : Inv initial where
  sound := sound_initial
  count h r hr := by
    obtain ⟨p, hp, -⟩ := opened_eq_some.1 hr
    obtain ⟨hpos, hlt, -⟩ := processOf_eq_some.1 hp
    have hmax : initial.server.handles.max = 0 := rfl
    omega
  pid o ho := nomatch ho

theorem Inv.unmatched_eq_zero (hl : Inv l) {h : Int} (hnone : l.server.opened h = none) :
    l.unmatched h = 0 := by
  rw [unmatched, List.countP_eq_zero]
  intro o ho hh
  obtain ⟨r, hr, -⟩ := hl.pid o ho
  rw [of_decide_eq_true hh, hnone] at hr
  exact nomatch hr

theorem Inv.same {server : ServerState} (hl : Inv l) (hsound : Sound server)
    (hopened : ∀ h, server.opened h = l.server.opened h) : Inv ⟨server, l.opens⟩ where
  sound := hsound
  count h r hr := hl.count h r ((hopened h).symm.trans hr)
  pid o ho := by
    obtain ⟨r, hr, hpid⟩ := hl.pid o ho
    exact ⟨r, (hopened o.handle).trans hr, hpid⟩

theorem unmatched_cons (server : ServerState) (o : OpenRecord) (h : Int) :
    unmatched ⟨server, o :: l.opens⟩ h = l.unmatched h + if o.handle = h then 1 else 0 := by
  simp only [unmatched, List.countP_cons, decide_eq_true_eq]

theorem inv_openProcess (hl : Inv l) (c : ConnectionId) (pid : Int32) (proc : ProcAnswers)
    (hroom : Room l (.openProcess c pid proc)) : Inv (l.step (.openProcess c pid proc)) := by
  obtain ⟨hsound, hcases⟩ := opensOne_openProcess proc hl.sound hroom
  have hstep : l.step (.openProcess c pid proc) = ⟨(openProcess proc 2 l.server pid).2,
      if (openProcess proc 2 l.server pid).1 ≠ 0 then
        ⟨c, (openProcess proc 2 l.server pid).1, pid⟩ :: l.opens else l.opens⟩ := rfl
  rw [hstep]
  generalize openProcess proc 2 l.server pid = o at hsound hcases
  -- a new record for `o.1`, whose count was `n` before
  have hopen : ∀ (r : OpenedProcess), o.1 ≠ 0 → r.data.pid = pid →
      r.referenceCount = l.unmatched o.1 + 1 →
      (∀ x ∈ l.opens, x.handle = o.1 → x.pid = pid) →
      (∀ h, o.2.opened h = if h = o.1 then some r else l.server.opened h) →
      Inv ⟨o.2, if o.1 ≠ 0 then ⟨c, o.1, pid⟩ :: l.opens else l.opens⟩ := by
    intro r hne hpid hcount hsame hafter
    rw [if_pos hne]
    refine ⟨hsound, ?_, ?_⟩
    · intro h r' hr'
      rw [unmatched_cons]
      rw [hafter] at hr'
      split at hr'
      · next heq =>
        rw [← Option.some.inj hr', hcount, heq, if_pos rfl]
        rfl
      · next hother =>
        rw [if_neg (Ne.symm hother), hl.count h r' hr']
        rfl
    · intro x hx
      rw [hafter]
      rcases List.mem_cons.1 hx with rfl | hx
      · exact ⟨r, if_pos rfl, hpid⟩
      · split
        · next heq => exact ⟨r, rfl, hpid.trans (hsame x hx heq).symm⟩
        · exact hl.pid x hx
  rcases hcases with ⟨r, hne, hr, hpid, hafter⟩ | ⟨hzero, hafter⟩ | ⟨hne, hnone, hafter⟩
  · refine hopen { r with referenceCount := r.referenceCount + 1 } hne hpid ?_ ?_ hafter
    · show r.referenceCount + 1 = _
      rw [hl.count o.1 r hr]
    · intro x hx hh
      obtain ⟨r', hr', hpid'⟩ := hl.pid x hx
      rw [hh, hr] at hr'
      rw [← hpid', ← Option.some.inj hr', hpid]
  · rw [hzero]
    exact hl.same hsound hafter
  · refine hopen _ hne rfl ?_ ?_ hafter
    · rw [hl.unmatched_eq_zero hnone]
      rfl
    · intro x hx hh
      obtain ⟨r', hr', -⟩ := hl.pid x hx
      rw [hh, hnone] at hr'
      exact nomatch hr'

theorem inv_closeHandle (hl : Inv l) (c : ConnectionId) (h : Int32)
    (hmatched : Matched l (.closeHandle c h)) : Inv (l.step (.closeHandle c h)) := by
  obtain ⟨hsound, hafter⟩ := opened_closeHandle hl.sound h.toInt
  have hstep : l.step (.closeHandle c h) = ⟨l.server.closeHandle h.toInt,
      if (l.server.processOf h.toInt).isSome then
        l.opens.eraseP fun o => o.client = c ∧ o.handle = h.toInt
      else l.opens⟩ := rfl
  rw [hstep]
  by_cases hsome : (l.server.processOf h.toInt).isSome = true
  · obtain ⟨o, ho, hclient, hhandle⟩ := hmatched hsome
    obtain ⟨r, hr, hpid⟩ := hl.pid o ho
    rw [hhandle] at hr
    rw [if_pos hsome]
    have hmatch : decide (o.client = c ∧ o.handle = h.toInt) = true :=
      decide_eq_true ⟨hclient, hhandle⟩
    obtain ⟨x, before, after, -, hx, hsplit, herase⟩ :=
      List.exists_of_eraseP (p := fun o => o.client = c ∧ o.handle = h.toInt) ho hmatch
    have hxhandle : x.handle = h.toInt := (of_decide_eq_true hx).2
    have hcount : ∀ h', l.unmatched h' = unmatched
        ⟨l.server.closeHandle h.toInt, l.opens.eraseP fun o => o.client = c ∧ o.handle = h.toInt⟩ h'
          + if h.toInt = h' then 1 else 0 := by
      intro h'
      rw [unmatched, unmatched, herase, hsplit]
      simp only [List.countP_append, List.countP_cons, decide_eq_true_eq, hxhandle]
      omega
    rw [hr, Option.bind_some] at hafter
    have hrcount := hl.count h.toInt r hr
    have hone := hcount h.toInt
    rw [if_pos rfl] at hone
    refine ⟨hsound, ?_, ?_⟩
    · intro h' r' hr'
      rw [hafter] at hr'
      have hthis := hcount h'
      split at hr'
      · next heq =>
        subst heq
        rw [OpenedProcess.closed] at hr'
        split at hr'
        · exact nomatch hr'
        · rw [← Option.some.inj hr']
          show r.referenceCount - 1 = _
          omega
      · next hne =>
        rw [if_neg (Ne.symm hne)] at hthis
        rw [hl.count h' r' hr']
        omega
    · intro y hy
      have hmem : y ∈ l.opens := List.mem_of_mem_eraseP hy
      obtain ⟨r', hr', hpid'⟩ := hl.pid y hmem
      rw [hafter]
      split
      · next heq =>
        rw [heq, hr] at hr'
        -- `y` is left, so this was not the last reference
        have hleft : 0 < unmatched ⟨l.server.closeHandle h.toInt,
            l.opens.eraseP fun o => o.client = c ∧ o.handle = h.toInt⟩ h.toInt := by
          rw [unmatched, List.countP_pos_iff]
          exact ⟨y, hy, decide_eq_true heq⟩
        have hmore : ¬ r.referenceCount - 1 ≤ 0 := by omega
        rw [OpenedProcess.closed, if_neg hmore]
        exact ⟨_, rfl, by rw [← hpid', ← Option.some.inj hr']⟩
      · exact ⟨r', hr', hpid'⟩
  · rw [if_neg hsome]
    apply hl.same hsound
    intro h'
    rw [hafter]
    split
    · next heq =>
      have hnone : l.server.opened h.toInt = none :=
        hl.sound.opened_eq_none.2 (Option.not_isSome_iff_eq_none.1 hsome)
      rw [heq, hnone]
      rfl
    · rfl

theorem inv_step (hl : Inv l) (cmd : ProcessCommand) (hcmd : Room l cmd ∧ Matched l cmd) :
    Inv (l.step cmd) := by
  cases cmd with
  | openProcess c pid proc => exact inv_openProcess hl c pid proc hcmd.1
  | createToolhelp32Snapshot c dwFlags pid answers =>
    obtain ⟨hsound, -, hopened⟩ :=
      opened_createToolhelp32Snapshot hl.sound dwFlags answers hcmd.1
    exact hl.same hsound hopened
  | createToolhelp32SnapshotEx c dwFlags pid answers =>
    obtain ⟨hsound, hopened⟩ := opened_createToolhelp32SnapshotEx hl.sound dwFlags answers hcmd.1
    exact hl.same hsound hopened
  | closeHandle c h => exact inv_closeHandle hl c h hcmd.2

theorem processOf_of_type {s : ServerState} {h : Int}
    (htype : s.handles.getHandleType h = .htProcesHandle) :
    s.processOf h = some (s.handles.getPointerFromHandle h) := by
  rw [processOf, if_pos htype]

theorem Inv.balanced (hl : Inv l) : Balanced l where
  opens o ho := by
    obtain ⟨r, hr, hpid⟩ := hl.pid o ho
    obtain ⟨p, hp, hprocess⟩ := opened_eq_some.1 hr
    have htype : l.server.handles.getHandleType o.handle = .htProcesHandle := by
      by_contra hne
      rw [processOf, if_neg hne] at hp
      exact nomatch hp
    rw [processOf_of_type htype] at hp
    rw [Option.some.inj hp]
    exact ⟨htype, r, hprocess, hpid, hl.count o.handle r hr⟩
  distinct h h' r r' htype htype' hr hr' hpid := by
    apply hl.sound.pid h h' r r' _ _ hpid
    · exact opened_eq_some.2 ⟨_, processOf_of_type htype, hr⟩
    · exact opened_eq_some.2 ⟨_, processOf_of_type htype', hr'⟩

end Ledger

/-- Two clients open one process, the modules are listed, and one of them
    closes it. -/
def sharedProcess : List ProcessCommand :=
  [.openProcess 0 7 procReadable, .openProcess 1 7 procReadable,
    .createToolhelp32Snapshot 1 th32csSnapModule 7 ⟨true, procReadable, true⟩, .closeHandle 0 1]

end CheatEngine.Ceserver
