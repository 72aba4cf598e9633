/-
  CheatEngine.Ceserver.Sessions

  When a debugging connection ends, `newconnection` runs `StopDebug` on the
  handle it kept.  Main result: in every run in which the handle stays the
  process's own until then, the process is detached and no longer marked as
  debugged, and no other process data changes.  A client that closes its
  handle before it disconnects is outside of that: the handle may by then be
  another client's.
-/
import CheatEngine.Ceserver.Connections

namespace CheatEngine.Ceserver

open CheatEngine.Lib

/-! ## The handle list -/

namespace HandleTable

variable {t : HandleTable} {p : Pointer} {type : HandleType}

theorem ensure_max_pos : 0 < t.ensure.max := by
  unfold ensure
  split
  · show 0 < (List.replicate 256 HandleListEntry.zero).length
    rw [List.length_replicate]
    decide
  · next hnil => exact List.length_pos_iff.2 hnil

theorem max_le_ensure : t.max ≤ t.ensure.max := by
  unfold ensure
  split
  · next hnil =>
    have hzero : t.max = 0 := by simp only [max, hnil, List.length_nil]
    omega
  · exact Nat.le_refl _

theorem create_cases (t : HandleTable) (p : Pointer) (type : HandleType) :
    (∃ i, 0 < i ∧ i < t.ensure.max ∧ (t.entry i).type = .htEmpty ∧
      t.createHandleFromPointer p type = (↑i, t.ensure.put i ⟨type, p⟩)) ∨
    (t.createHandleFromPointer p type = (↑t.ensure.max, t.ensure.grow.put t.ensure.max ⟨type, p⟩)
      ∧ t.ensure.max < (t.createHandleFromPointer p type).2.max) := by
  cases hfree : t.ensure.freeSlot with
  | some i =>
    obtain ⟨hpos, hlt, hempty⟩ := freeSlot_some hfree
    rw [ensure_entry] at hempty
    exact .inl ⟨i, hpos, hlt, hempty, by simp only [createHandleFromPointer, hfree]⟩
  | none =>
    have hpos : 0 < t.ensure.max := ensure_max_pos
    have heq : t.createHandleFromPointer p type =
        (↑t.ensure.max, t.ensure.grow.put t.ensure.max ⟨type, p⟩) := by
      simp only [createHandleFromPointer, hfree]
    refine .inr ⟨heq, ?_⟩
    rw [heq, put_max, grow_max]
    omega

/-- A creation never shrinks the table. -/
theorem ensure_max_le_create :
    t.ensure.max ≤ (t.createHandleFromPointer p type).2.ensure.max := by
  apply Nat.le_trans _ max_le_ensure
  rcases create_cases t p type with ⟨i, -, -, -, heq⟩ | ⟨-, hlt⟩
  · rw [heq, put_max]
  · exact hlt.le

theorem ensure_max_congr {t' : HandleTable} (hmax : t.max = t'.max) :
    t.ensure.max = t'.ensure.max := by
  have hnil : t.handleList = [] ↔ t'.handleList = [] := by
    rw [← List.length_eq_zero_iff, ← List.length_eq_zero_iff]
    show t.max = 0 ↔ t'.max = 0
    rw [hmax]
  unfold ensure
  split
  · next h => rw [if_pos (hnil.1 h)]
  · next h => rw [if_neg (fun h' => h (hnil.2 h'))]; exact hmax

theorem create_entry (t : HandleTable) (p : Pointer) (type : HandleType) :
    0 < (t.createHandleFromPointer p type).1 ∧
      (t.createHandleFromPointer p type).1 < (t.createHandleFromPointer p type).2.max ∧
      (t.createHandleFromPointer p type).2.entry (t.createHandleFromPointer p type).1.toNat =
        ⟨type, p⟩ := by
  have hmax : 0 < t.ensure.max := ensure_max_pos
  rcases create_cases t p type with ⟨i, hpos, hlt, -, heq⟩ | ⟨heq, -⟩
  · rw [heq]
    exact ⟨by simpa using hpos, by simpa using hlt, by simp [entry_put hlt]⟩
  · have hlt : t.ensure.max < t.ensure.grow.max := by
      rw [grow_max]
      omega
    rw [heq]
    exact ⟨by simpa using hmax, by simpa using hmax, by simp [entry_put hlt]⟩

theorem searchHandleList_ne_zero {cb : Pointer → Bool} {h : Int} (hpos : 0 < h) (hlt : h < t.max)
    (hmatch : (t.entry h.toNat).type = type ∧ cb (t.entry h.toNat).pointer = true) :
    t.searchHandleList type cb ≠ 0 := by
  unfold searchHandleList
  cases hfind : (List.range' 1 (t.max - 1)).find? fun i =>
      (t.entry i).type = type ∧ cb (t.entry i).pointer with
  | none =>
    rw [List.find?_eq_none] at hfind
    have hnot := hfind h.toNat (List.mem_range'_1.2 ⟨by omega, by omega⟩)
    exact absurd (decide_eq_true hmatch) hnot
  | some i =>
    have hmem := List.mem_range'_1.1 (List.mem_of_find?_eq_some hfind)
    show (i : Int) ≠ 0
    omega

@[simp] theorem removeHandle_max (h : Int) : (t.removeHandle h).max = t.max := by
  unfold removeHandle
  split
  · exact put_max
  · rfl

theorem removeHandle_entry {h : Int} {i : Nat} (hne : h ≠ i) :
    (t.removeHandle h).entry i = t.entry i := by
  unfold removeHandle
  split
  · next hused =>
    obtain ⟨hpos, hlt, -⟩ := used_iff.1 hused
    rw [entry_put (by omega), if_neg (by omega)]
  · rfl

end HandleTable

theorem ProcessData.startDebug_threadlist (p : ProcessData) (tasks : Option (List Int32)) :
    (p.startDebug tasks).threadlist.map (·.tid) = tasks.getD [] := by
  have hfold : ∀ (tids : List Int32) (p : ProcessData),
      (tids.foldl attachTask p).threadlist.map (·.tid) = p.threadlist.map (·.tid) ++ tids := by
    intro tids
    induction tids with
    | nil => simp
    | cons tid tids ih =>
      intro p
      have hone : (p.attachTask tid).threadlist.map (·.tid) = p.threadlist.map (·.tid) ++ [tid] := by
        unfold attachTask
        dsimp only
        split
        · simp [addDebugEventToQueue]
        · simp [addDebugEventToQueue, clearCurrent]
      rw [List.foldl_cons, ih, hone, List.append_assoc]
      rfl
  rw [startDebug, hfold]
  rfl

theorem ProcessData.startDebug_isDebugged (p : ProcessData) (tasks : Option (List Int32)) :
    (p.startDebug tasks).isDebugged = true ↔ p.isDebugged = true ∨ tasks.getD [] ≠ [] := by
  have hfold : ∀ (tids : List Int32) (p : ProcessData),
      (tids.foldl attachTask p).isDebugged = true ↔ p.isDebugged = true ∨ tids ≠ [] := by
    intro tids
    induction tids with
    | nil => simp
    | cons tid tids ih =>
      intro p
      have hone : (p.attachTask tid).isDebugged = true := by
        unfold attachTask
        dsimp only
        split
        · next h => exact h
        · rfl
      rw [List.foldl_cons, ih, hone]
      simp
  exact hfold _ _

namespace ServerState

variable {s s' s'' : ServerState} {h : Int} {p q : Pointer} {r : OpenedProcess} {c : ConnectionId}
  {f : OpenedProcess → OpenedProcess}

theorem processOf_eq_some : s.processOf h = some p ↔
    0 < h ∧ h < s.handles.max ∧ s.handles.entry h.toNat = ⟨.htProcesHandle, p⟩ := by
  unfold processOf HandleTable.getHandleType HandleTable.getPointerFromHandle HandleTable.used
  by_cases hrange : 0 < h ∧ h < s.handles.max
  · cases hentry : s.handles.entry h.toNat with
    | mk type pointer => cases type <;> simp [hrange.1, hrange.2]
  · rw [if_neg hrange]
    simp only [reduceCtorEq, if_false, false_iff, not_and]
    intro hpos hlt
    exact absurd ⟨hpos, hlt⟩ hrange

theorem process_modify : (s.modify p f).process q =
    if p = q then (s.process q).map f else s.process q := by
  unfold process modify
  rw [List.getElem?_modify]
  cases s.heap[q]? with
  | none => simp
  | some o =>
    by_cases hpq : p = q
    · simp [hpq]
    · simp [hpq]

@[simp] theorem process_modify_self : (s.modify p f).process p = (s.process p).map f := by
  rw [process_modify, if_pos rfl]

theorem process_modify_ne (hne : p ≠ q) : (s.modify p f).process q = s.process q := by
  rw [process_modify, if_neg hne]

theorem lt_of_process (hr : s.process p = some r) : p < s.heap.length := by
  by_contra hge
  simp [process, List.getElem?_eq_none (Nat.le_of_not_lt hge)] at hr

theorem process_malloc_old (hr : s.process p = some r) (n : OpenedProcess) :
    (s.malloc n).2.process p = some r := by
  have hlt := lt_of_process hr
  simpa [process, malloc, List.getElem?_append_left hlt] using hr

/-! ## What the other commands leave alone -/

/-- Every opened process has a reference. -/
def Counted (s : ServerState) : Prop := ∀ p r, s.process p = some r → 1 ≤ r.referenceCount

/-- The processes of `D` are there. -/
def Live (D : Pointer → Prop) (s : ServerState) : Prop := ∀ p, D p → ∃ r, s.process p = some r

/-- From `s` to `s'` no session is touched: the processes of `D` keep their
    data and their handles. -/
structure Frame (D : Pointer → Prop) (s s' : ServerState) : Prop where
  threads : s'.threads = s.threads
  tracing : s'.tracing = s.tracing
  data : ∀ p, D p → ∀ r, s.process p = some r → ∃ r', s'.process p = some r' ∧ r'.data = r.data
  handle : ∀ h p, D p → s.processOf h = some p → s'.processOf h = some p
  counted : Counted s → Counted s'

variable {D : Pointer → Prop}

theorem Frame.refl : Frame D s s where
  threads := rfl
  tracing := rfl
  data _ _ r hr := ⟨r, hr, rfl⟩
  handle _ _ _ hh := hh
  counted hs := hs

theorem Frame.trans (h₁ : Frame D s s') (h₂ : Frame D s' s'') : Frame D s s'' where
  threads := h₂.threads.trans h₁.threads
  tracing := h₂.tracing.trans h₁.tracing
  data p hp r hr := by
    obtain ⟨r', hr', hdata'⟩ := h₁.data p hp r hr
    obtain ⟨r'', hr'', hdata''⟩ := h₂.data p hp r' hr'
    exact ⟨r'', hr'', hdata''.trans hdata'⟩
  handle h p hp hh := h₂.handle h p hp (h₁.handle h p hp hh)
  counted hs := h₂.counted (h₁.counted hs)

theorem Frame.live (hframe : Frame D s s') (hlive : Live D s) : Live D s' := by
  intro p hp
  obtain ⟨r, hr⟩ := hlive p hp
  obtain ⟨r', hr', -⟩ := hframe.data p hp r hr
  exact ⟨r', hr'⟩

theorem Frame.of_handles {handles : HandleTable}
    (hkeep : ∀ h p, D p → s.processOf h = some p → { s with handles }.processOf h = some p) :
    Frame D s { s with handles } where
  threads := rfl
  tracing := rfl
  data _ _ r hr := ⟨r, hr, rfl⟩
  handle := hkeep
  counted hs := hs

theorem frame_malloc (n : OpenedProcess) (hn : 1 ≤ n.referenceCount) :
    Frame D s (s.malloc n).2 where
  threads := rfl
  tracing := rfl
  data p _ r hr := ⟨r, process_malloc_old hr n, rfl⟩
  handle _ _ _ hh := hh
  counted hs p r hr := by
    have hheap : (s.heap ++ [some n])[p]?.join = some r := hr
    rw [List.getElem?_append] at hheap
    split at hheap
    · exact hs p r hheap
    · rw [List.getElem?_singleton] at hheap
      split at hheap
      · rw [← Option.some.inj hheap]
        exact hn
      · simp at hheap

def capacity (s : ServerState) : Nat := s.handles.ensure.max

/-- From `s` to `s'` the handle list is not enlarged, unless `D` is empty. -/
def Room (D : Pointer → Prop) (s s' : ServerState) : Prop :=
  (∀ p, ¬ D p) ∨ s'.capacity ≤ s.capacity

theorem Room.sub {s₁ s₂ : ServerState} (hroom : Room D s s') (h₁ : s.capacity ≤ s₁.capacity)
    (h₂ : s₂.capacity ≤ s'.capacity) : Room D s₁ s₂ := by
  rcases hroom with hnone | hle
  · exact .inl hnone
  · exact .inr (h₂.trans (hle.trans h₁))

theorem frame_createHandle (type : HandleType) (hroom : Room D s (s.createHandle q type).2) :
    Frame D s (s.createHandle q type).2 := by
  have heq : (s.createHandle q type).2 =
      { s with handles := (s.handles.createHandleFromPointer q type).2 } := rfl
  rw [heq] at hroom ⊢
  apply Frame.of_handles
  intro h p hp hh
  rcases hroom with hnone | hroom
  · exact absurd hp (hnone p)
  rcases HandleTable.create_cases s.handles q type with ⟨i, hpos, hlt, hempty, hput⟩ | ⟨-, hgrow⟩
  · rw [hput]
    rw [processOf_eq_some] at hh ⊢
    obtain ⟨hpos', hlt', hentry⟩ := hh
    have hle : s.handles.max ≤ s.handles.ensure.max := HandleTable.max_le_ensure
    -- a slot in use is not the free one
    have hne : ¬ i = h.toNat := by
      intro hi
      rw [hi, hentry] at hempty
      exact HandleType.noConfusion hempty
    refine ⟨hpos', ?_, ?_⟩
    · rw [HandleTable.put_max]
      omega
    · rw [HandleTable.entry_put hlt, if_neg hne, HandleTable.ensure_entry]
      exact hentry
  · exact absurd (HandleTable.max_le_ensure.trans hroom) (Nat.not_le.2 hgrow)

theorem frame_removeHandle (hother : ∀ p, D p → s.processOf h ≠ some p) :
    Frame D s { s with handles := s.handles.removeHandle h } := by
  refine Frame.of_handles ?_
  intro h' p hp hh
  have hne : h ≠ h' := by
    rintro rfl
    exact hother p hp hh
  rw [processOf_eq_some] at hh ⊢
  obtain ⟨hpos, hlt, hentry⟩ := hh
  refine ⟨hpos, by simpa using hlt, ?_⟩
  rw [HandleTable.removeHandle_entry (by omega)]
  exact hentry

theorem Counted.modify (hs : Counted s)
    (hcount : ∀ r, s.process p = some r → 1 ≤ r.referenceCount → 1 ≤ (f r).referenceCount) :
    Counted (s.modify p f) := by
  intro q r hr
  by_cases hpq : p = q
  · subst hpq
    rw [process_modify_self, Option.map_eq_some_iff] at hr
    obtain ⟨r', hr', rfl⟩ := hr
    exact hcount r' hr' (hs p r' hr')
  · rw [process_modify_ne hpq] at hr
    exact hs q r hr

theorem frame_modify (hf : ∀ r, (f r).data = r.data)
    (hcount : ∀ r, s.process p = some r → 1 ≤ r.referenceCount → 1 ≤ (f r).referenceCount) :
    Frame D s (s.modify p f) where
  threads := rfl
  tracing := rfl
  data q _ r hr := by
    by_cases hpq : p = q
    · subst hpq
      exact ⟨f r, by rw [process_modify_self, hr]; rfl, hf r⟩
    · exact ⟨r, by rw [process_modify_ne hpq, hr], rfl⟩
  handle _ _ _ hh := hh
  counted hs := hs.modify hcount

theorem process_free (handles : HandleTable) (q : Pointer) :
    { s with heap := s.heap.set p none, handles }.process q =
      if p = q then none else s.process q := by
  unfold process
  rw [List.getElem?_set]
  by_cases hpq : p = q
  · subst hpq
    rw [if_pos rfl, if_pos rfl]
    split <;> rfl
  · rw [if_neg hpq, if_neg hpq]

theorem frame_closeHandle
    (hmore : ∀ p, D p → s.processOf h = some p →
      ∃ r, s.process p = some r ∧ 2 ≤ r.referenceCount) :
    Frame D s (s.closeHandle h) := by
  unfold closeHandle
  cases hh : s.processOf h with
  | none =>
    apply frame_removeHandle
    intro p _
    rw [hh]
    exact fun hcon => nomatch hcon
  | some p =>
    cases hr : s.process p with
    | none =>
      simp only [hr]
      exact Frame.refl
    | some r =>
      simp only [hr]
      by_cases hlast : r.referenceCount - 1 ≤ 0
      · have hnot : ∀ q, D q → p ≠ q := by
          rintro q hq rfl
          obtain ⟨r', hr', hcount⟩ := hmore p hq hh
          rw [hr] at hr'
          have : r.referenceCount = r'.referenceCount := by rw [Option.some.inj hr']
          omega
        rw [if_pos hlast]
        have hremoved : Frame D s { s with handles := s.handles.removeHandle h } := by
          apply frame_removeHandle
          intro q hq heq
          exact hnot q hq (Option.some.inj (hh.symm.trans heq))
        refine ⟨rfl, rfl, ?_, hremoved.handle, ?_⟩
        · intro q hq r' hr'
          exact ⟨r', by rw [process_free, if_neg (hnot q hq), hr'], rfl⟩
        · intro hs q r' hr'
          rw [process_free] at hr'
          split at hr'
          · exact nomatch hr'
          · exact hs q r' hr'
      · rw [if_neg hlast]
        apply frame_modify
        · exact fun _ => rfl
        · intro r' hr' _
          have : r' = r := Option.some.inj (hr'.symm.trans hr)
          subst this
          show 1 ≤ r'.referenceCount - 1
          omega

@[simp] theorem capacity_closeHandle : (s.closeHandle h).capacity = s.capacity := by
  apply HandleTable.ensure_max_congr
  unfold closeHandle
  repeat' split
  all_goals simp [modify]

theorem capacity_createHandle {type : HandleType} :
    s.capacity ≤ (s.createHandle p type).2.capacity :=
  HandleTable.ensure_max_le_create

/-! ## Opening a process -/

section Opening

variable {pid : Int32} {maps : Bool} {opens : ServerState → Int32 → Int × ServerState}

/-- `o` is what opening a process in `s` yields: a process of `D` that it
    returns has a second reference. -/
structure Opens (D : Pointer → Prop) (s : ServerState) (o : Int × ServerState) : Prop where
  frame : Frame D s o.2
  more : ∀ p, D p → o.2.processOf o.1 = some p →
    ∃ r, o.2.process p = some r ∧ 2 ≤ r.referenceCount

theorem processOf_zero : s.processOf 0 = none := by
  cases hzero : s.processOf 0 with
  | none => rfl
  | some p => exact absurd (processOf_eq_some.1 hzero).1 (by decide)

theorem processOf_createHandle (p : Pointer) :
    (s.createHandle p .htProcesHandle).2.processOf (s.createHandle p .htProcesHandle).1 =
      some p := by
  rw [processOf_eq_some]
  exact HandleTable.create_entry s.handles p .htProcesHandle

theorem processOf_createHandle_other {type : HandleType} (hne : type ≠ .htProcesHandle) :
    (s.createHandle p type).2.processOf (s.createHandle p type).1 = none := by
  cases hp : (s.createHandle p type).2.processOf (s.createHandle p type).1 with
  | none => rfl
  | some q =>
    have hentry := (processOf_eq_some.1 hp).2.2
    have hnew := (HandleTable.create_entry s.handles p type).2.2
    exact absurd (congrArg HandleListEntry.type (hnew.symm.trans hentry)) hne

theorem processOf_moduleSnapshot :
    (moduleSnapshot opens maps s pid).2.processOf (moduleSnapshot opens maps s pid).1 = none := by
  cases maps with
  | false => exact processOf_zero
  | true => exact processOf_createHandle_other (by decide)

theorem capacity_moduleSnapshot (hopens : s.capacity ≤ (opens s pid).2.capacity) :
    s.capacity ≤ (moduleSnapshot opens maps s pid).2.capacity := by
  cases maps with
  | false => exact Nat.le_refl _
  | true =>
    apply hopens.trans
    rw [← capacity_closeHandle (h := (opens s pid).1)]
    exact capacity_createHandle

theorem frame_moduleSnapshot (hopens : Room D s (opens s pid).2 → Opens D s (opens s pid))
    (hcap : s.capacity ≤ (opens s pid).2.capacity)
    (hroom : Room D s (moduleSnapshot opens maps s pid).2) :
    Frame D s (moduleSnapshot opens maps s pid).2 := by
  cases maps with
  | false => exact Frame.refl
  | true =>
    have hle : (opens s pid).2.capacity ≤ (moduleSnapshot opens true s pid).2.capacity := by
      rw [← capacity_closeHandle (h := (opens s pid).1)]
      exact capacity_createHandle
    obtain ⟨hframe, hmore⟩ := hopens (hroom.sub (Nat.le_refl _) hle)
    apply (hframe.trans (frame_closeHandle hmore)).trans
    apply frame_createHandle
    apply hroom.sub _ (Nat.le_refl _)
    rw [capacity_closeHandle]
    exact hcap

theorem frame_openExtension (hroom : Room D s s.openExtension) : Frame D s s.openExtension := by
  have hcreate : Frame D s (s.createHandle 0 .htPipeHandle).2 := by
    apply frame_createHandle
    refine hroom.sub (Nat.le_refl _) ?_
    exact (HandleTable.ensure_max_congr (HandleTable.removeHandle_max _)).ge
  refine hcreate.trans (frame_removeHandle ?_)
  intro p _ hp
  rw [processOf_createHandle_other (by decide)] at hp
  exact nomatch hp

theorem openProcess_cases (proc : ProcAnswers) (fuel : Nat) (s : ServerState) (pid : Int32) :
    openProcess proc (fuel + 1) s pid =
      (s.openedHandle pid, s.modify (s.handles.getPointerFromHandle (s.openedHandle pid))
        fun r => { r with referenceCount := r.referenceCount + 1 }) ∨
    openProcess proc (fuel + 1) s pid = (0, s) ∨
    ∃ o m, o = (s.malloc (.new pid)).2.createHandle s.heap.length .htProcesHandle ∧
      m = moduleSnapshot (openProcess proc fuel) proc.firstMaps o.2 pid ∧
      openProcess proc (fuel + 1) s pid =
        (o.1, if m.1 ≠ 0 then m.2.closeHandle m.1 else m.2) := by
  by_cases hfound : s.openedHandle pid ≠ 0
  · exact .inl (by simp only [openProcess, if_pos hfound])
  · by_cases hdir : proc.chdir = true
    · refine .inr (.inr ⟨_, _, rfl, rfl, ?_⟩)
      simp only [openProcess, if_neg hfound, if_pos hdir]
      rfl
    · exact .inr (.inl (by simp only [openProcess, if_neg hfound, if_neg hdir]))

theorem capacity_ite_closeHandle {b : Prop} [Decidable b] :
    (if b then s.closeHandle h else s).capacity = s.capacity := by
  split
  · exact capacity_closeHandle
  · rfl

theorem capacity_openProcess (proc : ProcAnswers) (fuel : Nat) (s : ServerState) :
    s.capacity ≤ (openProcess proc fuel s pid).2.capacity := by
  induction fuel generalizing s with
  | zero => exact Nat.le_refl _
  | succ fuel ih =>
    rcases openProcess_cases proc fuel s pid with heq | heq | ⟨o, m, ho, hm, heq⟩
    · rw [heq]
      exact Nat.le_refl _
    · rw [heq]
    · have hcreate : s.capacity ≤ o.2.capacity := by
        rw [ho]
        exact capacity_createHandle (s := (s.malloc (.new pid)).2)
      have hlist : o.2.capacity ≤ m.2.capacity := by
        rw [hm]
        exact capacity_moduleSnapshot (ih o.2)
      rw [heq, capacity_ite_closeHandle]
      exact hcreate.trans hlist

theorem opens_openProcess (proc : ProcAnswers) (fuel : Nat) (hlive : Live D s)
    (hcounted : Counted s) (hroom : Room D s (openProcess proc fuel s pid).2) :
    Opens D s (openProcess proc fuel s pid) := by
  induction fuel generalizing s D with
  | zero =>
    refine ⟨Frame.refl, ?_⟩
    intro p _ hp
    exact nomatch processOf_zero.symm.trans hp
  | succ fuel ih =>
    rcases openProcess_cases proc fuel s pid with heq | heq | ⟨o, m, ho, hm, heq⟩
    · rw [heq]
      refine ⟨frame_modify (fun _ => rfl) ?_, ?_⟩
      · intro r _ hr
        show 1 ≤ r.referenceCount + 1
        omega
      · intro p hp hh
        obtain ⟨r, hr⟩ := hlive p hp
        have hpointer : s.handles.getPointerFromHandle (s.openedHandle pid) = p := by
          have hsome : s.processOf (s.openedHandle pid) = some p := hh
          unfold processOf at hsome
          split at hsome
          · exact Option.some.inj hsome
          · exact nomatch hsome
        have hone := hcounted p r hr
        refine ⟨{ r with referenceCount := r.referenceCount + 1 }, ?_, ?_⟩
        · rw [hpointer, process_modify_self, hr]
          rfl
        · show 2 ≤ r.referenceCount + 1
          omega
    · rw [heq]
      refine ⟨Frame.refl, ?_⟩
      intro p _ hp
      exact nomatch processOf_zero.symm.trans hp
    · rw [heq, Room, capacity_ite_closeHandle] at hroom
      have hcapo : s.capacity ≤ o.2.capacity := by
        rw [ho]
        exact capacity_createHandle (s := (s.malloc (.new pid)).2)
      have hcapm : o.2.capacity ≤ m.2.capacity := by
        rw [hm]
        exact capacity_moduleSnapshot (capacity_openProcess proc fuel o.2)
      -- every set of live processes whose handles fit is left alone
      have hrest : ∀ E : Pointer → Prop, Live E (s.malloc (.new pid)).2 →
          Room E s m.2 → Frame E (s.malloc (.new pid)).2 o.2 ∧
            Frame E o.2 (if m.1 ≠ 0 then m.2.closeHandle m.1 else m.2) := by
        intro E hliveE hroomE
        have hcreate : Frame E (s.malloc (.new pid)).2 o.2 := by
          rw [ho]
          apply frame_createHandle
          rw [← ho]
          exact hroomE.sub (Nat.le_refl _) hcapm
        have hnew : Frame E s (s.malloc (.new pid)).2 := frame_malloc _ (Int.le_refl 1)
        have hlist : Frame E o.2 m.2 := by
          rw [hm]
          apply frame_moduleSnapshot
          · intro hroom'
            exact ih (hcreate.live hliveE) (hcreate.counted (hnew.counted hcounted)) hroom'
          · exact capacity_openProcess proc fuel o.2
          · rw [← hm]
            exact hroomE.sub hcapo (Nat.le_refl _)
        refine ⟨hcreate, hlist.trans ?_⟩
        split
        · apply frame_closeHandle
          intro p _ hp
          rw [hm, processOf_moduleSnapshot] at hp
          exact nomatch hp
        · exact Frame.refl
      have hnew : Frame D s (s.malloc (.new pid)).2 := frame_malloc _ (Int.le_refl 1)
      obtain ⟨hcreate, hlist⟩ := hrest D (hnew.live hlive) hroom
      rw [heq]
      refine ⟨hnew.trans (hcreate.trans hlist), ?_⟩
      intro p hp hh
      -- the handle stands for the new process, which is not in `D`
      exfalso
      have hroom' : Room (fun q => D q ∨ q = s.heap.length) s m.2 := by
        rcases hroom with hnone | hle
        · exact absurd hp (hnone p)
        · exact .inr hle
      have hlive' : Live (fun q => D q ∨ q = s.heap.length) (s.malloc (.new pid)).2 := by
        rintro q (hq | rfl)
        · exact hnew.live hlive q hq
        · exact ⟨.new pid, by simp [process, malloc]⟩
      obtain ⟨-, hlist'⟩ := hrest _ hlive' hroom'
      have hhandle : o.2.processOf o.1 = some s.heap.length := by
        rw [ho]
        exact processOf_createHandle _
      have hkept := hlist'.handle o.1 s.heap.length (.inr rfl) hhandle
      have hp0 : p = s.heap.length := Option.some.inj (hh.symm.trans hkept)
      obtain ⟨r, hr⟩ := hlive p hp
      have hlt := lt_of_process hr
      rw [hp0] at hlt
      exact Nat.lt_irrefl _ hlt

/-- The list of the first module finds the process that is being opened, so
    more fuel changes nothing. -/
theorem openProcess_fuel (proc : ProcAnswers) (fuel : Nat) (s : ServerState) :
    openProcess proc (fuel + 2) s pid = openProcess proc 2 s pid := by
  have hfound : ∀ s₁ : ServerState, s₁ = (s.malloc (.new pid)).2 →
      (s₁.createHandle s.heap.length .htProcesHandle).2.openedHandle pid ≠ 0 := by
    intro s₁ hs₁
    obtain ⟨hpos, hlt, hentry⟩ :=
      HandleTable.create_entry s₁.handles s.heap.length .htProcesHandle
    have hprocess : s₁.process s.heap.length = some (.new pid) := by
      rw [hs₁]
      simp [process, malloc]
    apply HandleTable.searchHandleList_ne_zero hpos hlt
    rw [hentry]
    refine ⟨rfl, ?_⟩
    show (s₁.process s.heap.length).any _ = true
    rw [hprocess]
    simp [OpenedProcess.new]
  have hinner : ∀ n, moduleSnapshot (openProcess proc (n + 1)) proc.firstMaps
      ((s.malloc (.new pid)).2.createHandle s.heap.length .htProcesHandle).2 pid =
      moduleSnapshot (openProcess proc 1) proc.firstMaps
      ((s.malloc (.new pid)).2.createHandle s.heap.length .htProcesHandle).2 pid := by
    intro n
    simp only [moduleSnapshot, openProcess, if_pos (hfound _ rfl)]
  have houter : ∀ n, openProcess proc (n + 2) s pid =
      if s.openedHandle pid ≠ 0 then
        (s.openedHandle pid, s.modify (s.handles.getPointerFromHandle (s.openedHandle pid))
          fun r => { r with referenceCount := r.referenceCount + 1 })
      else if proc.chdir then
        let o := (s.malloc (.new pid)).2.createHandle s.heap.length .htProcesHandle
        let m := moduleSnapshot (openProcess proc (n + 1)) proc.firstMaps o.2 pid
        (o.1, if m.1 ≠ 0 then m.2.closeHandle m.1 else m.2)
      else (0, s) := fun _ => rfl
  rw [houter fuel, houter 0]
  simp only [hinner]

end Opening

theorem processOf_pipe (h : Int)
    (hh : h = s.handles.searchHandleList .htPipeHandle fun _ => true) : s.processOf h = none := by
  cases hp : s.processOf h with
  | none => rfl
  | some p =>
    obtain ⟨hpos, -, hentry⟩ := processOf_eq_some.1 hp
    unfold HandleTable.searchHandleList at hh
    cases hfind : (List.range' 1 (s.handles.max - 1)).find? fun i =>
        (s.handles.entry i).type = .htPipeHandle ∧ true = true with
    | none =>
      rw [hfind] at hh
      subst hh
      exact absurd hpos (by decide)
    | some i =>
      have htype := List.find?_some hfind
      have hi : h.toNat = i := by
        rw [hfind] at hh
        subst hh
        rfl
      rw [← hi, hentry] at htype
      simp at htype

theorem frame_closeAllPipes (rounds : Nat) : Frame D s (s.closeAllPipes rounds) := by
  induction rounds generalizing s with
  | zero => exact Frame.refl
  | succ rounds ih =>
    unfold closeAllPipes
    dsimp only
    split
    · refine Frame.trans (frame_closeHandle ?_) ih
      intro p _ hp
      rw [processOf_pipe _ rfl] at hp
      exact nomatch hp
    · exact Frame.refl

theorem Frame.connections (hframe : Frame D s s') (n : Int) :
    Frame D s { s' with connections := n } where
  threads := hframe.threads
  tracing := hframe.tracing
  data := hframe.data
  handle := hframe.handle
  counted := hframe.counted

theorem frame_threadClosedEvent : Frame D s s.threadClosedEvent := by
  unfold threadClosedEvent
  extract_lets s₁ s₂
  have hcount : Frame D s s₁ := Frame.refl.connections _
  have hpipes : Frame D s s₂ := by
    show Frame D s (if s₁.connections = 0 then s₁.closeAllPipes s₁.handles.max else s₁)
    split
    · exact hcount.trans (frame_closeAllPipes _)
    · exact hcount
  split
  · exact (hpipes.trans (frame_closeAllPipes _)).connections 0
  · exact hpipes

theorem Frame.threadReturns (hframe : Frame D s s') :
    Frame D (s.threadReturns c) (s'.threadReturns c) where
  threads := by
    show Function.update s'.threads c none = Function.update s.threads c none
    rw [hframe.threads]
  tracing := by
    show (fun tid => (s'.tracing tid).filter _) = fun tid => (s.tracing tid).filter _
    rw [hframe.tracing]
  data := hframe.data
  handle := hframe.handle
  counted := hframe.counted

/-! ## Sessions -/

variable {k : ConnectionThread} {tid : Int32}

/-- A connection debugs `p`. -/
def Debugging (s : ServerState) (p : Pointer) : Prop :=
  ∃ c k, s.threads c = some k ∧ p ∈ k.debugged

/-- A connection's session on `p` can be ended: the kept handle stands for
    `p`. -/
structure SessionOn (s : ServerState) (k : ConnectionThread) (p : Pointer) : Prop where
  only : ∀ q ∈ k.debugged, q = p
  named : k.threadname ≠ .null
  handle : s.processOf k.isDebuggerThread.toInt = some p
  marked : ∃ r, s.process p = some r ∧ r.data.isDebugged = true

/-- Holds after every step of a run that keeps its sessions. -/
structure Inv (s : ServerState) : Prop where
  counted : Counted s
  session : ∀ c k p, s.threads c = some k → p ∈ k.debugged → SessionOn s k p
  idle : ∀ c k, s.threads c = some k → k.debugged = [] → k.isDebuggerThread = 0
  exclusive : ∀ c d k l p, s.threads c = some k → s.threads d = some l → p ∈ k.debugged →
    p ∈ l.debugged → c = d
  traced : ∀ tid p d, s.tracing tid = some (p, d) → ∃ k r, s.threads d = some k ∧
    p ∈ k.debugged ∧ s.process p = some r ∧ tid ∈ r.data.threadlist.map (·.tid)

theorem inv_initial : Inv initial where
  counted p r hr := by
    have hnone : initial.process p = none := by
      unfold process initial
      cases p with
      | zero => rfl
      | succ p => rfl
    exact nomatch hnone.symm.trans hr
  session _ _ _ hk := nomatch hk
  idle _ _ hk := nomatch hk
  exclusive _ _ _ _ _ hk := nomatch hk
  traced _ _ _ ht := nomatch ht

theorem Inv.live (hs : Inv s) : Live (Debugging s) s := by
  rintro p ⟨c, k, hk, hp⟩
  obtain ⟨r, hr, -⟩ := (hs.session c k p hk hp).marked
  exact ⟨r, hr⟩

theorem SessionOn.handle_ne (h : SessionOn s k p) : k.isDebuggerThread ≠ 0 := by
  intro hzero
  have hh := h.handle
  rw [hzero, show (0 : Int32).toInt = 0 from rfl, processOf_zero] at hh
  exact nomatch hh

theorem Inv.frame (hs : Inv s) (hframe : Frame (Debugging s) s s') : Inv s' where
  counted := hframe.counted hs.counted
  session c k p hk hp := by
    rw [hframe.threads] at hk
    have hsession := hs.session c k p hk hp
    obtain ⟨r, hr, hmarked⟩ := hsession.marked
    obtain ⟨r', hr', hdata⟩ := hframe.data p ⟨c, k, hk, hp⟩ r hr
    exact ⟨hsession.only, hsession.named, hframe.handle _ p ⟨c, k, hk, hp⟩ hsession.handle,
      r', hr', by rw [hdata, hmarked]⟩
  idle := by
    rw [hframe.threads]
    exact hs.idle
  exclusive := by
    rw [hframe.threads]
    exact hs.exclusive
  traced tid p d ht := by
    rw [hframe.tracing] at ht
    obtain ⟨k, r, hk, hp, hr, htid⟩ := hs.traced tid p d ht
    obtain ⟨r', hr', hdata⟩ := hframe.data p ⟨d, k, hk, hp⟩ r hr
    rw [hframe.threads]
    exact ⟨k, r', hk, hp, hr', by rw [hdata]; exact htid⟩

theorem Inv.drop (hs : Inv s) (c : ConnectionId) (hcounted : Counted s')
    (hothers : ∀ d, d ≠ c → s'.threads d = s.threads d)
    (hself : ∀ k, s'.threads c = some k → k.debugged = [] ∧ k.isDebuggerThread = 0)
    (hprocess : ∀ q, (∀ k, s.threads c = some k → q ∉ k.debugged) → s'.process q = s.process q)
    (hhandles : s'.handles = s.handles)
    (htracing : ∀ tid q d, s'.tracing tid = some (q, d) → s.tracing tid = some (q, d) ∧ d ≠ c) :
    Inv s' := by
  -- the sessions left are those of the other connections
  have hother : ∀ d l p, s'.threads d = some l → p ∈ l.debugged → d ≠ c ∧ s.threads d = some l := by
    intro d l p hl hp
    have hne : d ≠ c := by
      rintro rfl
      rw [(hself l hl).1] at hp
      exact nomatch hp
    exact ⟨hne, (hothers d hne).symm.trans hl⟩
  have hkept : ∀ d l p, d ≠ c → s.threads d = some l → p ∈ l.debugged →
      s'.process p = s.process p := by
    intro d l p hne hl hp
    apply hprocess
    intro k hk hpk
    exact hne (hs.exclusive d c l k p hl hk hp hpk)
  refine ⟨hcounted, ?_, ?_, ?_, ?_⟩
  · intro d l p hl hp
    obtain ⟨hne, hold⟩ := hother d l p hl hp
    have hsession := hs.session d l p hold hp
    refine ⟨hsession.only, hsession.named, ?_, ?_⟩
    · unfold processOf
      rw [hhandles]
      exact hsession.handle
    · rw [hkept d l p hne hold hp]
      exact hsession.marked
  · intro d l hl hnil
    by_cases hdc : d = c
    · subst hdc
      exact (hself l hl).2
    · exact hs.idle d l ((hothers d hdc).symm.trans hl) hnil
  · intro d e l m p hl hm hpl hpm
    exact hs.exclusive d e l m p (hother d l p hl hpl).2 (hother e m p hm hpm).2 hpl hpm
  · intro tid q d ht
    obtain ⟨hold, hne⟩ := htracing tid q d ht
    obtain ⟨l, r, hl, hq, hr, htid⟩ := hs.traced tid q d hold
    exact ⟨l, r, (hothers d hne).trans hl, hq, (hkept d l q hne hl hq).trans hr, htid⟩

theorem tracing_detach {stops : Int32 → Bool} {x : Pointer × ConnectionId} (tids : List Int32)
    (tracing : Int32 → Option (Pointer × ConnectionId))
    (hx : tids.foldl (detach c stops) tracing tid = some x) :
    tracing tid = some x ∧ (tid ∈ tids → x.2 ≠ c) := by
  induction tids generalizing tracing with
  | nil => exact ⟨hx, fun hmem => nomatch hmem⟩
  | cons t tids ih =>
    obtain ⟨hstep, hrest⟩ := ih (detach c stops tracing t) hx
    -- one thread: detached, gone, or traced by somebody else
    have hone : tracing tid = some x ∧ (tid = t → x.2 ≠ c) := by
      unfold detach at hstep
      by_cases htid : tid = t
      · subst htid
        split at hstep
        · split at hstep
          · rw [Function.update_self] at hstep
            exact nomatch hstep
          · next hnot =>
            refine ⟨hstep, fun _ hc => hnot ?_⟩
            rw [hstep]
            simpa using hc
        · rw [Function.update_self] at hstep
          exact nomatch hstep
      · refine ⟨?_, fun heq => absurd heq htid⟩
        split at hstep
        · split at hstep
          · rwa [Function.update_of_ne htid] at hstep
          · exact hstep
        · rwa [Function.update_of_ne htid] at hstep
    refine ⟨hone.1, ?_⟩
    intro hmem
    rcases List.mem_cons.1 hmem with htid | hmem
    · exact hone.2 htid
    · exact hrest hmem

/-- `p` is not debugged: no mark, no traced thread. -/
def Detached (s : ServerState) (p : Pointer) : Prop :=
  (∃ r, s.process p = some r ∧ r.data.isDebugged = false) ∧
    ∀ tid d, s.tracing tid ≠ some (p, d)

theorem stopDebug_spec (hs : Inv s) (hk : s.threads c = some k) (hp : p ∈ k.debugged)
    (stops : Int32 → Bool) (s' : ServerState) (heq : s' = s.stopDebug c stops k.isDebuggerThread) :
    Detached s' p ∧ (∀ q, q ≠ p → s'.process q = s.process q) ∧ Counted s' ∧
      s'.threads = s.threads ∧ s'.handles = s.handles ∧
      ∀ tid x, s'.tracing tid = some x → s.tracing tid = some x := by
  have hsession := hs.session c k p hk hp
  obtain ⟨r, hr, hmarked⟩ := hsession.marked
  have hstop : s.stopDebug c stops k.isDebuggerThread =
      { s.modify p fun r => { r with data := { r.data with isDebugged := false } } with
        tracing := (r.data.threadlist.map (·.tid)).foldl (detach c stops) s.tracing } := by
    simp only [stopDebug, hsession.handle, hr]
  rw [heq, hstop]
  refine ⟨⟨?_, ?_⟩, ?_, ?_, rfl, rfl, ?_⟩
  · refine ⟨{ r with data := { r.data with isDebugged := false } }, ?_, rfl⟩
    show (s.modify p _).process p = _
    rw [process_modify_self, hr]
    rfl
  · intro tid d ht
    obtain ⟨hold, hnot⟩ := tracing_detach _ _ ht
    obtain ⟨l, r', hl, hpl, hr', htid⟩ := hs.traced tid p d hold
    -- only this connection debugs the process, and the thread is in its list
    have hd : d = c := hs.exclusive d c l k p hl hk hpl hp
    rw [Option.some.inj (hr.symm.trans hr')] at hnot
    exact hnot htid hd
  · intro q hq
    exact process_modify_ne (Ne.symm hq)
  · exact hs.counted.modify fun _ _ h => h
  · intro tid x ht
    exact (tracing_detach _ _ ht).1

theorem tracing_attachAll {x : Pointer × ConnectionId} (tasks : List (Int32 × Bool))
    (tracing : Int32 → Option (Pointer × ConnectionId))
    (hx : attachAll c p tracing tasks tid = some x) :
    (x = (p, c) ∧ tid ∈ tasks.map Prod.fst) ∨ tracing tid = some x := by
  induction tasks generalizing tracing with
  | nil => exact .inr hx
  | cons task tasks ih =>
    rcases ih _ hx with ⟨hnew, hmem⟩ | hold
    · exact .inl ⟨hnew, List.mem_cons_of_mem _ hmem⟩
    · dsimp only at hold
      split at hold
      · by_cases htid : tid = task.1
        · subst htid
          rw [Function.update_self] at hold
          exact .inl ⟨(Option.some.inj hold).symm, List.mem_cons_self ..⟩
        · rw [Function.update_of_ne htid] at hold
          exact .inr hold
      · exact .inr hold

/-! ## Runs that keep their sessions -/

/-- The condition on a step, by the state before it.
    * `StartDebug` succeeds only on a process that nobody else debugs, by a
      connection that debugs nothing else; repeated, it lists all threads it
      traces.
    * The last reference to a debugged process is not closed.
    * A debug command takes no traced thread off the list.
    * The handle list is not enlarged while a process is debugged.
    * A debugging connection does not end with a read error. -/
def KeepsSessions (s : ServerState) : ServerInput → Prop
  | .startDebug c h tasks =>
    ∀ k p r, s.threads c = some k → s.processOf h.toInt = some p → s.process p = some r →
      r.data.isDebugged = true ∨ (taskNumbers tasks).getD [] ≠ [] →
      (∀ q ∈ k.debugged, q = p) ∧
        (r.data.isDebugged = true → p ∈ k.debugged ∧ ∀ tid d, s.tracing tid = some (p, d) →
          tid ∈ ((taskNumbers tasks).getD []).map Prod.fst)
  | .closeHandle _ h =>
    ∀ p r, s.processOf h.toInt = some p → s.process p = some r → r.referenceCount ≤ 1 →
      r.data.isDebugged = false
  | .debugCommand _ h change =>
    ∀ p r, s.processOf h.toInt = some p → s.process p = some r →
      ∀ tid ∈ r.data.threadlist.map (·.tid),
        tid ∉ (change.change r.data).threadlist.map (·.tid) → ∀ d, s.tracing tid ≠ some (p, d)
  | .openProcess c pid proc => Room s.Debugging s (s.step (.openProcess c pid proc))
  | .moduleSnapshot c pid proc => Room s.Debugging s (s.step (.moduleSnapshot c pid proc))
  | .createHandle c type other => Room s.Debugging s (s.step (.createHandle c type other))
  | .openExtension c => Room s.Debugging s (s.step (.openExtension c))
  | .readError c => ∀ k, s.threads c = some k → k.debugged = []
  | _ => True

/-- Between `s` and `s'` the sessions of `c` are cleaned up, and nothing
    else. -/
def CleanedUp (s s' : ServerState) (c : ConnectionId) : Prop :=
  ∀ k, s.threads c = some k →
    (∀ p ∈ k.debugged, Detached s' p) ∧ ∀ q, q ∉ k.debugged → s'.process q = s.process q

/-- A connection that ends cleans up after itself: with what `newconnection`
    does when `recv` returns 0, and with nothing when it returns -1. -/
def EndsCleanly (s : ServerState) : ServerInput → Prop
  | .disconnect c stops => CleanedUp s (s.disconnectPath c stops) c
  | .readError c => CleanedUp s s c
  | _ => True

section

variable (hs : Inv s)
include hs

theorem disconnectPath_cases (hk : s.threads c = some k) (stops : Int32 → Bool) :
    (k.debugged = [] ∧ s.disconnectPath c stops = s) ∨
      ∃ p ∈ k.debugged, s.disconnectPath c stops = s.stopDebug c stops k.isDebuggerThread := by
  cases hdebugged : k.debugged with
  | nil =>
    refine .inl ⟨rfl, ?_⟩
    simp [disconnectPath, hk, hs.idle c k hk hdebugged]
  | cons p rest =>
    have hp : p ∈ k.debugged := by
      rw [hdebugged]
      exact List.mem_cons_self ..
    have hsession := hs.session c k p hk hp
    refine .inr ⟨p, List.mem_cons_self .., ?_⟩
    simp only [disconnectPath, hk, if_pos hsession.named, if_pos hsession.handle_ne]

theorem cleanedUp_disconnectPath (c : ConnectionId) (stops : Int32 → Bool) :
    CleanedUp s (s.disconnectPath c stops) c := by
  intro k hk
  rcases disconnectPath_cases hs hk stops with ⟨hnil, hpath⟩ | ⟨p, hp, hpath⟩
  · rw [hnil, hpath]
    exact ⟨(fun _ hp => nomatch hp), fun _ _ => rfl⟩
  · obtain ⟨hdetached, hothers, -⟩ := stopDebug_spec hs hk hp stops _ hpath
    refine ⟨?_, ?_⟩
    · intro q hq
      rw [(hs.session c k p hk hp).only q hq]
      exact hdetached
    · intro q hq
      apply hothers
      rintro rfl
      exact hq hp

/-- A connection that ends, after the part of the path that runs
    `StopDebug`. -/
theorem inv_threadReturns (hk : s.threads c = some k) {s₁ : ServerState}
    (hclean : CleanedUp s s₁ c) (hcounted : Counted s₁) (hthreads : s₁.threads = s.threads)
    (hhandles : s₁.handles = s.handles)
    (htracing : ∀ tid x, s₁.tracing tid = some x → s.tracing tid = some x) :
    Inv (s₁.threadReturns c) := by
  refine hs.drop c hcounted ?_ ?_ ?_ hhandles ?_
  · intro d hd
    show Function.update s₁.threads c none d = s.threads d
    rw [Function.update_of_ne hd, hthreads]
  · intro l hl
    have hnone : (s₁.threadReturns c).threads c = none := Function.update_self ..
    exact nomatch hnone.symm.trans hl
  · intro q hq
    exact (hclean k hk).2 q (hq k hk)
  · intro tid q d ht
    have hfilter : (s₁.tracing tid).filter (·.2 ≠ c) = some (q, d) := ht
    rw [Option.filter_eq_some_iff] at hfilter
    exact ⟨htracing tid _ hfilter.1, by simpa using hfilter.2⟩

theorem inv_closeConnection (hk : s.threads c = some k) (stops : Int32 → Bool) :
    Inv (s.step (.closeConnection c stops)) := by
  simp only [step, command, hk]
  split
  · next hne =>
    cases hdebugged : k.debugged with
    | nil => exact absurd (hs.idle c k hk hdebugged) hne
    | cons p rest =>
      have hp : p ∈ k.debugged := by
        rw [hdebugged]
        exact List.mem_cons_self ..
      have hsession := hs.session c k p hk hp
      obtain ⟨hdetached, hothers, hcounted, hthreads, hhandles, htracing⟩ :=
        stopDebug_spec hs hk hp stops _ rfl
      refine hs.drop c hcounted ?_ ?_ ?_ hhandles ?_
      · intro d hd
        simp only [modifyThread, Function.update_of_ne hd, hthreads]
      · intro l hl
        simp only [modifyThread, Function.update_self, hthreads, hk, Option.map_some,
          Option.some.injEq] at hl
        subst hl
        exact ⟨rfl, rfl⟩
      · intro q hq
        apply hothers
        rintro rfl
        exact hq k hk hp
      · intro tid q d ht
        refine ⟨htracing tid _ ht, ?_⟩
        rintro rfl
        obtain ⟨l, r, hl, hql, -⟩ := hs.traced tid q d (htracing tid _ ht)
        rw [hk] at hl
        rw [← Option.some.inj hl] at hql
        rw [hsession.only q hql] at ht
        exact hdetached.2 tid d ht
  · exact hs

theorem Inv.enter (hk : s.threads c = some k) (k' : ConnectionThread)
    (hk' : s'.threads c = some k') (hothers : ∀ d, d ≠ c → s'.threads d = s.threads d)
    (hdebugged : k'.debugged = p :: k.debugged) (honly : ∀ q ∈ k.debugged, q = p)
    (hother : ∀ d l, d ≠ c → s.threads d = some l → p ∉ l.debugged)
    (hcounted : Counted s') (hsession : SessionOn s' k' p)
    (hprocess : ∀ q, q ≠ p → s'.process q = s.process q) (hhandles : s'.handles = s.handles)
    (htracing : ∀ tid q d, s'.tracing tid = some (q, d) →
      (q = p ∧ d = c ∧ ∃ r, s'.process p = some r ∧ tid ∈ r.data.threadlist.map (·.tid)) ∨
        q ≠ p ∧ s.tracing tid = some (q, d)) :
    Inv s' := by
  -- a session of `s'` is the one on `p` or another connection's
  have hcases : ∀ d l q, s'.threads d = some l → q ∈ l.debugged →
      (d = c ∧ l = k' ∧ q = p) ∨ (d ≠ c ∧ s.threads d = some l ∧ q ≠ p) := by
    intro d l q hl hq
    by_cases hd : d = c
    · subst hd
      have hlk : l = k' := Option.some.inj (hl.symm.trans hk')
      rw [hlk, hdebugged] at hq
      rcases List.mem_cons.1 hq with hqp | hq
      · exact .inl ⟨rfl, hlk, hqp⟩
      · exact .inl ⟨rfl, hlk, honly q hq⟩
    · have hold : s.threads d = some l := (hothers d hd).symm.trans hl
      refine .inr ⟨hd, hold, ?_⟩
      rintro rfl
      exact hother d l hd hold hq
  refine ⟨hcounted, ?_, ?_, ?_, ?_⟩
  · intro d l q hl hq
    rcases hcases d l q hl hq with ⟨-, rfl, rfl⟩ | ⟨-, hold, hne⟩
    · exact hsession
    · have hbefore := hs.session d l q hold hq
      refine ⟨hbefore.only, hbefore.named, ?_, ?_⟩
      · unfold processOf
        rw [hhandles]
        exact hbefore.handle
      · rw [hprocess q hne]
        exact hbefore.marked
  · intro d l hl hnil
    by_cases hd : d = c
    · subst hd
      rw [Option.some.inj (hl.symm.trans hk'), hdebugged] at hnil
      exact nomatch hnil
    · exact hs.idle d l ((hothers d hd).symm.trans hl) hnil
  · intro d e l m q hl hm hql hqm
    rcases hcases d l q hl hql with ⟨rfl, -, rfl⟩ | ⟨-, hold, hne⟩
    · rcases hcases e m q hm hqm with ⟨rfl, -, -⟩ | ⟨-, -, hne⟩
      · rfl
      · exact absurd rfl hne
    · rcases hcases e m q hm hqm with ⟨-, -, rfl⟩ | ⟨-, hold', -⟩
      · exact absurd rfl hne
      · exact hs.exclusive d e l m q hold hold' hql hqm
  · intro tid q d ht
    rcases htracing tid q d ht with ⟨rfl, rfl, r, hr, htid⟩ | ⟨hne, hold⟩
    · exact ⟨k', r, hk', by rw [hdebugged]; exact List.mem_cons_self .., hr, htid⟩
    · obtain ⟨l, r, hl, hql, hr, htid⟩ := hs.traced tid q d hold
      have hd : d ≠ c := by
        rintro rfl
        rw [hk] at hl
        rw [← Option.some.inj hl] at hql
        exact hne (honly q hql)
      exact ⟨l, r, (hothers d hd).trans hl, hql, (hprocess q hne).trans hr, htid⟩

/-- Process data that no session is on may change freely. -/
theorem Inv.modify (hp : ¬ Debugging s p)
    (hcount : ∀ r, 1 ≤ r.referenceCount → 1 ≤ (f r).referenceCount) : Inv (s.modify p f) := by
  have hne : ∀ c k q, s.threads c = some k → q ∈ k.debugged → p ≠ q := by
    rintro c k q hk hq rfl
    exact hp ⟨c, k, hk, hq⟩
  refine ⟨hs.counted.modify fun r _ => hcount r, ?_, hs.idle, hs.exclusive, ?_⟩
  · intro c k q hk hq
    have hsession := hs.session c k q hk hq
    refine ⟨hsession.only, hsession.named, hsession.handle, ?_⟩
    rw [process_modify_ne (hne c k q hk hq)]
    exact hsession.marked
  · intro tid q d ht
    obtain ⟨k, r, hk, hq, hr, htid⟩ := hs.traced tid q d ht
    exact ⟨k, r, hk, hq, (process_modify_ne (hne d k q hk hq)).trans hr, htid⟩

theorem inv_startDebug (hk : s.threads c = some k) {h : Int32}
    {tasks : Option (List (Int32 × Bool))} (hkeep : KeepsSessions s (.startDebug c h tasks)) :
    Inv (s.startDebug c h tasks) := by
  unfold startDebug
  cases hh : s.processOf h.toInt with
  | none => exact hs
  | some p =>
    cases hr : s.process p with
    | none =>
      simp only [hr]
      exact hs
    | some r =>
      simp only [hr]
      have hcond := hkeep k p r hk hh hr
      have hgetD : ((taskNumbers tasks).map (List.map Prod.fst)).getD [] =
          ((taskNumbers tasks).getD []).map Prod.fst := by
        cases taskNumbers tasks <;> rfl
      have hlisted := r.data.startDebug_threadlist ((taskNumbers tasks).map (List.map Prod.fst))
      have hmarked := r.data.startDebug_isDebugged ((taskNumbers tasks).map (List.map Prod.fst))
      rw [hgetD] at hlisted hmarked
      rw [Ne, List.map_eq_nil_iff] at hmarked
      generalize r.data.startDebug ((taskNumbers tasks).map (List.map Prod.fst)) = data at *
      generalize (taskNumbers tasks).getD [] = tids at *
      -- a process that is not marked has no session
      have hfree : r.data.isDebugged = false → ¬ Debugging s p := by
        rintro hnot ⟨d, l, hl, hp⟩
        obtain ⟨r', hr', hdebugged⟩ := (hs.session d l p hl hp).marked
        rw [← Option.some.inj (hr.symm.trans hr'), hnot] at hdebugged
        exact nomatch hdebugged
      by_cases hdata : data.isDebugged = true
      · obtain ⟨honly, hagain⟩ := hcond (hmarked.1 hdata)
        have hprocess : (s.modify p fun r => { r with data }).process p =
            some { r with data } := by
          rw [process_modify_self, hr]
          rfl
        rw [if_pos hdata]
        refine hs.enter hk
          ⟨if r.data.isDebugged then k.threadname else .literal, h, p :: k.debugged⟩
          ?_ ?_ rfl honly ?_ (hs.counted.modify fun _ _ hone => hone) ?_ ?_ rfl ?_
        · simp only [modifyThread, modify, Function.update_self, hk, Option.map_some]
        · intro d hd
          simp only [modifyThread, modify, Function.update_of_ne hd]
        · intro d l hd hl hp
          cases hdebugged : r.data.isDebugged with
          | false => exact hfree hdebugged ⟨d, l, hl, hp⟩
          | true => exact hd (hs.exclusive d c l k p hl hk hp (hagain hdebugged).1)
        · refine ⟨?_, ?_, hh, { r with data }, hprocess, hdata⟩
          · intro q hq
            rcases List.mem_cons.1 hq with hqp | hq
            · exact hqp
            · exact honly q hq
          · dsimp only
            split
            · next hdebugged => exact (hs.session c k p hk (hagain hdebugged).1).named
            · exact fun hnull => nomatch hnull
        · intro q hq
          exact process_modify_ne (Ne.symm hq)
        · intro tid q d ht
          rcases tracing_attachAll tids s.tracing ht with ⟨hnew, hmem⟩ | hold
          · obtain ⟨rfl, rfl⟩ := Prod.mk.inj hnew
            exact .inl ⟨rfl, rfl, { r with data }, hprocess, by rw [hlisted]; exact hmem⟩
          · by_cases hqp : q = p
            · subst hqp
              obtain ⟨l, -, hl, hql, -⟩ := hs.traced tid q d hold
              cases hdebugged : r.data.isDebugged with
              | false => exact absurd ⟨d, l, hl, hql⟩ (hfree hdebugged)
              | true =>
                obtain ⟨hmem, hall⟩ := hagain hdebugged
                exact .inl ⟨rfl, hs.exclusive d c l k q hl hk hql hmem, { r with data },
                  hprocess, by rw [hlisted]; exact hall tid d hold⟩
            · exact .inr ⟨hqp, hold⟩
      · -- no task and nobody debugging: nothing is attached
        have hnone : r.data.isDebugged = false ∧ tids = [] := by
          rw [hmarked] at hdata
          simpa using hdata
        rw [if_neg hdata, hnone.2]
        exact hs.modify (hfree hnone.1) fun _ hone => hone

theorem inv_debugCommand {h : Int32} {change : DebugChange}
    (hkeep : KeepsSessions s (.debugCommand c h change)) (hh : s.processOf h.toInt = some p) :
    Inv (s.modify p fun r => { r with data := change.change r.data }) := by
  refine ⟨hs.counted.modify fun _ _ hone => hone, ?_, hs.idle, hs.exclusive, ?_⟩
  · intro d l q hl hq
    have hsession := hs.session d l q hl hq
    obtain ⟨r, hr, hmarked⟩ := hsession.marked
    refine ⟨hsession.only, hsession.named, hsession.handle, ?_⟩
    by_cases hpq : p = q
    · subst hpq
      refine ⟨_, by rw [process_modify_self, hr]; rfl, ?_⟩
      exact (change.isDebugged r.data).trans hmarked
    · exact ⟨r, (process_modify_ne hpq).trans hr, hmarked⟩
  · intro tid q d ht
    obtain ⟨l, r, hl, hql, hr, htid⟩ := hs.traced tid q d ht
    by_cases hpq : p = q
    · subst hpq
      refine ⟨l, { r with data := change.change r.data }, hl, hql,
        by rw [process_modify_self, hr]; rfl, ?_⟩
      by_contra hgone
      exact hkeep p r hh hr tid htid hgone d ht
    · exact ⟨l, r, hl, hql, (process_modify_ne hpq).trans hr, htid⟩

theorem inv_setConnectionName (name : List UInt8) :
    Inv (s.modifyThread c fun k => { k with threadname := .heap name }) := by
  have hold : ∀ d l, (s.modifyThread c fun k =>
      { k with threadname := .heap name }).threads d = some l →
      ∃ k, s.threads d = some k ∧ l.debugged = k.debugged ∧
        l.isDebuggerThread = k.isDebuggerThread ∧ (k.threadname ≠ .null → l.threadname ≠ .null) := by
    intro d l hl
    by_cases hd : d = c
    · subst hd
      simp only [modifyThread, Function.update_self, Option.map_eq_some_iff] at hl
      obtain ⟨k, hk, rfl⟩ := hl
      exact ⟨k, hk, rfl, rfl, fun _ hnull => nomatch hnull⟩
    · simp only [modifyThread, Function.update_of_ne hd] at hl
      exact ⟨l, hl, rfl, rfl, id⟩
  refine ⟨hs.counted, ?_, ?_, ?_, ?_⟩
  · intro d l p hl hp
    obtain ⟨k, hk, hdebugged, hhandle, hname⟩ := hold d l hl
    rw [hdebugged] at hp
    have hsession := hs.session d k p hk hp
    exact ⟨by rw [hdebugged]; exact hsession.only, hname hsession.named,
      by rw [hhandle]; exact hsession.handle, hsession.marked⟩
  · intro d l hl hnil
    obtain ⟨k, hk, hdebugged, hhandle, -⟩ := hold d l hl
    rw [hhandle]
    exact hs.idle d k hk (hdebugged.symm.trans hnil)
  · intro d e l m p hl hm hpl hpm
    obtain ⟨k, hk, hdebugged, -⟩ := hold d l hl
    obtain ⟨k', hk', hdebugged', -⟩ := hold e m hm
    rw [hdebugged] at hpl
    rw [hdebugged'] at hpm
    exact hs.exclusive d e k k' p hk hk' hpl hpm
  · intro tid p d ht
    obtain ⟨k, r, hk, hp, hr, htid⟩ := hs.traced tid p d ht
    by_cases hd : d = c
    · subst hd
      exact ⟨{ k with threadname := .heap name }, r,
        by simp only [modifyThread, Function.update_self, hk, Option.map_some], hp, hr, htid⟩
    · exact ⟨k, r, by simp only [modifyThread, Function.update_of_ne hd, hk], hp, hr, htid⟩

theorem inv_command {f : ConnectionThread → ServerState}
    (hf : ∀ k, s.threads c = some k → s.command c f = f k → Inv (f k)) : Inv (s.command c f) := by
  cases hk : s.threads c with
  | none =>
    have heq : s.command c f = s := by simp only [command, hk]
    rw [heq]
    exact hs
  | some k =>
    have heq : s.command c f = f k := by simp only [command, hk]
    rw [heq]
    exact hf k hk heq

theorem inv_step {input : ServerInput} (hkeep : KeepsSessions s input) :
    Inv (s.step input) := by
  cases input with
  | connect c =>
    show Inv (if (s.threads c).isSome then s else s.connect c)
    split
    · exact hs
    · next hnone =>
      have hthread : s.threads c = none := by simpa using hnone
      refine hs.drop c hs.counted ?_ ?_ (fun _ _ => rfl) rfl ?_
      · intro d hd
        exact Function.update_of_ne hd ..
      · intro k hk
        have hnew : (s.connect c).threads c = some ⟨.null, 0, []⟩ := Function.update_self ..
        rw [Option.some.inj (hk.symm.trans hnew)]
        exact ⟨rfl, rfl⟩
      · intro tid q d ht
        refine ⟨ht, ?_⟩
        rintro rfl
        obtain ⟨k, -, hk, -⟩ := hs.traced tid q d ht
        exact nomatch hthread.symm.trans hk
  | setConnectionName c name =>
    apply inv_command hs
    intro k hk _
    split
    · exact inv_initial
    · exact inv_setConnectionName hs name
  | openProcess c pid proc =>
    apply inv_command hs
    intro k hk heq
    have hroom : Room s.Debugging s (openProcess proc 2 s pid).2 := by
      rw [← heq]
      exact hkeep
    exact hs.frame (opens_openProcess proc 2 hs.live hs.counted hroom).frame
  | closeHandle c h =>
    apply inv_command hs
    intro k hk _
    apply hs.frame
    apply frame_closeHandle
    rintro p ⟨d, l, hl, hp⟩ hh
    obtain ⟨r, hr, hmarked⟩ := (hs.session d l p hl hp).marked
    refine ⟨r, hr, ?_⟩
    by_contra hlast
    rw [hkeep p r hh hr (by omega)] at hmarked
    exact nomatch hmarked
  | moduleSnapshot c pid proc =>
    apply inv_command hs
    intro k hk heq
    apply hs.frame
    apply frame_moduleSnapshot
    · exact opens_openProcess proc 2 hs.live hs.counted
    · exact capacity_openProcess proc 2 s
    · rw [← heq]
      exact hkeep
  | createHandle c type other =>
    apply inv_command hs
    intro k hk heq
    apply hs.frame
    apply frame_createHandle
    rw [← heq]
    exact hkeep
  | openExtension c =>
    apply inv_command hs
    intro k hk heq
    apply hs.frame
    apply frame_openExtension
    rw [← heq]
    exact hkeep
  | startDebug c h tasks =>
    apply inv_command hs
    intro k hk _
    exact inv_startDebug hs hk hkeep
  | debugCommand c h change =>
    apply inv_command hs
    intro k hk _
    cases hh : s.processOf h.toInt with
    | none => exact hs
    | some p => exact inv_debugCommand hs hkeep hh
  | closeConnection c stops =>
    cases hk : s.threads c with
    | none =>
      simp only [step, command, hk]
      exact hs
    | some k => exact inv_closeConnection hs hk stops
  | terminateServer c => exact inv_command hs fun _ _ _ => inv_initial
  | disconnect c stops =>
    apply inv_command hs
    intro k hk _
    have hclean := cleanedUp_disconnectPath hs c stops
    refine Inv.frame ?_ (frame_threadClosedEvent.threadReturns (s := s.disconnectPath c stops))
    rcases disconnectPath_cases hs hk stops with ⟨-, hpath⟩ | ⟨p, hp, hpath⟩
    · rw [hpath] at hclean ⊢
      exact inv_threadReturns hs hk hclean hs.counted rfl rfl fun _ _ ht => ht
    · obtain ⟨-, -, hcounted, hthreads, hhandles, htracing⟩ :=
        stopDebug_spec hs hk hp stops _ hpath
      exact inv_threadReturns hs hk hclean hcounted hthreads hhandles htracing
  | readError c =>
    apply inv_command hs
    intro k hk _
    refine Inv.frame ?_ (frame_threadClosedEvent.threadReturns (s := s))
    refine inv_threadReturns hs hk ?_ hs.counted rfl rfl fun _ _ ht => ht
    intro l hl
    refine ⟨?_, fun _ _ => rfl⟩
    rw [hkeep l hl]
    exact fun _ hp => nomatch hp
  | threadExit tid =>
    have hold : ∀ t x, Function.update s.tracing tid none t = some x → s.tracing t = some x := by
      intro t x hx
      by_cases ht : t = tid
      · subst ht
        rw [Function.update_self] at hx
        exact nomatch hx
      · rwa [Function.update_of_ne ht] at hx
    refine ⟨hs.counted, ?_, hs.idle, hs.exclusive, ?_⟩
    · intro c k p hk hp
      have hsession := hs.session c k p hk hp
      exact ⟨hsession.only, hsession.named, hsession.handle, hsession.marked⟩
    · intro t p d ht
      exact hs.traced t p d (hold t _ ht)

theorem endsCleanly_of_inv {input : ServerInput} (hkeep : KeepsSessions s input) :
    EndsCleanly s input := by
  cases input with
  | disconnect c stops => exact cleanedUp_disconnectPath hs c stops
  | readError c =>
    intro k hk
    rw [hkeep k hk]
    exact ⟨(fun _ hp => nomatch hp), fun _ _ => rfl⟩
  | _ => trivial

end

end ServerState

def procReadable : ProcAnswers := ⟨true, true, true⟩

/-- A client debugs a process and disconnects with the handle still open. -/
def debugThenDisconnect : List ServerInput :=
  [.connect 1, .openProcess 1 100 procReadable, .startDebug 1 1 (some [(100, true)]),
    .disconnect 1 fun _ => true]

/-- A client debugs process 100, closes its handle and disconnects; in between
    another client debugs process 200 under the same handle. -/
def closeThenDisconnect : List ServerInput :=
  [.connect 1, .connect 2, .openProcess 1 100 procReadable,
    .startDebug 1 1 (some [(100, true)]), .closeHandle 1 1,
    .openProcess 2 200 procReadable, .startDebug 2 1 (some [(200, true)]),
    .disconnect 1 fun _ => true]

end CheatEngine.Ceserver
