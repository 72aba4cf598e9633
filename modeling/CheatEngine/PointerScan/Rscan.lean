/-
  CheatEngine.PointerScan.Rscan

  The search of a worker (pointerscanworker.pas).  `rscan` looks for the addresses
  that hold a pointer to just below a value, stores a path for each, and goes on
  with those that are not static, one level deeper.  The offsets and the values on
  the way are in arrays of the worker that all levels share.

  A call of `rscan` that is under way is a `Frame`.  It depends only on the array
  entries below its level, and leaves them.
-/
import Mathlib.Algebra.Order.Group.Multiset
import Mathlib.Logic.Function.Basic
import CheatEngine.PointerScan.PointerMap

namespace CheatEngine.PointerScan

/-- The settings of a worker. -/
structure Settings where
  maxlevel : Nat
  structsize : Int32
  mustEndWithSpecificOffset : Bool
  mustEndWithSpecificOffsetMaxDeviation : UInt32
  mustendwithoffsetlist : List UInt32
  useHeapData : Bool
  useOnlyHeapData : Bool
  onlyOneStaticInPath : Bool
  staticonly : Bool
  noLoop : Bool
  limitToMaxOffsetsPerNode : Bool
  maxOffsetsPerNode : Int32
  negativeOffsets : Bool

/-- What a worker looks things up in: the pointer map, and the base of the heap
    block of an address (`FindAddress`), which only Windows has. -/
structure Target where
  pointerlisthandler : PointerMap
  findAddress : Option (UInt64 → Option UInt64)

structure Arrays where
  tempresults : Nat → UInt32
  valuelist : Nat → UInt64

/-- A call of `StorePath`, with the offsets at that moment. -/
structure StoreCall where
  level : Nat
  moduleid : Int
  offset : UInt64
  tempresults : Nat → UInt32

/-- The path that is stored: the level, the module with the offset in it, and the
    offsets up to the level. -/
abbrev Path : Type := Nat × Int × UInt64 × List UInt32

def StoreCall.path (c : StoreCall) : Path :=
  (c.level, c.moduleid, c.offset, (List.range (c.level + 1)).map c.tempresults)

def paths (calls : List StoreCall) : Multiset Path := (calls.map StoreCall.path : List Path)

/-- `rscan` at one entry of a list: `entries` and `previous` are still to do, and
    after `storing` the entry at this address was dealt with, but not stored. -/
structure Frame where
  level : Nat
  valuetofind : UInt64
  startvalue : UInt64
  previous : List PointerList
  entries : List PointerEntry
  storing : Option UInt64
  dontGoDeeper : Bool
  differentOffsetsInThisNode : Nat

/-! ## One call -/

/-- `startvalue` and `stopvalue`; `none` when the call returns. -/
def window (s : Settings) (t : Target) (valuetofind : UInt64) (level : Nat) :
    Option (UInt64 × UInt64) :=
  match if s.mustEndWithSpecificOffset then s.mustendwithoffsetlist[level]? else none with
  | some offset =>
    let ev := valuetofind - offset.toUInt64
    let startvalue := ev - s.mustEndWithSpecificOffsetMaxDeviation.toUInt64
    let stopvalue := ev + s.mustEndWithSpecificOffsetMaxDeviation.toUInt64
    some (startvalue, if valuetofind < stopvalue then valuetofind else stopvalue)
  | none =>
    let structsize := s.structsize.toInt64.toUInt64
    let startvalue := valuetofind - structsize
    let stopvalue := if s.negativeOffsets then valuetofind + structsize else valuetofind
    let startvalue := if stopvalue < startvalue then 0 else startvalue
    match t.findAddress, s.useHeapData with
    | some findAddress, true =>
      match findAddress valuetofind with
      | some baseAddress => some (baseAddress, baseAddress)
      | none => if s.useOnlyHeapData then none else some (startvalue, stopvalue)
    | _, _ => some (startvalue, stopvalue)

/-- Store the offset of a list. -/
def Arrays.setOffset (a : Arrays) (level : Nat) (valuetofind stopvalue : UInt64) : Arrays :=
  { a with tempresults := Function.update a.tempresults level (valuetofind - stopvalue).toUInt32 }

@[simp] theorem Arrays.setOffset_self (a : Arrays) (level : Nat) (valuetofind stopvalue : UInt64) :
    (a.setOffset level valuetofind stopvalue).tempresults level =
      (valuetofind - stopvalue).toUInt32 :=
  Function.update_self ..

variable {level : Nat}

theorem Arrays.setOffset_of_ne (a : Arrays) {i : Nat} (hne : i ≠ level)
    (valuetofind stopvalue : UInt64) :
    (a.setOffset level valuetofind stopvalue).tempresults i = a.tempresults i :=
  Function.update_of_ne hne ..

@[simp] theorem Arrays.setOffset_valuelist (a : Arrays) (level : Nat)
    (valuetofind stopvalue : UInt64) :
    (a.setOffset level valuetofind stopvalue).valuelist = a.valuelist := rfl

/-- The start of `rscan`, up to the first list.  `quit` is
    `terminated and (savestate=false)`. -/
def enter (s : Settings) (t : Target) (quit : Bool) (a : Arrays) (valuetofind : UInt64)
    (level : Nat) : Arrays × Option Frame :=
  if s.maxlevel ≤ level ∨ quit then (a, none)
  else
    match window s t valuetofind level with
    | none => (a, none)
    | some (startvalue, stopvalue) =>
      if s.noLoop ∧ ∃ i < level, a.valuelist i = valuetofind then (a, none)
      else
        let a := if s.noLoop then
          { a with valuelist := Function.update a.valuelist level valuetofind } else a
        if stopvalue < startvalue then (a, none)
        else
          match t.pointerlisthandler.findPointerValue startvalue stopvalue with
          | [] => (a, none)
          | plist :: previous =>
            (a.setOffset level valuetofind plist.pointervalue,
              some ⟨level, valuetofind, startvalue, previous, plist.list, none, false, 0⟩)

/-- `DifferentOffsetsInThisNode` at the end of a list. -/
def Frame.countOffset (s : Settings) (f : Frame) : Nat :=
  if s.limitToMaxOffsetsPerNode ∧ 0 < f.level then f.differentOffsetsInThisNode + 1
  else f.differentOffsetsInThisNode

/-- The end of a list: the limit of different offsets, and the list before. -/
def nextList (s : Settings) (a : Arrays) (f : Frame) : Arrays × Option Frame :=
  if s.limitToMaxOffsetsPerNode ∧ s.maxOffsetsPerNode.toInt ≤ f.countOffset s then (a, none)
  else
    match f.previous with
    | [] => (a, none)
    | plist :: previous =>
      if plist.pointervalue < f.startvalue then (a, none)
      else (a.setOffset f.level f.valuetofind plist.pointervalue,
        some { f with
          previous := previous, entries := plist.list, storing := none,
          differentOffsetsInThisNode := f.countOffset s })

/-- The entries of a list, with `rscan` of the next level. -/
def scanEntries (s : Settings) (child : Arrays → UInt64 → Arrays × List StoreCall) (level : Nat) :
    List PointerEntry → Bool → Arrays → (Arrays × Bool) × List StoreCall
  | [], dontGoDeeper, a => ((a, dontGoDeeper), [])
  | e :: entries, dontGoDeeper, a =>
    match e.staticdata with
    | some static =>
      let rest := scanEntries s child level entries (dontGoDeeper || s.onlyOneStaticInPath) a
      (rest.1, ⟨level, static.moduleindex, static.offset, a.tempresults⟩ :: rest.2)
    | none =>
      if dontGoDeeper then scanEntries s child level entries dontGoDeeper a
      else
        let deeper := if level + 1 < s.maxlevel then child a e.address else (a, [])
        let stored := if s.staticonly then [] else
          [⟨level, -1, e.address, deeper.1.tempresults⟩]
        let rest := scanEntries s child level entries dontGoDeeper deeper.1
        (rest.1, deeper.2 ++ stored ++ rest.2)

def scanLists (s : Settings) (child : Arrays → UInt64 → Arrays × List StoreCall) :
    List PointerList → Frame → Arrays → Arrays × List StoreCall
  | lists, f, a =>
    let here := scanEntries s child f.level f.entries f.dontGoDeeper a
    match nextList s here.1.1 { f with dontGoDeeper := here.1.2, previous := lists }, lists with
    | (a, some f), _ :: lists =>
      let rest := scanLists s child lists f a
      (rest.1, here.2 ++ rest.2)
    | (a, _), _ => (a, here.2)

def rscanFrom (s : Settings) (t : Target) : Nat → Nat → Arrays → UInt64 → Arrays × List StoreCall
  | 0, _, a, _ => (a, [])
  | fuel + 1, level, a, valuetofind =>
    match enter s t false a valuetofind level with
    | (a, none) => (a, [])
    | (a, some f) => scanLists s (rscanFrom s t fuel (level + 1)) f.previous f a

/-- A recursive `rscan` that never uses the queue. -/
def rscan (s : Settings) (t : Target) (level : Nat) (a : Arrays) (valuetofind : UInt64) :
    Arrays × List StoreCall :=
  rscanFrom s t (s.maxlevel - level) level a valuetofind

/-! ## What a call depends on -/

/-- The two arrays have the same entries below `n`, as far as they are used. -/
def Arrays.Agree (s : Settings) (n : Nat) (a b : Arrays) : Prop :=
  ∀ i < n, a.tempresults i = b.tempresults i ∧ (s.noLoop = true → a.valuelist i = b.valuelist i)

namespace Arrays.Agree

variable {s : Settings} {n : Nat} {a b c : Arrays}

theorem refl (a : Arrays) : Agree s n a a := fun _ _ => ⟨rfl, fun _ => rfl⟩

theorem symm (h : Agree s n a b) : Agree s n b a :=
  fun i hi => ⟨(h i hi).1.symm, fun hno => ((h i hi).2 hno).symm⟩

theorem trans (h : Agree s n a b) (h' : Agree s n b c) : Agree s n a c :=
  fun i hi => ⟨(h i hi).1.trans (h' i hi).1, fun hno => ((h i hi).2 hno).trans ((h' i hi).2 hno)⟩

theorem mono {m : Nat} (h : Agree s n a b) (hle : m ≤ n) : Agree s m a b :=
  fun i hi => h i (Nat.lt_of_lt_of_le hi hle)

theorem setOffset (h : Agree s n a b) (valuetofind stopvalue : UInt64) :
    Agree s n a (b.setOffset n valuetofind stopvalue) := by
  intro i hi
  refine ⟨?_, (h i hi).2⟩
  rw [b.setOffset_of_ne (Nat.ne_of_lt hi)]
  exact (h i hi).1

theorem setOffset_both (h : Agree s n a b) (level : Nat) (valuetofind stopvalue : UInt64) :
    Agree s n (a.setOffset level valuetofind stopvalue)
      (b.setOffset level valuetofind stopvalue) := by
  intro i hi
  refine ⟨?_, (h i hi).2⟩
  by_cases hlevel : i = level
  · subst hlevel
    rw [Arrays.setOffset_self, Arrays.setOffset_self]
  · rw [a.setOffset_of_ne hlevel, b.setOffset_of_ne hlevel]
    exact (h i hi).1

theorem path_eq {level : Nat} (h : Agree s (level + 1) a b) (moduleid : Int) (offset : UInt64) :
    StoreCall.path ⟨level, moduleid, offset, a.tempresults⟩ =
      StoreCall.path ⟨level, moduleid, offset, b.tempresults⟩ := by
  have hoffsets : (List.range (level + 1)).map a.tempresults =
      (List.range (level + 1)).map b.tempresults := by
    apply List.map_congr_left
    intro i hi
    exact (h i (List.mem_range.1 hi)).1
  simp only [StoreCall.path, hoffsets]

end Arrays.Agree

/-- A call on the next level stores the same paths for arrays that agree below
    `n`, and leaves them. -/
structure Local (s : Settings) (n : Nat) (child : Arrays → UInt64 → Arrays × List StoreCall) :
    Prop where
  paths : ∀ a b valuetofind, Arrays.Agree s n a b →
    (child a valuetofind).2.map StoreCall.path = (child b valuetofind).2.map StoreCall.path
  keeps : ∀ a valuetofind, Arrays.Agree s n a (child a valuetofind).1

variable {s : Settings} {t : Target}

/-- The start of a call. -/
theorem enter_agree (quit : Bool) {a b : Arrays} (valuetofind : UInt64)
    (h : Arrays.Agree s level a b) :
    (enter s t quit a valuetofind level).2 = (enter s t quit b valuetofind level).2 ∧
      ∀ f, (enter s t quit a valuetofind level).2 = some f →
        Arrays.Agree s (level + 1) (enter s t quit a valuetofind level).1
          (enter s t quit b valuetofind level).1 := by
  have hloop : (s.noLoop ∧ ∃ i < level, a.valuelist i = valuetofind) ↔
      (s.noLoop ∧ ∃ i < level, b.valuelist i = valuetofind) := by
    constructor
    · rintro ⟨hno, i, hi, hvalue⟩
      exact ⟨hno, i, hi, ((h i hi).2 hno).symm.trans hvalue⟩
    · rintro ⟨hno, i, hi, hvalue⟩
      exact ⟨hno, i, hi, ((h i hi).2 hno).trans hvalue⟩
  simp only [enter, hloop]
  split
  · exact ⟨rfl, nofun⟩
  · split
    · exact ⟨rfl, nofun⟩
    · split
      · exact ⟨rfl, nofun⟩
      · split
        · exact ⟨rfl, nofun⟩
        · split
          · exact ⟨rfl, nofun⟩
          · refine ⟨rfl, fun f _ => ?_⟩
            intro i hi
            by_cases hlevel : i = level
            · subst hlevel
              cases hno : s.noLoop <;> simp
            · have hlt : i < level := by omega
              obtain ⟨htemp, hvalue⟩ := h i hlt
              rw [Arrays.setOffset_of_ne _ hlevel, Arrays.setOffset_of_ne _ hlevel]
              cases hno : s.noLoop <;> simp_all

theorem enter_keeps (quit : Bool) (a : Arrays) (valuetofind : UInt64) (level : Nat) :
    Arrays.Agree s level a (enter s t quit a valuetofind level).1 := by
  have hvalue : Arrays.Agree s level a (if s.noLoop then
      { a with valuelist := Function.update a.valuelist level valuetofind } else a) := by
    split
    · exact fun i hi => ⟨rfl, fun _ => (Function.update_of_ne (Nat.ne_of_lt hi) _ _).symm⟩
    · exact .refl a
  unfold enter
  split
  · exact .refl a
  · split
    · exact .refl a
    · split
      · exact .refl a
      · dsimp only
        split
        · exact hvalue
        · split
          · exact hvalue
          · exact hvalue.setOffset _ _

theorem enter_level (quit : Bool) (a : Arrays) (valuetofind : UInt64) (level : Nat) (f : Frame)
    (h : (enter s t quit a valuetofind level).2 = some f) : f.level = level := by
  unfold enter at h
  split at h
  · exact nomatch h
  · split at h
    · exact nomatch h
    · split at h
      · exact nomatch h
      · dsimp only at h
        split at h
        · exact nomatch h
        · split at h
          · exact nomatch h
          · exact (Option.some.inj h) ▸ rfl

theorem nextList_agree (f : Frame) {n : Nat} {a b : Arrays} (h : Arrays.Agree s n a b) :
    (nextList s a f).2 = (nextList s b f).2 ∧
      Arrays.Agree s n (nextList s a f).1 (nextList s b f).1 := by
  unfold nextList
  split
  · exact ⟨rfl, h⟩
  · split
    · exact ⟨rfl, h⟩
    · split
      · exact ⟨rfl, h⟩
      · exact ⟨rfl, h.setOffset_both _ _ _⟩

theorem nextList_keeps (a : Arrays) (f : Frame) :
    Arrays.Agree s f.level a (nextList s a f).1 := by
  unfold nextList
  split
  · exact .refl a
  · split
    · exact .refl a
    · split
      · exact .refl a
      · exact (Arrays.Agree.refl a).setOffset _ _

variable {f : Frame}

theorem nextList_some {f' : Frame} {a : Arrays} (h : (nextList s a f).2 = some f') :
    f'.level = f.level ∧ f'.storing = none ∧ ∃ plist, f.previous = plist :: f'.previous := by
  unfold nextList at h
  split at h
  · exact nomatch h
  · split at h
    · exact nomatch h
    · next plist previous hprevious =>
      split at h
      · exact nomatch h
      · rw [← Option.some.inj h]
        exact ⟨rfl, rfl, plist, hprevious⟩

theorem scanEntries_agree {child : Arrays → UInt64 → Arrays × List StoreCall}
    (hchild : Local s (level + 1) child) (entries : List PointerEntry) (dontGoDeeper : Bool)
    {a b : Arrays} (h : Arrays.Agree s (level + 1) a b) :
    (scanEntries s child level entries dontGoDeeper a).2.map StoreCall.path =
        (scanEntries s child level entries dontGoDeeper b).2.map StoreCall.path ∧
      (scanEntries s child level entries dontGoDeeper a).1.2 =
        (scanEntries s child level entries dontGoDeeper b).1.2 ∧
      Arrays.Agree s (level + 1) a (scanEntries s child level entries dontGoDeeper a).1.1 := by
  induction entries generalizing dontGoDeeper a b with
  | nil => exact ⟨rfl, rfl, .refl a⟩
  | cons e entries ih =>
    cases hstatic : e.staticdata with
    | some static =>
      obtain ⟨hpaths, hflag, hkeeps⟩ := ih (dontGoDeeper || s.onlyOneStaticInPath) h
      simp only [scanEntries, hstatic, List.map_cons]
      refine ⟨?_, hflag, hkeeps⟩
      rw [h.path_eq, hpaths]
    | none =>
      cases dontGoDeeper with
      | true =>
        simp only [scanEntries, hstatic, if_true]
        exact ih true h
      | false =>
        -- what the next level leaves agrees with what it found
        have hdeeper : Arrays.Agree s (level + 1) a
            (if level + 1 < s.maxlevel then child a e.address else (a, [])).1 := by
          split
          · exact hchild.keeps a e.address
          · exact .refl a
        have hdeeper' : Arrays.Agree s (level + 1) b
            (if level + 1 < s.maxlevel then child b e.address else (b, [])).1 := by
          split
          · exact hchild.keeps b e.address
          · exact .refl b
        have hboth := hdeeper.symm.trans (h.trans hdeeper')
        obtain ⟨hpaths, hflag, hkeeps⟩ := ih false hboth
        have hpaths' :
            (if level + 1 < s.maxlevel then child a e.address else (a, [])).2.map
                StoreCall.path =
              (if level + 1 < s.maxlevel then child b e.address else (b, [])).2.map
                StoreCall.path := by
          split
          · exact hchild.paths a b e.address h
          · rfl
        simp only [scanEntries, hstatic, Bool.false_eq_true, if_false, List.map_append]
        refine ⟨?_, hflag, hdeeper.trans hkeeps⟩
        rw [hpaths, hpaths']
        cases s.staticonly with
        | true => rfl
        | false =>
          simp only [Bool.false_eq_true, if_false, List.map_cons, List.map_nil]
          rw [hboth.path_eq]

theorem scanLists_agree {child : Arrays → UInt64 → Arrays × List StoreCall}
    (lists : List PointerList) (f : Frame) (hchild : Local s (f.level + 1) child) {a b : Arrays}
    (h : Arrays.Agree s (f.level + 1) a b) :
    (scanLists s child lists f a).2.map StoreCall.path =
        (scanLists s child lists f b).2.map StoreCall.path ∧
      Arrays.Agree s f.level a (scanLists s child lists f a).1 := by
  induction lists generalizing f a b with
  | nil =>
    obtain ⟨hpaths, hflag, hkeeps⟩ := scanEntries_agree hchild f.entries f.dontGoDeeper h
    have hnext : ∀ a g, g.previous = [] → nextList s a g = (a, none) := by
      intro a g hg
      simp only [nextList, hg]
      split <;> rfl
    unfold scanLists
    simp only [hnext]
    exact ⟨hpaths, hkeeps.mono (Nat.le_succ _)⟩
  | cons plist lists ih =>
    obtain ⟨hpaths, hflag, hkeeps⟩ := scanEntries_agree hchild f.entries f.dontGoDeeper h
    obtain ⟨-, -, hkeeps'⟩ := scanEntries_agree hchild f.entries f.dontGoDeeper h.symm
    unfold scanLists
    dsimp only
    rw [← hflag]
    generalize scanEntries s child f.level f.entries f.dontGoDeeper a = here at *
    generalize scanEntries s child f.level f.entries f.dontGoDeeper b = here' at *
    have hhere : Arrays.Agree s (f.level + 1) here.1.1 here'.1.1 :=
      hkeeps.symm.trans (h.trans hkeeps')
    have hnext := nextList_agree { f with dontGoDeeper := here.1.2, previous := plist :: lists } hhere
    have hleft := nextList_keeps (s := s) here.1.1
      { f with dontGoDeeper := here.1.2, previous := plist :: lists }
    have hlevel : ∀ f', (nextList s here.1.1
        { f with dontGoDeeper := here.1.2, previous := plist :: lists }).2 = some f' →
        f'.level = f.level := fun f' hf' => (nextList_some hf').1
    generalize nextList s here.1.1
      { f with dontGoDeeper := here.1.2, previous := plist :: lists } = next at *
    generalize nextList s here'.1.1
      { f with dontGoDeeper := here.1.2, previous := plist :: lists } = next' at *
    obtain ⟨a₁, found⟩ := next
    obtain ⟨b₁, found'⟩ := next'
    obtain ⟨hfound, hagree⟩ := hnext
    dsimp only at hfound hagree hleft hlevel
    subst hfound
    have hstart : Arrays.Agree s f.level a a₁ := (hkeeps.mono (Nat.le_succ _)).trans hleft
    cases found with
    | none => exact ⟨hpaths, hstart⟩
    | some f' =>
      have hf' := hlevel f' rfl
      rw [← hf'] at hchild hagree
      obtain ⟨hrest, hend⟩ := ih f' hchild hagree
      simp only [List.map_append]
      refine ⟨?_, hstart.trans (hf' ▸ hend)⟩
      rw [hpaths, hrest]

theorem local_rscanFrom (fuel level : Nat) : Local s level (rscanFrom s t fuel level) := by
  induction fuel generalizing level with
  | zero => exact ⟨fun _ _ _ _ => rfl, fun a _ => .refl a⟩
  | succ fuel ih =>
    constructor
    · intro a b valuetofind h
      obtain ⟨hsame, hagree⟩ := enter_agree (t := t) false valuetofind h
      have hlevel := enter_level (s := s) (t := t) false a valuetofind level
      unfold rscanFrom
      generalize enter s t false a valuetofind level = entered at *
      generalize enter s t false b valuetofind level = entered' at *
      obtain ⟨a₁, found⟩ := entered
      obtain ⟨b₁, found'⟩ := entered'
      dsimp only at hsame hagree hlevel
      subst hsame
      cases found with
      | none => rfl
      | some f =>
        have hf := hlevel f rfl
        subst hf
        exact (scanLists_agree f.previous f (ih _) (hagree f rfl)).1
    · intro a valuetofind
      have hkeeps := enter_keeps (s := s) (t := t) false a valuetofind level
      have hlevel := enter_level (s := s) (t := t) false a valuetofind level
      unfold rscanFrom
      generalize enter s t false a valuetofind level = entered at *
      obtain ⟨a₁, found⟩ := entered
      dsimp only at hkeeps hlevel
      cases found with
      | none => exact hkeeps
      | some f =>
        have hf := hlevel f rfl
        subst hf
        exact hkeeps.trans (scanLists_agree f.previous f (ih _) (.refl a₁)).2

theorem local_rscan (level : Nat) : Local s level (rscan s t level) := local_rscanFrom _ level

/-! ## The paths that a call still stores -/

@[simp] theorem paths_nil : paths [] = 0 := rfl

@[simp] theorem paths_append (calls calls' : List StoreCall) :
    paths (calls ++ calls') = paths calls + paths calls' := by
  simp [paths]

def callPaths (s : Settings) (t : Target) (level : Nat) (a : Arrays) (valuetofind : UInt64) :
    Multiset Path :=
  paths (rscan s t level a valuetofind).2

/-- The call of `StorePath` for the entry that was dealt with. -/
def Frame.stores (s : Settings) (f : Frame) (a : Arrays) : List StoreCall :=
  match f.storing with
  | some address => if s.staticonly then [] else [⟨f.level, -1, address, a.tempresults⟩]
  | none => []

def framePaths (s : Settings) (t : Target) (f : Frame) (a : Arrays) : Multiset Path :=
  paths (f.stores s a) + paths (scanLists s (rscan s t (f.level + 1)) f.previous f a).2

theorem callPaths_agree {a b : Arrays} (h : Arrays.Agree s level a b)
    (valuetofind : UInt64) : callPaths s t level a valuetofind = callPaths s t level b valuetofind := by
  rw [callPaths, callPaths, paths, paths, (local_rscan level).paths a b valuetofind h]

theorem framePaths_agree {a b : Arrays} (h : Arrays.Agree s (f.level + 1) a b) :
    framePaths s t f a = framePaths s t f b := by
  have hstores : (f.stores s a).map StoreCall.path = (f.stores s b).map StoreCall.path := by
    unfold Frame.stores
    split
    · split
      · rfl
      · rw [List.map_singleton, List.map_singleton, h.path_eq]
    · rfl
  rw [framePaths, framePaths, paths, paths, paths, paths, hstores,
    (scanLists_agree f.previous f (local_rscan _) h).1]

theorem callPaths_eq (level : Nat) (a : Arrays) (valuetofind : UInt64) :
    callPaths s t level a valuetofind =
      match enter s t false a valuetofind level with
      | (_, none) => 0
      | (a, some f) => framePaths s t f a := by
  rw [callPaths, rscan]
  cases hfuel : s.maxlevel - level with
  | zero =>
    have hle : s.maxlevel ≤ level := by omega
    simp [enter, hle, rscanFrom]
  | succ fuel =>
    have hrest : s.maxlevel - (level + 1) = fuel := by omega
    have hlevel := enter_level (s := s) (t := t) false a valuetofind level
    have hstoring : ∀ f, (enter s t false a valuetofind level).2 = some f → f.storing = none := by
      intro f hf
      unfold enter at hf
      split at hf
      · exact nomatch hf
      · split at hf
        · exact nomatch hf
        · split at hf
          · exact nomatch hf
          · dsimp only at hf
            split at hf
            · exact nomatch hf
            · split at hf
              · exact nomatch hf
              · exact (Option.some.inj hf) ▸ rfl
    rw [rscanFrom]
    generalize enter s t false a valuetofind level = entered at *
    obtain ⟨a₁, found⟩ := entered
    cases found with
    | none => rfl
    | some f =>
      have hf : f.level = level := hlevel f rfl
      have hnone : f.storing = none := hstoring f rfl
      have hchild : rscan s t (level + 1) = rscanFrom s t fuel (level + 1) := by
        funext a valuetofind
        rw [rscan, hrest]
      simp only [framePaths, Frame.stores, hnone, hf, hchild, paths_nil, zero_add]

theorem scanLists_entries (child : Arrays → UInt64 → Arrays × List StoreCall)
    (lists : List PointerList) (g : Frame)
    (hg : { g with
      entries := f.entries, storing := f.storing, dontGoDeeper := f.dontGoDeeper } = f)
    {a : Arrays} (b : Arrays) (calls : List StoreCall)
    (hfirst : (scanEntries s child f.level f.entries f.dontGoDeeper a).1 =
      (scanEntries s child g.level g.entries g.dontGoDeeper b).1)
    (hcalls : (scanEntries s child f.level f.entries f.dontGoDeeper a).2 =
      calls ++ (scanEntries s child g.level g.entries g.dontGoDeeper b).2) :
    (scanLists s child lists f a).2 = calls ++ (scanLists s child lists g b).2 := by
  unfold scanLists
  dsimp only
  rw [hfirst, hcalls]
  generalize scanEntries s child g.level g.entries g.dontGoDeeper b = here
  have hnext : nextList s here.1.1 { f with dontGoDeeper := here.1.2, previous := lists } =
      nextList s here.1.1 { g with dontGoDeeper := here.1.2, previous := lists } := by
    rw [← hg]
    rfl
  rw [hnext]
  generalize nextList s here.1.1 _ = next
  obtain ⟨a₁, found⟩ := next
  cases found with
  | none => cases lists <;> rfl
  | some f' =>
    cases lists with
    | nil => rfl
    | cons plist lists => simp only [List.append_assoc]

theorem framePaths_entries (hstoring : f.storing = none) (g : Frame)
    (hg : { g with
      entries := f.entries, storing := f.storing, dontGoDeeper := f.dontGoDeeper } = f)
    {a : Arrays} (b : Arrays) (calls : List StoreCall)
    (hfirst : (scanEntries s (rscan s t (f.level + 1)) f.level f.entries f.dontGoDeeper a).1 =
      (scanEntries s (rscan s t (f.level + 1)) g.level g.entries g.dontGoDeeper b).1)
    (hcalls : (scanEntries s (rscan s t (f.level + 1)) f.level f.entries f.dontGoDeeper a).2 =
      calls ++ g.stores s b ++
        (scanEntries s (rscan s t (f.level + 1)) g.level g.entries g.dontGoDeeper b).2) :
    framePaths s t f a = paths calls + framePaths s t g b := by
  have hrest := scanLists_entries (rscan s t (f.level + 1)) f.previous g hg b _ hfirst hcalls
  have hlevel : g.level = f.level := by rw [← hg]
  have hprevious : g.previous = f.previous := by rw [← hg]
  rw [framePaths, framePaths, hrest, hlevel, hprevious, paths_append, paths_append, add_assoc]
  simp only [Frame.stores, hstoring, paths_nil, zero_add]

/-! ### One step of a frame -/

theorem framePaths_storing {a : Arrays} :
    framePaths s t f a = paths (f.stores s a) + framePaths s t { f with storing := none } a := by
  have hnone : ({ f with storing := none } : Frame).stores s a = [] := rfl
  have hlists : scanLists s (rscan s t (f.level + 1)) f.previous { f with storing := none } a =
      scanLists s (rscan s t (f.level + 1)) f.previous f a := by
    unfold scanLists
    rfl
  rw [framePaths, framePaths, hnone, paths_nil, zero_add]
  exact congrArg (fun calls => paths (f.stores s a) + paths calls.2) hlists.symm

variable {e : PointerEntry} {entries : List PointerEntry}

theorem framePaths_static {a : Arrays} {static : StaticData} (hstoring : f.storing = none)
    (hentries : f.entries = e :: entries) (hstatic : e.staticdata = some static) :
    framePaths s t f a =
      paths [⟨f.level, static.moduleindex, static.offset, a.tempresults⟩] +
        framePaths s t { f with
          entries := entries, dontGoDeeper := f.dontGoDeeper || s.onlyOneStaticInPath } a := by
  apply framePaths_entries hstoring
  · rfl
  · simp only [hentries, scanEntries, hstatic]
  · simp only [hentries, scanEntries, hstatic, Frame.stores, hstoring]
    rfl

theorem framePaths_skip {a : Arrays}
    (hstoring : f.storing = none) (hentries : f.entries = e :: entries)
    (hstatic : e.staticdata = none) (hdont : f.dontGoDeeper = true) :
    framePaths s t f a = framePaths s t { f with entries := entries } a := by
  have hskip : framePaths s t f a = paths [] + framePaths s t { f with entries := entries } a := by
    apply framePaths_entries hstoring
    · rfl
    · simp only [hentries, scanEntries, hstatic, hdont, if_true]
    · simp only [hentries, scanEntries, hstatic, hdont, if_true, Frame.stores, hstoring]
      rfl
  rw [hskip, paths_nil, zero_add]

theorem framePaths_deeper {a : Arrays} (hstoring : f.storing = none)
    (hentries : f.entries = e :: entries) (hstatic : e.staticdata = none)
    (hdont : f.dontGoDeeper = false) :
    framePaths s t f a =
      (if f.level + 1 < s.maxlevel then callPaths s t (f.level + 1) a e.address else 0) +
        framePaths s t { f with entries := entries, storing := some e.address } a := by
  by_cases hlevel : f.level + 1 < s.maxlevel
  · -- the next level leaves the entries up to this one
    have hkeeps := (local_rscan (s := s) (t := t) (f.level + 1)).keeps a e.address
    have hagree : framePaths s t { f with entries := entries, storing := some e.address } a =
        framePaths s t { f with entries := entries, storing := some e.address }
          (rscan s t (f.level + 1) a e.address).1 := framePaths_agree hkeeps
    rw [if_pos hlevel, hagree]
    apply framePaths_entries hstoring
    · rfl
    · simp only [hentries, scanEntries, hstatic, hdont, hlevel, Bool.false_eq_true, if_false,
        if_true]
    · simp only [hentries, scanEntries, hstatic, hdont, hlevel, Bool.false_eq_true, if_false,
        if_true, Frame.stores]
  · have hend : framePaths s t f a =
        paths [] + framePaths s t { f with entries := entries, storing := some e.address } a := by
      apply framePaths_entries hstoring
      · rfl
      · simp only [hentries, scanEntries, hstatic, hdont, hlevel, Bool.false_eq_true, if_false]
      · simp only [hentries, scanEntries, hstatic, hdont, hlevel, Bool.false_eq_true, if_false,
          Frame.stores]
    rw [if_neg hlevel, hend, paths_nil]

theorem framePaths_nextList {a : Arrays} (hstoring : f.storing = none) (hentries : f.entries = []) :
    framePaths s t f a =
      match nextList s a f with
      | (_, none) => 0
      | (a, some f) => framePaths s t f a := by
  have hsome : ∀ f', (nextList s a f).2 = some f' → f'.level = f.level ∧ f'.storing = none ∧
      ∃ plist, f.previous = plist :: f'.previous := fun _ => nextList_some
  have hhere : scanEntries s (rscan s t (f.level + 1)) f.level f.entries f.dontGoDeeper a =
      ((a, f.dontGoDeeper), []) := by
    rw [hentries]
    rfl
  rw [framePaths]
  conv_lhs => unfold scanLists
  simp only [hhere, List.nil_append]
  rcases hnext : nextList s a f with ⟨a₁, found⟩
  rw [hnext] at hsome
  cases found with
  | none =>
    cases hprevious : f.previous <;>
      simp only [Frame.stores, hstoring, paths_nil, add_zero]
  | some f' =>
    obtain ⟨hlevel, hnone, plist, hprevious⟩ := hsome f' rfl
    rw [hprevious]
    simp only [framePaths, Frame.stores, hstoring, hnone, hlevel]

end CheatEngine.PointerScan
