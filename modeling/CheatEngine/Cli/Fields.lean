/-
  CheatEngine.Cli.Fields

  The selection of fields (`filterOutputFields` in internal/cli/output.go).

  The source is a tree of maps.  The result is built by assignments: a selected
  object is not copied, the result refers to the map of the source, and a later path
  through it assigns to a member of the source, the cell that is there already.

    * `Used` are the paths at which the result has a map of its own, above selected
      paths but not below one;
    * `Projected` says what the heap holds after some paths.
-/
import Mathlib.Data.List.Induction
import CheatEngine.Lib.GoStrings
import CheatEngine.Lib.MapHeap

namespace CheatEngine.Cli

open CheatEngine.Lib CheatEngine.Lib.Go

variable {ν : Type}

def lookupOutputField (h : Heap ν) (source : Cell ν) (segments : List Name) : Option (Cell ν) :=
  h.walk source segments

/-- `setOutputField`; a path has at least one segment. -/
def setOutputField (value : Cell ν) : Heap ν → Nat → List Name → Heap ν
  | h, _, [] => h
  | h, current, [segment] => h.set current segment value
  | h, current, segment :: segment' :: segments =>
    match h.get current segment with
    | some (.map next) => setOutputField value h next (segment' :: segments)
    | _ =>
      -- `next = make(map[string]any)`
      let next := h.next
      setOutputField value ((h.alloc []).set current segment (.map next)) next
        (segment' :: segments)

def segments (field : List UInt8) : List Name := splitByte 46 field

/-- The loop over the fields, with the fields that were missing. -/
def selectFields (source : Cell ν) (root : Nat) :
    List (List UInt8) → Heap ν → List (List UInt8) → Heap ν × List (List UInt8)
  | [], h, missing => (h, missing)
  | field :: fields, h, missing =>
    match lookupOutputField h source (segments field) with
    | none => selectFields source root fields h (missing ++ [field])
    | some value =>
      selectFields source root fields (setOutputField value h root (segments field)) missing

theorem segments_ne_nil (field : List UInt8) : segments field ≠ [] := splitByte_ne_nil 46 field

/-! ## Maps of the result -/

/-- The path has a map of the result: it is above a selected path or the one that is being
    followed, and not at or below a selected one. -/
def Used (done : List (List Name)) (followed path : List Name) : Prop :=
  (path <+: followed ∨ ∃ p ∈ done, path <+: p) ∧ ∀ p ∈ done, ¬ p <+: path

section Used

variable {done : List (List Name)} {followed path : List Name}

theorem Used.parent {path' : List Name} (h : Used done followed path) (hle : path' <+: path) :
    Used done followed path' := by
  refine ⟨?_, fun p hp hle' => h.2 p hp (hle'.trans hle)⟩
  rcases h.1 with hf | ⟨p, hp, hpath⟩
  · exact .inl (hle.trans hf)
  · exact .inr ⟨p, hp, hle.trans hpath⟩

theorem used_nil (hdone : ∀ p ∈ done, p ≠ []) : Used done followed [] :=
  ⟨.inl List.nil_prefix, fun p hp hle => hdone p hp (List.prefix_nil.1 hle)⟩

end Used

/-- The heap after the paths `done` were selected, while `followed` is on the way. The map
    of the result at a path is `own path`. -/
structure Projected (h₀ h : Heap ν) (source : Cell ν) (done : List (List Name))
    (followed : List Name) (own : List Name → Nat) : Prop where
  next_le : h₀.next ≤ h.next
  /-- The source is as it was. -/
  same : ∀ a name, a < h₀.next → h.get a name = h₀.get a name
  /-- A map of the result is none of the source and is at one path only. -/
  fresh : ∀ path, Used done followed path → h₀.next ≤ own path ∧ own path < h.next
  inj : ∀ path path', Used done followed path → Used done followed path' → own path = own path' →
    path = path'
  selected : ∀ path name, Used done followed path → path ++ [name] ∈ done →
    h.get (own path) name = h₀.walk source (path ++ [name])
  nested : ∀ path name, Used done followed path → Used done followed (path ++ [name]) →
    h.get (own path) name = some (.map (own (path ++ [name])))
  nothing : ∀ path name, Used done followed path → path ++ [name] ∉ done →
    ¬ Used done followed (path ++ [name]) → h.get (own path) name = none

namespace Projected

variable {h₀ h h' : Heap ν} {source : Cell ν} {done : List (List Name)} {followed : List Name}
  {own : List Name → Nat}

section

variable (hproj : Projected h₀ h source done followed own)
include hproj

/-- Only what the maps hold matters. -/
theorem congr (hnext : h'.next = h.next) (hget : ∀ a name, h'.get a name = h.get a name) :
    Projected h₀ h' source done followed own where
  next_le := hnext ▸ hproj.next_le
  same a name ha := (hget a name).trans (hproj.same a name ha)
  fresh path hu := hnext ▸ hproj.fresh path hu
  inj := hproj.inj
  selected path name hu hmem := (hget _ name).trans (hproj.selected path name hu hmem)
  nested path name hu hu' := (hget _ name).trans (hproj.nested path name hu hu')
  nothing path name hu hmem hu' := (hget _ name).trans (hproj.nothing path name hu hmem hu')

theorem change {done' : List (List Name)} {followed' : List Name}
    (hused : ∀ path, Used done' followed' path ↔ Used done followed path)
    (hmem : ∀ path name, Used done followed path → (path ++ [name] ∈ done' ↔ path ++ [name] ∈ done)) :
    Projected h₀ h source done' followed' own where
  next_le := hproj.next_le
  same := hproj.same
  fresh path hu := hproj.fresh path ((hused path).1 hu)
  inj path path' hu hu' := hproj.inj path path' ((hused path).1 hu) ((hused path').1 hu')
  selected path name hu hin := by
    have hu := (hused path).1 hu
    exact hproj.selected path name hu ((hmem path name hu).1 hin)
  nested path name hu hu' :=
    hproj.nested path name ((hused path).1 hu) ((hused _).1 hu')
  nothing path name hu hin hu' := by
    have hu := (hused path).1 hu
    exact hproj.nothing path name hu (fun hin' => hin ((hmem path name hu).2 hin'))
      fun hu'' => hu' ((hused _).2 hu'')

theorem walk_used {path : List Name}
    (hu : Used done followed path) : h.walk (.map (own [])) path = some (.map (own path)) := by
  induction path using List.reverseRecOn with
  | nil => rfl
  | append_singleton path name ih =>
    have hparent := hu.parent (List.prefix_append path [name])
    rw [Heap.walk_snoc (ih hparent), hproj.nested path name hparent hu]

theorem walk_selected (hclosed : h₀.Closed)
    (hsource : source.Below h₀.next) (hdone : ∀ p ∈ done, p ≠ []) {path : List Name}
    (hpath : ∃ p ∈ done, p <+: path) :
    h.walk (.map (own [])) path = h₀.walk source path := by
  induction path using List.reverseRecOn with
  | nil =>
    obtain ⟨p, hp, hle⟩ := hpath
    exact absurd (List.prefix_nil.1 hle) (hdone p hp)
  | append_singleton path name ih =>
    by_cases habove : ∃ p ∈ done, p <+: path
    · -- below a selected path the maps are those of the source
      rw [Heap.walk_append, Heap.walk_append, ih habove]
      cases hc : h₀.walk source path with
      | none => rfl
      | some c => exact Heap.walk_congr hclosed hproj.same (Heap.below_walk hclosed hsource hc) [name]
    · have hnone : ∀ p ∈ done, ¬ p <+: path := fun p hp hle => habove ⟨p, hp, hle⟩
      have hmem : path ++ [name] ∈ done := by
        obtain ⟨p, hp, hle⟩ := hpath
        rcases List.prefix_concat_iff.1 hle with rfl | hle
        · exact hp
        · exact absurd hle (hnone p hp)
      have hu : Used done followed path :=
        ⟨.inr ⟨_, hmem, List.prefix_append path [name]⟩, hnone⟩
      rw [Heap.walk_snoc (hproj.walk_used hu), hproj.selected path name hu hmem]

theorem walk_nothing (hdone : ∀ p ∈ done, p ≠ [])
    {path : List Name} (hpath : ∀ p ∈ done, ¬ p <+: path) (hu : ¬ Used done followed path) :
    h.walk (.map (own [])) path = none := by
  induction path using List.reverseRecOn with
  | nil => exact absurd (used_nil hdone) hu
  | append_singleton path name ih =>
    have habove : ∀ p ∈ done, ¬ p <+: path := fun p hp hle =>
      hpath p hp (hle.trans (List.prefix_append path [name]))
    by_cases hu' : Used done followed path
    · have hmem : path ++ [name] ∉ done := fun hmem => hpath _ hmem List.prefix_rfl
      rw [Heap.walk_snoc (hproj.walk_used hu'), hproj.nothing path name hu' hmem hu]
    · rw [Heap.walk_append, ih habove hu']
      rfl

theorem walk_below (hclosed : h₀.Closed)
    (hsource : source.Below h₀.next) (hdone : ∀ p ∈ done, p ≠ []) {path : List Name} {a : Nat}
    (hwalk : h.walk (.map (own [])) path = some (.map a)) : a < h.next := by
  by_cases hsel : ∃ p ∈ done, p <+: path
  · rw [hproj.walk_selected hclosed hsource hdone hsel] at hwalk
    have hbelow := Heap.below_walk hclosed hsource hwalk
    exact Nat.lt_of_lt_of_le hbelow hproj.next_le
  · have hnone : ∀ p ∈ done, ¬ p <+: path := fun p hp hle => hsel ⟨p, hp, hle⟩
    by_cases hu : Used done followed path
    · rw [hproj.walk_used hu] at hwalk
      obtain rfl := Cell.map.inj (Option.some.inj hwalk)
      exact (hproj.fresh path hu).2
    · rw [hproj.walk_nothing hdone hnone hu] at hwalk
      cases hwalk

end

/-! ### One assignment -/

variable {names : List Name} {value : Cell ν}

theorem setOutputField_source (hsame : ∀ a name, a < h₀.next → h.get a name = h₀.get a name)
    (hclosed : h₀.Closed) {a : Nat} (ha : a < h₀.next) (hne : names ≠ [])
    (hvalue : h₀.walk (.map a) names = some value) :
    (setOutputField value h a names).next = h.next ∧
      ∀ b name, (setOutputField value h a names).get b name = h.get b name := by
  induction names generalizing a with
  | nil => exact absurd rfl hne
  | cons segment names ih =>
    rw [Heap.walk] at hvalue
    cases hget : h₀.get a segment with
    | none =>
      rw [hget] at hvalue
      cases hvalue
    | some c =>
      rw [hget] at hvalue
      have hcell : h.get a segment = some c := (hsame a segment ha).trans hget
      cases names with
      | nil =>
        -- the cell is the one that was read
        obtain rfl : c = value := Option.some.inj hvalue
        refine ⟨rfl, fun b name => ?_⟩
        rw [setOutputField, Heap.get_set]
        split
        · next heq =>
          obtain ⟨rfl, rfl⟩ := heq
          exact hcell.symm
        · rfl
      | cons segment' names =>
        cases c with
        | leaf l => cases hvalue
        | map next =>
          rw [setOutputField, hcell]
          exact ih (hclosed a segment _ ha hget) (List.cons_ne_nil _ _) hvalue

variable {name : Name}

theorem append_singleton_eq {path path' : List Name} {name' : Name}
    (h : path ++ [name] = path' ++ [name']) : path = path' ∧ name = name' := by
  obtain ⟨hpath, hname⟩ := List.append_inj' h rfl
  exact ⟨hpath, (List.cons.inj hname).1⟩

/-- The last segment: the cell goes into a map of the result. -/
theorem assign {path : List Name}
    (hproj : Projected h₀ h source done path own) (hu : Used done path path)
    (hvalue : h₀.walk source (path ++ [name]) = some value) :
    Projected h₀ (h.set (own path) name value) source (done ++ [path ++ [name]]) [] own := by
  -- what was above the path or beside it stays, what was below is left
  have hused : ∀ x, Used (done ++ [path ++ [name]]) [] x ↔
      Used done path x ∧ ¬ path ++ [name] <+: x := by
    intro x
    simp only [Used, List.mem_append, List.mem_singleton, List.prefix_nil]
    constructor
    · rintro ⟨habove, hnot⟩
      have hself : ¬ path ++ [name] <+: x := hnot _ (.inr rfl)
      refine ⟨⟨?_, fun p hp => hnot p (.inl hp)⟩, hself⟩
      rcases habove with rfl | ⟨p, hp | rfl, hle⟩
      · exact .inl List.nil_prefix
      · exact .inr ⟨p, hp, hle⟩
      · rcases List.prefix_concat_iff.1 hle with rfl | hle
        · exact absurd List.prefix_rfl hself
        · exact .inl hle
    · rintro ⟨⟨habove, hnot⟩, hself⟩
      refine ⟨.inr ?_, ?_⟩
      · rcases habove with hle | ⟨p, hp, hle⟩
        · exact ⟨_, .inr rfl, hle.trans (List.prefix_append path [name])⟩
        · exact ⟨p, .inl hp, hle⟩
      · rintro p (hp | rfl)
        · exact hnot p hp
        · exact hself
  have hget : ∀ x n, Used done path x → ¬ (x = path ∧ n = name) →
      (h.set (own path) name value).get (own x) n = h.get (own x) n := by
    intro x n hx hne
    rw [Heap.get_set, if_neg]
    rintro ⟨hown, hn⟩
    exact hne ⟨hproj.inj x path hx hu hown, hn⟩
  have hbound := hproj.fresh path hu
  refine ⟨hproj.next_le, fun a n ha => ?_, fun x hx => hproj.fresh x ((hused x).1 hx).1,
    fun x x' hx hx' => hproj.inj x x' ((hused x).1 hx).1 ((hused x').1 hx').1, ?_, ?_, ?_⟩
  · rw [Heap.get_set, if_neg (fun heq => by omega)]
    exact hproj.same a n ha
  · intro x n hx hmem
    have hx := ((hused x).1 hx).1
    by_cases heq : x = path ∧ n = name
    · obtain ⟨rfl, rfl⟩ := heq
      rw [Heap.get_set, if_pos ⟨rfl, rfl⟩, hvalue]
    · rw [hget x n hx heq]
      rcases List.mem_append.1 hmem with hmem | hmem
      · exact hproj.selected x n hx hmem
      · exact absurd (append_singleton_eq (List.mem_singleton.1 hmem)) heq
  · intro x n hx hx'
    have hx := ((hused x).1 hx).1
    obtain ⟨hx', hnot⟩ := (hused _).1 hx'
    have heq : ¬ (x = path ∧ n = name) := by
      rintro ⟨rfl, rfl⟩
      exact hnot List.prefix_rfl
    rw [hget x n hx heq]
    exact hproj.nested x n hx hx'
  · intro x n hx hmem hx'
    obtain ⟨hx, hnot⟩ := (hused x).1 hx
    have heq : ¬ (x = path ∧ n = name) := by
      rintro ⟨rfl, rfl⟩
      exact hmem (List.mem_append_right _ List.mem_cons_self)
    rw [hget x n hx heq]
    refine hproj.nothing x n hx (fun h => hmem (List.mem_append_left _ h)) fun hu' => ?_
    refine hx' ((hused _).2 ⟨hu', fun hle => ?_⟩)
    rcases List.prefix_concat_iff.1 hle with hsame | hle
    · exact heq (append_singleton_eq hsame.symm)
    · exact hnot hle

/-- The path goes through a selected one: nothing was changed, and nothing is selected that
    was not. -/
theorem through {path : List Name} (hne : names ≠ []) (hproj : Projected h₀ h source done path own)
    (hmem : path ++ [name] ∈ done) :
    Projected h₀ h source (done ++ [path ++ name :: names]) [] own := by
  have hlong : path ++ name :: names = (path ++ [name]) ++ names := by simp
  have hbelow : path ++ [name] <+: path ++ name :: names := hlong ▸ List.prefix_append _ names
  refine hproj.change (fun x => ?_) fun x n hx => ?_
  · simp only [Used, List.mem_append, List.mem_singleton, List.prefix_nil]
    constructor
    · rintro ⟨habove, hnot⟩
      refine ⟨?_, fun p hp => hnot p (.inl hp)⟩
      rcases habove with rfl | ⟨p, hp | rfl, hle⟩
      · exact .inl List.nil_prefix
      · exact .inr ⟨p, hp, hle⟩
      · rcases List.prefix_or_prefix_of_prefix hle hbelow with hle | hge
        · exact .inr ⟨_, hmem, hle⟩
        · exact absurd hge (hnot _ (.inl hmem))
    · rintro ⟨habove, hnot⟩
      refine ⟨.inr ?_, ?_⟩
      · rcases habove with hle | ⟨p, hp, hle⟩
        · exact ⟨_, .inr rfl, hle.trans (List.prefix_append _ _)⟩
        · exact ⟨p, .inl hp, hle⟩
      · rintro p (hp | rfl)
        · exact hnot p hp
        · exact fun hle => hnot _ hmem (hbelow.trans hle)
  · rw [List.mem_append, List.mem_singleton]
    refine or_iff_left ?_
    intro hsame
    rw [← hsame] at hbelow
    rcases List.prefix_concat_iff.1 hbelow with heq | hle
    · rw [heq, hsame] at hlong
      exact hne (List.append_right_eq_self.1 hlong.symm)
    · exact hx.2 _ hmem hle

/-- The next segment has a map already. -/
theorem follow {path : List Name} (hproj : Projected h₀ h source done path own)
    (hu : Used done path (path ++ [name])) :
    Projected h₀ h source done (path ++ [name]) own := by
  refine hproj.change (fun x => ?_) fun x n _ => Iff.rfl
  constructor
  · rintro ⟨habove, hnot⟩
    rcases habove with hle | habove
    · rcases List.prefix_concat_iff.1 hle with rfl | hle
      · exact hu
      · exact ⟨.inl hle, hnot⟩
    · exact ⟨.inr habove, hnot⟩
  · rintro ⟨habove, hnot⟩
    exact ⟨habove.imp_left fun hle => hle.trans (List.prefix_append path [name]), hnot⟩

theorem make {path : List Name} (hproj : Projected h₀ h source done path own)
    (hu : Used done path path) (hmem : path ++ [name] ∉ done)
    (hnot : ¬ Used done path (path ++ [name])) :
    Used done (path ++ [name]) (path ++ [name]) ∧
      Projected h₀ ((h.alloc []).set (own path) name (.map h.next)) source done (path ++ [name])
        fun x => if x = path ++ [name] then h.next else own x := by
  have hclear : ∀ p ∈ done, ¬ p <+: path ++ [name] := by
    intro p hp hle
    rcases List.prefix_concat_iff.1 hle with rfl | hle
    · exact hmem hp
    · exact hu.2 p hp hle
  have hself : Used done (path ++ [name]) (path ++ [name]) := ⟨.inl List.prefix_rfl, hclear⟩
  have hused : ∀ x, Used done (path ++ [name]) x → x ≠ path ++ [name] → Used done path x := by
    rintro x ⟨habove, hx⟩ hne
    refine ⟨habove.imp_left fun hle => ?_, hx⟩
    exact (List.prefix_concat_iff.1 hle).resolve_left hne
  have hbound := hproj.fresh path hu
  have hnew : ∀ n, ((h.alloc []).set (own path) name (.map h.next)).get h.next n = none := by
    intro n
    rw [Heap.get_set, if_neg (fun heq => by omega), Heap.get_alloc, if_pos rfl]
    rfl
  have hold : ∀ x n, Used done path x → ¬ (x = path ∧ n = name) →
      ((h.alloc []).set (own path) name (.map h.next)).get (own x) n = h.get (own x) n := by
    intro x n hx hne
    have hlt := (hproj.fresh x hx).2
    rw [Heap.get_set, if_neg, Heap.get_alloc, if_neg (by omega)]
    rintro ⟨hown, hn⟩
    exact hne ⟨hproj.inj x path hx hu hown, hn⟩
  have hle := hproj.next_le
  refine ⟨hself, ?_, ?_, ?_, ?_, ?_, ?_, ?_⟩
  · exact Nat.le_succ_of_le hle
  · intro a n ha
    rw [Heap.get_set, if_neg (fun heq => by omega), Heap.get_alloc, if_neg (by omega)]
    exact hproj.same a n ha
  · intro x hx
    show h₀.next ≤ (if _ then _ else _) ∧ (if _ then _ else _) < h.next + 1
    split
    · exact ⟨hle, Nat.lt_succ_self _⟩
    · next hne =>
      have hfresh := hproj.fresh x (hused x hx hne)
      exact ⟨hfresh.1, Nat.lt_succ_of_lt hfresh.2⟩
  · intro x x' hx hx' hown
    split at hown <;> split at hown
    · next heq heq' => rw [heq, heq']
    · next _ hne =>
      have hlt := (hproj.fresh x' (hused x' hx' hne)).2
      omega
    · next hne _ =>
      have hlt := (hproj.fresh x (hused x hx hne)).2
      omega
    · next hne hne' => exact hproj.inj x x' (hused x hx hne) (hused x' hx' hne') hown
  · intro x n hx hin
    have hne : x ≠ path ++ [name] := by
      rintro rfl
      exact hnot ⟨.inr ⟨_, hin, List.prefix_append _ [n]⟩, hclear⟩
    have hx := hused x hx hne
    have heq : ¬ (x = path ∧ n = name) := by
      rintro ⟨rfl, rfl⟩
      exact hmem hin
    rw [if_neg hne, hold x n hx heq]
    exact hproj.selected x n hx hin
  · intro x n hx hx'
    have hne : x ≠ path ++ [name] := by
      rintro rfl
      have hlonger : path ++ [name] ++ [n] ≠ path ++ [name] := fun heq => by
        have hlength := congrArg List.length heq
        simp at hlength
      exact hnot ((hused _ hx' hlonger).parent (List.prefix_append _ [n]))
    have hx := hused x hx hne
    rw [if_neg hne]
    by_cases heq : x = path ∧ n = name
    · obtain ⟨rfl, rfl⟩ := heq
      rw [if_pos rfl, Heap.get_set, if_pos ⟨rfl, rfl⟩]
    · have hne' : x ++ [n] ≠ path ++ [name] := fun hsame => heq (append_singleton_eq hsame)
      rw [if_neg hne', hold x n hx heq]
      exact hproj.nested x n hx (hused _ hx' hne')
  · intro x n hx hin hx'
    by_cases hne : x = path ++ [name]
    · rw [if_pos hne]
      exact hnew n
    · have hx := hused x hx hne
      have heq : ¬ (x = path ∧ n = name) := by
        rintro ⟨rfl, rfl⟩
        exact hx' hself
      rw [if_neg hne, hold x n hx heq]
      refine hproj.nothing x n hx hin fun hu' => hx' ?_
      exact ⟨hu'.1.imp_left fun hle => hle.trans (List.prefix_append path [name]), hu'.2⟩

theorem setOutputField_projected (hclosed : h₀.Closed) (hsource : source.Below h₀.next)
    (hne : names ≠ []) {path : List Name}
    (hproj : Projected h₀ h source done path own) (hu : Used done path path)
    (hvalue : h₀.walk source (path ++ names) = some value) :
    ∃ own', own' [] = own [] ∧
      Projected h₀ (setOutputField value h (own path) names) source (done ++ [path ++ names]) []
        own' := by
  induction names generalizing h own path with
  | nil => exact absurd rfl hne
  | cons name names ih =>
    cases names with
    | nil => exact ⟨own, rfl, hproj.assign hu hvalue⟩
    | cons name' names =>
      have hlong : path ++ name :: name' :: names = (path ++ [name]) ++ name' :: names := by simp
      have hrest : name' :: names ≠ [] := List.cons_ne_nil _ _
      rw [hlong] at hvalue ⊢
      by_cases hmem : path ++ [name] ∈ done
      · obtain ⟨a, ha⟩ := Heap.exists_map_of_walk hrest
          (by rw [hvalue]; exact Option.some_ne_none value)
        rw [Heap.walk_append, ha] at hvalue
        have hget : h.get (own path) name = some (.map a) :=
          (hproj.selected path name hu hmem).trans ha
        rw [setOutputField, hget]
        obtain ⟨hnext, hsame⟩ := setOutputField_source hproj.same hclosed
          (Heap.below_walk hclosed hsource ha) hrest hvalue
        exact ⟨own, rfl, hlong ▸ (hproj.through hrest hmem).congr hnext hsame⟩
      · by_cases hu' : Used done path (path ++ [name])
        · have hget := hproj.nested path name hu hu'
          rw [setOutputField, hget]
          have hnext := hproj.follow hu'
          exact ih hrest hnext ⟨.inl List.prefix_rfl, hu'.2⟩ hvalue
        · have hget := hproj.nothing path name hu hmem hu'
          obtain ⟨hself, hnext⟩ := hproj.make hu hmem hu'
          obtain ⟨own', hroot, hdone⟩ := ih hrest hnext hself hvalue
          rw [setOutputField, hget]
          refine ⟨own', ?_, ?_⟩
          · rw [hroot, if_neg (by simp)]
          · rw [if_pos rfl] at hdone
            exact hdone

end Projected

section Run

variable {h₀ h : Heap ν} {source : Cell ν} {own : List Name → Nat}

/-- The new map of the result. -/
theorem projected_alloc (h₀ : Heap ν) (source : Cell ν) :
    Projected h₀ (h₀.alloc []) source [] [] fun _ => h₀.next := by
  have hused : ∀ path, Used [] [] path → path = [] := by
    rintro path ⟨hle | ⟨p, hp, _⟩, _⟩
    · exact List.prefix_nil.1 hle
    · exact absurd hp List.not_mem_nil
  refine ⟨Nat.le_succ _, fun a name ha => ?_, fun path _ => ⟨Nat.le_refl _, Nat.lt_succ_self _⟩,
    fun path path' hu hu' _ => (hused path hu).trans (hused path' hu').symm,
    fun path name _ hin => absurd hin List.not_mem_nil, fun path name _ hu' => ?_,
    fun path name _ _ _ => ?_⟩
  · rw [Heap.get_alloc, if_neg (Nat.ne_of_lt ha)]
  · exact absurd (hused _ hu') (by simp)
  · rw [Heap.get_alloc, if_pos rfl]
    rfl

/-- The paths of the fields that exist in the source. -/
def existing (h₀ : Heap ν) (source : Cell ν) (fields : List (List UInt8)) : List (List Name) :=
  (fields.filter fun field => (h₀.walk source (segments field)).isSome).map segments

/-- What the loop leaves. -/
theorem selectFields_projected (hclosed : h₀.Closed) (hsource : source.Below h₀.next)
    {done : List (List Name)} (hdone : ∀ p ∈ done, p ≠ [])
    (hproj : Projected h₀ h source done [] own) (fields missing : List (List UInt8)) :
    ∃ own', own' [] = own [] ∧
      Projected h₀ (selectFields source (own []) fields h missing).1 source
        (done ++ existing h₀ source fields) [] own' ∧
      (selectFields source (own []) fields h missing).2 =
        missing ++ fields.filter fun field => (h₀.walk source (segments field)).isNone := by
  induction fields generalizing h own done missing with
  | nil =>
    refine ⟨own, rfl, ?_, (List.append_nil missing).symm⟩
    rw [existing, List.filter_nil, List.map_nil, List.append_nil]
    exact hproj
  | cons field fields ih =>
    have hlookup : lookupOutputField h source (segments field) =
        h₀.walk source (segments field) :=
      Heap.walk_congr hclosed hproj.same hsource _
    rw [selectFields, hlookup]
    cases hvalue : h₀.walk source (segments field) with
    | none =>
      obtain ⟨own', hroot, hproj', hmissing⟩ := ih hdone hproj (missing ++ [field])
      refine ⟨own', hroot, ?_, ?_⟩
      · rw [existing, List.filter_cons_of_neg (by rw [hvalue]; exact Bool.false_ne_true)]
        exact hproj'
      · rw [List.filter_cons_of_pos (by rw [hvalue]; rfl)]
        exact hmissing.trans (List.append_assoc _ _ _)
    | some value =>
      have hne := segments_ne_nil field
      obtain ⟨own₁, hroot₁, hproj₁⟩ := hproj.setOutputField_projected hclosed hsource hne
        (used_nil hdone) hvalue
      rw [List.nil_append] at hproj₁
      have hdone₁ : ∀ p ∈ done ++ [segments field], p ≠ [] := by
        intro p hp
        rcases List.mem_append.1 hp with hp | hp
        · exact hdone p hp
        · exact List.mem_singleton.1 hp ▸ hne
      obtain ⟨own', hroot, hproj', hmissing⟩ := ih hdone₁ hproj₁ missing
      rw [hroot₁] at hroot hproj' hmissing
      refine ⟨own', hroot, ?_, ?_⟩
      · have hexisting : existing h₀ source (field :: fields) =
            segments field :: existing h₀ source fields := by
          rw [existing, List.filter_cons_of_pos (by rw [hvalue]; rfl), List.map_cons, existing]
        have hsnoc : done ++ segments field :: existing h₀ source fields =
            done ++ [segments field] ++ existing h₀ source fields := List.append_cons _ _ _
        rw [hexisting, hsnoc]
        exact hproj'
      · rw [List.filter_cons_of_neg (by rw [hvalue]; exact Bool.false_ne_true)]
        exact hmissing

end Run

end CheatEngine.Cli
