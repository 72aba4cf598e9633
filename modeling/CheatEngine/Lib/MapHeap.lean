/-
  CheatEngine.Lib.MapHeap

  Maps in a heap.  A cell holds a leaf or a reference to a map, and one map may be
  referred to from several others, so that an assignment to a member is seen along
  every path to the map.

    * `walk` follows a path of names, `view` says what is seen at its end;
    * `store` writes a JSON value to the heap, every object as a map of its own;
    * `read` writes out what a cell stands for, with a bound on the depth; `encode`
      is an encoder, which gives up in a cycle.
-/
import Mathlib.Data.Fintype.Pigeonhole
import Mathlib.Tactic.WLOG
import CheatEngine.Lib.Json

namespace CheatEngine.Lib

/-- What a member or a variable holds. -/
inductive Cell (ν : Type) : Type
  | leaf (l : Leaf ν)
  | map (address : Nat)

/-- The maps that were made; the addresses from `next` on are free. -/
structure Heap (ν : Type) where
  next : Nat
  maps : Nat → List (Name × Cell ν)

/-- The member of a name replaced, or added at the end. -/
def setMember {α : Type} (name : Name) (value : α) : List (Name × α) → List (Name × α)
  | [] => [(name, value)]
  | (name', value') :: members =>
    if name = name' then (name, value) :: members
    else (name', value') :: setMember name value members

theorem lookup_setMember {α : Type} (name : Name) (value : α) (members : List (Name × α))
    (name' : Name) : (setMember name value members).lookup name' =
      if name' = name then some value else members.lookup name' := by
  induction members with
  | nil =>
    rw [setMember, List.lookup_cons]
    by_cases heq : name' = name
    · rw [if_pos heq, beq_iff_eq.2 heq]
    · rw [if_neg heq, beq_eq_false_iff_ne.2 heq]
  | cons m members ih =>
    obtain ⟨name'', value''⟩ := m
    rw [setMember]
    split
    · next hname =>
      subst hname
      rw [List.lookup_cons, List.lookup_cons]
      by_cases heq : name' = name
      · rw [if_pos heq, beq_iff_eq.2 heq]
      · rw [if_neg heq, beq_eq_false_iff_ne.2 heq]
    · next hname =>
      rw [List.lookup_cons, List.lookup_cons, ih]
      by_cases heq : name' = name''
      · have hne : name' ≠ name := fun h => hname (h.symm.trans heq)
        rw [beq_iff_eq.2 heq]
        exact (if_neg hne).symm
      · rw [beq_eq_false_iff_ne.2 heq]

variable {ν : Type}

namespace Cell

def node : Cell ν → Option (Leaf ν)
  | .leaf l => some l
  | .map _ => none

def Below (bound : Nat) : Cell ν → Prop
  | .leaf _ => True
  | .map a => a < bound

theorem Below.mono {c : Cell ν} {n m : Nat} (h : c.Below n) (hle : n ≤ m) : c.Below m := by
  cases c with
  | leaf l => trivial
  | map a => exact Nat.lt_of_lt_of_le h hle

end Cell

namespace Heap

def empty : Heap ν := ⟨0, fun _ => []⟩

def get (h : Heap ν) (a : Nat) (name : Name) : Option (Cell ν) := (h.maps a).lookup name

def set (h : Heap ν) (a : Nat) (name : Name) (c : Cell ν) : Heap ν :=
  { h with maps := fun b => if b = a then setMember name c (h.maps a) else h.maps b }

def alloc (h : Heap ν) (members : List (Name × Cell ν)) : Heap ν :=
  ⟨h.next + 1, fun b => if b = h.next then members else h.maps b⟩

theorem get_set (h : Heap ν) (a : Nat) (name : Name) (c : Cell ν) (b : Nat) (name' : Name) :
    (h.set a name c).get b name' =
      if b = a ∧ name' = name then some c else h.get b name' := by
  rw [get, get, set]
  by_cases hb : b = a
  · subst hb
    simp only [if_true, true_and, lookup_setMember]
  · simp only [hb, if_false, false_and]

theorem get_alloc (h : Heap ν) (members : List (Name × Cell ν)) (b : Nat) (name : Name) :
    (h.alloc members).get b name = if b = h.next then members.lookup name else h.get b name := by
  rw [get, get, alloc]
  by_cases hb : b = h.next
  · simp only [hb, if_true]
  · simp only [hb, if_false]

/-! ## Paths -/

def walk (h : Heap ν) : Cell ν → List Name → Option (Cell ν)
  | c, [] => some c
  | .leaf _, _ :: _ => none
  | .map a, name :: path =>
    match h.get a name with
    | some c => walk h c path
    | none => none

/-- What is seen at a path: nothing, an object or a leaf. -/
def view (h : Heap ν) (c : Cell ν) (path : List Name) : Option (Option (Leaf ν)) :=
  (h.walk c path).map Cell.node

/-- Every reference in a map is to a map that was made. -/
def Closed (h : Heap ν) : Prop :=
  ∀ a name c, a < h.next → h.get a name = some c → c.Below h.next

variable {h h' : Heap ν} {c : Cell ν}

attribute [local simp] walk

theorem walk_append (h : Heap ν) (c : Cell ν) (path path' : List Name) :
    h.walk c (path ++ path') = (h.walk c path).bind fun c' => h.walk c' path' := by
  induction path generalizing c with
  | nil => rfl
  | cons name path ih =>
    cases c with
    | leaf l => rfl
    | map a =>
      rw [List.cons_append, walk, walk]
      cases h.get a name with
      | none => rfl
      | some c => exact ih c

variable {a : Nat} {path : List Name}

/-- One more step. -/
theorem walk_snoc (hwalk : h.walk c path = some (.map a))
    (name : Name) : h.walk c (path ++ [name]) = h.get a name := by
  rw [walk_append, hwalk]
  show h.walk (.map a) [name] = _
  rw [walk]
  cases h.get a name with
  | none => rfl
  | some c => rfl

theorem exists_map_of_walk {path' : List Name} (hne : path' ≠ [])
    (hwalk : h.walk c (path ++ path') ≠ none) : ∃ a, h.walk c path = some (.map a) := by
  rw [walk_append] at hwalk
  cases hc : h.walk c path with
  | none =>
    rw [hc] at hwalk
    exact absurd rfl hwalk
  | some c' =>
    cases c' with
    | map a => exact ⟨a, rfl⟩
    | leaf l =>
      obtain ⟨name, rest, rfl⟩ := List.exists_cons_of_ne_nil hne
      rw [hc] at hwalk
      exact absurd rfl hwalk

/-- New maps are not seen through old cells. -/
theorem walk_congr (hclosed : h.Closed)
    (hsame : ∀ a name, a < h.next → h'.get a name = h.get a name) (hc : c.Below h.next)
    (path : List Name) : h'.walk c path = h.walk c path := by
  induction path generalizing c with
  | nil => rfl
  | cons name path ih =>
    cases c with
    | leaf l => rfl
    | map a =>
      rw [walk, walk, hsame a name hc]
      cases hget : h.get a name with
      | none => rfl
      | some c => exact ih (hclosed a name c hc hget)

theorem below_walk (hclosed : h.Closed) (hc : c.Below h.next) {c' : Cell ν}
    (hwalk : h.walk c path = some c') : c'.Below h.next := by
  induction path generalizing c with
  | nil =>
    obtain rfl := Option.some.inj hwalk
    exact hc
  | cons name path ih =>
    cases c with
    | leaf l => cases hwalk
    | map a =>
      rw [walk] at hwalk
      cases hget : h.get a name with
      | none =>
        rw [hget] at hwalk
        cases hwalk
      | some c =>
        rw [hget] at hwalk
        exact ih (hclosed a name c hc hget) hwalk

/-! ## Writing a value to the heap -/

mutual

/-- The objects of a value get maps, the inner ones first. -/
def store (h : Heap ν) : Json ν → Heap ν × Cell ν
  | .leaf l => (h, .leaf l)
  | .object members =>
    let stored := storeMembers h members
    (stored.1.alloc stored.2, .map stored.1.next)

def storeMembers (h : Heap ν) : List (Name × Json ν) → Heap ν × List (Name × Cell ν)
  | [] => (h, [])
  | (name, t) :: members =>
    let first := store h t
    let rest := storeMembers first.1 members
    (rest.1, (name, first.2) :: rest.2)

end

/-- A heap that only got new maps. -/
structure Grown (h h' : Heap ν) : Prop where
  next_le : h.next ≤ h'.next
  same : ∀ a name, a < h.next → h'.get a name = h.get a name
  closed : h'.Closed

theorem Grown.trans {h'' : Heap ν} (hg : Grown h h') (hg' : Grown h' h'') : Grown h h'' :=
  ⟨Nat.le_trans hg.next_le hg'.next_le,
    fun a name ha =>
      (hg'.same a name (Nat.lt_of_lt_of_le ha hg.next_le)).trans (hg.same a name ha),
    hg'.closed⟩

/-- A cell stands for a value. -/
def Shows (h : Heap ν) (c : Cell ν) (t : Json ν) : Prop :=
  c.Below h.next ∧ ∀ path, h.view c path = t.view path

variable {t : Json ν}

theorem Shows.grown (hshows : h.Shows c t) (hclosed : h.Closed) (hg : Grown h h') :
    h'.Shows c t := by
  refine ⟨hshows.1.mono hg.next_le, fun path => ?_⟩
  rw [view, walk_congr hclosed hg.same hshows.1]
  exact hshows.2 path

theorem shows_alloc {cells : List (Name × Cell ν)} {members : List (Name × Json ν)}
    (hclosed : h.Closed)
    (hcells : ∀ name, Option.Rel (h.Shows) (cells.lookup name) (members.lookup name)) :
    Grown h (h.alloc cells) ∧ (h.alloc cells).Shows (.map h.next) (.object members) := by
  have hold : ∀ a name, a < h.next → (h.alloc cells).get a name = h.get a name := by
    intro a name ha
    rw [get_alloc, if_neg (Nat.ne_of_lt ha)]
  have hnew : ∀ name, (h.alloc cells).get h.next name = cells.lookup name := by
    intro name
    rw [get_alloc, if_pos rfl]
  have hg : Grown h (h.alloc cells) := by
    refine ⟨Nat.le_succ _, hold, fun a name c ha hget => ?_⟩
    rcases Nat.lt_succ_iff_lt_or_eq.1 ha with hlt | rfl
    · rw [hold a name hlt] at hget
      exact (hclosed a name c hlt hget).mono (Nat.le_succ _)
    · rw [hnew] at hget
      have hrel := hcells name
      rw [hget] at hrel
      cases hmember : members.lookup name with
      | none =>
        rw [hmember] at hrel
        cases hrel
      | some t =>
        rw [hmember] at hrel
        cases hrel with
        | some hshows => exact hshows.1.mono (Nat.le_succ _)
  refine ⟨hg, Nat.lt_succ_self _, fun path => ?_⟩
  cases path with
  | nil => rfl
  | cons name path =>
    rw [view, walk, hnew, Json.view, Json.get, Json.child]
    have hrel := hcells name
    cases hcell : cells.lookup name <;> cases hmember : members.lookup name <;>
      rw [hcell, hmember] at hrel <;> cases hrel
    · rfl
    · next c t hshows => exact (hshows.grown hclosed hg).2 path

mutual

theorem store_spec : (t : Json ν) → (h : Heap ν) → h.Closed →
    Grown h (store h t).1 ∧ (store h t).1.Shows (store h t).2 t
  | .leaf l, h, hclosed => by
    refine ⟨⟨Nat.le_refl _, fun _ _ _ => rfl, hclosed⟩, trivial, fun path => ?_⟩
    cases path <;> rfl
  | .object members, h, hclosed => by
    obtain ⟨hg, hcells⟩ := storeMembers_spec members h hclosed
    obtain ⟨hg', hshows⟩ := shows_alloc hg.closed hcells
    exact ⟨hg.trans hg', hshows⟩

theorem storeMembers_spec : (members : List (Name × Json ν)) → (h : Heap ν) → h.Closed →
    Grown h (storeMembers h members).1 ∧
      ∀ name, Option.Rel (storeMembers h members).1.Shows
        ((storeMembers h members).2.lookup name) (members.lookup name)
  | [], h, hclosed => ⟨⟨Nat.le_refl _, fun _ _ _ => rfl, hclosed⟩, fun _ => .none⟩
  | (name', t) :: members, h, hclosed => by
    obtain ⟨hg, hshows⟩ := store_spec t h hclosed
    obtain ⟨hg', hcells⟩ := storeMembers_spec members (store h t).1 hg.closed
    refine ⟨hg.trans hg', fun name => ?_⟩
    show Option.Rel _ (((name', (store h t).2) :: (storeMembers (store h t).1 members).2).lookup name)
      _
    rw [List.lookup_cons, List.lookup_cons]
    cases name == name' with
    | true => exact .some (hshows.grown hg.closed hg')
    | false => exact hcells name

end

/-! ## Writing out what a cell stands for -/

/-- The members that could be written out, if all could. -/
def readMembers (value : Name → Option (Json ν)) : List Name → Option (List (Name × Json ν))
  | [] => some []
  | name :: names =>
    match value name, readMembers value names with
    | some t, some members => some ((name, t) :: members)
    | _, _ => none

/-- The value of a cell with at most `depth` maps inside each other. -/
def read (h : Heap ν) : Nat → Cell ν → Option (Json ν)
  | _, .leaf l => some (.leaf l)
  | 0, .map _ => none
  | depth + 1, .map a =>
    (readMembers (fun name => (h.get a name).bind (read h depth)) ((h.maps a).map Prod.fst)).map
      .object

theorem get_ne_none_iff {name : Name} :
    h.get a name ≠ none ↔ name ∈ (h.maps a).map Prod.fst := by
  rw [get, ne_eq, List.lookup_eq_none_iff]
  simp only [List.mem_map]
  constructor
  · intro hne
    by_contra hmem
    refine hne fun p hp => ?_
    rw [bne_iff_ne]
    rintro rfl
    exact hmem ⟨p, hp, rfl⟩
  · rintro ⟨p, hp, rfl⟩ hall
    exact bne_iff_ne.1 (hall p hp) rfl

theorem lookup_readMembers {value : Name → Option (Json ν)} {names : List Name}
    {members : List (Name × Json ν)} (hread : readMembers value names = some members)
    (name : Name) : (name ∈ names → ∃ t, value name = some t ∧ members.lookup name = some t) ∧
      (name ∉ names → members.lookup name = none) := by
  induction names generalizing members with
  | nil =>
    obtain rfl := Option.some.inj hread
    exact ⟨fun hmem => absurd hmem List.not_mem_nil, fun _ => rfl⟩
  | cons name' names ih =>
    rw [readMembers] at hread
    split at hread
    · next t rest hvalue hrest =>
      obtain rfl := Option.some.inj hread
      rw [List.lookup_cons]
      by_cases heq : name = name'
      · subst heq
        rw [beq_self_eq_true]
        exact ⟨fun _ => ⟨t, hvalue, rfl⟩, fun hnot => absurd List.mem_cons_self hnot⟩
      · rw [beq_eq_false_iff_ne.2 heq, List.mem_cons, or_iff_right heq]
        exact ih hrest
    · cases hread

theorem readMembers_isSome {value : Name → Option (Json ν)} {names : List Name}
    (hvalue : ∀ name ∈ names, (value name).isSome) : (readMembers value names).isSome := by
  induction names with
  | nil => rfl
  | cons name names ih =>
    obtain ⟨t, ht⟩ := Option.isSome_iff_exists.1 (hvalue name List.mem_cons_self)
    obtain ⟨members, hmembers⟩ := Option.isSome_iff_exists.1
      (ih fun name' h' => hvalue name' (List.mem_cons_of_mem _ h'))
    rw [readMembers, ht, hmembers]
    rfl

/-- What is written out is what is seen. -/
theorem view_read {depth : Nat} (hread : h.read depth c = some t) (path : List Name) :
    t.view path = h.view c path := by
  induction path generalizing depth c t with
  | nil =>
    cases c with
    | leaf l =>
      have ht : t = .leaf l := by
        cases depth <;> exact (Option.some.inj hread).symm
      rw [ht]
      rfl
    | map a =>
      cases depth with
      | zero => cases hread
      | succ depth =>
        obtain ⟨members, -, rfl⟩ := Option.map_eq_some_iff.1 hread
        rfl
  | cons name path ih =>
    cases c with
    | leaf l =>
      have ht : t = .leaf l := by
        cases depth <;> exact (Option.some.inj hread).symm
      rw [ht]
      rfl
    | map a =>
      cases depth with
      | zero => cases hread
      | succ depth =>
        obtain ⟨members, hmembers, rfl⟩ := Option.map_eq_some_iff.1 hread
        obtain ⟨hin, hout⟩ := lookup_readMembers hmembers name
        rw [Json.view, Json.get, Json.child, view, walk]
        cases hget : h.get a name with
        | none =>
          have hmem : name ∉ (h.maps a).map Prod.fst := fun hmem =>
            get_ne_none_iff.2 hmem hget
          rw [hout hmem]
          rfl
        | some c =>
          have hmem : name ∈ (h.maps a).map Prod.fst :=
            get_ne_none_iff.1 (by rw [hget]; exact Option.some_ne_none c)
          obtain ⟨t, ht, hlookup⟩ := hin hmem
          rw [hget] at ht
          rw [hlookup]
          exact ih ht

theorem read_isSome {depth : Nat} (hdepth : ∀ path, h.walk c path ≠ none → path.length ≤ depth) :
    (h.read (depth + 1) c).isSome := by
  induction depth generalizing c with
  | zero =>
    cases c with
    | leaf l => rfl
    | map a =>
      rw [read, Option.isSome_map]
      refine readMembers_isSome fun name hmem => ?_
      -- a member would be a path of length one
      have hget := get_ne_none_iff.2 hmem
      have hwalk : h.walk (.map a) [name] ≠ none := by
        rw [walk]
        cases hc : h.get a name with
        | none => exact absurd hc hget
        | some c => exact Option.some_ne_none c
      exact absurd (hdepth [name] hwalk) (Nat.not_succ_le_zero 0)
  | succ depth ih =>
    cases c with
    | leaf l => rfl
    | map a =>
      rw [read, Option.isSome_map]
      refine readMembers_isSome fun name hmem => ?_
      have hget := get_ne_none_iff.2 hmem
      cases hc : h.get a name with
      | none => exact absurd hc hget
      | some c =>
        rw [Option.bind_some]
        refine ih fun path hwalk => ?_
        have hlong : h.walk (.map a) (name :: path) ≠ none := by
          rw [walk, hc]
          exact hwalk
        exact Nat.le_of_succ_le_succ (hdepth (name :: path) hlong)

/-- What a cell stands for. An encoder that has gone through more maps than there are is in
    a cycle, and gives up. -/
def encode (h : Heap ν) (c : Cell ν) : Option (Json ν) := h.read (h.next + 1) c

theorem view_encode (hencode : h.encode c = some t) (path : List Name) :
    t.view path = h.view c path :=
  view_read hencode path

theorem walk_cycle {loop : List Name} (hloop : h.walk (.map a) loop = some (.map a))
    (k : Nat) : h.walk (.map a) (List.replicate k loop).flatten = some (.map a) := by
  induction k with
  | zero => rfl
  | succ k ih =>
    rw [List.replicate_succ, List.flatten_cons, walk_append, hloop]
    exact ih

theorem length_le_next {bound : Nat} (hbound : ∀ path, h.walk c path ≠ none → path.length ≤ bound)
    (hmaps : ∀ path a, h.walk c path = some (.map a) → a < h.next)
    (hpath : h.walk c path ≠ none) : path.length ≤ h.next := by
  by_contra hlong
  rw [Nat.not_le] at hlong
  have hmap : ∀ i : Fin path.length, ∃ a, h.walk c (path.take i) = some (.map a) := by
    intro i
    have hrest : path.drop i ≠ [] := fun hnil => Nat.not_le.2 i.2 (List.drop_eq_nil_iff.1 hnil)
    have hwhole : h.walk c (path.take i ++ path.drop i) ≠ none := by
      rwa [List.take_append_drop]
    exact exists_map_of_walk hrest hwhole
  choose address haddress using hmap
  -- two beginnings of the path end in one map
  obtain ⟨i, j, hne, heq⟩ := Fintype.exists_ne_map_eq_of_card_lt
    (fun i => (⟨address i, hmaps _ _ (haddress i)⟩ : Fin h.next))
    (by rwa [Fintype.card_fin, Fintype.card_fin])
  wlog hlt : i < j generalizing i j
  · exact this j i hne.symm heq.symm (lt_of_le_of_ne (not_lt.1 hlt) hne.symm)
  have hsame : address i = address j := congrArg Fin.val heq
  -- what lies between them leads back to it
  have hsplit : path.take j = path.take i ++ (path.take j).drop i := by
    conv_lhs => rw [← List.take_append_drop i (path.take j), List.take_take, Nat.min_eq_left hlt.le]
  have hloop : h.walk (.map (address i)) ((path.take j).drop i) = some (.map (address i)) := by
    have hwalk := haddress j
    rw [hsplit, walk_append, haddress i, ← hsame] at hwalk
    exact hwalk
  have hpos : 0 < ((path.take j).drop i).length := by
    rw [List.length_drop, List.length_take, Nat.min_eq_left j.2.le]
    exact Nat.sub_pos_of_lt hlt
  have hround := hbound (path.take i ++ (List.replicate (bound + 1) ((path.take j).drop i)).flatten) (by
    rw [walk_append, haddress i, Option.bind_some, walk_cycle hloop]
    exact Option.some_ne_none _)
  have hlength : bound + 1 ≤ (List.replicate (bound + 1) ((path.take j).drop i)).flatten.length := by
    rw [List.length_flatten, List.map_replicate, List.sum_replicate_nat]
    exact Nat.le_mul_of_pos_right _ hpos
  rw [List.length_append] at hround
  omega

/-- What has no cycle is written out. -/
theorem encode_isSome {bound : Nat} (hbound : ∀ path, h.walk c path ≠ none → path.length ≤ bound)
    (hmaps : ∀ path a, h.walk c path = some (.map a) → a < h.next) : (h.encode c).isSome :=
  read_isSome fun _ hpath => length_le_next hbound hmaps hpath

end Heap

end CheatEngine.Lib
