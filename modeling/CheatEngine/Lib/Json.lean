/-
  CheatEngine.Lib.Json

  JSON values with numbers of any type, and maps as a garbage-collected language has
  them: an object is a reference into a heap, and a reference may be stored in
  several maps.

  A value is looked at by the paths of names into it.  `Json.get` follows a path in
  a tree and `Heap.walk` in a heap; `store` writes a tree to the heap, and `read`
  writes out what a reference stands for, as an encoder does.  Two objects that
  agree at every path are one JSON object up to the order of its members.
-/
import Mathlib.Data.List.Basic

namespace CheatEngine.Lib

abbrev Name := List UInt8

mutual

/-- A value that is no object. A string is the list of its runes. -/
inductive Leaf (ν : Type) : Type
  | null
  | bool (b : Bool)
  | number (n : ν)
  | string (runes : List Nat)
  | array (items : List (Json ν))

/-- A JSON value. Each name of an object stands for its first member of that name. -/
inductive Json (ν : Type) : Type
  | leaf (l : Leaf ν)
  | object (members : List (Name × Json ν))

end

variable {ν μ : Type}

namespace Json

def child : Json ν → Name → Option (Json ν)
  | .leaf _, _ => none
  | .object members, name => members.lookup name

def get : Json ν → List Name → Option (Json ν)
  | t, [] => some t
  | t, name :: path =>
    match t.child name with
    | some t' => get t' path
    | none => none

def node : Json ν → Option (Leaf ν)
  | .leaf l => some l
  | .object _ => none

/-- What is seen at a path: nothing, an object or a leaf. -/
def view (t : Json ν) (path : List Name) : Option (Option (Leaf ν)) := (t.get path).map node

theorem get_append (t : Json ν) (path path' : List Name) :
    t.get (path ++ path') = (t.get path).bind fun t' => t'.get path' := by
  induction path generalizing t with
  | nil => rfl
  | cons name path ih =>
    rw [List.cons_append, get, get]
    cases t.child name with
    | none => rfl
    | some t' => exact ih t'

end Json

/-! ## Numbers -/

mutual

/-- Every number replaced. -/
def Leaf.map (f : ν → μ) : Leaf ν → Leaf μ
  | .null => .null
  | .bool b => .bool b
  | .number n => .number (f n)
  | .string runes => .string runes
  | .array items => .array (mapItems f items)

def Json.map (f : ν → μ) : Json ν → Json μ
  | .leaf l => .leaf (l.map f)
  | .object members => .object (mapMembers f members)

def mapItems (f : ν → μ) : List (Json ν) → List (Json μ)
  | [] => []
  | t :: items => t.map f :: mapItems f items

def mapMembers (f : ν → μ) : List (Name × Json ν) → List (Name × Json μ)
  | [] => []
  | (name, t) :: members => (name, t.map f) :: mapMembers f members

end

mutual

/-- The numbers of a value, from left to right. -/
def Leaf.numbers : Leaf ν → List ν
  | .number n => [n]
  | .array items => itemNumbers items
  | _ => []

def Json.numbers : Json ν → List ν
  | .leaf l => l.numbers
  | .object members => memberNumbers members

def itemNumbers : List (Json ν) → List ν
  | [] => []
  | t :: items => t.numbers ++ itemNumbers items

def memberNumbers : List (Name × Json ν) → List ν
  | [] => []
  | (_, t) :: members => t.numbers ++ memberNumbers members

end

theorem lookup_mapMembers (f : ν → μ) (members : List (Name × Json ν)) (name : Name) :
    (mapMembers f members).lookup name = (members.lookup name).map (Json.map f) := by
  induction members with
  | nil => rfl
  | cons m members ih =>
    obtain ⟨name', t⟩ := m
    rw [mapMembers, List.lookup_cons, List.lookup_cons]
    cases name == name' with
    | true => rfl
    | false => exact ih

/-- Replacing numbers does not move anything. -/
theorem Json.get_map (f : ν → μ) (t : Json ν) (path : List Name) :
    (t.map f).get path = (t.get path).map (Json.map f) := by
  induction path generalizing t with
  | nil => rfl
  | cons name path ih =>
    have hchild : (t.map f).child name = (t.child name).map (Json.map f) := by
      cases t with
      | leaf l => rfl
      | object members => exact lookup_mapMembers f members name
    rw [get, get, hchild]
    cases t.child name with
    | none => rfl
    | some t' => exact ih t'

theorem Json.view_map (f : ν → μ) (t : Json ν) (path : List Name) :
    (t.map f).view path = (t.view path).map (Option.map (Leaf.map f)) := by
  rw [view, view, get_map, Option.map_map, Option.map_map]
  congr 1
  funext t'
  cases t' <;> rfl

/-! One replacement after the other. -/

mutual

variable {κ : Type}

theorem Leaf.map_map (f : ν → μ) (g : μ → κ) :
    (l : Leaf ν) → (l.map f).map g = l.map fun n => g (f n)
  | .null => rfl
  | .bool _ => rfl
  | .number _ => rfl
  | .string _ => rfl
  | .array items => congrArg Leaf.array (mapItems_mapItems f g items)

theorem Json.map_map (f : ν → μ) (g : μ → κ) :
    (t : Json ν) → (t.map f).map g = t.map fun n => g (f n)
  | .leaf l => congrArg Json.leaf (Leaf.map_map f g l)
  | .object members => congrArg Json.object (mapMembers_mapMembers f g members)

theorem mapItems_mapItems (f : ν → μ) (g : μ → κ) :
    (items : List (Json ν)) → mapItems g (mapItems f items) = mapItems (fun n => g (f n)) items
  | [] => rfl
  | t :: items => by
    rw [mapItems, mapItems, mapItems, Json.map_map f g t, mapItems_mapItems f g items]

theorem mapMembers_mapMembers (f : ν → μ) (g : μ → κ) :
    (members : List (Name × Json ν)) →
      mapMembers g (mapMembers f members) = mapMembers (fun n => g (f n)) members
  | [] => rfl
  | (name, t) :: members => by
    rw [mapMembers, mapMembers, mapMembers, Json.map_map f g t,
      mapMembers_mapMembers f g members]

end

/-! Two replacements are the same where they agree on the numbers. -/

mutual

variable {f g : ν → μ}

theorem Leaf.map_eq_map_iff :
    (l : Leaf ν) → (l.map f = l.map g ↔ ∀ n ∈ l.numbers, f n = g n)
  | .null => by simp [Leaf.map, Leaf.numbers]
  | .bool b => by simp [Leaf.map, Leaf.numbers]
  | .number n => by simp [Leaf.map, Leaf.numbers]
  | .string runes => by simp [Leaf.map, Leaf.numbers]
  | .array items => by
    rw [Leaf.map, Leaf.map, Leaf.numbers, Leaf.array.injEq]
    exact mapItems_eq_iff items

theorem Json.map_eq_map_iff :
    (t : Json ν) → (t.map f = t.map g ↔ ∀ n ∈ t.numbers, f n = g n)
  | .leaf l => by
    rw [Json.map, Json.map, Json.numbers, Json.leaf.injEq]
    exact Leaf.map_eq_map_iff l
  | .object members => by
    rw [Json.map, Json.map, Json.numbers, Json.object.injEq]
    exact mapMembers_eq_iff members

theorem mapItems_eq_iff :
    (items : List (Json ν)) → (mapItems f items = mapItems g items ↔
      ∀ n ∈ itemNumbers items, f n = g n)
  | [] => by simp [mapItems, itemNumbers]
  | t :: items => by
    rw [mapItems, mapItems, itemNumbers, List.cons.injEq, Json.map_eq_map_iff t,
      mapItems_eq_iff items, List.forall_mem_append]

theorem mapMembers_eq_iff :
    (members : List (Name × Json ν)) → (mapMembers f members = mapMembers g members ↔
      ∀ n ∈ memberNumbers members, f n = g n)
  | [] => by simp [mapMembers, memberNumbers]
  | (name, t) :: members => by
    rw [mapMembers, mapMembers, memberNumbers, List.cons.injEq, Prod.mk.injEq,
      Json.map_eq_map_iff t, mapMembers_eq_iff members, List.forall_mem_append]
    simp

end

/-! The numbers of a value whose numbers were replaced. -/

mutual

theorem Leaf.numbers_map (f : ν → μ) : (l : Leaf ν) → (l.map f).numbers = l.numbers.map f
  | .null => rfl
  | .bool _ => rfl
  | .number _ => rfl
  | .string _ => rfl
  | .array items => itemNumbers_map f items

theorem Json.numbers_map (f : ν → μ) : (t : Json ν) → (t.map f).numbers = t.numbers.map f
  | .leaf l => Leaf.numbers_map f l
  | .object members => memberNumbers_map f members

theorem itemNumbers_map (f : ν → μ) :
    (items : List (Json ν)) → itemNumbers (mapItems f items) = (itemNumbers items).map f
  | [] => rfl
  | t :: items => by
    rw [mapItems, itemNumbers, itemNumbers, Json.numbers_map f t, itemNumbers_map f items,
      List.map_append]

theorem memberNumbers_map (f : ν → μ) :
    (members : List (Name × Json ν)) →
      memberNumbers (mapMembers f members) = (memberNumbers members).map f
  | [] => rfl
  | (_, t) :: members => by
    rw [mapMembers, memberNumbers, memberNumbers, Json.numbers_map f t,
      memberNumbers_map f members, List.map_append]

end

theorem memberNumbers_append (members members' : List (Name × Json ν)) :
    memberNumbers (members ++ members') = memberNumbers members ++ memberNumbers members' := by
  induction members with
  | nil => rfl
  | cons m members ih =>
    obtain ⟨name, t⟩ := m
    rw [List.cons_append, memberNumbers, memberNumbers, ih, List.append_assoc]

theorem numbers_lookup {members : List (Name × Json ν)} {name : Name} {t : Json ν}
    (h : members.lookup name = some t) : ∀ n ∈ t.numbers, n ∈ memberNumbers members := by
  induction members with
  | nil => cases h
  | cons m members ih =>
    obtain ⟨name', t'⟩ := m
    intro n hn
    rw [memberNumbers, List.mem_append]
    rw [List.lookup_cons] at h
    cases hname : name == name' with
    | true =>
      rw [hname] at h
      exact .inl (Option.some.inj h ▸ hn)
    | false =>
      rw [hname] at h
      exact .inr (ih h n hn)

theorem Json.numbers_get {t t' : Json ν} {path : List Name} (h : t.get path = some t') :
    ∀ n ∈ t'.numbers, n ∈ t.numbers := by
  induction path generalizing t with
  | nil =>
    obtain rfl := Option.some.inj h
    exact fun n hn => hn
  | cons name path ih =>
    rw [get] at h
    cases t with
    | leaf l => cases h
    | object members =>
      cases hchild : members.lookup name with
      | none =>
        rw [child, hchild] at h
        cases h
      | some t'' =>
        rw [child, hchild] at h
        exact fun n hn => numbers_lookup hchild n (ih h n hn)

/-! Paths into a value are not longer than some bound. -/

mutual

theorem Json.exists_depth :
    (t : Json ν) → ∃ depth, ∀ path, t.get path ≠ none → path.length ≤ depth
  | .leaf l => by
    refine ⟨0, fun path hpath => ?_⟩
    cases path with
    | nil => exact Nat.le_refl 0
    | cons name path => exact absurd rfl hpath
  | .object members => by
    obtain ⟨depth, hdepth⟩ := exists_memberDepth members
    refine ⟨depth + 1, fun path hpath => ?_⟩
    cases path with
    | nil => exact Nat.zero_le _
    | cons name path =>
      rw [Json.get, Json.child] at hpath
      cases hchild : members.lookup name with
      | none =>
        rw [hchild] at hpath
        exact absurd rfl hpath
      | some t =>
        rw [hchild] at hpath
        exact Nat.succ_le_succ (hdepth name t hchild path hpath)

theorem exists_memberDepth : (members : List (Name × Json ν)) →
    ∃ depth, ∀ name t, members.lookup name = some t → ∀ path, t.get path ≠ none →
      path.length ≤ depth
  | [] => ⟨0, fun _ _ hchild => by cases hchild⟩
  | (name', t') :: members => by
    obtain ⟨first, hfirst⟩ := Json.exists_depth t'
    obtain ⟨rest, hrest⟩ := exists_memberDepth members
    refine ⟨max first rest, fun name t hchild path hpath => ?_⟩
    rw [List.lookup_cons] at hchild
    cases hname : name == name' with
    | true =>
      rw [hname] at hchild
      obtain rfl := Option.some.inj hchild
      exact Nat.le_trans (hfirst path hpath) (Nat.le_max_left _ _)
    | false =>
      rw [hname] at hchild
      exact Nat.le_trans (hrest name t hchild path hpath) (Nat.le_max_right _ _)

end

end CheatEngine.Lib
