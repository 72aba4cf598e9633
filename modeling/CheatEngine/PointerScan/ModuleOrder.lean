/-
  CheatEngine.PointerScan.ModuleOrder

  The modules of a saved pointer map in the order of a reference list (pointeraddresslist.pas),
  so that the module numbers of the results lead to the addresses that the map has for them.
  Each name is searched in the list as it stands, where a name that was settled before is
  found again, and moved away, when it comes a second time.
-/
import CheatEngine.Lib.ExchangeSort
import CheatEngine.PointerScan.ResultEntries

namespace CheatEngine.PointerScan

/-- `modulelist` and `modulebases`, which have the same length. -/
abbrev Modules : Type := List (String × UInt64)

section Model

variable (fold : String → String)

/-- `IndexOf` of a list that is not case sensitive: `fold` is what names have in common that
    are equal without case. -/
def indexOf (modules : Modules) (name : String) : Option Nat :=
  modules.findIdx? fun m => fold m.1 = fold name

/-- One round of `reorderModuleIdList`. -/
def place (modules : Modules) (i : Nat) (name : String) : Modules :=
  let (modules, oldindex) := match indexOf fold modules name with
    | some oldindex => (modules, oldindex)
    | none => (modules ++ [(name, 0)], modules.length)
  match modules[oldindex]?, modules[i]? with
  | some old, some m =>
    if oldindex ≠ i then (modules.set oldindex m).set i old else modules
  | _, _ => modules

def placeAll : Nat → List String → Modules → Modules
  | _, [], modules => modules
  | i, name :: ml, modules => placeAll (i + 1) ml (place fold modules i name)

def reorderModuleIdList (modules : Modules) (ml : List String) : Modules :=
  placeAll fold 0 ml (modules ++ List.replicate (ml.length - modules.length) ("missing", 0))

/-- A base that the map has for a module with this name, or 0 if it has none. -/
def BaseOf (modules : Modules) (name : String) (base : UInt64) : Prop :=
  (∃ m ∈ modules, fold m.1 = fold name ∧ m.2 = base) ∨
    (∀ m ∈ modules, fold m.1 ≠ fold name) ∧ base = 0

/-- Each number leads to the base of the module in the reference list. -/
def Reorders (modules : Modules) (ml : List String) : Prop :=
  ∀ (l : RescanList) (i : Nat) (name : String),
    l.modulebases = (reorderModuleIdList fold modules ml).map Prod.snd → ml[i]? = some name →
      BaseOf fold modules name (l.getAddressFromModuleIndexPlusOffset i 0)

/-- No name comes twice in the reference list, and where the map has a module with the name of
    the fillers there are none. -/
structure Unambiguous (modules : Modules) (ml : List String) : Prop where
  nodup : (ml.map fold).Nodup
  noFillers : (∃ m ∈ modules, fold m.1 = fold "missing") → fold "missing" ∈ ml.map fold →
    ml.length ≤ modules.length

end Model

/-! ## What a round leaves -/

variable {fold : String → String} {modules cur : Modules} {ml done added : List String}
  {name : String} {m : String × UInt64}

/-- What the map had is there, what else is there has base 0 and is a filler or was added, and
    the names that are done are settled. -/
structure Placed (fold : String → String) (modules : Modules) (ml added done : List String)
    (cur : Modules) : Prop where
  kept : ∀ m ∈ modules, m ∈ cur
  origin : ∀ m : String × UInt64, m ∈ cur → m ∈ modules ∨ m.2 = 0 ∧
    (m.1 = "missing" ∧ modules.length < ml.length ∨ m.1 ∈ added)
  settled : ∀ (k : Nat) (name : String), done[k]? = some name →
    ∃ m : String × UInt64, cur[k]? = some m ∧ fold m.1 = fold name ∧ BaseOf fold modules name m.2
  room : ml.length ≤ cur.length

theorem Placed.start : Placed fold modules ml [] []
    (modules ++ List.replicate (ml.length - modules.length) ("missing", 0)) where
  kept m hm := List.mem_append_left _ hm
  origin m hm := by
    rcases List.mem_append.1 hm with hm | hm
    · exact .inl hm
    · obtain ⟨hne, rfl⟩ := List.mem_replicate.1 hm
      exact .inr ⟨rfl, .inl ⟨rfl, by omega⟩⟩
  settled k name hk := by cases hk
  room := by
    rw [List.length_append, List.length_replicate]
    omega

theorem Placed.append (h : Placed fold modules ml done done cur) {more : Modules}
    (hmore : ∀ m : String × UInt64, m ∈ more → m = (name, 0)) :
    Placed fold modules ml (done ++ [name]) done (cur ++ more) where
  kept m hm := List.mem_append_left _ (h.kept m hm)
  origin m hm := by
    rcases List.mem_append.1 hm with hm | hm
    · rcases h.origin m hm with hm | ⟨hzero, hm | hm⟩
      · exact .inl hm
      · exact .inr ⟨hzero, .inl hm⟩
      · exact .inr ⟨hzero, .inr (List.mem_append_left _ hm)⟩
    · obtain rfl := hmore m hm
      exact .inr ⟨rfl, .inr (List.mem_append_right _ List.mem_cons_self)⟩
  settled k name' hk := by
    obtain ⟨m, hm, hname⟩ := h.settled k name' hk
    obtain ⟨hlt, -⟩ := List.getElem?_eq_some_iff.1 hm
    exact ⟨m, by rw [List.getElem?_append_left hlt, hm], hname⟩
  room := by
    rw [List.length_append]
    exact Nat.le_trans h.room (Nat.le_add_right _ _)

theorem Placed.exchange (h : Placed fold modules ml added done cur) {old : Nat}
    (hold : cur[old]? = some m) (hi : done.length < ml.length) (hle : done.length ≤ old)
    (hname : fold m.1 = fold name) (hbase : BaseOf fold modules name m.2) :
    Placed fold modules ml added (done ++ [name])
      (match cur[old]?, cur[done.length]? with
        | some old', some m =>
          if old ≠ done.length then (cur.set old m).set done.length old' else cur
        | _, _ => cur) := by
  have hidone : done.length < cur.length := Nat.lt_of_lt_of_le hi h.room
  obtain ⟨holdlt, rfl⟩ := List.getElem?_eq_some_iff.1 hold
  rw [hold, List.getElem?_eq_getElem hidone]
  dsimp only
  have hswap : (if old ≠ done.length then
      (cur.set old cur[done.length]).set done.length cur[old] else cur) =
      (cur.set old cur[done.length]).set done.length cur[old] := by
    by_cases hne : old = done.length
    · subst hne
      rw [if_neg (not_not.2 rfl), List.set_getElem_self, List.set_getElem_self]
    · rw [if_pos hne]
  rw [hswap]
  have hperm := List.set_set_perm holdlt hidone
  refine ⟨fun x hx => hperm.mem_iff.2 (h.kept x hx), fun x hx => h.origin x (hperm.mem_iff.1 hx),
    fun k name' hk => ?_, ?_⟩
  · have hget := Lib.getElem?_swap holdlt hidone k
    rcases Nat.lt_trichotomy k done.length with hlt | rfl | hgt
    · rw [List.getElem?_append_left hlt] at hk
      rw [hget, if_neg (by omega), if_neg (by omega)]
      exact h.settled k name' hk
    · rw [List.getElem?_concat_length] at hk
      obtain rfl := Option.some.inj hk
      exact ⟨_, by rw [hget, if_pos rfl], hname, hbase⟩
    · have hlength : (done ++ [name]).length ≤ k := by
        rw [List.length_append]
        exact hgt
      rw [List.getElem?_eq_none hlength] at hk
      cases hk
  · rw [hperm.length_eq]
    exact h.room

theorem Placed.place (h : Placed fold modules ml done done cur) (hi : done.length < ml.length)
    (hnew : ∀ x ∈ done, fold x ≠ fold name)
    (hmissing : (∃ m ∈ modules, fold m.1 = fold "missing") → fold name = fold "missing" →
      ml.length ≤ modules.length) :
    Placed fold modules ml (done ++ [name]) (done ++ [name])
      (place fold cur done.length name) := by
  unfold PointerScan.place
  cases hindex : indexOf fold cur name with
  | some old =>
    obtain ⟨hlt, hfound, -⟩ := List.findIdx?_eq_some_iff_getElem.1 hindex
    have hname : fold cur[old].1 = fold name := by simpa using hfound
    have hold := List.getElem?_eq_getElem hlt
    have hle : done.length ≤ old := by
      by_contra hlt'
      have hk : old < done.length := Nat.lt_of_not_le hlt'
      obtain ⟨m', hm', hfold, -⟩ := h.settled old _ (List.getElem?_eq_getElem hk)
      rw [hold] at hm'
      obtain rfl := Option.some.inj hm'
      exact hnew _ (List.getElem_mem hk) (hfold.symm.trans hname)
    have hbase : BaseOf fold modules name cur[old].2 := by
      rcases h.origin _ (List.getElem_mem hlt) with hm | ⟨hzero, ⟨hm, hshort⟩ | hm⟩
      · exact .inl ⟨_, hm, hname, rfl⟩
      · -- a filler: the map has no module with its name
        refine .inr ⟨fun x hx hfold => ?_, hzero⟩
        rw [hm] at hname
        have hlength := hmissing ⟨x, hx, hfold.trans hname.symm⟩ hname.symm
        omega
      · exact absurd hname (hnew _ hm)
    have hsame : Placed fold modules ml (done ++ [name]) done (cur ++ []) :=
      h.append fun m hm => nomatch hm
    rw [List.append_nil] at hsame
    exact hsame.exchange hold hi hle hname hbase
  | none =>
    have hnone := List.findIdx?_eq_none_iff.1 hindex
    have hbase : BaseOf fold modules name 0 :=
      .inr ⟨fun x hx => by simpa using hnone x (h.kept x hx), rfl⟩
    have hadded : Placed fold modules ml (done ++ [name]) done (cur ++ [(name, 0)]) :=
      h.append fun m hm => by simpa using hm
    exact hadded.exchange (List.getElem?_concat_length ..) hi (Nat.le_trans (by omega) h.room) rfl
      hbase

theorem Placed.placeAll {rest : List String} (h : Placed fold modules ml done done cur)
    (hml : ml = done ++ rest) (hu : Unambiguous fold modules ml) :
    Placed fold modules ml ml ml (placeAll fold done.length rest cur) := by
  induction rest generalizing done cur with
  | nil =>
    rw [List.append_nil] at hml
    rw [hml] at h ⊢
    exact h
  | cons name rest ih =>
    have hnodup := hu.nodup
    rw [hml, List.map_append, List.nodup_append] at hnodup
    have hnew : ∀ x ∈ done, fold x ≠ fold name := fun x hx =>
      hnodup.2.2 _ (List.mem_map_of_mem hx) _ (by simp)
    have hmem : fold name ∈ ml.map fold := by
      rw [hml]
      simp
    have hround := h.place (by rw [hml]; simp) hnew fun hm hname =>
      hu.noFillers hm (hname ▸ hmem)
    have hdone := ih hround (by rw [hml, List.append_assoc]; rfl)
    rwa [List.length_append] at hdone

/-- With names that are not repeated each number leads to the base of its module. -/
theorem reorders_of_unambiguous (fold : String → String) (modules : Modules) (ml : List String)
    (h : Unambiguous fold modules ml) : Reorders fold modules ml := by
  intro l i name hbases hi
  have hstart : Placed fold modules ml [] [] _ := .start
  obtain ⟨m, hm, -, hbase⟩ := (hstart.placeAll (List.nil_append ml).symm h).settled i name hi
  have haddress : l.getAddressFromModuleIndexPlusOffset i 0 = m.2 := by
    have hzero : (0 : UInt64).toUInt32.toInt32.toInt64.toUInt64 = 0 := rfl
    have hget : l.modulebases.getD i 0 = m.2 := by
      rw [hbases, List.getD_eq_getElem?_getD, List.getElem?_map]
      exact congrArg (fun x => (x.map Prod.snd).getD 0) hm
    rw [RescanList.getAddressFromModuleIndexPlusOffset, hzero, if_pos (Int.natCast_nonneg i),
      Int.toNat_natCast, hget, UInt64.add_zero]
  rw [haddress]
  exact hbase

theorem reorders_swapped :
    Unambiguous id [("b", 2), ("a", 1)] ["a", "b"] ∧ Reorders id [("b", 2), ("a", 1)] ["a", "b"] :=
  have h : Unambiguous id [("b", 2), ("a", 1)] ["a", "b"] := ⟨by decide, by decide⟩
  ⟨h, reorders_of_unambiguous _ _ _ h⟩

/-- A name that comes twice in the reference list is taken away from its first place. -/
theorem repeated_name_displaced :
    ¬ ∀ (fold : String → String) (modules : Modules) (ml : List String),
      Reorders fold modules ml := by
  intro h
  have hbase := h id [("a", 1), ("b", 2)] ["a", "a"] ⟨[2, 1], false, fun _ => none⟩ 0 "a" rfl rfl
  revert hbase
  unfold BaseOf
  decide

end CheatEngine.PointerScan
