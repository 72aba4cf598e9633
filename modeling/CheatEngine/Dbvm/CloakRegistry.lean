/-
  CheatEngine.Dbvm.CloakRegistry

  The registry of cloaked pages (epthandler.c): `CloakedPagesList`, and
  `CloakedPagesMap` once the list has 40 entries.  `ept_cloak_activate` creates
  data for a page that has none and registers it; `ept_cloak_deactivate` takes
  it out again.

  `CloakSpec` says what the registry is for: a finite map from pages to their
  data.  The 33rd entry makes the list grow into a block that is too small for it,
  so the move to the map is never reached.
-/
import CheatEngine.Dbvm.AddressList
import CheatEngine.Dbvm.Maps
import CheatEngine.Lib.Run
import Mathlib.Data.List.Nodup

namespace CheatEngine.Dbvm

open CheatEngine.Lib

/-! ## epthandler.c -/

/-- `MAXCLOAKLISTBEFORETRANFERTOMAP`. -/
def maxCloakListBeforeTransferToMap : Nat := 40

def pageBase (maxphyaddr address : Nat) : Nat := address % 2 ^ maxphyaddr / 4096 * 4096

/-- `CloakedPagesList` and `CloakedPagesMap`; `nextData` is the pointer that the
    next `malloc` of cloak data returns. -/
structure CloakRegistry where
  list : Option AddressList
  map : Option MapInfo
  nextData : Nat

namespace CloakRegistry

/-- Before the first call. -/
def initial : CloakRegistry := ⟨none, none, 1⟩

/-- The lookup of the handlers.  It does not return (`none`) on a list that was
    never created; `NULL` is `none` inside. -/
def lookup (r : CloakRegistry) (address : Nat) : Option (Option Nat) :=
  match r.map with
  | some map => some (map.getEntry address)
  | none => r.list.bind fun l => l.find address

def transfer (l : AddressList) : Nat → Nat → MapInfo → Option MapInfo
  | 0, _, map => some map
  | fuel + 1, i, map => do
    let e ← l.memory[i]?
    transfer l fuel (i + 1) (map.setEntry e.address (some e.data))

/-- The first run check of `ept_cloak_activate`. -/
def prepare (maxphyaddr : Nat) (r : CloakRegistry) : Option CloakRegistry :=
  match r.map with
  | some _ => some r
  | none => do
    let l := r.list.getD .create
    if maxCloakListBeforeTransferToMap ≤ l.size then
      let map ← createPhysicalMemoryMap maxphyaddr
      let map ← transfer l l.size 0 map
      return { r with list := none, map := some map }
    else return { r with list := some l }

def insert (r : CloakRegistry) (address data : Nat) : Option CloakRegistry :=
  match r.map with
  | some map => some { r with map := some (map.setEntry address (some data)) }
  | none => do
    let l ← r.list
    let l ← l.add address data
    return { r with list := some l }

/-- Take a page out. -/
def remove (r : CloakRegistry) (address : Nat) : Option CloakRegistry :=
  match r.map with
  | some map => some { r with map := some (map.setEntry address none) }
  | none => do
    let l ← r.list
    let l ← l.remove address
    return { r with list := some l }

/-- `ept_cloak_activate`: the data it creates, if it returns 0. -/
def activate (maxphyaddr : Nat) (r : CloakRegistry) (physicalAddress : Nat) :
    Option (Option Nat × CloakRegistry) := do
  let address := pageBase maxphyaddr physicalAddress
  let r ← r.prepare maxphyaddr
  match ← r.lookup address with
  | some _ => return (none, r)
  | none =>
    let s ← r.insert address r.nextData
    return (some r.nextData, { s with nextData := r.nextData + 1 })

/-- `ept_cloak_deactivate`: the data it finds and frees. -/
def deactivate (maxphyaddr : Nat) (r : CloakRegistry) (physicalAddress : Nat) :
    Option (Option Nat × CloakRegistry) := do
  let address := pageBase maxphyaddr physicalAddress
  let data ← r.lookup address
  let s ← r.remove address
  return (data, s)

end CloakRegistry

/-- A call. -/
inductive CloakInput
  | activate (physicalAddress : Nat)
  | deactivate (physicalAddress : Nat)

/-- One call. -/
def CloakRegistry.step (maxphyaddr : Nat) (r : CloakRegistry) : CloakInput → Option CloakRegistry
  | .activate physicalAddress => (r.activate maxphyaddr physicalAddress).map Prod.snd
  | .deactivate physicalAddress => (r.deactivate maxphyaddr physicalAddress).map Prod.snd

/-- A run of calls. -/
def CloakRegistry.run (maxphyaddr : Nat) (r : CloakRegistry) (inputs : List CloakInput) :
    Option CloakRegistry :=
  inputs.foldlM (CloakRegistry.step maxphyaddr) r

/-! ## The finite map of cloaked pages -/

/-- The cloaked pages with the data of their last activation, newest first, and
    the data that the next activation creates. -/
structure CloakSpec where
  pages : List (Nat × Nat)
  nextData : Nat

namespace CloakSpec

def initial : CloakSpec := ⟨[], 1⟩

def data (s : CloakSpec) (address : Nat) : Option Nat := s.pages.lookup address

/-- One call, as it is meant. -/
def step (maxphyaddr : Nat) (s : CloakSpec) : CloakInput → CloakSpec
  | .activate physicalAddress =>
    let address := pageBase maxphyaddr physicalAddress
    if (s.data address).isSome then s
    else ⟨(address, s.nextData) :: s.pages, s.nextData + 1⟩
  | .deactivate physicalAddress =>
    { s with pages := s.pages.filter (·.1 ≠ pageBase maxphyaddr physicalAddress) }

/-- The call cloaks no further page while 32 pages are cloaked. -/
def Room (maxphyaddr : Nat) (s : CloakSpec) : CloakInput → Prop
  | .activate physicalAddress =>
    (s.data (pageBase maxphyaddr physicalAddress)).isSome = true ∨ s.pages.length < 32
  | .deactivate _ => True

instance (maxphyaddr : Nat) (s : CloakSpec) (input : CloakInput) :
    Decidable (s.Room maxphyaddr input) :=
  match input with
  | .activate _ => inferInstanceAs (Decidable (_ ∨ _))
  | .deactivate _ => inferInstanceAs (Decidable True)

/-- Pages and data are in the map at most once, and data is not created
    twice. -/
structure Distinct (s : CloakSpec) : Prop where
  keys : (s.pages.map Prod.fst).Nodup
  data : ∀ a a' d, (a, d) ∈ s.pages → (a', d) ∈ s.pages → a = a'
  fresh : ∀ a d, (a, d) ∈ s.pages → d < s.nextData

variable {s : CloakSpec} {a d : Nat}

theorem mem_of_data (h : s.data a = some d) : (a, d) ∈ s.pages := by
  obtain ⟨l₁, l₂, hpages, -⟩ := List.lookup_eq_some_iff.1 h
  rw [hpages]
  exact List.mem_append_right _ List.mem_cons_self

theorem Distinct.address (hs : s.Distinct) {d' : Nat} (h : (a, d) ∈ s.pages)
    (h' : (a, d') ∈ s.pages) : d = d' :=
  congrArg Prod.snd (List.inj_on_of_nodup_map hs.keys h h' rfl)

theorem Distinct.data_eq_some (hs : s.Distinct) : s.data a = some d ↔ (a, d) ∈ s.pages := by
  constructor
  · exact mem_of_data
  · intro hmem
    cases h : s.data a with
    | none =>
      have hnone := List.lookup_eq_none_iff.1 h
      have := hnone (a, d) hmem
      simp at this
    | some d' => rw [hs.address hmem (mem_of_data h)]

theorem Distinct.data_eq_none (hs : s.Distinct) : s.data a = none ↔ ∀ d, (a, d) ∉ s.pages := by
  rw [Option.eq_none_iff_forall_ne_some]
  exact forall_congr' fun d => not_congr hs.data_eq_some

theorem distinct_initial : initial.Distinct where
  keys := List.nodup_nil
  data _ _ _ h := nomatch h
  fresh _ _ h := nomatch h

theorem Distinct.cons (hs : s.Distinct) (hnone : s.data a = none) :
    (⟨(a, s.nextData) :: s.pages, s.nextData + 1⟩ : CloakSpec).Distinct := by
  have hfree := hs.data_eq_none.1 hnone
  refine ⟨?_, ?_, ?_⟩
  · refine List.nodup_cons.2 ⟨?_, hs.keys⟩
    intro hmem
    obtain ⟨x, hx, hxa⟩ := List.mem_map.1 hmem
    have hxa' : x.1 = a := hxa
    rw [← hxa'] at hfree
    exact hfree x.2 hx
  · intro b b' d hd hd'
    rcases List.mem_cons.1 hd with heq | hold <;> rcases List.mem_cons.1 hd' with heq' | hold'
    · exact (Prod.mk.inj heq).1.trans (Prod.mk.inj heq').1.symm
    · have := hs.fresh b' d hold'
      rw [(Prod.mk.inj heq).2] at this
      omega
    · have := hs.fresh b d hold
      rw [(Prod.mk.inj heq').2] at this
      omega
    · exact hs.data b b' d hold hold'
  · intro b d hd
    show d < s.nextData + 1
    rcases List.mem_cons.1 hd with heq | hold
    · rw [(Prod.mk.inj heq).2]
      omega
    · have := hs.fresh b d hold
      omega

theorem Distinct.filter (hs : s.Distinct) (p : Nat × Nat → Bool) :
    ({ s with pages := s.pages.filter p } : CloakSpec).Distinct where
  keys := hs.keys.sublist (List.filter_sublist.map Prod.fst)
  data a a' d h h' := hs.data a a' d (List.mem_filter.1 h).1 (List.mem_filter.1 h').1
  fresh a d h := hs.fresh a d (List.mem_filter.1 h).1

theorem filter_of_data_none (h : s.data a = none) : s.pages.filter (·.1 ≠ a) = s.pages := by
  apply List.filter_eq_self.2
  intro x hx
  have hne : a ≠ x.1 := by simpa using List.lookup_eq_none_iff.1 h x hx
  exact decide_eq_true hne.symm

theorem Distinct.length_filter (hs : s.Distinct) (h : (a, d) ∈ s.pages) :
    (s.pages.filter (·.1 ≠ a)).length + 1 = s.pages.length := by
  have hcount : s.pages.countP (fun x => ¬ (decide (x.1 ≠ a)) = true) = 1 := by
    have hone := List.count_eq_one_of_mem hs.keys (List.mem_map.2 ⟨(a, d), h, rfl⟩)
    rw [List.count, List.countP_map] at hone
    rw [← hone]
    apply List.countP_congr
    simp
  have hsplit := List.length_eq_countP_add_countP (fun x : Nat × Nat => decide (x.1 ≠ a)) (l := s.pages)
  rw [hcount] at hsplit
  rw [← List.countP_eq_length_filter]
  exact hsplit.symm

end CloakSpec

/-! ## The registry below 33 pages -/

namespace CloakRegistry

/-- The registry is in its list, and the list holds the cloaked pages. -/
structure Refines (r : CloakRegistry) (s : CloakSpec) (l : AddressList) : Prop where
  map : r.map = none
  list : r.list = some l
  wellFormed : l.WellFormed
  size : l.size = s.pages.length
  holds : ∀ a d, l.Holds a d ↔ (a, d) ∈ s.pages
  nextData : r.nextData = s.nextData
  distinct : s.Distinct

variable {r : CloakRegistry} {s : CloakSpec} {l : AddressList} {maxphyaddr : Nat}

theorem Refines.lookup (h : Refines r s l) (a : Nat) : r.lookup a = some (s.data a) := by
  rw [CloakRegistry.lookup, h.map, h.list]
  show l.find a = some (s.data a)
  cases hdata : s.data a with
  | some d =>
    exact AddressList.find_of_holds h.wellFormed
      ((h.holds a d).2 (h.distinct.data_eq_some.1 hdata))
  | none =>
    apply AddressList.find_of_not_holds h.wellFormed
    intro d hd
    exact h.distinct.data_eq_none.1 hdata d ((h.holds a d).1 hd)

/-- A list of at most 32 pages is not moved to the map. -/
theorem Refines.prepare (h : Refines r s l) : r.prepare maxphyaddr = some r := by
  have hsize : ¬ maxCloakListBeforeTransferToMap ≤ l.size := by
    have := h.wellFormed.size
    rw [maxCloakListBeforeTransferToMap]
    omega
  obtain ⟨list, map, nextData⟩ := r
  have hmap : map = none := h.map
  have hlist : list = some l := h.list
  subst hmap hlist
  simp [CloakRegistry.prepare, hsize]

variable {physicalAddress : Nat}

theorem Refines.activate_cloaked (h : Refines r s l) {d : Nat}
    (hdata : s.data (pageBase maxphyaddr physicalAddress) = some d) :
    r.activate maxphyaddr physicalAddress = some (none, r) := by
  simp only [CloakRegistry.activate, h.prepare, Option.bind_eq_bind, Option.bind_some,
    h.lookup, hdata]
  rfl

theorem Refines.activate_new (h : Refines r s l)
    (hdata : s.data (pageBase maxphyaddr physicalAddress) = none) (hroom : s.pages.length < 32) :
    ∃ r' l', r.activate maxphyaddr physicalAddress = some (some s.nextData, r') ∧
      Refines r' ⟨(pageBase maxphyaddr physicalAddress, s.nextData) :: s.pages, s.nextData + 1⟩
        l' := by
  have hfresh : ∀ d, ¬ l.Holds (pageBase maxphyaddr physicalAddress) d := by
    intro d hd
    exact h.distinct.data_eq_none.1 hdata d ((h.holds _ d).1 hd)
  obtain ⟨l', hadd, hwf, hsize, hholds⟩ := AddressList.add_spec s.nextData h.wellFormed
    (by rw [h.size]; exact hroom) hfresh
  refine ⟨⟨some l', none, s.nextData + 1⟩, l', ?_, ⟨rfl, rfl, hwf, ?_, ?_, rfl,
    h.distinct.cons hdata⟩⟩
  · simp only [CloakRegistry.activate, h.prepare, Option.bind_eq_bind, Option.bind_some,
      h.lookup, hdata, CloakRegistry.insert, h.map, h.list, h.nextData, hadd]
    rfl
  · rw [hsize, h.size]
    rfl
  · intro a d
    rw [hholds, h.holds, List.mem_cons, Prod.mk.injEq]

theorem Refines.activate_full (h : Refines r s l)
    (hdata : s.data (pageBase maxphyaddr physicalAddress) = none)
    (hfull : ¬ s.pages.length < 32) : r.activate maxphyaddr physicalAddress = none := by
  have hfresh : ∀ d, ¬ l.Holds (pageBase maxphyaddr physicalAddress) d := by
    intro d hd
    exact h.distinct.data_eq_none.1 hdata d ((h.holds _ d).1 hd)
  have hsize : l.size = 32 := by
    have hle := h.wellFormed.size
    have heq := h.size
    omega
  have hadd := AddressList.add_full r.nextData h.wellFormed hsize hfresh
  simp only [CloakRegistry.activate, h.prepare, Option.bind_eq_bind, Option.bind_some,
    h.lookup, hdata, CloakRegistry.insert, h.map, h.list, hadd]
  rfl

theorem Refines.deactivate (h : Refines r s l) (maxphyaddr physicalAddress : Nat) :
    ∃ r' l', r.deactivate maxphyaddr physicalAddress =
        some (s.data (pageBase maxphyaddr physicalAddress), r') ∧
      Refines r' { s with pages := s.pages.filter (·.1 ≠ pageBase maxphyaddr physicalAddress) }
        l' := by
  generalize haddress : pageBase maxphyaddr physicalAddress = address
  obtain ⟨l', hremove, hwf, hholds, hsame, hless⟩ := AddressList.remove_spec h.wellFormed address
  refine ⟨⟨some l', none, r.nextData⟩, l', ?_, ⟨rfl, rfl, hwf, ?_, ?_, h.nextData,
    h.distinct.filter _⟩⟩
  · simp only [CloakRegistry.deactivate, haddress, Option.bind_eq_bind, Option.bind_some,
      h.lookup, CloakRegistry.remove, h.map, h.list, hremove]
    rfl
  · show l'.size = (s.pages.filter (·.1 ≠ address)).length
    cases hdata : s.data address with
    | some d =>
      have hmem := h.distinct.data_eq_some.1 hdata
      have hone := hless d ((h.holds address d).2 hmem)
      have hfilter := h.distinct.length_filter hmem
      have hsize := h.size
      omega
    | none =>
      have hfree := h.distinct.data_eq_none.1 hdata
      rw [CloakSpec.filter_of_data_none hdata, hsame (fun d hd => hfree d ((h.holds address d).1 hd)), h.size]
  · intro a d
    rw [hholds, h.holds]
    show a ≠ address ∧ (a, d) ∈ s.pages ↔ (a, d) ∈ s.pages.filter (·.1 ≠ address)
    rw [List.mem_filter, and_comm]
    simp

theorem Refines.step (h : Refines r s l) (maxphyaddr : Nat) (input : CloakInput) :
    (s.Room maxphyaddr input → ∃ r' l', r.step maxphyaddr input = some r' ∧
      Refines r' (s.step maxphyaddr input) l') ∧
    (¬ s.Room maxphyaddr input → r.step maxphyaddr input = none) := by
  cases input with
  | activate physicalAddress =>
    cases hdata : s.data (pageBase maxphyaddr physicalAddress) with
    | some d =>
      have hsome : (s.data (pageBase maxphyaddr physicalAddress)).isSome = true := by
        rw [hdata]
        rfl
      have hstep : s.step maxphyaddr (.activate physicalAddress) = s := if_pos hsome
      refine ⟨fun _ => ⟨r, l, ?_, by rw [hstep]; exact h⟩, fun hno => absurd (.inl hsome) hno⟩
      rw [CloakRegistry.step, h.activate_cloaked hdata]
      rfl
    | none =>
      have hnone : ¬ (s.data (pageBase maxphyaddr physicalAddress)).isSome = true := by
        rw [hdata]
        exact Bool.false_ne_true
      constructor
      · rintro (hsome | hroom)
        · exact absurd hsome hnone
        obtain ⟨r', l', hactivate, href⟩ := h.activate_new hdata hroom
        have hstep : s.step maxphyaddr (.activate physicalAddress) =
            ⟨(pageBase maxphyaddr physicalAddress, s.nextData) :: s.pages, s.nextData + 1⟩ :=
          if_neg hnone
        refine ⟨r', l', ?_, by rw [hstep]; exact href⟩
        rw [CloakRegistry.step, hactivate]
        rfl
      · intro hno
        rw [CloakRegistry.step, h.activate_full hdata (fun hroom => hno (.inr hroom))]
        rfl
  | deactivate physicalAddress =>
    refine ⟨fun _ => ?_, fun hno => absurd trivial hno⟩
    obtain ⟨r', l', hdeactivate, href⟩ := h.deactivate maxphyaddr physicalAddress
    refine ⟨r', l', ?_, href⟩
    rw [CloakRegistry.step, hdeactivate]
    rfl

theorem refines_create : Refines ⟨some .create, none, 1⟩ .initial .create where
  map := rfl
  list := rfl
  wellFormed := AddressList.wellFormed_create
  size := rfl
  holds a d := by
    constructor
    · exact fun h => absurd h AddressList.not_holds_create
    · exact fun h => nomatch h
  nextData := rfl
  distinct := CloakSpec.distinct_initial

/-- The registry holds the pages, or nothing was cloaked yet. -/
def Registers (r : CloakRegistry) (s : CloakSpec) : Prop :=
  (∃ l, Refines r s l) ∨ r = initial ∧ s = .initial

theorem registers_initial : Registers initial .initial := .inr ⟨rfl, rfl⟩

theorem Registers.distinct (h : Registers r s) : s.Distinct := by
  rcases h with ⟨l, href⟩ | ⟨-, rfl⟩
  · exact href.distinct
  · exact CloakSpec.distinct_initial

theorem Registers.activate_cloaked (h : Registers r s) {d : Nat}
    (hdata : s.data (pageBase maxphyaddr physicalAddress) = some d) :
    r.activate maxphyaddr physicalAddress = some (none, r) := by
  rcases h with ⟨l, href⟩ | ⟨-, rfl⟩
  · exact href.activate_cloaked hdata
  · exact nomatch hdata

theorem Registers.activate_new (h : Registers r s)
    (hdata : s.data (pageBase maxphyaddr physicalAddress) = none) (hroom : s.pages.length < 32) :
    ∃ r' l, r.activate maxphyaddr physicalAddress = some (some s.nextData, r') ∧
      Refines r' ⟨(pageBase maxphyaddr physicalAddress, s.nextData) :: s.pages, s.nextData + 1⟩
        l := by
  rcases h with ⟨l, href⟩ | ⟨rfl, rfl⟩
  · exact href.activate_new hdata hroom
  · exact refines_create.activate_new hdata hroom

theorem Registers.activate_full (h : Registers r s)
    (hdata : s.data (pageBase maxphyaddr physicalAddress) = none)
    (hfull : ¬ s.pages.length < 32) : r.activate maxphyaddr physicalAddress = none := by
  rcases h with ⟨l, href⟩ | ⟨-, rfl⟩
  · exact href.activate_full hdata hfull
  · exact absurd (by decide) hfull

theorem Refines.run (h : Refines r s l) (maxphyaddr : Nat) (inputs : List CloakInput) :
    (Along (CloakSpec.step maxphyaddr) (CloakSpec.Room maxphyaddr) s inputs →
      ∃ r' l', r.run maxphyaddr inputs = some r' ∧
        Refines r' (exec (CloakSpec.step maxphyaddr) s inputs) l') ∧
    (¬ Along (CloakSpec.step maxphyaddr) (CloakSpec.Room maxphyaddr) s inputs →
      r.run maxphyaddr inputs = none) := by
  induction inputs generalizing r s l with
  | nil => exact ⟨fun _ => ⟨r, l, rfl, h⟩, fun hno => absurd trivial hno⟩
  | cons input inputs ih =>
    have hrun : r.run maxphyaddr (input :: inputs) =
        (r.step maxphyaddr input).bind fun r => r.run maxphyaddr inputs := rfl
    obtain ⟨hgood, hbad⟩ := h.step maxphyaddr input
    by_cases hroom : s.Room maxphyaddr input
    · obtain ⟨r', l', hstep, href⟩ := hgood hroom
      obtain ⟨hgood', hbad'⟩ := ih href
      rw [hrun, hstep]
      exact ⟨fun halong => hgood' halong.2, fun hno => hbad' (fun halong => hno ⟨hroom, halong⟩)⟩
    · rw [hrun, hbad hroom]
      exact ⟨fun halong => absurd halong.1 hroom, fun _ => rfl⟩

/-- The run returns without leaving the memory of the list, every lookup
    returns the data of the last activation of the page, and no two pages share
    an entry. -/
def ActsAsMap (maxphyaddr : Nat) (inputs : List CloakInput) : Prop :=
  ∃ r, initial.run maxphyaddr inputs = some r ∧
    (∀ a, r.lookup a = some ((exec (CloakSpec.step maxphyaddr) .initial inputs).data a)) ∧
    ∀ a b d, r.lookup a = some (some d) → r.lookup b = some (some d) → a = b

/-- Every run of calls that starts with an activation acts as the finite map of
    cloaked pages if and only if it never cloaks a further page while 32 pages
    are cloaked. -/
theorem cloak_registry_iff_room (maxphyaddr physicalAddress : Nat) (inputs : List CloakInput) :
    ActsAsMap maxphyaddr (.activate physicalAddress :: inputs) ↔
      Along (CloakSpec.step maxphyaddr) (CloakSpec.Room maxphyaddr) .initial
        (.activate physicalAddress :: inputs) := by
  -- the first activation creates the list
  have hfirst : initial.run maxphyaddr (.activate physicalAddress :: inputs) =
      (⟨some .create, none, 1⟩ : CloakRegistry).run maxphyaddr
        (.activate physicalAddress :: inputs) := rfl
  obtain ⟨hgood, hbad⟩ := refines_create.run maxphyaddr
    (.activate physicalAddress :: inputs)
  constructor
  · rintro ⟨r, hrun, -⟩
    by_contra hno
    rw [hfirst, hbad hno] at hrun
    exact nomatch hrun
  · intro halong
    obtain ⟨r, l, hrun, href⟩ := hgood halong
    refine ⟨r, hfirst.trans hrun, href.lookup, ?_⟩
    intro a b d ha hb
    rw [href.lookup, Option.some.injEq, href.distinct.data_eq_some] at ha hb
    exact href.distinct.data a b d ha hb

def cloakPages : List CloakInput := (List.range 33).map fun i => .activate (i * 4096)

/-- Cloaking 33 pages leaves the memory of the list. -/
theorem cloak_33_pages_leaves_list :
    (initial.run 36 cloakPages).isNone = true ∧ ¬ ActsAsMap 36 cloakPages := by
  have hnone : (initial.run 36 cloakPages).isNone = true := by decide
  refine ⟨hnone, ?_⟩
  rintro ⟨r, hrun, -⟩
  rw [hrun] at hnone
  exact Bool.false_ne_true hnone

end CloakRegistry

end CheatEngine.Dbvm
