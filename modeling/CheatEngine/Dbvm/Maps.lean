/-
  CheatEngine.Dbvm.Maps

  The pointer map (maps.c): a tree of tables with 512 pointers each.  The
  tables of level 0 hold the data, those above point to the tables below them.
  A key is a page number and has nine bits for each level.
-/
import Mathlib.Algebra.Group.Nat.Defs
import Mathlib.Logic.Function.Basic

namespace CheatEngine.Dbvm

/-- A table: data pointers at level 0, tables of the next level above. -/
def MapData : Nat → Type
  | 0 => Fin 512 → Option Nat
  | level + 1 => Fin 512 → Option (MapData level)

def entrynr (level page : Nat) : Fin 512 := ⟨page / 2 ^ (level * 9) % 512, Nat.mod_lt _ (by decide)⟩

namespace MapData

def zero : (level : Nat) → MapData level
  | 0 => fun _ => none
  | _ + 1 => fun _ => none

def get : (level : Nat) → MapData level → Nat → Option Nat
  | 0, m, page => m (entrynr 0 page)
  | level + 1, m, page => (m (entrynr (level + 1) page)).bind fun m => get level m page

/-- The loop of `map_setEntry`, from a level on: it creates the tables that are
    missing. -/
def set : (level : Nat) → MapData level → Nat → Option Nat → MapData level
  | 0, m, page, data => Function.update m (entrynr 0 page) data
  | level + 1, m, page, data =>
    let nr := entrynr (level + 1) page
    Function.update m nr (some (set level ((m nr).getD (zero level)) page data))

/-- `map_iterate`: the keys that it hands to its callback, in order.  At level
    0 the key of an entry is the base and its index. -/
def keys : (level : Nat) → MapData level → Nat → List Nat
  | 0, m, base => (List.finRange 512).filterMap fun i => (m i).map fun _ => base + i
  | level + 1, m, base => (List.finRange 512).flatMap fun i =>
    match m i with
    | some m => keys level m (base + i * 2 ^ ((level + 1) * 9))
    | none => []

variable {level : Nat}

theorem get_zero (level page : Nat) : get level (zero level) page = none := by
  cases level <;> rfl

theorem mod_eq_iff (level page page' : Nat) :
    page % 512 ^ (level + 2) = page' % 512 ^ (level + 2) ↔
      entrynr (level + 1) page = entrynr (level + 1) page' ∧
        page % 512 ^ (level + 1) = page' % 512 ^ (level + 1) := by
  have hpow : 2 ^ ((level + 1) * 9) = 512 ^ (level + 1) := by
    rw [Nat.mul_comm, Nat.pow_mul]
  have hlt : ∀ n, n % 512 ^ (level + 1) < 512 ^ (level + 1) := fun n =>
    Nat.mod_lt _ (Nat.pow_pos (by decide))
  rw [entrynr, entrynr, Fin.mk.injEq, hpow, Nat.mod_pow_succ, Nat.mod_pow_succ (x := page')]
  constructor
  · intro heq
    have hlow : page % 512 ^ (level + 1) = page' % 512 ^ (level + 1) := by
      have hmod := congrArg (· % 512 ^ (level + 1)) heq
      simpa only [Nat.add_mul_mod_self_left, Nat.mod_mod] using hmod
    rw [hlow] at heq
    exact ⟨Nat.eq_of_mul_eq_mul_left (Nat.pow_pos (by decide)) (Nat.add_left_cancel heq), hlow⟩
  · rintro ⟨hhigh, hlow⟩
    rw [hhigh, hlow]

theorem get_set_zero (m : MapData 0) (page page' : Nat) (data : Option Nat) :
    get 0 (set 0 m page data) page' =
      if entrynr 0 page' = entrynr 0 page then data else get 0 m page' :=
  Function.update_apply (β := Option Nat) ..

theorem get_set_succ (m : MapData (level + 1)) (page page' : Nat) (data : Option Nat) :
    get (level + 1) (set (level + 1) m page data) page' =
      if entrynr (level + 1) page' = entrynr (level + 1) page then
        get level (set level ((m (entrynr (level + 1) page)).getD (zero level)) page data) page'
      else get (level + 1) m page' := by
  have happly := Function.update_apply (β := Option (MapData level)) m (entrynr (level + 1) page)
    (some (set level ((m (entrynr (level + 1) page)).getD (zero level)) page data))
    (entrynr (level + 1) page')
  refine (congrArg (Option.bind · fun m => get level m page') happly).trans ?_
  split <;> rfl

theorem get_set (m : MapData level) (page page' : Nat) (data : Option Nat) :
    get level (set level m page data) page' =
      if page % 512 ^ (level + 1) = page' % 512 ^ (level + 1) then data
      else get level m page' := by
  induction level with
  | zero =>
    rw [get_set_zero]
    refine if_congr ?_ rfl rfl
    rw [entrynr, entrynr, Fin.mk.injEq]
    simp [eq_comm]
  | succ level ih =>
    rw [get_set_succ, ih]
    by_cases hnr : entrynr (level + 1) page' = entrynr (level + 1) page
    · have hold : get level ((m (entrynr (level + 1) page)).getD (zero level)) page' =
          get (level + 1) m page' := by
        show _ = (m (entrynr (level + 1) page')).bind fun m => get level m page'
        rw [hnr]
        cases m (entrynr (level + 1) page) with
        | none => exact get_zero level page'
        | some m => rfl
      rw [if_pos hnr, hold]
      refine if_congr ?_ rfl rfl
      rw [mod_eq_iff level page page', hnr]
      exact (and_iff_right rfl).symm
    · rw [if_neg hnr, if_neg]
      intro heq
      exact hnr ((mod_eq_iff level page page').1 heq).1.symm

theorem get_congr {m : MapData level} {page page' : Nat}
    (h : page % 512 ^ (level + 1) = page' % 512 ^ (level + 1)) :
    get level m page = get level m page' := by
  induction level with
  | zero =>
    have hnr : entrynr 0 page = entrynr 0 page' := by
      rw [entrynr, entrynr, Fin.mk.injEq]
      simpa using h
    exact congrArg m hnr
  | succ level ih =>
    obtain ⟨hnr, hlow⟩ := (mod_eq_iff level page page').1 h
    show (m (entrynr (level + 1) page)).bind _ = (m (entrynr (level + 1) page')).bind _
    rw [hnr]
    cases m (entrynr (level + 1) page') with
    | none => rfl
    | some m => exact ih hlow

theorem entrynr_add {i : Fin 512} {page : Nat} (hpage : page < 512 ^ (level + 1)) :
    entrynr (level + 1) (i * 512 ^ (level + 1) + page) = i := by
  have hpow : 2 ^ ((level + 1) * 9) = 512 ^ (level + 1) := by
    rw [Nat.mul_comm, Nat.pow_mul]
  apply Fin.ext
  show (i * 512 ^ (level + 1) + page) / 2 ^ ((level + 1) * 9) % 512 = i
  rw [hpow, Nat.mul_comm, Nat.mul_add_div (Nat.pow_pos (by decide)), Nat.div_eq_of_lt hpage,
    Nat.add_zero, Nat.mod_eq_of_lt i.isLt]

theorem mem_keys (m : MapData level) (base key : Nat) :
    key ∈ keys level m base ↔
      ∃ page, page < 512 ^ (level + 1) ∧ key = base + page ∧ get level m page ≠ none := by
  induction level generalizing base with
  | zero =>
    have hnr : ∀ i : Fin 512, entrynr 0 i = i := by
      intro i
      apply Fin.ext
      show (i : Nat) / 2 ^ (0 * 9) % 512 = i
      have := i.isLt
      omega
    rw [keys, List.mem_filterMap]
    constructor
    · rintro ⟨i, -, hi⟩
      obtain ⟨data, hdata, rfl⟩ := Option.map_eq_some_iff.1 hi
      refine ⟨i, i.isLt, rfl, ?_⟩
      show m (entrynr 0 i) ≠ none
      rw [hnr, hdata]
      exact nofun
    · rintro ⟨page, hpage, rfl, hget⟩
      have hget' : m (entrynr 0 page) ≠ none := hget
      rw [hnr ⟨page, hpage⟩] at hget'
      obtain ⟨data, hdata⟩ := Option.ne_none_iff_exists'.1 hget'
      refine ⟨⟨page, hpage⟩, List.mem_finRange _, ?_⟩
      rw [hdata]
      rfl
  | succ level ih =>
    have hpow : 2 ^ ((level + 1) * 9) = 512 ^ (level + 1) := by
      rw [Nat.mul_comm, Nat.pow_mul]
    have hpos : 0 < 512 ^ (level + 1) := Nat.pow_pos (by decide)
    rw [keys, List.mem_flatMap]
    constructor
    · rintro ⟨i, -, hi⟩
      cases hm : m i with
      | none =>
        rw [hm] at hi
        exact nomatch hi
      | some m' =>
        rw [hm] at hi
        obtain ⟨page, hpage, rfl, hget⟩ := (ih m' _).1 hi
        refine ⟨i * 512 ^ (level + 1) + page, ?_, ?_, ?_⟩
        · rw [Nat.pow_succ 512 (level + 1)]
          have hi := i.isLt
          calc (i : Nat) * 512 ^ (level + 1) + page
              < i * 512 ^ (level + 1) + 512 ^ (level + 1) := by omega
            _ = (i + 1) * 512 ^ (level + 1) := (Nat.succ_mul ..).symm
            _ ≤ 512 * 512 ^ (level + 1) := Nat.mul_le_mul_right _ hi
            _ = 512 ^ (level + 1) * 512 := Nat.mul_comm ..
        · rw [hpow, Nat.add_assoc]
        · show (m (entrynr (level + 1) _)).bind _ ≠ none
          rw [entrynr_add hpage, hm, Option.bind_some]
          have hlow : (i * 512 ^ (level + 1) + page) % 512 ^ (level + 1) =
              page % 512 ^ (level + 1) := Nat.mul_add_mod' ..
          rw [get_congr hlow]
          exact hget
    · rintro ⟨page, hpage, rfl, hget⟩
      have hget' : (m (entrynr (level + 1) page)).bind (fun m => get level m page) ≠ none := hget
      have hhigh : (entrynr (level + 1) page : Nat) = page / 512 ^ (level + 1) := by
        show page / 2 ^ ((level + 1) * 9) % 512 = _
        rw [hpow]
        apply Nat.mod_eq_of_lt
        rw [Nat.pow_succ 512 (level + 1)] at hpage
        exact Nat.div_lt_of_lt_mul hpage
      cases hm : m (entrynr (level + 1) page) with
      | none =>
        rw [hm] at hget'
        exact absurd rfl hget'
      | some m' =>
        refine ⟨entrynr (level + 1) page, List.mem_finRange _, ?_⟩
        rw [hm] at hget' ⊢
        refine (ih m' _).2 ⟨page % 512 ^ (level + 1), Nat.mod_lt _ hpos, ?_, ?_⟩
        · rw [hpow, hhigh, Nat.add_assoc, Nat.mul_comm, Nat.div_add_mod]
        · rw [get_congr (Nat.mod_mod ..)]
          exact hget'

end MapData

structure MapInfo where
  maxlevel : Nat
  top : MapData maxlevel

def createMap (maxlevel : Nat) : Option MapInfo :=
  if maxlevel = 0 then none else some ⟨maxlevel, .zero maxlevel⟩

/-- `createPhysicalMemoryMap`.  The remainder that decides about one more level
    is that of 12. -/
def createPhysicalMemoryMap (maxphyaddr : Nat) : Option MapInfo :=
  let neededbits := maxphyaddr - 12
  createMap (neededbits / 9 + if neededbits % 12 ≠ 0 then 1 else 0)

def MapInfo.getEntry (map : MapInfo) (address : Nat) : Option Nat :=
  map.top.get map.maxlevel (address / 4096)

def MapInfo.setEntry (map : MapInfo) (address : Nat) (data : Option Nat) : MapInfo :=
  ⟨map.maxlevel, map.top.set map.maxlevel (address / 4096) data⟩

theorem MapInfo.getEntry_setEntry (map : MapInfo) (address address' : Nat) (data : Option Nat) :
    (map.setEntry address data).getEntry address' =
      if address / 4096 % 512 ^ (map.maxlevel + 1) = address' / 4096 % 512 ^ (map.maxlevel + 1) then
        data
      else map.getEntry address' :=
  MapData.get_set map.top (address / 4096) (address' / 4096) data

end CheatEngine.Dbvm
