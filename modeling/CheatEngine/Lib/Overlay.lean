/-
  CheatEngine.Lib.Overlay

  Intervals with tags that lie over each other.  Where tags meet the least one counts,
  so that two overlapping intervals may be replaced by what stands on their left, what
  they share and what stands on their right.  A list in which nothing overlaps any more
  is determined by the list it came from: its intervals are the pieces between
  neighbouring bounds.
-/
import Mathlib.Data.List.Pairwise
import Mathlib.Order.Lattice

namespace CheatEngine.Lib

variable {τ : Type}

/-- The places from `first` to before `last`. -/
structure TagInterval (τ : Type) where
  first : Nat
  last : Nat
  tag : τ

namespace TagInterval

variable {le : τ → τ → Prop} {a b r r' : TagInterval τ} {l l' l'' : List (TagInterval τ)} {m t : τ}
  {x : Nat}

def Has (r : TagInterval τ) (x : Nat) : Prop := r.first ≤ x ∧ x < r.last

def Proper (r : TagInterval τ) : Prop := r.first < r.last

def Disjoint (a b : TagInterval τ) : Prop := ∀ x, a.Has x → ¬ b.Has x

instance (r : TagInterval τ) : Decidable r.Proper := inferInstanceAs (Decidable (_ < _))

theorem Disjoint.symm (h : a.Disjoint b) : b.Disjoint a := fun x hb ha => h x ha hb

instance : Std.Symm (Disjoint (τ := τ)) := ⟨fun _ _ h => h.symm⟩

theorem not_disjoint_iff (ha : a.Proper) (hb : b.Proper) :
    ¬ a.Disjoint b ↔ a.first < b.last ∧ b.first < a.last := by
  unfold Disjoint Has
  unfold Proper at ha hb
  constructor
  · intro h
    by_contra hapart
    exact h fun x hx hx' => hapart (by omega)
  · rintro ⟨hab, hba⟩ h
    exact h (max a.first b.first) (by omega) (by omega)

/-- An interval with this tag lies over the place. -/
def TagAt (l : List (TagInterval τ)) (x : Nat) (t : τ) : Prop := ∃ r ∈ l, r.Has x ∧ r.tag = t

/-- Some interval begins or ends here. -/
def IsBound (l : List (TagInterval τ)) (e : Nat) : Prop := ∃ r ∈ l, e = r.first ∨ e = r.last

/-- The tag that counts at a place. -/
def LeastTag (le : τ → τ → Prop) (l : List (TagInterval τ)) (x : Nat) (t : τ) : Prop :=
  TagAt l x t ∧ ∀ u, TagAt l x u → le t u

/-- Tags that meet can be compared. -/
def Comparable (le : τ → τ → Prop) (l : List (TagInterval τ)) : Prop :=
  ∀ x t u, TagAt l x t → TagAt l x u → le t u ∨ le u t

/-- A list that says the same with no tag that was not there: only larger ones may be
    missing. -/
structure Refines (le : τ → τ → Prop) (l' l : List (TagInterval τ)) : Prop where
  bounds : ∀ e, IsBound l' e ↔ IsBound l e
  tags : ∀ x u, TagAt l' x u → TagAt l x u
  below : ∀ x u, TagAt l x u → ∃ v, le v u ∧ TagAt l' x v

theorem isBound_append (l l' : List (TagInterval τ)) (e : Nat) :
    IsBound (l ++ l') e ↔ IsBound l e ∨ IsBound l' e := by
  simp only [IsBound, List.mem_append, or_and_right, exists_or]

theorem Refines.of_mem (hrefl : ∀ t, le t t) (h : ∀ r, r ∈ l' ↔ r ∈ l) : Refines le l' l where
  bounds e := by simp only [IsBound, h]
  tags x u hu := by
    simp only [TagAt, h] at hu
    exact hu
  below x u hu := by
    refine ⟨u, hrefl u, ?_⟩
    simp only [TagAt, h]
    exact hu

theorem Refines.trans (htrans : ∀ t u v, le t u → le u v → le t v) (h' : Refines le l'' l')
    (h : Refines le l' l) : Refines le l'' l where
  bounds e := (h'.bounds e).trans (h.bounds e)
  tags x u hu := h.tags x u (h'.tags x u hu)
  below x u hu := by
    obtain ⟨v, hvu, hv⟩ := h.below x u hu
    obtain ⟨w, hwv, hw⟩ := h'.below x v hv
    exact ⟨w, htrans w v u hwv hvu, hw⟩

theorem Refines.comparable (h : Refines le l' l) (hcomp : Comparable le l) : Comparable le l' :=
  fun x t u ht hu => hcomp x t u (h.tags x t ht) (h.tags x u hu)

theorem Refines.leastTag_iff (htrans : ∀ t u v, le t u → le u v → le t v)
    (hanti : ∀ t u, le t u → le u t → t = u) (h : Refines le l' l) (x : Nat) (t : τ) :
    LeastTag le l' x t ↔ LeastTag le l x t := by
  constructor
  · rintro ⟨ht, hleast⟩
    refine ⟨h.tags x t ht, fun u hu => ?_⟩
    obtain ⟨v, hvu, hv⟩ := h.below x u hu
    exact htrans t v u (hleast v hv) hvu
  · rintro ⟨ht, hleast⟩
    obtain ⟨v, hvt, hv⟩ := h.below x t ht
    have heq : t = v := hanti t v (hleast v (h.tags x v hv)) hvt
    exact ⟨heq ▸ hv, fun u hu => hleast u (h.tags x u hu)⟩

/-! ## Two overlapping intervals -/

section

variable (a b : TagInterval τ)

/-- What only the interval that begins first has before the other one. -/
def left : TagInterval τ :=
  ⟨min a.first b.first, max a.first b.first, if a.first < b.first then a.tag else b.tag⟩

/-- What both have. -/
def common (m : τ) : TagInterval τ :=
  ⟨max a.first b.first, min a.last b.last, m⟩

/-- What only the interval that ends last has behind the other one. -/
def right : TagInterval τ :=
  ⟨min a.last b.last, max a.last b.last, if b.last < a.last then a.tag else b.tag⟩

/-- The parts, those on the outside only if there is something. -/
def parts (m : τ) : List (TagInterval τ) :=
  common a b m :: [left a b, right a b].filter fun r => r.Proper

end

theorem mem_parts : r ∈ parts a b m ↔
    r = common a b m ∨ (r = left a b ∧ r.Proper) ∨ (r = right a b ∧ r.Proper) := by
  simp only [parts, List.mem_cons, List.mem_filter, List.not_mem_nil, or_false, or_and_right,
    decide_eq_true_eq]

section Overlapping

variable (ha : a.Proper) (hb : b.Proper) (hover : ¬ a.Disjoint b)
include ha hb hover

theorem common_proper : (common a b m).Proper := by
  obtain ⟨hab, hba⟩ := (not_disjoint_iff ha hb).1 hover
  simp only [Proper, common] at ha hb ⊢
  omega

theorem within_of_mem_parts (hr : r ∈ parts a b m) :
    (r = common a b m ∧ (∀ x, r.Has x → a.Has x ∧ b.Has x)) ∨
      (r.tag = a.tag ∧ ∀ x, r.Has x → a.Has x) ∨ (r.tag = b.tag ∧ ∀ x, r.Has x → b.Has x) := by
  obtain ⟨hab, hba⟩ := (not_disjoint_iff ha hb).1 hover
  rcases mem_parts.1 hr with rfl | ⟨rfl, -⟩ | ⟨rfl, -⟩
  · refine .inl ⟨rfl, fun x hx => ?_⟩
    simp only [Has, common] at hx ⊢
    omega
  · by_cases h : a.first < b.first
    · refine .inr (.inl ⟨if_pos h, fun x hx => ?_⟩)
      simp only [Has, left] at hx ⊢
      omega
    · refine .inr (.inr ⟨if_neg h, fun x hx => ?_⟩)
      simp only [Has, left] at hx ⊢
      omega
  · by_cases h : b.last < a.last
    · refine .inr (.inl ⟨if_pos h, fun x hx => ?_⟩)
      simp only [Has, right] at hx ⊢
      omega
    · refine .inr (.inr ⟨if_neg h, fun x hx => ?_⟩)
      simp only [Has, right] at hx ⊢
      omega

theorem disjoint_of_mem_parts (hra : r'.Disjoint a) (hrb : r'.Disjoint b)
    (hr : r ∈ parts a b m) : r'.Disjoint r := by
  intro x hx' hx
  rcases within_of_mem_parts ha hb hover hr with ⟨-, h⟩ | ⟨-, h⟩ | ⟨-, h⟩
  · exact hra x hx' (h x hx).1
  · exact hra x hx' (h x hx)
  · exact hrb x hx' (h x hx)

theorem part_of_first (hx : a.Has x) :
    ∃ r ∈ parts a b m, r.Has x ∧ (r.tag = a.tag ∨ r.tag = m) := by
  obtain ⟨hab, hba⟩ := (not_disjoint_iff ha hb).1 hover
  simp only [Has] at hx
  by_cases hleft : x < b.first
  · refine ⟨left a b, mem_parts.2 (.inr (.inl ⟨rfl, ?_⟩)), ?_, .inl (if_pos (by omega))⟩
    · simp only [Proper, left]
      omega
    · simp only [Has, left]
      omega
  · by_cases hright : b.last ≤ x
    · refine ⟨right a b, mem_parts.2 (.inr (.inr ⟨rfl, ?_⟩)), ?_, .inl (if_pos (by omega))⟩
      · simp only [Proper, right]
        omega
      · simp only [Has, right]
        omega
    · refine ⟨common a b m, mem_parts.2 (.inl rfl), ?_, .inr rfl⟩
      simp only [Has, common]
      omega

theorem part_of_second (hx : b.Has x) :
    ∃ r ∈ parts a b m, r.Has x ∧ (r.tag = b.tag ∨ r.tag = m) := by
  obtain ⟨hab, hba⟩ := (not_disjoint_iff ha hb).1 hover
  simp only [Has] at hx
  by_cases hleft : x < a.first
  · refine ⟨left a b, mem_parts.2 (.inr (.inl ⟨rfl, ?_⟩)), ?_, .inl (if_neg (by omega))⟩
    · simp only [Proper, left]
      omega
    · simp only [Has, left]
      omega
  · by_cases hright : a.last ≤ x
    · refine ⟨right a b, mem_parts.2 (.inr (.inr ⟨rfl, ?_⟩)), ?_, .inl (if_neg (by omega))⟩
      · simp only [Proper, right]
        omega
      · simp only [Has, right]
        omega
    · refine ⟨common a b m, mem_parts.2 (.inl rfl), ?_, .inr rfl⟩
      simp only [Has, common]
      omega

theorem bound_parts (e : Nat) : IsBound (parts a b m) e ↔ IsBound [a, b] e := by
  have hcommon : common a b m ∈ parts a b m := mem_parts.2 (.inl rfl)
  obtain ⟨hab, hba⟩ := (not_disjoint_iff ha hb).1 hover
  constructor
  · rintro ⟨r, hr, he⟩
    simp only [IsBound, List.mem_cons, List.not_mem_nil, or_false, exists_eq_or_imp,
      exists_eq_left]
    rcases mem_parts.1 hr with rfl | ⟨rfl, -⟩ | ⟨rfl, -⟩ <;>
      simp only [common, left, right] at he <;> omega
  · intro h
    simp only [IsBound, List.mem_cons, List.not_mem_nil, or_false, exists_eq_or_imp,
      exists_eq_left] at h
    by_cases hin : e = (common a b m).first ∨ e = (common a b m).last
    · exact ⟨_, hcommon, hin⟩
    · -- an end that is not one of the common part is the outer end of another part
      simp only [common] at hin
      by_cases hleft : e = min a.first b.first
      · refine ⟨left a b, mem_parts.2 (.inr (.inl ⟨rfl, ?_⟩)), .inl hleft⟩
        simp only [Proper, left]
        omega
      · refine ⟨right a b, mem_parts.2 (.inr (.inr ⟨rfl, ?_⟩)), .inr ?_⟩
        · simp only [Proper, right]
          simp only [Proper] at ha hb
          omega
        · show e = max a.last b.last
          omega

theorem parts_refines (hrefl : ∀ t, le t t) (hm : m = a.tag ∨ m = b.tag) (hma : le m a.tag)
    (hmb : le m b.tag) (rest : List (TagInterval τ)) :
    Refines le (parts a b m ++ rest) (a :: b :: rest) where
  bounds e := by
    rw [isBound_append, bound_parts ha hb hover, ← isBound_append]
    rfl
  tags x u := by
    rintro ⟨r, hr, hx, rfl⟩
    rcases List.mem_append.1 hr with hr | hr
    · rcases within_of_mem_parts ha hb hover hr with ⟨rfl, h⟩ | ⟨htag, h⟩ | ⟨htag, h⟩
      · rcases hm with rfl | rfl
        · exact ⟨a, by simp, (h x hx).1, rfl⟩
        · exact ⟨b, by simp, (h x hx).2, rfl⟩
      · exact ⟨a, by simp, h x hx, htag.symm⟩
      · exact ⟨b, by simp, h x hx, htag.symm⟩
    · exact ⟨r, by simp [hr], hx, rfl⟩
  below x u := by
    rintro ⟨r, hr, hx, rfl⟩
    rcases List.mem_cons.1 hr with rfl | hr
    · obtain ⟨p, hp, hpx, htag⟩ := part_of_first (m := m) ha hb hover hx
      refine ⟨p.tag, ?_, p, List.mem_append_left _ hp, hpx, rfl⟩
      rcases htag with h | h
      · rw [h]
        exact hrefl _
      · rwa [h]
    · rcases List.mem_cons.1 hr with rfl | hr
      · obtain ⟨p, hp, hpx, htag⟩ := part_of_second (m := m) ha hb hover hx
        refine ⟨p.tag, ?_, p, List.mem_append_left _ hp, hpx, rfl⟩
        rcases htag with h | h
        · rw [h]
          exact hrefl _
        · rwa [h]
      · exact ⟨r.tag, hrefl _, r, List.mem_append_right _ hr, hx, rfl⟩

end Overlapping

/-- An interval between neighbouring bounds, with the tag that counts. -/
structure IsPiece (le : τ → τ → Prop) (l : List (TagInterval τ)) (r : TagInterval τ) : Prop where
  proper : r.Proper
  first : IsBound l r.first
  last : IsBound l r.last
  inner : ∀ e, IsBound l e → ¬ (r.first < e ∧ e < r.last)
  least : LeastTag le l r.first r.tag

theorem IsPiece.eq_of_has (hanti : ∀ t u, le t u → le u t → t = u) (h : IsPiece le l r)
    (h' : IsPiece le l r') (hx : r.Has x) (hx' : r'.Has x) : r = r' := by
  have hfirst : r.first = r'.first := by
    have h1 := h.inner r'.first h'.first
    have h2 := h'.inner r.first h.first
    simp only [Has] at hx hx'
    omega
  have hlast : r.last = r'.last := by
    have h1 := h.inner r'.last h'.last
    have h2 := h'.inner r.last h.last
    simp only [Has] at hx hx'
    omega
  have htag : r.tag = r'.tag := by
    have hleast' : LeastTag le l r.first r'.tag := hfirst ▸ h'.least
    exact hanti _ _ (h.least.2 _ hleast'.1) (hleast'.2 _ h.least.1)
  cases r
  cases r'
  simp only at hfirst hlast htag
  subst hfirst hlast htag
  rfl

/-- Only one interval of a list without overlaps has a place. -/
theorem eq_of_has (hdisj : l.Pairwise Disjoint) (hr : r ∈ l) (hr' : r' ∈ l) (hx : r.Has x)
    (hx' : r'.Has x) : r = r' := by
  by_contra hne
  exact hdisj.forall hr hr' hne x hx hx'

section Final

variable (hrefl : ∀ t, le t t) (htrans : ∀ t u v, le t u → le u v → le t v)
  (hanti : ∀ t u, le t u → le u t → t = u) (href : Refines le l' l)
  (hdisj : l'.Pairwise Disjoint)
include hrefl htrans hanti href hdisj

theorem tagAt_iff_leastTag (x : Nat) (t : τ) : TagAt l' x t ↔ LeastTag le l x t := by
  rw [← href.leastTag_iff htrans hanti]
  constructor
  · rintro ⟨r, hr, hx, rfl⟩
    refine ⟨⟨r, hr, hx, rfl⟩, ?_⟩
    rintro u ⟨r', hr', hx', rfl⟩
    rw [eq_of_has hdisj hr hr' hx hx']
    exact hrefl _
  · exact fun h => h.1

theorem mem_iff_isPiece (hproper : ∀ r ∈ l', r.Proper) (r : TagInterval τ) :
    r ∈ l' ↔ IsPiece le l r := by
  have hpiece : ∀ p ∈ l', IsPiece le l p := by
    intro p hp
    have hin : p.Has p.first := ⟨Nat.le_refl _, hproper p hp⟩
    refine ⟨hproper p hp, (href.bounds _).1 ⟨p, hp, .inl rfl⟩, (href.bounds _).1 ⟨p, hp, .inr rfl⟩,
      ?_, (tagAt_iff_leastTag hrefl htrans hanti href hdisj _ _).1 ⟨p, hp, hin, rfl⟩⟩
    rintro e he ⟨hlo, hhi⟩
    -- a bound inside belongs to an interval that would overlap
    obtain ⟨q, hq, heq⟩ := (href.bounds e).2 he
    have hqp := hproper q hq
    rcases heq with rfl | rfl
    · have hsame := eq_of_has (x := q.first) hdisj hp hq ⟨by omega, hhi⟩ ⟨Nat.le_refl _, hqp⟩
      rw [hsame] at hlo
      exact Nat.lt_irrefl _ hlo
    · have hpos : 0 < q.last := by omega
      simp only [Proper] at hqp
      have hsame := eq_of_has (x := q.last - 1) hdisj hp hq ⟨by omega, by omega⟩
        ⟨by omega, by omega⟩
      rw [hsame] at hhi
      exact Nat.lt_irrefl _ hhi
  constructor
  · exact hpiece r
  · intro h
    obtain ⟨p, hp, hx, -⟩ := (tagAt_iff_leastTag hrefl htrans hanti href hdisj _ _).2 h.least
    have hin : r.Has r.first := ⟨Nat.le_refl _, h.proper⟩
    rw [h.eq_of_has hanti (hpiece p hp) hin hx]
    exact hp

end Final

end TagInterval

end CheatEngine.Lib
