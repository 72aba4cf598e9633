/-
  CheatEngine.Dbvm.AllocList

  `malloc`, `free` and `realloc` (mm.c), which remember the size of every block in
  `AllocList`.  The list is sorted by the bases of the blocks; a block that is freed keeps
  its entry, with size 0, until a block with a base that belongs there takes it.  The
  blocks themselves come from `malloc2`, which is only assumed to give a block that is
  apart from all others.

  `min` of mm.c takes `int`s, and so `realloc` copies a wrong number of bytes, or never
  ends, when a size does not fit one.
-/
import CheatEngine.Dbvm.MemoryManager
import CheatEngine.Lib.SortedArray

namespace CheatEngine.Dbvm

open CheatEngine.Lib

/-! ## mm.c -/

/-- `MemlistItem2`; the size is 0 when the block was freed. -/
structure MemlistItem2 where
  base : Nat
  size : Nat

/-- `AllocList` with its counters, and the memory that the blocks are in. -/
structure AllocHeap where
  allocList : Option Nat
  items : Nat → MemlistItem2
  allocListPos : Nat
  allocListMax : Nat
  memory : Nat → UInt8
  /-- What `malloc2` gave and `free2` has not taken back: addresses with sizes. -/
  blocks : List (Nat × Nat)

/-- The addresses that `malloc2` gives in a call: for the block, and for `AllocList`, which
    is made or grows. -/
structure GivenBlocks where
  block : Nat
  list : Nat

/-- `min` of two sizes: the smaller `int`, which becomes a `size_t`. -/
def minSize (x y : Nat) : Nat := (min (toInt32 x) (toInt32 y) % 2 ^ 64).toNat

/-- The loop of `copymem`. -/
def copyBytes (memory : Nat → UInt8) (dest src : Nat) : Nat → Nat → UInt8
  | 0 => memory
  | n + 1 => Function.update (copyBytes memory dest src n) (dest + n)
      (copyBytes memory dest src n (src + n))

/-- `copymem`, whose index is an `unsigned int`. -/
def AllocHeap.copymem (memory : Nat → UInt8) (dest src size : Nat) : Option (Nat → UInt8) :=
  if size < 2 ^ 32 then some (copyBytes memory dest src size) else none

namespace AllocHeap

section

variable (s : AllocHeap)

def malloc2 (size given : Nat) : Option Nat × AllocHeap :=
  if size % 2 ^ 32 = 0 then (none, s)
  else (some given, { s with blocks := (given, size % 2 ^ 32) :: s.blocks })

def free2 (address size : Nat) : Option AllocHeap :=
  if (address, size) ∈ s.blocks then some { s with blocks := s.blocks.erase (address, size) }
  else none

def findClosestAllocRegion (address : Nat) : Nat :=
  lowerBound (fun i => (s.items i).base) address s.allocListPos 0 s.allocListPos

/-- `AllocList` moves to twice its size with `realloc2`. -/
def growAllocList (array given : Nat) : Option AllocHeap :=
  let oldsize := 16 * s.allocListMax
  let newsize := 2 * oldsize
  match s.malloc2 newsize given with
  | (none, s) => some { s with allocList := none, allocListMax := 2 * s.allocListMax }
  | (some newaddress, s) =>
    -- the entries are copied, unless the copy does not end
    if minSize oldsize newsize < 2 ^ 32 then do
      let s ← s.free2 array oldsize
      return { s with allocList := some newaddress, allocListMax := 2 * s.allocListMax }
    else none

/-- `malloc` puts the block that it got into the list. -/
def addToAllocList (result size list : Nat) : Option AllocHeap :=
  match s.allocList with
  | none =>
    let (list, s) := s.malloc2 (16 * 64) list
    some { s with
      allocList := list
      allocListMax := 64
      allocListPos := 1
      items := Function.update s.items 0 ⟨result, size⟩ }
  | some array =>
    let insertpoint := s.findClosestAllocRegion result
    if insertpoint < s.allocListPos ∧ (s.items insertpoint).size = 0 then
      some { s with items := Function.update s.items insertpoint ⟨result, size⟩ }
    else if s.allocListPos < s.allocListMax then
      let items := moveUp insertpoint s.allocListPos s.items
      let s := { s with
        items := Function.update items insertpoint ⟨result, size⟩
        allocListPos := s.allocListPos + 1 }
      if s.allocListMax ≤ s.allocListPos then s.growAllocList array list else some s
    else none

def malloc (size : Nat) (given : GivenBlocks) : Option (Option Nat × AllocHeap) :=
  match s.malloc2 size given.block with
  | (none, s) => some (none, s)
  | (some result, s) => do
    let s ← s.addToAllocList result (size % 2 ^ 32) given.list
    return (some result, s)

/-- The entry that `findClosestAllocRegion` finds is of a live block at the address. -/
def HasBlockAt (address : Nat) : Prop :=
  s.findClosestAllocRegion address < s.allocListPos ∧
    (s.items (s.findClosestAllocRegion address)).size ≠ 0 ∧
    (s.items (s.findClosestAllocRegion address)).base = address

end

instance (s : AllocHeap) (address : Nat) : Decidable (s.HasBlockAt address) :=
  inferInstanceAs (Decidable (_ ∧ _ ∧ _))

def free (s : AllocHeap) (address : Nat) : Option AllocHeap :=
  if address = 0 then some s
  else if s.HasBlockAt address then do
    let i := s.findClosestAllocRegion address
    let size := (s.items i).size
    let s ← s.free2 address size
    return { s with items := Function.update s.items i { s.items i with size := 0 } }
  else some s

def realloc (s : AllocHeap) (old size : Nat) (given : GivenBlocks) :
    Option (Option Nat × AllocHeap) :=
  if old = 0 then s.malloc size given
  else if size = 0 then some (none, s)
  else if s.HasBlockAt old then do
    let oldsize := (s.items (s.findClosestAllocRegion old)).size
    let (result, s) ← s.malloc size given
    let memory ← copymem s.memory (result.getD 0) old (minSize size oldsize)
    let s ← AllocHeap.free { s with memory } old
    return (result, s)
  else none

end AllocHeap

/-! ## Runs -/

/-- A call. -/
inductive AllocInput
  | malloc (size : UInt64) (given : GivenBlocks)
  | free (address : Nat)
  | realloc (old : Nat) (size : UInt64) (given : GivenBlocks)

/-- The heap, and the blocks that were returned and not freed: addresses with the sizes
    that were asked for. -/
structure SizedHeap where
  heap : AllocHeap
  live : List (Nat × Nat)

def without (live : List (Nat × Nat)) (address : Nat) : List (Nat × Nat) :=
  live.filter (·.1 ≠ address)

def liveAfter (live : List (Nat × Nat)) (input : AllocInput) (result : Option Nat) :
    List (Nat × Nat) :=
  match input, result with
  | .malloc size _, some a => (a, size.toNat) :: live
  | .malloc _ _, none => live
  | .free address, _ => without live address
  | .realloc old size _, some a => (a, size.toNat) :: without live old
  | .realloc old size _, none => if size = 0 then live else without live old

/-- Two blocks have no byte in common. -/
def Apart (x y : Nat × Nat) : Prop := x.1 + x.2 ≤ y.1 ∨ y.1 + y.2 ≤ x.1

instance (x y : Nat × Nat) : Decidable (Apart x y) := inferInstanceAs (Decidable (_ ∨ _))

/-- What `malloc2` may give while there are the blocks of a list. -/
def MayGive (x : Nat × Nat) (blocks : List (Nat × Nat)) : Prop :=
  0 < x.1 ∧ ∀ b ∈ blocks, Apart x b

instance (x : Nat × Nat) (blocks : List (Nat × Nat)) : Decidable (MayGive x blocks) :=
  inferInstanceAs (Decidable (_ ∧ _))

namespace AllocHeap

def call (s : AllocHeap) : AllocInput → Option (Option Nat × AllocHeap)
  | .malloc size given => s.malloc size.toNat given
  | .free address => (s.free address).map (none, ·)
  | .realloc old size given => s.realloc old size.toNat given

/-- The bytes that `AllocList` takes when it is made or grows. -/
def listSize (s : AllocHeap) : Nat :=
  match s.allocList with
  | none => 16 * 64
  | some _ => 32 * s.allocListMax

/-- The addresses are those of blocks that are apart from all others. -/
def MayGiveBlocks (s : AllocHeap) (size : Nat) (given : GivenBlocks) : Prop :=
  MayGive (given.block, size) s.blocks ∧
    MayGive (given.list, s.listSize) ((given.block, size) :: s.blocks)

instance (s : AllocHeap) (size : Nat) (given : GivenBlocks) :
    Decidable (s.MayGiveBlocks size given) :=
  inferInstanceAs (Decidable (_ ∧ _))

end AllocHeap

namespace SizedHeap

def initial (memory : Nat → UInt8) : SizedHeap := ⟨⟨none, fun _ => ⟨0, 0⟩, 0, 0, memory, []⟩, []⟩

def step (s : SizedHeap) (input : AllocInput) : Option SizedHeap := do
  let (result, heap) ← s.heap.call input
  return ⟨heap, liveAfter s.live input result⟩

def LiveAt (s : SizedHeap) (address : Nat) : Prop := ∃ b ∈ s.live, b.1 = address

instance (s : SizedHeap) (address : Nat) : Decidable (s.LiveAt address) :=
  inferInstanceAs (Decidable (∃ b ∈ s.live, b.1 = address))

/-- `malloc2` gives blocks that are apart from all others, and what is reallocated is
    live, or `NULL`. -/
def Given (s : SizedHeap) : AllocInput → Prop
  | .malloc size given => s.heap.MayGiveBlocks (size.toNat % 2 ^ 32) given
  | .free _ => True
  | .realloc old size given =>
    (old = 0 ∨ s.LiveAt old) ∧ s.heap.MayGiveBlocks (size.toNat % 2 ^ 32) given

/-- The list has room for one more block before its size does not fit an `int`. -/
def HasRoom (s : SizedHeap) : Prop := s.heap.allocListPos + 1 < 2 ^ 26

/-- The sizes fit the types that they go through. -/
def Meets (s : SizedHeap) : AllocInput → Prop
  | .malloc size _ => size.toNat < 2 ^ 32 ∧ s.HasRoom
  | .free _ => True
  | .realloc old size _ =>
    if old = 0 then size.toNat < 2 ^ 32 ∧ s.HasRoom
    else size.toNat < 2 ^ 31 ∧ (∀ b ∈ s.live, b.1 = old → b.2 < 2 ^ 31) ∧ s.HasRoom

instance (s : SizedHeap) : Decidable s.HasRoom := inferInstanceAs (Decidable (_ < _))

instance (s : SizedHeap) (input : AllocInput) : Decidable (s.Given input) :=
  match input with
  | .malloc _ _ => inferInstanceAs (Decidable (AllocHeap.MayGiveBlocks _ _ _))
  | .free _ => inferInstanceAs (Decidable True)
  | .realloc _ _ _ => inferInstanceAs (Decidable ((_ ∨ _) ∧ _))

instance (s : SizedHeap) (input : AllocInput) : Decidable (s.Meets input) :=
  match input with
  | .malloc _ _ => inferInstanceAs (Decidable (_ ∧ _))
  | .free _ => inferInstanceAs (Decidable True)
  | .realloc old _ _ => inferInstanceAs (Decidable (if old = 0 then _ else _))

/-- The list ascends strictly, and it has the size of every live block, and size 0 for
    every other entry. -/
structure Listed (s : SizedHeap) : Prop where
  sorted : AscendingKeys (fun i => (s.heap.items i).base) s.heap.allocListPos
  exact : ∀ b ∈ s.live, ∃ i, i < s.heap.allocListPos ∧ s.heap.items i = ⟨b.1, b.2⟩
  others : ∀ i, i < s.heap.allocListPos → (s.heap.items i).size ≠ 0 →
    ((s.heap.items i).base, (s.heap.items i).size) ∈ s.live

/-- What a call is for, where `heap'` is what it leaves. -/
def Does (s : SizedHeap) (input : AllocInput) (result : Option Nat) (heap' : AllocHeap) : Prop :=
  match input with
  | .malloc size _ => heap'.memory = s.heap.memory ∧ (size.toNat ≠ 0 → result ≠ none) ∧
      ∀ b ∈ s.live, b ∈ heap'.blocks
  | .free address =>
    (∀ b ∈ s.live, b.1 = address → heap'.blocks = s.heap.blocks.erase b ∧
      heap'.memory = s.heap.memory) ∧
    (¬ s.LiveAt address → heap' = s.heap)
  | .realloc old size _ => old ≠ 0 → size.toNat ≠ 0 → ∀ b ∈ s.live, b.1 = old →
      ∃ q, result = some q ∧ b ∉ heap'.blocks ∧
        (∀ i, i < min size.toNat b.2 → heap'.memory (q + i) = s.heap.memory (old + i)) ∧
        (∀ x, ¬ (q ≤ x ∧ x < q + size.toNat) → heap'.memory x = s.heap.memory x) ∧
        ∀ b' ∈ s.live, b' ≠ b → b' ∈ heap'.blocks

/-- The call returns, does what it is for, and the list is right afterwards. -/
def Performs (s : SizedHeap) (input : AllocInput) : Prop :=
  ∃ result heap', s.heap.call input = some (result, heap') ∧ s.Does input result heap' ∧
    Listed ⟨heap', liveAfter s.live input result⟩

end SizedHeap

theorem toInt32_of_lt {n : Nat} (h : n < 2 ^ 31) : toInt32 n = n := by
  have hmod : n % 2 ^ 32 = n := Nat.mod_eq_of_lt (by omega)
  rw [toInt32, hmod, if_pos h]

theorem minSize_of_lt {x y : Nat} (hx : x < 2 ^ 31) (hy : y < 2 ^ 31) : minSize x y = min x y := by
  rw [minSize, toInt32_of_lt hx, toInt32_of_lt hy]
  omega

theorem Apart.symm {x y : Nat × Nat} (h : Apart x y) : Apart y x := Or.symm h

theorem Apart.base_ne {x y : Nat × Nat} (h : Apart x y) (hx : 0 < x.2) (hy : 0 < y.2) :
    x.1 ≠ y.1 := by
  rcases h with h | h <;> omega

theorem copyBytes_apply (memory : Nat → UInt8) {dest src n : Nat}
    (hapart : Apart (dest, n) (src, n)) (x : Nat) :
    copyBytes memory dest src n x =
      if dest ≤ x ∧ x < dest + n then memory (src + (x - dest)) else memory x := by
  -- the bytes that were copied are never read, since the blocks are apart
  suffices h : ∀ m, m ≤ n → ∀ x, copyBytes memory dest src m x =
      if dest ≤ x ∧ x < dest + m then memory (src + (x - dest)) else memory x from
    h n (Nat.le_refl n) x
  intro m
  induction m with
  | zero =>
    intro _ x
    rw [copyBytes, if_neg (by omega)]
  | succ m ih =>
    intro hm x
    rw [copyBytes]
    by_cases hx : x = dest + m
    · subst hx
      have hsrc : ¬ (dest ≤ src + m ∧ src + m < dest + m) := by
        rcases hapart with h | h <;> dsimp only at h <;> omega
      rw [Function.update_self, ih (by omega), if_neg hsrc, if_pos (by omega),
        Nat.add_sub_cancel_left]
    · rw [Function.update_of_ne hx, ih (by omega)]
      by_cases hin : dest ≤ x ∧ x < dest + m
      · rw [if_pos hin, if_pos (by omega)]
      · rw [if_neg hin, if_neg (by omega)]

/-! ## What a run keeps -/

def AllocHeap.listBlock (s : AllocHeap) : List (Nat × Nat) :=
  match s.allocList with
  | none => []
  | some array => [(array, 16 * s.allocListMax)]

namespace SizedHeap

/-- Besides the list: the blocks of `malloc2` are the live ones and that of the list, and
    the list has an entry that is not used. -/
structure Inv (s : SizedHeap) : Prop extends Listed s where
  positive : ∀ b ∈ s.live, 0 < b.1 ∧ 0 < b.2
  blocks : s.heap.blocks.Perm (s.heap.listBlock ++ s.live)
  apart : s.heap.blocks.Pairwise Apart
  empty : s.heap.allocList = none → s.heap.allocListPos = 0
  space : s.heap.allocList ≠ none → s.heap.allocListPos < s.heap.allocListMax

variable {s : SizedHeap} {a n list : Nat} {b c : Nat × Nat}

theorem Inv.mem_blocks (h : s.Inv) (hb : b ∈ s.live) : b ∈ s.heap.blocks :=
  h.blocks.mem_iff.2 (List.mem_append_right _ hb)

theorem Inv.pos_of_mem (h : s.Inv) (hb : b ∈ s.heap.blocks) : 0 < b.2 := by
  rcases List.mem_append.1 (h.blocks.mem_iff.1 hb) with hlist | hlive
  · unfold AllocHeap.listBlock at hlist
    have hspace := h.space
    split at hlist
    · exact absurd hlist List.not_mem_nil
    next array harray =>
      have hlt := hspace (harray ▸ Option.some_ne_none _)
      rw [List.mem_singleton.1 hlist]
      show 0 < 16 * s.heap.allocListMax
      omega
  · exact (h.positive b hlive).2

theorem Inv.eq_of_base (h : s.Inv) (hb : b ∈ s.live) (hc : c ∈ s.live) (heq : b.1 = c.1) :
    b = c := by
  obtain ⟨i, hi, hitem⟩ := h.exact b hb
  obtain ⟨j, hj, hitem'⟩ := h.exact c hc
  have hij : i = j := h.sorted.inj hi hj (by rw [hitem, hitem']; exact heq)
  subst hij
  have hsize : b.2 = c.2 := congrArg MemlistItem2.size (hitem.symm.trans hitem')
  exact Prod.ext heq hsize

theorem Inv.nodup (h : s.Inv) : s.live.Nodup := by
  have hpairwise : (s.heap.listBlock ++ s.live).Pairwise Apart :=
    (h.blocks.pairwise_iff Apart.symm).1 h.apart
  refine (List.pairwise_append.1 hpairwise).2.1.imp_of_mem fun hb hc hapart heq => ?_
  exact hapart.base_ne (h.positive _ hb).2 (h.positive _ hc).2 (congrArg Prod.fst heq)

theorem Inv.live_perm (h : s.Inv) (hb : b ∈ s.live) : s.live.Perm (b :: without s.live b.1) := by
  have herase : s.live.erase b = without s.live b.1 := by
    rw [h.nodup.erase_eq_filter, without]
    apply List.filter_congr
    intro c hc
    have hiff : c ≠ b ↔ c.1 ≠ b.1 :=
      not_congr ⟨congrArg Prod.fst, fun heq => h.eq_of_base hc hb heq⟩
    by_cases hcb : c = b
    · subst hcb
      simp
    · simp [hcb, hiff.1 hcb]
  rw [← herase]
  exact List.perm_cons_erase hb

theorem without_of_dead (hdead : ¬ s.LiveAt a) : without s.live a = s.live := by
  apply List.filter_eq_self.2
  intro b hb
  exact decide_eq_true fun heq => hdead ⟨b, hb, heq⟩

section

variable (h : s.Inv)
include h

theorem Inv.place (address : Nat) :
    IsPlace (fun i => (s.heap.items i).base) address s.heap.allocListPos
      (s.heap.findClosestAllocRegion address) :=
  lowerBound_spec h.sorted _ 0 _ (Nat.sub_le _ _) (Nat.zero_le _) (Nat.le_refl _)
    (fun k hk => absurd hk (Nat.not_lt_zero k)) fun _ hle hlt => absurd hlt (Nat.not_lt.2 hle)

theorem Inv.find (hb : b ∈ s.live) :
    s.heap.findClosestAllocRegion b.1 < s.heap.allocListPos ∧
      s.heap.items (s.heap.findClosestAllocRegion b.1) = ⟨b.1, b.2⟩ := by
  obtain ⟨i, hi, hitem⟩ := h.exact b hb
  have hplace := h.place b.1
  generalize s.heap.findClosestAllocRegion b.1 = r at hplace
  have hbase : (s.heap.items i).base = b.1 := congrArg MemlistItem2.base hitem
  -- the place is not behind the entry, and the entry there is not less
  have hri : r ≤ i := by
    by_contra hlt
    have hbelow := hplace.below i (by omega)
    omega
  have hle := h.sorted.le hri hi
  have hge := hplace.above r (Nat.le_refl _) (by omega)
  have heq : r = i := h.sorted.inj (by omega) hi (by omega)
  rw [heq]
  exact ⟨hi, hitem⟩

theorem Inv.hasBlockAt_iff (address : Nat) :
    s.heap.HasBlockAt address ↔ s.LiveAt address := by
  constructor
  · rintro ⟨hlt, hsize, hbase⟩
    exact ⟨_, h.others _ hlt hsize, hbase⟩
  · rintro ⟨b, hb, rfl⟩
    obtain ⟨hlt, hitem⟩ := h.find hb
    refine ⟨hlt, ?_, ?_⟩
    · rw [hitem]
      exact Nat.ne_of_gt (h.positive b hb).2
    · rw [hitem]

theorem Inv.free_live (hb : b ∈ s.live) :
    ∃ heap', s.heap.free b.1 = some heap' ∧ heap'.blocks = s.heap.blocks.erase b ∧
      heap'.memory = s.heap.memory ∧ Inv ⟨heap', without s.live b.1⟩ := by
  have hlive : s.LiveAt b.1 := ⟨b, hb, rfl⟩
  have hne : b.1 ≠ 0 := Nat.ne_of_gt (h.positive b hb).1
  obtain ⟨hlt, hitem⟩ := h.find hb
  have hperm := h.live_perm hb
  simp only [AllocHeap.free, if_neg hne, if_pos ((h.hasBlockAt_iff b.1).2 hlive), AllocHeap.free2,
    hitem, if_pos (h.mem_blocks hb), Option.bind_eq_bind, Option.bind_some]
  generalize s.heap.findClosestAllocRegion b.1 = r at hlt hitem
  have hbase : (s.heap.items r).base = b.1 := congrArg MemlistItem2.base hitem
  -- the entry keeps its base
  have hkey : (fun i => (Function.update s.heap.items r ⟨b.1, 0⟩ i).base) =
      fun i => (s.heap.items i).base := by
    funext i
    by_cases hi : i = r
    · subst hi
      rw [Function.update_self, hbase]
    · rw [Function.update_of_ne hi]
  refine ⟨_, rfl, rfl, rfl, ⟨⟨?_, ?_, ?_⟩, ?_, ?_, ?_, h.empty, h.space⟩⟩
  · show AscendingKeys (fun i => (Function.update s.heap.items r ⟨b.1, 0⟩ i).base) _
    rw [hkey]
    exact h.sorted
  · intro c hc
    obtain ⟨hc, hcb⟩ := List.mem_filter.1 hc
    obtain ⟨i, hi, hitem'⟩ := h.exact c hc
    have hir : i ≠ r := by
      rintro rfl
      rw [hitem] at hitem'
      exact of_decide_eq_true hcb (congrArg MemlistItem2.base hitem').symm
    refine ⟨i, hi, ?_⟩
    show Function.update s.heap.items r ⟨b.1, 0⟩ i = _
    rw [Function.update_of_ne hir]
    exact hitem'
  · intro i hi hsize
    show ((Function.update s.heap.items r ⟨b.1, 0⟩ i).base,
      (Function.update s.heap.items r ⟨b.1, 0⟩ i).size) ∈ _
    have hir : i ≠ r := by
      rintro rfl
      have hsize' : (Function.update s.heap.items i ⟨b.1, 0⟩ i).size ≠ 0 := hsize
      rw [Function.update_self] at hsize'
      exact hsize' rfl
    have hsize' : (Function.update s.heap.items r ⟨b.1, 0⟩ i).size ≠ 0 := hsize
    rw [Function.update_of_ne hir] at hsize' ⊢
    refine List.mem_filter.2 ⟨h.others i hi hsize', decide_eq_true fun heq => hir ?_⟩
    exact h.sorted.inj hi hlt (heq.trans hbase.symm)
  · exact fun c hc => h.positive c (List.mem_filter.1 hc).1
  · -- the blocks of `malloc2` are those from before without this one
    have hblocks : s.heap.blocks.Perm (b :: (s.heap.listBlock ++ without s.live b.1)) :=
      h.blocks.trans ((hperm.append_left _).trans List.perm_middle)
    exact (List.cons_perm_iff_perm_erase.1 hblocks.symm).2.symm
  · exact h.apart.sublist (List.erase_sublist ..)

theorem Inv.free_dead (hdead : ¬ s.LiveAt a) : s.heap.free a = some s.heap := by
  rw [AllocHeap.free]
  split
  · rfl
  · rw [if_neg (mt (h.hasBlockAt_iff a).1 hdead)]

/-! ## `malloc` -/

theorem Inv.base_ne (hn : 0 < n) (hgive : MayGive (a, n) s.heap.blocks)
    (hb : b ∈ s.live) : b.1 ≠ a :=
  (hgive.2 b (h.mem_blocks hb)).symm.base_ne (h.positive b hb).2 hn

theorem Inv.listed_replace (hlt : s.heap.findClosestAllocRegion a < s.heap.allocListPos)
    (hfree : (s.heap.items (s.heap.findClosestAllocRegion a)).size = 0) (blocks : List (Nat × Nat)) :
    Listed ⟨{ s.heap with
      blocks
      items := Function.update s.heap.items (s.heap.findClosestAllocRegion a) ⟨a, n⟩ },
      (a, n) :: s.live⟩ := by
  have hplace := h.place a
  generalize s.heap.findClosestAllocRegion a = r at hlt hfree hplace
  refine ⟨h.sorted.replace (x := ⟨a, n⟩) hplace, ?_, ?_⟩
  · intro b hb
    rcases List.mem_cons.1 hb with rfl | hmem
    · exact ⟨r, hlt, Function.update_self ..⟩
    · obtain ⟨i, hi, hitem⟩ := h.exact b hmem
      have hir : i ≠ r := by
        rintro rfl
        rw [hitem] at hfree
        exact Nat.ne_of_gt (h.positive b hmem).2 hfree
      exact ⟨i, hi, (Function.update_of_ne hir _ _).trans hitem⟩
  · intro i hi hsize
    show ((Function.update s.heap.items r ⟨a, n⟩ i).base,
      (Function.update s.heap.items r ⟨a, n⟩ i).size) ∈ _
    have hsize' : (Function.update s.heap.items r ⟨a, n⟩ i).size ≠ 0 := hsize
    by_cases hir : i = r
    · subst hir
      rw [Function.update_self]
      exact List.mem_cons_self
    · rw [Function.update_of_ne hir] at hsize' ⊢
      exact List.mem_cons_of_mem _ (h.others i hi hsize')

theorem Inv.listed_insert (hn : 0 < n) (hgive : MayGive (a, n) s.heap.blocks)
    (hused : s.heap.findClosestAllocRegion a < s.heap.allocListPos →
      (s.heap.items (s.heap.findClosestAllocRegion a)).size ≠ 0) {heap' : AllocHeap}
    (hpos : heap'.allocListPos = s.heap.allocListPos + 1)
    (hitems : heap'.items = Function.update (moveUp (s.heap.findClosestAllocRegion a)
      s.heap.allocListPos s.heap.items) (s.heap.findClosestAllocRegion a) ⟨a, n⟩) :
    Listed ⟨heap', (a, n) :: s.live⟩ := by
  have hplace := h.place a
  generalize s.heap.findClosestAllocRegion a = r at hused hplace hitems
  have hinsert : ∀ p : MemlistItem2 → Prop,
      (∃ i, i < heap'.allocListPos ∧ p (heap'.items i)) ↔
        p ⟨a, n⟩ ∨ ∃ i, i < s.heap.allocListPos ∧ p (s.heap.items i) := by
    intro p
    rw [hpos, hitems]
    exact exists_insert_iff hplace.le
  refine ⟨?_, ?_, ?_⟩
  · show AscendingKeys (fun i => (heap'.items i).base) heap'.allocListPos
    rw [hpos, hitems]
    refine h.sorted.insert (x := ⟨a, n⟩) hplace fun hr => ?_
    exact h.base_ne hn hgive (h.others r hr (hused hr))
  · intro b hb
    refine (hinsert (· = ⟨b.1, b.2⟩)).2 ?_
    rcases List.mem_cons.1 hb with rfl | hmem
    · exact .inl rfl
    · exact .inr (h.exact b hmem)
  · intro i hi hsize
    rcases (hinsert (· = heap'.items i)).1 ⟨i, hi, rfl⟩ with heq | ⟨j, hj, heq⟩
    · show ((heap'.items i).base, (heap'.items i).size) ∈ _
      rw [← heq]
      exact List.mem_cons_self
    · show ((heap'.items i).base, (heap'.items i).size) ∈ _
      have hsize' : (heap'.items i).size ≠ 0 := hsize
      rw [← heq] at hsize' ⊢
      exact List.mem_cons_of_mem _ (h.others j hj hsize')

theorem Inv.blocks_cons :
    ((a, n) :: s.heap.blocks).Perm (s.heap.listBlock ++ (a, n) :: s.live) :=
  (h.blocks.cons _).trans List.perm_middle.symm

theorem Inv.apart_cons (hgive : MayGive (a, n) s.heap.blocks) :
    ((a, n) :: s.heap.blocks).Pairwise Apart :=
  List.pairwise_cons.2 ⟨hgive.2, h.apart⟩

theorem Inv.positive_cons (hn : 0 < n) (hgive : MayGive (a, n) s.heap.blocks) :
    ∀ b ∈ (a, n) :: s.live, 0 < b.1 ∧ 0 < b.2 := by
  intro b hb
  rcases List.mem_cons.1 hb with rfl | hb
  · exact ⟨hgive.1, hn⟩
  · exact h.positive b hb

theorem Inv.grow (hn : 0 < n) (hgive : MayGive (a, n) s.heap.blocks)
    (hlist : MayGive (list, s.heap.listSize) ((a, n) :: s.heap.blocks)) (hroom : s.HasRoom)
    {array : Nat} (harray : s.heap.allocList = some array)
    (hmax : s.heap.allocListMax ≤ s.heap.allocListPos + 1) {items : Nat → MemlistItem2}
    (hlisted : Listed ⟨{ s.heap with
      blocks := (a, n) :: s.heap.blocks
      items, allocListPos := s.heap.allocListPos + 1 }, (a, n) :: s.live⟩) :
    ∃ heap', AllocHeap.growAllocList { s.heap with
        blocks := (a, n) :: s.heap.blocks
        items, allocListPos := s.heap.allocListPos + 1 } array list = some heap' ∧
      heap'.memory = s.heap.memory ∧ Inv ⟨heap', (a, n) :: s.live⟩ := by
  have hspace := h.space (by rw [harray]; nofun)
  have hlt : s.heap.allocListPos + 1 < 2 ^ 26 := hroom
  have hsize : 2 * (16 * s.heap.allocListMax) % 2 ^ 32 = 2 * (16 * s.heap.allocListMax) :=
    Nat.mod_eq_of_lt (by omega)
  have hne : 2 * (16 * s.heap.allocListMax) ≠ 0 := by omega
  have hcopy : minSize (16 * s.heap.allocListMax) (2 * (16 * s.heap.allocListMax)) < 2 ^ 32 := by
    rw [minSize_of_lt (by omega) (by omega)]
    omega
  have hblock : s.heap.listBlock = [(array, 16 * s.heap.allocListMax)] := by
    rw [AllocHeap.listBlock, harray]
  have hlistSize : s.heap.listSize = 2 * (16 * s.heap.allocListMax) := by
    rw [AllocHeap.listSize, harray]
    dsimp only
    omega
  rw [hlistSize] at hlist
  -- the old block of the list is one of `malloc2`
  have hblocks : ((a, n) :: s.heap.blocks).Perm
      ((array, 16 * s.heap.allocListMax) :: (a, n) :: s.live) := by
    have hperm := h.blocks_cons (a := a) (n := n)
    rwa [hblock] at hperm
  have hmem : (array, 16 * s.heap.allocListMax) ∈
      (list, 2 * (16 * s.heap.allocListMax)) :: (a, n) :: s.heap.blocks :=
    List.mem_cons_of_mem _ (hblocks.mem_iff.2 List.mem_cons_self)
  simp only [AllocHeap.growAllocList, AllocHeap.malloc2, hsize, if_neg hne, if_pos hcopy,
    AllocHeap.free2, if_pos hmem, Option.bind_eq_bind, Option.bind_some]
  refine ⟨_, rfl, rfl, ⟨⟨hlisted.sorted, hlisted.exact, hlisted.others⟩,
    h.positive_cons hn hgive, ?_, ?_, nofun, ?_⟩⟩
  · have hold := (hblocks.cons (list, 2 * (16 * s.heap.allocListMax))).trans (List.Perm.swap ..)
    have herase := (List.cons_perm_iff_perm_erase.1 hold.symm).2.symm
    show List.Perm _ ((list, 16 * (2 * s.heap.allocListMax)) :: (a, n) :: s.live)
    rw [Nat.mul_left_comm 16 2]
    exact herase
  · have hpairwise := List.pairwise_cons.2 ⟨hlist.2, h.apart_cons hgive⟩
    exact hpairwise.sublist (List.erase_sublist ..)
  · intro _
    show s.heap.allocListPos + 1 < 2 * s.heap.allocListMax
    omega

end

/-- A block that is not the first: it takes an entry, or one is inserted. -/
theorem addToAllocList_some {s : AllocHeap} {array : Nat} (harray : s.allocList = some array)
    (result size list : Nat) :
    s.addToAllocList result size list =
      if s.findClosestAllocRegion result < s.allocListPos ∧
          (s.items (s.findClosestAllocRegion result)).size = 0 then
        some { s with
          items := Function.update s.items (s.findClosestAllocRegion result) ⟨result, size⟩ }
      else if s.allocListPos < s.allocListMax then
        let s' := { s with
          items := Function.update
            (moveUp (s.findClosestAllocRegion result) s.allocListPos s.items)
            (s.findClosestAllocRegion result) ⟨result, size⟩
          allocListPos := s.allocListPos + 1 }
        if s.allocListMax ≤ s.allocListPos + 1 then s'.growAllocList array list else some s'
      else none := by
  rw [AllocHeap.addToAllocList, harray]

theorem Inv.addToAllocList (h : s.Inv) (hn : 0 < n) (hgive : MayGive (a, n) s.heap.blocks)
    (hlist : MayGive (list, s.heap.listSize) ((a, n) :: s.heap.blocks)) (hroom : s.HasRoom) :
    ∃ heap', AllocHeap.addToAllocList { s.heap with blocks := (a, n) :: s.heap.blocks } a n list =
        some heap' ∧
      heap'.memory = s.heap.memory ∧ Inv ⟨heap', (a, n) :: s.live⟩ := by
  rcases Option.eq_none_or_eq_some s.heap.allocList with harray | ⟨array, harray⟩
  · -- the first block, so that nothing is live
    have hpos := h.empty harray
    have hlive : s.live = [] := by
      apply List.eq_nil_iff_forall_not_mem.2
      intro b hb
      obtain ⟨i, hi, -⟩ := h.exact b hb
      omega
    have hblocks : s.heap.blocks = [] := by
      have hperm := h.blocks
      rw [AllocHeap.listBlock, harray, hlive] at hperm
      exact hperm.eq_nil
    rw [AllocHeap.listSize, harray] at hlist
    rw [AllocHeap.addToAllocList, harray]
    refine ⟨_, rfl, rfl, ⟨⟨?_, ?_, ?_⟩, h.positive_cons hn hgive, ?_, ?_, nofun, ?_⟩⟩
    · intro i j hij hj
      have hj' : j < 1 := hj
      omega
    · intro b hb
      rw [hlive] at hb
      obtain rfl := List.mem_singleton.1 hb
      refine ⟨0, Nat.zero_lt_one, ?_⟩
      show Function.update s.heap.items 0 _ 0 = _
      exact Function.update_self ..
    · intro i hi _
      have hi' : i = 0 := Nat.lt_one_iff.1 hi
      subst hi'
      exact List.mem_cons_self
    · rw [hlive]
      show List.Perm ((list, 1024) :: (a, n) :: s.heap.blocks) [(list, 1024), (a, n)]
      rw [hblocks]
    · exact List.pairwise_cons.2 ⟨hlist.2, h.apart_cons hgive⟩
    · intro _
      show 1 < 64
      omega
  · have hspace := h.space (by rw [harray]; nofun)
    rw [addToAllocList_some (s := { s.heap with blocks := (a, n) :: s.heap.blocks }) harray]
    show ∃ heap', (if s.heap.findClosestAllocRegion a < s.heap.allocListPos ∧
        (s.heap.items (s.heap.findClosestAllocRegion a)).size = 0 then _ else _) = _ ∧ _
    by_cases hfree : s.heap.findClosestAllocRegion a < s.heap.allocListPos ∧
        (s.heap.items (s.heap.findClosestAllocRegion a)).size = 0
    · rw [if_pos hfree]
      exact ⟨_, rfl, rfl, ⟨h.listed_replace hfree.1 hfree.2 _, h.positive_cons hn hgive,
        h.blocks_cons, h.apart_cons hgive, h.empty, h.space⟩⟩
    · have hused : s.heap.findClosestAllocRegion a < s.heap.allocListPos →
          (s.heap.items (s.heap.findClosestAllocRegion a)).size ≠ 0 :=
        fun hlt hsize => hfree ⟨hlt, hsize⟩
      rw [if_neg hfree, if_pos hspace]
      dsimp only
      split
      · next hmax =>
        exact h.grow hn hgive hlist hroom harray hmax (h.listed_insert hn hgive hused rfl rfl)
      · next hmax =>
        refine ⟨_, rfl, rfl, ⟨h.listed_insert hn hgive hused rfl rfl,
          h.positive_cons hn hgive, h.blocks_cons, h.apart_cons hgive, ?_, fun _ => ?_⟩⟩
        · intro hnone
          exact nomatch harray.symm.trans hnone
        · exact Nat.not_le.1 hmax

variable {given : GivenBlocks}

theorem Inv.malloc (h : s.Inv) {size : Nat} (hsize : size < 2 ^ 32)
    (hgive : s.heap.MayGiveBlocks (size % 2 ^ 32) given) (hroom : s.HasRoom) :
    (size = 0 ∧ s.heap.malloc size given = some (none, s.heap)) ∨
      ∃ heap', 0 < size ∧ s.heap.malloc size given = some (some given.block, heap') ∧
        heap'.memory = s.heap.memory ∧ Inv ⟨heap', (given.block, size) :: s.live⟩ := by
  have hmod : size % 2 ^ 32 = size := Nat.mod_eq_of_lt hsize
  by_cases hzero : size = 0
  · subst hzero
    exact .inl ⟨rfl, rfl⟩
  · rw [AllocHeap.MayGiveBlocks, hmod] at hgive
    obtain ⟨heap', hadd, hmemory, hinv⟩ :=
      h.addToAllocList (Nat.pos_of_ne_zero hzero) hgive.1 hgive.2 hroom
    refine .inr ⟨heap', Nat.pos_of_ne_zero hzero, ?_, hmemory, hinv⟩
    simp only [AllocHeap.malloc, AllocHeap.malloc2, hmod, if_neg hzero, hadd, Option.bind_eq_bind,
      Option.bind_some]
    rfl

theorem Inv.setMemory (h : s.Inv) (memory : Nat → UInt8) :
    Inv ⟨{ s.heap with memory }, s.live⟩ :=
  ⟨⟨h.sorted, h.exact, h.others⟩, h.positive, h.blocks, h.apart, h.empty, h.space⟩

theorem Inv.realloc (h : s.Inv) (hb : b ∈ s.live) {size : Nat} (hpos : 0 < size)
    (hsize : size < 2 ^ 31) (hold : b.2 < 2 ^ 31)
    (hgive : s.heap.MayGiveBlocks (size % 2 ^ 32) given) (hroom : s.HasRoom) :
    ∃ heap', s.heap.realloc b.1 size given = some (some given.block, heap') ∧
      Inv ⟨heap', (given.block, size) :: without s.live b.1⟩ ∧ b ∉ heap'.blocks ∧
      (∀ i, i < min size b.2 → heap'.memory (given.block + i) = s.heap.memory (b.1 + i)) ∧
      ∀ x, ¬ (given.block ≤ x ∧ x < given.block + size) → heap'.memory x = s.heap.memory x := by
  have hne : b.1 ≠ 0 := Nat.ne_of_gt (h.positive b hb).1
  have hmod : size % 2 ^ 32 = size := Nat.mod_eq_of_lt (by omega)
  have hlive : s.LiveAt b.1 := ⟨b, hb, rfl⟩
  obtain ⟨-, hitem⟩ := h.find hb
  have hitemsize : (s.heap.items (s.heap.findClosestAllocRegion b.1)).size = b.2 :=
    congrArg MemlistItem2.size hitem
  obtain ⟨hzero, -⟩ | ⟨heap₁, -, hmalloc, hmemory, h₁⟩ :=
    h.malloc (by omega) hgive hroom
  · omega
  have hapart : Apart (given.block, size) b := by
    have hall := hgive.1.2 b (h.mem_blocks hb)
    rwa [hmod] at hall
  -- the bytes that are copied are in both blocks
  have hcopied : Apart (given.block, min size b.2) (b.1, min size b.2) := by
    rcases hapart with hle | hle
    · exact .inl (by dsimp only at hle ⊢; omega)
    · exact .inr (by dsimp only at hle ⊢; omega)
  have hmin : min size b.2 < 2 ^ 32 := by omega
  have h₂ := h₁.setMemory (copyBytes heap₁.memory given.block b.1 (min size b.2))
  have hb₂ : b ∈ (given.block, size) :: s.live := List.mem_cons_of_mem _ hb
  obtain ⟨heap₂, hfree, hblocks, hmemory₂, h₃⟩ := h₂.free_live hb₂
  have hwithout : without ((given.block, size) :: s.live) b.1 =
      (given.block, size) :: without s.live b.1 := by
    have hbase : given.block ≠ b.1 :=
      hapart.base_ne hpos (h.positive b hb).2
    simp [without, hbase]
  refine ⟨heap₂, ?_, hwithout ▸ h₃, ?_, ?_, ?_⟩
  · simp only [AllocHeap.realloc, if_neg hne, if_neg (Nat.ne_of_gt hpos),
      if_pos ((h.hasBlockAt_iff b.1).2 hlive), hitemsize, hmalloc, Option.bind_eq_bind,
      Option.bind_some, minSize_of_lt hsize hold, AllocHeap.copymem, if_pos hmin, Option.getD_some, hfree]
    rfl
  · intro hmem
    rw [hblocks] at hmem
    -- of the blocks of `malloc2` none is there twice
    have hnodup : heap₁.blocks.Nodup :=
      h₁.apart.imp_of_mem fun hx hy hxy heq =>
        hxy.base_ne (h₁.pos_of_mem hx) (h₁.pos_of_mem hy) (congrArg Prod.fst heq)
    exact hnodup.not_mem_erase hmem
  · intro i hi
    rw [hmemory₂]
    show copyBytes heap₁.memory given.block b.1 (min size b.2) (given.block + i) = _
    rw [copyBytes_apply _ hcopied, if_pos (by omega), hmemory, Nat.add_sub_cancel_left]
  · intro x hx
    rw [hmemory₂]
    show copyBytes heap₁.memory given.block b.1 (min size b.2) x = _
    rw [copyBytes_apply _ hcopied, if_neg (by omega), hmemory]

/-! ## Calls and runs -/

theorem inv_initial (memory : Nat → UInt8) : (initial memory).Inv where
  sorted := fun _ _ _ hj => absurd hj (Nat.not_lt_zero _)
  exact := nofun
  others := fun _ hi => absurd hi (Nat.not_lt_zero _)
  positive := nofun
  blocks := List.Perm.refl _
  apart := List.Pairwise.nil
  empty := fun _ => rfl
  space := fun hne => absurd rfl hne

theorem toNat_eq_zero_iff (size : UInt64) : size.toNat = 0 ↔ size = 0 :=
  ⟨fun h => UInt64.toNat_inj.1 h, fun h => h ▸ rfl⟩

theorem Inv.malloc_call (h : s.Inv) {size : UInt64} (hsize : size.toNat < 2 ^ 32)
    (hgive : s.heap.MayGiveBlocks (size.toNat % 2 ^ 32) given) (hroom : s.HasRoom) :
    ∃ result heap', s.heap.malloc size.toNat given = some (result, heap') ∧
      s.Does (.malloc size given) result heap' ∧
      Inv ⟨heap', liveAfter s.live (.malloc size given) result⟩ := by
  rcases h.malloc hsize hgive hroom with ⟨hzero, hmalloc⟩ | ⟨heap', -, hmalloc, hmemory, hinv⟩
  · exact ⟨none, s.heap, hmalloc, ⟨rfl, fun hne => absurd hzero hne, fun b hb => h.mem_blocks hb⟩, h⟩
  · refine ⟨some given.block, heap', hmalloc, ⟨hmemory, fun _ => nofun, fun b hb => ?_⟩, hinv⟩
    exact hinv.mem_blocks (List.mem_cons_of_mem _ hb)

theorem Inv.call (h : s.Inv) {input : AllocInput} (hgiven : s.Given input)
    (hmeets : s.Meets input) :
    ∃ result heap', s.heap.call input = some (result, heap') ∧ s.Does input result heap' ∧
      Inv ⟨heap', liveAfter s.live input result⟩ := by
  cases input with
  | malloc size given => exact h.malloc_call hmeets.1 hgiven hmeets.2
  | free address =>
    by_cases hlive : s.LiveAt address
    · obtain ⟨b, hb, rfl⟩ := hlive
      obtain ⟨heap', hfree, hblocks, hmemory, hinv⟩ := h.free_live hb
      refine ⟨none, heap', congrArg (Option.map (none, ·)) hfree, ⟨?_, ?_⟩, hinv⟩
      · intro c hc heq
        rw [h.eq_of_base hc hb heq]
        exact ⟨hblocks, hmemory⟩
      · exact fun hdead => absurd ⟨b, hb, rfl⟩ hdead
    · refine ⟨none, s.heap, congrArg (Option.map (none, ·)) (h.free_dead hlive), ⟨?_, fun _ => rfl⟩, ?_⟩
      · exact fun b hb heq => absurd ⟨b, hb, heq⟩ hlive
      · show Inv ⟨s.heap, without s.live address⟩
        rw [without_of_dead hlive]
        exact h
  | realloc old size given =>
    by_cases hold : old = 0
    · subst hold
      have hdead : ¬ s.LiveAt 0 := by
        rintro ⟨b, hb, hzero⟩
        exact Nat.ne_of_gt (h.positive b hb).1 hzero
      obtain ⟨result, heap', hmalloc, -, hinv⟩ := h.malloc_call hmeets.1 hgiven.2 hmeets.2
      refine ⟨result, heap', hmalloc, fun hne => absurd rfl hne, ?_⟩
      have hlive : liveAfter s.live (.realloc 0 size given) result =
          liveAfter s.live (.malloc size given) result := by
        cases result with
        | none => simp [liveAfter, without_of_dead hdead]
        | some a => simp [liveAfter, without_of_dead hdead]
      rw [hlive]
      exact hinv
    · rw [Meets, if_neg hold] at hmeets
      obtain ⟨hsize, holdsize, hroom⟩ := hmeets
      obtain ⟨b, hb, rfl⟩ := hgiven.1.resolve_left hold
      by_cases hzero : size.toNat = 0
      · refine ⟨none, s.heap, ?_, fun _ hne => absurd hzero hne, ?_⟩
        · show s.heap.realloc b.1 size.toNat given = _
          rw [AllocHeap.realloc, if_neg hold, if_pos hzero]
        · show Inv ⟨s.heap, if size = 0 then s.live else without s.live b.1⟩
          rw [if_pos ((toNat_eq_zero_iff size).1 hzero)]
          exact h
      · obtain ⟨heap', hrealloc, hinv, hgone, hbytes, hframe⟩ := h.realloc hb
          (Nat.pos_of_ne_zero hzero) hsize (holdsize b hb rfl) hgiven.2 hroom
        refine ⟨some given.block, heap', hrealloc, ?_, hinv⟩
        intro _ _ c hc heq
        obtain rfl := h.eq_of_base hc hb heq
        refine ⟨given.block, rfl, hgone, hbytes, hframe, fun d hd hne => ?_⟩
        refine hinv.mem_blocks (List.mem_cons_of_mem _ (List.mem_filter.2 ⟨hd, ?_⟩))
        exact decide_eq_true fun heq => hne (h.eq_of_base hd hc heq)

/-- In a run in which `malloc2` gives blocks that are apart from all others, and in which
    the sizes fit their types, every call returns, does what it is for and leaves the list
    right. -/
theorem sizedAllocations (memory : Nat → UInt8) (inputs : List AllocInput)
    (hrun : AlongM step (fun s input => s.Given input ∧ s.Meets input) (initial memory) inputs) :
    AlongM step Performs (initial memory) inputs := by
  refine AlongM.imp (I := Inv) ?_ (inv_initial memory) hrun
  rintro s input hinv ⟨hgiven, hmeets⟩
  obtain ⟨result, heap', hcall, hdoes, hinv'⟩ := hinv.call hgiven hmeets
  refine ⟨⟨result, heap', hcall, hdoes, hinv'.toListed⟩, fun s' hs' => ?_⟩
  rw [step, hcall] at hs'
  exact Option.some.inj hs' ▸ hinv'

/-- A block is allocated and reallocated, and both addresses are freed. -/
def reallocated : List AllocInput :=
  [.malloc 48 ⟨4096, 8192⟩, .realloc 4096 96 ⟨12288, 16384⟩, .free 4096, .free 12288]

theorem sizedAllocations_reallocated :
    AlongM step Performs (initial fun _ => 0) reallocated :=
  sizedAllocations (fun _ => 0) reallocated (by decide +kernel)

def reallocatedHuge : List AllocInput :=
  [.malloc 64 ⟨4096, 8192⟩, .realloc 4096 2147483648 ⟨65536, 4294967296⟩]

/-- The number of bytes to copy becomes negative, and the copy does not end. -/
theorem not_sizedAllocations : ¬ ∀ (memory : Nat → UInt8) (inputs : List AllocInput),
    AlongM step Given (initial memory) inputs → AlongM step Performs (initial memory) inputs := by
  intro hall
  have hgiven : AlongM step Given (initial fun _ => 0) reallocatedHuge := by decide
  have hrun := hall (fun _ => 0) reallocatedHuge hgiven
  have hreturns : (step (initial fun _ => 0) (.malloc 64 ⟨4096, 8192⟩)).isSome = true := by decide
  obtain ⟨s, hs⟩ := Option.isSome_iff_exists.1 hreturns
  obtain ⟨result, heap', hcall, -⟩ := (hrun.2 s hs).1
  have hstuck : ((step (initial fun _ => 0) (.malloc 64 ⟨4096, 8192⟩)).bind fun s =>
      s.heap.call (.realloc 4096 2147483648 ⟨65536, 4294967296⟩)).isNone = true := by decide
  rw [hs, Option.bind_some, hcall] at hstuck
  exact Bool.false_ne_true hstuck

end SizedHeap

end CheatEngine.Dbvm
