/-
  CheatEngine.PointerScan.MapFile

  Pointer maps in files (pointervaluelist.pas): `exportToStream` writes the modules, the base
  range and every list of addresses, and `createFromStream` enters the lists again until the
  count of the map is reached.  A static offset has the width of a pointer in the map and 32
  bits in the file.
-/
import CheatEngine.Lib.Stream
import CheatEngine.PointerScan.PointerMap
import Mathlib.Data.List.TakeWhile

namespace CheatEngine.PointerScan

open CheatEngine.Lib

/-- A module of `modulelist`: its name is a string without zero bytes. -/
structure MapModule where
  name : List UInt8
  base : UInt64
  deriving DecidableEq, Repr

/-- `TReversePointerListHandler`, as far as it is written: `baseRange` has `basestart` and
    `basestop` when `specificBaseAsStaticOnly`. -/
structure MapHandler where
  modulelist : List MapModule
  baseRange : Option (UInt64 × UInt64)
  map : PointerMap
  count : UInt64
  deriving DecidableEq, Repr

def saveModuleListToResults (modulelist : List MapModule) : List UInt8 :=
  u32 (UInt32.ofNat modulelist.length) ++ modulelist.flatMap fun m =>
    u32 (UInt32.ofNat m.name.length) ++ (m.name ++ u64 m.base)

def PointerEntry.write (e : PointerEntry) : List UInt8 :=
  u64 e.address ++ match e.staticdata with
    | none => u8 0
    | some d => u8 1 ++ (u32 (Int32.ofInt d.moduleindex).toUInt32 ++ u32 d.offset.toUInt32)

def PointerList.write (l : PointerList) : List UInt8 :=
  u64 l.pointervalue ++ (u32 (UInt32.ofNat l.list.length) ++ l.list.flatMap PointerEntry.write)

def MapHandler.header (h : MapHandler) : List UInt8 :=
  u8 0xce ++ (u8 1 ++ (saveModuleListToResults h.modulelist ++
    ((match h.baseRange with
      | some (basestart, basestop) => u8 1 ++ (u64 basestart ++ u64 basestop)
      | none => u8 0) ++
    (u32 (UInt32.ofNat h.map.maxlevel) ++ u64 h.count))))

/-- `exportToStream`; the lists are linked from the smallest value on. -/
def MapHandler.exportToStream (h : MapHandler) : List UInt8 :=
  h.header ++ (h.map.lists.reverse.filter (·.list ≠ [])).flatMap PointerList.write

/-! ## Reading -/

def readModule : Reader MapModule := do
  let x ← Reader.dword
  let mname ← Reader.bytes x.toNat
  let mbase ← Reader.qword
  pure ⟨mname.takeWhile (· ≠ 0), mbase⟩

def loadModuleList : Reader (List MapModule) := do
  let mlistlength ← Reader.dword
  Reader.many readModule mlistlength.toNat

def readRange : Reader (Option (UInt64 × UInt64)) := do
  if (← Reader.byte) = 1 then do
    let basestart ← Reader.qword
    let basestop ← Reader.qword
    pure (some (basestart, basestop))
  else pure none

/-- `LoadHeader`: the modules, the base range, `maxlevel` and the count. -/
def loadHeader : Reader (List MapModule × Option (UInt64 × UInt64) × UInt32 × UInt64) := do
  if (← Reader.byte) ≠ 0xce then failure
  else if (← Reader.byte) ≠ 1 then failure
  else do
    let modulelist ← loadModuleList
    let baseRange ← readRange
    let maxlevel ← Reader.dword
    let count ← Reader.qword
    pure (modulelist, baseRange, maxlevel, count)

def readStatic : Reader (Option StaticData) := do
  if (← Reader.byte) = 1 then do
    let moduleindex ← Reader.dword
    let offset ← Reader.dword
    pure (some ⟨moduleindex.toInt32.toInt, offset.toUInt64⟩)
  else pure none

def readEntry : Reader PointerEntry := do
  let address ← Reader.qword
  let staticdata ← readStatic
  pure ⟨address, staticdata⟩

def readList : Reader PointerList := do
  let pvalue ← Reader.qword
  let numberofpointers ← Reader.dword
  let list ← Reader.many readEntry numberofpointers.toNat
  pure ⟨pvalue, list⟩

/-- The list of the value that `findoraddpointervalue` finds or adds gets these addresses. -/
def PointerMap.enter (m : PointerMap) (l : PointerList) : PointerMap :=
  if m.lists.any fun x => m.SharesPath (m.maxlevel + 1) x.pointervalue l.pointervalue then
    { m with lists := m.lists.map fun x =>
        if m.SharesPath (m.maxlevel + 1) x.pointervalue l.pointervalue then
          { x with list := l.list } else x }
  else
    { m with lists := m.lists.takeWhile (l.pointervalue < ·.pointervalue) ++
        l :: m.lists.dropWhile (l.pointervalue < ·.pointervalue) }

/-- The loop of `createFromStream`, for at most that many rounds. -/
def readLists (totalcount : UInt64) : (rounds count : Nat) → PointerMap →
    Reader (Nat × PointerMap)
  | 0, count, m => if count < totalcount.toNat then failure else pure (count, m)
  | rounds + 1, count, m =>
    if count < totalcount.toNat then do
      let l ← readList
      readLists totalcount rounds (count + l.list.length) (m.enter l)
    else pure (count, m)

/-- `createFromStream`; each round takes bytes from the stream. -/
def createFromStream : Reader MapHandler := do
  let (modulelist, baseRange, maxlevel, totalcount) ← loadHeader
  let (count, m) ← fun bs => readLists totalcount bs.length 0 ⟨maxlevel.toNat, []⟩ bs
  pure ⟨modulelist, baseRange, m, UInt64.ofNat count⟩

/-- A map that `create` has built. -/
structure BuiltMap extends MapHandler where
  levels : map.maxlevel = 7 ∨ map.maxlevel = 15
  descending : map.lists.Pairwise fun l l' => l'.pointervalue < l.pointervalue
  values : ∀ l ∈ map.lists, l.pointervalue.toNat < 16 ^ (map.maxlevel + 1)
  nonempty : ∀ l ∈ map.lists, l.list ≠ []
  counts : ∀ l ∈ map.lists, l.list.length < 2 ^ 31
  total : count.toNat = (map.lists.map (·.list.length)).sum
  modules : modulelist.length < 2 ^ 31
  names : ∀ m ∈ modulelist, m.name.length < 2 ^ 31 ∧ 0 ∉ m.name
  moduleindexes : ∀ l ∈ map.lists, ∀ e ∈ l.list, ∀ d, e.staticdata = some d →
    -2 ^ 31 ≤ d.moduleindex ∧ d.moduleindex < 2 ^ 31

/-- Exactly the bytes that were written are read, and give the same map. -/
def RoundTrip (h : MapHandler) : Prop :=
  ∀ rest, createFromStream (h.exportToStream ++ rest) = some (h, rest)

def StaticData.saved (d : StaticData) : StaticData :=
  ⟨(Int32.ofInt d.moduleindex).toInt, d.offset.toUInt32.toUInt64⟩

def PointerEntry.saved (e : PointerEntry) : PointerEntry :=
  { e with staticdata := e.staticdata.map StaticData.saved }

def PointerList.saved (l : PointerList) : PointerList :=
  { l with list := l.list.map PointerEntry.saved }

theorem reads_static (staticdata : Option StaticData) :
    Reader.Reads readStatic (match staticdata with
      | none => u8 0
      | some d => u8 1 ++ (u32 (Int32.ofInt d.moduleindex).toUInt32 ++ u32 d.offset.toUInt32))
      (staticdata.map StaticData.saved) := by
  cases staticdata with
  | none =>
    rw [← List.append_nil (u8 0)]
    exact (Reader.Reads.byte 0).bind (.pure none)
  | some d =>
    refine (Reader.Reads.byte 1).bind ?_
    rw [if_pos rfl]
    apply (Reader.Reads.dword _).bind
    exact (Reader.Reads.dword d.offset.toUInt32).bind_pure

theorem reads_entry (e : PointerEntry) : Reader.Reads readEntry e.write e.saved :=
  (Reader.Reads.qword e.address).bind (reads_static e.staticdata).bind_pure

theorem toNat_ofNat_length {n : Nat} (h : n < 2 ^ 31) : (UInt32.ofNat n).toNat = n :=
  UInt32.toNat_ofNat_of_lt' (Nat.lt_trans h (by decide))

theorem reads_list {l : PointerList} (h : l.list.length < 2 ^ 31) :
    Reader.Reads readList l.write l.saved := by
  have hentries := Reader.Reads.many PointerEntry.saved reads_entry l.list
  apply (Reader.Reads.qword _).bind
  apply (Reader.Reads.dword _).bind
  rw [toNat_ofNat_length h]
  exact hentries.bind_pure

theorem reads_modules {ms : List MapModule} (hlength : ms.length < 2 ^ 31)
    (hnames : ∀ m ∈ ms, m.name.length < 2 ^ 31 ∧ 0 ∉ m.name) :
    Reader.Reads loadModuleList (saveModuleListToResults ms) ms := by
  apply (Reader.Reads.dword _).bind
  rw [toNat_ofNat_length hlength]
  clear hlength
  induction ms with
  | nil => exact .pure []
  | cons m ms ih =>
    obtain ⟨hname, hzero⟩ := hnames m List.mem_cons_self
    have hmodule : Reader.Reads readModule
        (u32 (UInt32.ofNat m.name.length) ++ (m.name ++ u64 m.base)) m := by
      apply (Reader.Reads.dword _).bind
      rw [toNat_ofNat_length hname]
      apply (Reader.Reads.bytes m.name).bind
      have htake : m.name.takeWhile (· ≠ 0) = m.name :=
        List.takeWhile_eq_self_iff.2 fun x hx => by
          simpa using ne_of_mem_of_not_mem hx hzero
      rw [htake]
      exact (Reader.Reads.qword m.base).bind_pure
    exact hmodule.bind (ih fun m hm => hnames m (List.mem_cons_of_mem _ hm)).bind_pure

theorem reads_header {h : MapHandler} (hlength : h.modulelist.length < 2 ^ 31)
    (hnames : ∀ m ∈ h.modulelist, m.name.length < 2 ^ 31 ∧ 0 ∉ m.name) :
    Reader.Reads loadHeader h.header
      (h.modulelist, h.baseRange, UInt32.ofNat h.map.maxlevel, h.count) := by
  have hrange : Reader.Reads readRange (match h.baseRange with
      | some (basestart, basestop) => u8 1 ++ (u64 basestart ++ u64 basestop)
      | none => u8 0) h.baseRange := by
    cases h.baseRange with
    | none =>
      rw [← List.append_nil (u8 0)]
      exact (Reader.Reads.byte 0).bind (.pure none)
    | some r =>
      refine (Reader.Reads.byte 1).bind ?_
      rw [if_pos rfl]
      apply (Reader.Reads.qword _).bind
      exact (Reader.Reads.qword r.2).bind_pure
  refine (Reader.Reads.byte 0xce).bind ?_
  rw [if_neg (by decide)]
  refine (Reader.Reads.byte 1).bind ?_
  rw [if_neg (by decide)]
  apply (reads_modules hlength hnames).bind
  apply hrange.bind
  apply (Reader.Reads.dword _).bind
  exact (Reader.Reads.qword h.count).bind_pure

/-! ## The loop over the lists -/

theorem mod_pow_eq_of_digits {v w : Nat} : ∀ {n : Nat},
    (∀ i < n, v / 16 ^ i % 16 = w / 16 ^ i % 16) → v % 16 ^ n = w % 16 ^ n
  | 0, _ => by rw [Nat.pow_zero, Nat.mod_one, Nat.mod_one]
  | n + 1, h => by
    have hlow := mod_pow_eq_of_digits fun i hi => h i (Nat.lt_succ_of_lt hi)
    rw [Nat.pow_succ, Nat.mod_mul, Nat.mod_mul, hlow, h n (Nat.lt_succ_self n)]

variable {m : PointerMap}

/-- Values with the same digits are the same. -/
theorem PointerMap.SharesPath.eq {v w : UInt64}
    (h : m.SharesPath (m.maxlevel + 1) v w) (hv : v.toNat < 16 ^ (m.maxlevel + 1))
    (hw : w.toNat < 16 ^ (m.maxlevel + 1)) : v = w := by
  refine UInt64.toNat_inj.1 ?_
  rw [← Nat.mod_eq_of_lt hv, ← Nat.mod_eq_of_lt hw]
  refine mod_pow_eq_of_digits fun i hi => ?_
  have hdigit := h (m.maxlevel - i) (by omega)
  rwa [PointerMap.entrynr, PointerMap.entrynr, Nat.sub_sub_self (Nat.le_of_lt_succ hi)] at hdigit

theorem enter_eq {l : PointerList}
    (hvalues : ∀ x ∈ m.lists, x.pointervalue.toNat < 16 ^ (m.maxlevel + 1))
    (hvalue : l.pointervalue.toNat < 16 ^ (m.maxlevel + 1))
    (hlarger : ∀ x ∈ m.lists, x.pointervalue < l.pointervalue) :
    m.enter l = { m with lists := l :: m.lists } := by
  have hany : ¬ m.lists.any fun x =>
      m.SharesPath (m.maxlevel + 1) x.pointervalue l.pointervalue := by
    simp only [List.any_eq_true, decide_eq_true_eq, not_exists, not_and]
    intro x hx hpath
    have hlt := hlarger x hx
    rw [hpath.eq (hvalues x hx) hvalue] at hlt
    exact UInt64.lt_irrefl _ hlt
  rw [PointerMap.enter, if_neg hany]
  cases hlists : m.lists with
  | nil => rfl
  | cons x xs =>
    have hx : ¬ l.pointervalue < x.pointervalue := UInt64.not_lt.2
      (UInt64.le_of_lt (hlarger x (hlists ▸ List.mem_cons_self)))
    simp [hx]

theorem readLists_spec {totalcount : UInt64} {ls : List PointerList}
    (hcounts : ∀ l ∈ ls, l.list.length < 2 ^ 31) (hnonempty : ∀ l ∈ ls, l.list ≠ [])
    (hascending : ls.Pairwise fun l l' => l.pointervalue < l'.pointervalue)
    (hvalues : ∀ l, l ∈ m.lists ∨ l ∈ ls → l.pointervalue.toNat < 16 ^ (m.maxlevel + 1))
    (habove : ∀ x ∈ m.lists, ∀ l ∈ ls, x.pointervalue < l.pointervalue) {rounds count : Nat}
    (htotal : count + (ls.map (·.list.length)).sum = totalcount.toNat)
    (hrounds : ls.length ≤ rounds) (rest : List UInt8) :
    readLists totalcount rounds count m (ls.flatMap PointerList.write ++ rest) =
      some ((totalcount.toNat, { m with lists := (ls.map PointerList.saved).reverse ++ m.lists }),
        rest) := by
  induction ls generalizing m count rounds with
  | nil =>
    have hdone : ¬ count < totalcount.toNat := by simp at htotal; omega
    obtain rfl : count = totalcount.toNat := by simpa using htotal
    cases rounds <;> rw [readLists, if_neg hdone] <;> rfl
  | cons l ls ih =>
    obtain ⟨rounds, rfl⟩ : ∃ r, rounds = r + 1 := ⟨rounds - 1, by simp at hrounds; omega⟩
    obtain ⟨hfirst, hascending⟩ := List.pairwise_cons.1 hascending
    rw [List.map_cons, List.sum_cons] at htotal
    have hpos : 0 < l.list.length := List.length_pos_iff.2 (hnonempty l List.mem_cons_self)
    have hread := (reads_list (hcounts l List.mem_cons_self)).whole
      (ls.flatMap PointerList.write ++ rest)
    have henter : m.enter l.saved = { m with lists := l.saved :: m.lists } :=
      enter_eq (fun x hx => hvalues x (.inl hx)) (hvalues l (.inr List.mem_cons_self))
        fun x hx => habove x hx l List.mem_cons_self
    have hlength : l.saved.list.length = l.list.length := List.length_map ..
    rw [readLists, if_pos (by omega), List.flatMap_cons, List.append_assoc, Reader.bind_eq, hread]
    show readLists totalcount rounds (count + l.saved.list.length) (m.enter l.saved) _ = _
    rw [henter, hlength, ih (fun x hx => hcounts x (List.mem_cons_of_mem _ hx))
      (fun x hx => hnonempty x (List.mem_cons_of_mem _ hx)) hascending ?_ ?_ (by omega)
      (by simpa using hrounds)]
    · simp
    · intro x hx
      rcases hx with hx | hx
      · rcases List.mem_cons.1 hx with rfl | hx
        · exact hvalues l (.inr List.mem_cons_self)
        · exact hvalues x (.inl hx)
      · exact hvalues x (.inr (List.mem_cons_of_mem _ hx))
    · intro x hx y hy
      rcases List.mem_cons.1 hx with rfl | hx
      · exact hfirst y hy
      · exact habove x hx y (List.mem_cons_of_mem _ hy)

theorem length_flatMap_write (ls : List PointerList) :
    ls.length ≤ (ls.flatMap PointerList.write).length := by
  induction ls with
  | nil => exact Nat.le_refl 0
  | cons l ls ih =>
    have hpos : 0 < l.write.length := by
      rw [PointerList.write, List.length_append, u64_length]
      omega
    rw [List.flatMap_cons, List.length_append, List.length_cons]
    omega

/-! ## The round trip -/

/-- What is read of a map that was written. -/
def MapHandler.saved (h : MapHandler) : MapHandler :=
  { h with map := { h.map with lists := h.map.lists.map PointerList.saved } }

theorem createFromStream_export (h : BuiltMap) (rest : List UInt8) :
    createFromStream (h.exportToStream ++ rest) = some (h.toMapHandler.saved, rest) := by
  have hfilter : h.map.lists.reverse.filter (·.list ≠ []) = h.map.lists.reverse :=
    List.filter_eq_self.2 fun l hl => by simpa using h.nonempty l (List.mem_reverse.1 hl)
  have hmaxlevel : (UInt32.ofNat h.map.maxlevel).toNat = h.map.maxlevel :=
    toNat_ofNat_length (by rcases h.levels with hl | hl <;> rw [hl] <;> decide)
  have hheader := (reads_header h.modules h.names).whole
    (h.map.lists.reverse.flatMap PointerList.write ++ rest)
  have hrounds : h.map.lists.reverse.length ≤
      (h.map.lists.reverse.flatMap PointerList.write ++ rest).length := by
    rw [List.length_append]
    exact Nat.le_trans (length_flatMap_write _) (Nat.le_add_right _ _)
  have hlists : readLists h.count _ 0 ⟨h.map.maxlevel, []⟩
      (h.map.lists.reverse.flatMap PointerList.write ++ rest) = _ :=
    readLists_spec (m := ⟨h.map.maxlevel, []⟩) (fun l hl => h.counts l (List.mem_reverse.1 hl))
      (fun l hl => h.nonempty l (List.mem_reverse.1 hl)) (List.pairwise_reverse.2 h.descending)
      (fun l hl => h.values l (List.mem_reverse.1 (hl.resolve_left List.not_mem_nil)))
      (fun x hx => nomatch hx) (by rw [h.total, List.map_reverse, List.sum_reverse, Nat.zero_add])
      hrounds rest
  rw [MapHandler.exportToStream, hfilter, List.append_assoc, createFromStream, Reader.bind_eq,
    hheader]
  dsimp only [Option.bind]
  rw [Reader.bind_eq, hmaxlevel, hlists, List.map_reverse, List.reverse_reverse, List.append_nil]
  show some (MapHandler.mk _ _ _ (UInt64.ofNat h.count.toNat), rest) = _
  rw [UInt64.ofNat_toNat]
  rfl

theorem map_eq_self_iff {α : Type} {f : α → α} {l : List α} :
    l.map f = l ↔ ∀ x ∈ l, f x = x := by
  have hiff := List.map_inj_left (l := l) (f := f) (g := id)
  rwa [List.map_id] at hiff

theorem saved_eq_iff {e : PointerEntry} (hindex : ∀ d, e.staticdata = some d →
    -2 ^ 31 ≤ d.moduleindex ∧ d.moduleindex < 2 ^ 31) :
    e.saved = e ↔ ∀ d, e.staticdata = some d → d.offset.toNat < 2 ^ 32 := by
  obtain ⟨address, staticdata⟩ := e
  cases staticdata with
  | none => simp [PointerEntry.saved]
  | some d =>
    obtain ⟨moduleindex, offset⟩ := d
    obtain ⟨hlow, hhigh⟩ := hindex _ rfl
    have hmodule : (Int32.ofInt moduleindex).toInt = moduleindex :=
      Int32.toInt_ofInt_of_le hlow hhigh
    have hoffset : offset.toUInt32.toUInt64 = offset ↔ offset.toNat < 2 ^ 32 := by
      rw [← UInt64.toNat_inj, UInt32.toNat_toUInt64, UInt64.toNat_toUInt32]
      omega
    simp only [PointerEntry.saved, StaticData.saved, hmodule, Option.map_some,
      PointerEntry.mk.injEq, Option.some.injEq, StaticData.mk.injEq, true_and, hoffset,
      forall_eq']

/-- A map with one address, in the module 0 at an offset. -/
def oneAddress (offset : UInt64) : BuiltMap where
  modulelist := [⟨[0x61], 0x10000⟩]
  baseRange := none
  map := ⟨15, [⟨0x5000, [⟨0x10000 + offset, some ⟨0, offset⟩⟩]⟩]⟩
  count := 1
  levels := .inr rfl
  descending := List.pairwise_singleton _ _
  values := by simp
  nonempty := by simp
  counts := by simp
  total := rfl
  modules := by simp
  names := by simp
  moduleindexes := by simp

end CheatEngine.PointerScan
