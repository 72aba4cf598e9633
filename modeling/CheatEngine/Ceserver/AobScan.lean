/-
  CheatEngine.Ceserver.AobScan

  `AOBScan` (native-api.c): the scanner in the server.  It walks through the address range
  with `VirtualQueryEx`, region by region and gap by gap, and reads each region in chunks
  that overlap by the length of the pattern.

  The regions are those of the maps file, in order and on page borders; reading gives the
  mapped bytes from the address on.  Addresses are natural numbers below 2^64.
-/
import CheatEngine.Ceserver.PagedOnly
import CheatEngine.Ceserver.RegionQuery
import CheatEngine.Client.Scanner
import Mathlib.Data.List.TakeWhile

namespace CheatEngine.Ceserver

open CheatEngine.Lib CheatEngine.Client

def MAX_HIT_COUNT : Nat := 5000000
def MAX_AOB_PATTERN_SIZE : Nat := 1024 * 1024

def aobChunkSize : Nat := 1024 * 1024

/-- The arguments of `AOBScan`, but for the process. -/
structure AobInput where
  pattern : List UInt8
  mask : List UInt8
  start : Nat
  stop : Nat
  inc : Nat
  protection : UInt32

/-- What the scanner asks about the process: `VirtualQueryEx` and `ReadProcessMemory`. -/
structure Inspected where
  query : Nat → Option RegionInfo
  read : Nat → Nat → List UInt8

section Scanner

variable (p : Inspected) (q : AobInput)

/-- The loop over the offsets of a chunk, with `n` of them left; and whether the limit is
    reached.  The loop over the pattern is that of the other scanner. -/
def candidateLoop (address : Nat) (buffer : List UInt8) :
    Nat → Nat → List Nat → List Nat × Bool
  | 0, _, found => (found, false)
  | n + 1, offset, found =>
    let candidate := address + offset
    if (candidate - q.start) % q.inc ≠ 0 then
      candidateLoop address buffer n (offset + 1) found
    else if matchesFront q.pattern q.mask (buffer.drop offset) then
      if MAX_HIT_COUNT ≤ (found ++ [candidate]).length then (found ++ [candidate], true)
      else candidateLoop address buffer n (offset + 1) (found ++ [candidate])
    else candidateLoop address buffer n (offset + 1) found

/-- The loop over the chunks of a region.  A round takes the address further, so that the
    length of the region is enough fuel. -/
def chunkLoop (regionEnd : Nat) : Nat → Nat → List Nat → List Nat × Bool
  | 0, _, found => (found, false)
  | fuel + 1, address, found =>
    if address < regionEnd then
      let requested := min (aobChunkSize + q.pattern.length - 1) (regionEnd - address)
      let buffer := p.read address requested
      let result :=
        if q.pattern.length ≤ buffer.length then
          candidateLoop q address buffer
            (min (buffer.length - q.pattern.length + 1) aobChunkSize) 0 found
        else (found, false)
      if result.2 then result
      else
        let next := (address + aobChunkSize) % 2 ^ 64
        if next ≤ address then result else chunkLoop regionEnd fuel next result.1
    else (found, false)

/-- The loop over the regions.  A round takes the cursor further, here too. -/
def cursorLoop : Nat → Nat → List Nat → List Nat
  | 0, _, found => found
  | fuel + 1, cursor, found =>
    if cursor < q.stop then
      let skip := (cursor + 4096) % 2 ^ 64
      match p.query cursor with
      | none => if skip ≤ cursor then found else cursorLoop fuel skip found
      | some rinfo =>
        if rinfo.size = 0 then if skip ≤ cursor then found else cursorLoop fuel skip found
        else
          let regionStart := max rinfo.baseaddress.toNat cursor
          let regionEnd :=
            min (if 2 ^ 64 - 1 - rinfo.baseaddress.toNat < rinfo.size.toNat then 2 ^ 64 - 1
              else rinfo.baseaddress.toNat + rinfo.size.toNat) q.stop
          let result :=
            if rinfo.protection &&& q.protection ≠ 0 ∧ regionStart < regionEnd ∧
                q.pattern.length ≤ regionEnd - regionStart then
              chunkLoop p q regionEnd (regionEnd - regionStart) regionStart found
            else (found, false)
          if result.2 then result.1
          else if regionEnd ≤ cursor then
            if skip ≤ cursor then result.1 else cursorLoop fuel skip result.1
          else cursorLoop fuel regionEnd result.1
    else found

/-- `AOBScan`. -/
def aobScan : List Nat :=
  if q.pattern.length = 0 ∨ MAX_AOB_PATTERN_SIZE < q.pattern.length ∨ q.inc = 0 ∨
      q.stop ≤ q.start then []
  else cursorLoop p q (q.stop - q.start) q.start []

end Scanner

/-- `VirtualQueryEx` behind the parser: the first region that ends above the page answers. -/
def virtualQueryBlocks (blocks : List Block) (lpAddress : Nat) : Option RegionInfo :=
  let base := lpAddress / 4096 * 4096
  (blocks.find? fun b => base < b.stop).map fun b =>
    if b.start ≤ base then
      ⟨UInt64.ofNat base, UInt64.ofNat (b.stop - base), b.protection, b.type⟩
    else ⟨UInt64.ofNat base, UInt64.ofNat (b.start - base), PAGE_NOACCESS, 0⟩

/-- Where no line is cut off, the parser finds the mappings: both queries are those on the
    blocks. -/
theorem queries_short (k : KernelMaps) (hshort : ∀ m ∈ k.mappings, m.body.length < 297) :
    (∀ env fuel, virtualQueryExFull 0 env fuel k.smaps =
      listBlocks 0 env fuel (k.mappings.map Mapping.block)) ∧
    ∀ stale lpAddress rinfo, ∃ answer, virtualQueryEx stale lpAddress rinfo k.maps = some answer ∧
      answer.mapsline.map (fun _ => answer.rinfo) =
        virtualQueryBlocks (k.mappings.map Mapping.block) lpAddress := by
  have hrests : ∀ m ∈ k.mappings, m.rests = [] := fun m hm =>
    rests_eq_nil (k.mapping hm).2.2.2.2 (hshort m hm)
  constructor
  · intro env fuel
    have hblocks : (k.mappings.flatMap fun m => m.block :: m.restBlocks) =
        k.mappings.map Mapping.block := by
      rw [List.map_eq_flatMap]
      apply List.flatMap_congr
      intro m hm
      rw [Mapping.restBlocks, hrests m hm]
      rfl
    rw [virtualQueryExFull_eq, blocksOf_zero, headers_smaps, hblocks]
    rfl
  · intro stale lpAddress rinfo
    generalize hbase : lpAddress / 4096 * 4096 = base
    have hall : ∀ ms : List Mapping, (∀ m ∈ ms, m ∈ k.mappings) →
        ∃ answer, queryLines stale base
            { rinfo with protection := 0, baseaddress := UInt64.ofNat base }
            (ms.flatMap fun m => linesOf m.line) = some answer ∧
          answer.mapsline.map (fun _ => answer.rinfo) =
            ((ms.map Mapping.block).find? fun b => base < b.stop).map fun b =>
              if b.start ≤ base then
                ⟨UInt64.ofNat base, UInt64.ofNat (b.stop - base), b.protection, b.type⟩
              else ⟨UInt64.ofNat base, UInt64.ofNat (b.start - base), PAGE_NOACCESS, 0⟩ := by
      intro ms
      induction ms with
      | nil => exact fun _ => ⟨_, rfl, rfl⟩
      | cons m ms ih =>
        intro hms
        have hm := hms m List.mem_cons_self
        obtain ⟨-, -, hlt, hstop, hpath⟩ := k.mapping hm
        obtain ⟨x, hlines, hrange⟩ := linesOf_line (by omega) hstop hpath
        have hperms : ¬ 24 < ((some m.perms).getD []).length :=
          Nat.not_lt.2 (Nat.le_of_ble_eq_true rfl)
        rw [List.flatMap_cons, hlines, hrests m hm, List.singleton_append, queryLines, hrange,
          List.map_cons, List.find?_cons]
        dsimp only
        rw [if_neg hperms]
        by_cases hend : base < m.stop
        · rw [if_pos hend, decide_eq_true (show base < m.block.stop from hend)]
          by_cases hin : m.start ≤ base
          · have hblock : m.block.start ≤ base := hin
            rw [if_pos hin]
            simp only [Option.map_some, if_pos hblock]
            exact ⟨_, rfl, rfl⟩
          · have hblock : ¬ m.block.start ≤ base := hin
            rw [if_neg hin]
            simp only [Option.map_some, if_neg hblock]
            exact ⟨_, rfl, rfl⟩
        · rw [if_neg hend, decide_eq_false (show ¬ base < m.block.stop from hend)]
          exact ih fun m' hm' => hms m' (List.mem_cons_of_mem m hm')
    have hmaps : linesOf k.maps = k.mappings.flatMap fun m => linesOf m.line :=
      linesOf_maps fun m hm => (k.mapping hm).2.2.2.2
    rw [virtualQueryEx, virtualQueryBlocks, hbase, hmaps]
    exact hall k.mappings fun m hm => hm

/-- A process with one mapping. -/
def oneMapping : KernelMaps where
  entries := [(⟨0x400000, 0x401000, true, false, true, false, 0, 8, 1, 9, "/a".toList⟩, [])]
  aligned := by decide
  sorted := List.pairwise_singleton _ _
  path_newline := by decide

theorem queries_short_one :
    ∃ answer, virtualQueryEx [] 0x400100 ⟨0, 0, 0, 0⟩ oneMapping.maps = some answer ∧
      answer.mapsline.map (fun _ => answer.rinfo) =
        some ⟨0x400000, 0x1000, PAGE_EXECUTE_READ, MEM_PRIVATE⟩ :=
  (queries_short oneMapping (by decide +kernel)).2 [] 0x400100 ⟨0, 0, 0, 0⟩

/-- The address is in a region. -/
def Mapped (blocks : List Block) (address : Nat) : Prop :=
  ∃ b ∈ blocks, b.start ≤ address ∧ address < b.stop

instance (blocks : List Block) (address : Nat) : Decidable (Mapped blocks address) :=
  inferInstanceAs (Decidable (∃ b ∈ blocks, b.start ≤ address ∧ address < b.stop))

/-- `ReadProcessMemory` where all mapped bytes can be read: up to the first byte that is not
    mapped. -/
def readMapped (blocks : List Block) (mem : TargetMemory) (address size : Nat) : List UInt8 :=
  memBytes mem (UInt64.ofNat address)
    ((List.range' address size).takeWhile fun a => Mapped blocks a).length

def inspected (blocks : List Block) (mem : TargetMemory) : Inspected :=
  ⟨virtualQueryBlocks blocks, readMapped blocks mem⟩

/-! ## What is to be found -/

/-- A place of the pattern, at a multiple of the increment from the start. -/
def IsHit (mem : TargetMemory) (q : AobInput) (a : Nat) : Prop :=
  (a - q.start) % q.inc = 0 ∧ MatchesAt mem q.pattern q.mask (UInt64.ofNat a)

instance (mem : TargetMemory) (q : AobInput) (a : Nat) : Decidable (IsHit mem q a) :=
  inferInstanceAs (Decidable (_ ∧ _))

def placesIn (mem : TargetMemory) (q : AobInput) (low high : Nat) : List Nat :=
  (List.range' low (high + 1 - q.pattern.length - low)).filter fun a => IsHit mem q a

def regionPlaces (mem : TargetMemory) (q : AobInput) (cursor : Nat) (b : Block) : List Nat :=
  if b.protection &&& q.protection = 0 then []
  else placesIn mem q (max b.start cursor) (min b.stop q.stop)

def placesFrom (blocks : List Block) (mem : TargetMemory) (q : AobInput) (cursor : Nat) :
    List Nat :=
  blocks.flatMap (regionPlaces mem q cursor)

/-- A loop has found `hits`: all of them, or those up to the limit. -/
def Collects (found hits : List Nat) (result : List Nat × Bool) : Prop :=
  if MAX_HIT_COUNT ≤ (found ++ hits).length then
    result = ((found ++ hits).take MAX_HIT_COUNT, true)
  else result = (found ++ hits, false)

section Collects

variable {found hits hits' : List Nat} {result result' : List Nat × Bool}

theorem collects_nil (h : found.length < MAX_HIT_COUNT) : Collects found [] (found, false) := by
  rw [Collects, List.append_nil, if_neg (by omega)]

section

variable (h : Collects found hits result)
include h

/-- The limit is reached: what comes after it does not matter. -/
theorem Collects.full (hfull : result.2 = true) (hits' : List Nat) :
    Collects found (hits ++ hits') result := by
  unfold Collects at h ⊢
  split at h
  · rename_i hlen
    have hmore : MAX_HIT_COUNT ≤ (found ++ (hits ++ hits')).length := by
      rw [← List.append_assoc, List.length_append]
      omega
    rw [if_pos hmore, h, ← List.append_assoc, List.take_append_of_le_length hlen]
  · rw [h] at hfull
    cases hfull

theorem Collects.below (hfull : ¬ result.2 = true) :
    result = (found ++ hits, false) ∧ (found ++ hits).length < MAX_HIT_COUNT := by
  unfold Collects at h
  split at h
  · rw [h] at hfull
    exact absurd rfl hfull
  · exact ⟨h, by omega⟩

theorem Collects.append (hfull : ¬ result.2 = true)
    (hnext : Collects result.1 hits' result') : Collects found (hits ++ hits') result' := by
  rw [(h.below hfull).1] at hnext
  unfold Collects at hnext ⊢
  rwa [List.append_assoc] at hnext

theorem Collects.list :
    result.1 = (found ++ hits).take MAX_HIT_COUNT := by
  unfold Collects at h
  split at h
  · rw [h]
  · rw [h, List.take_of_length_le (by omega)]

end

end Collects

section Chunk

variable {mem : TargetMemory} {q : AobInput} {found : List Nat}

theorem candidateLoop_collects (hmask : q.mask.length = q.pattern.length) {address size : Nat}
    (k offset : Nat) (hfit : offset + k + q.pattern.length ≤ size + 1)
    (hfound : found.length < MAX_HIT_COUNT) :
    Collects found
      ((List.range' (address + offset) k).filter fun a => IsHit mem q a)
      (candidateLoop q address (memBytes mem (UInt64.ofNat address) size) k offset found) := by
  induction k generalizing offset found with
  | zero => exact collects_nil hfound
  | succ k ih =>
    have hmatch : matchesFront q.pattern q.mask
        ((memBytes mem (UInt64.ofNat address) size).drop offset) = true ↔
        MatchesAt mem q.pattern q.mask (UInt64.ofNat (address + offset)) := by
      obtain ⟨rest, rfl⟩ : ∃ rest, size = offset + rest := ⟨size - offset, by omega⟩
      rw [drop_memBytes, ← UInt64.ofNat_add]
      exact matchesFront_iff hmask (by omega)
    have hnext : address + offset + 1 = address + (offset + 1) := by omega
    rw [List.range'_succ, hnext, candidateLoop]
    by_cases halign : (address + offset - q.start) % q.inc = 0
    · rw [if_neg (not_not.2 halign)]
      by_cases hhit : MatchesAt mem q.pattern q.mask (UInt64.ofNat (address + offset))
      · have hkept : decide (IsHit mem q (address + offset)) = true :=
          decide_eq_true ⟨halign, hhit⟩
        rw [if_pos (hmatch.2 hhit), List.filter_cons, if_pos hkept]
        have hone : found ++ (address + offset) ::
            (List.range' (address + (offset + 1)) k).filter (fun a => IsHit mem q a) =
            (found ++ [address + offset]) ++
              (List.range' (address + (offset + 1)) k).filter fun a => IsHit mem q a := by
          rw [List.append_assoc]
          rfl
        split
        · rename_i hlimit
          have hexact : (found ++ [address + offset]).length = MAX_HIT_COUNT := by
            rw [List.length_append, List.length_singleton] at hlimit ⊢
            omega
          rw [Collects, hone, if_pos (by rw [List.length_append]; omega), ← hexact, List.take_left]
        · rename_i hlimit
          have hrest := @ih (found ++ [address + offset]) (offset + 1) (by omega) (by omega)
          unfold Collects at hrest ⊢
          rwa [hone]
      · rw [if_neg (hmatch.not.2 hhit),
          List.filter_cons_of_neg (fun h => hhit (of_decide_eq_true h).2)]
        exact ih (offset + 1) (by omega) hfound
    · rw [if_pos halign, List.filter_cons_of_neg (fun h => halign (of_decide_eq_true h).1)]
      exact ih (offset + 1) (by omega) hfound

/-- Nothing fits. -/
theorem placesIn_short {low high : Nat} (h : high < low + q.pattern.length) :
    placesIn mem q low high = [] := by
  have hzero : high + 1 - q.pattern.length - low = 0 := by omega
  rw [placesIn, hzero]
  rfl

theorem placesIn_split (n low high : Nat) :
    placesIn mem q low high =
      (List.range' low (min (high + 1 - q.pattern.length - low) n)).filter
        (fun a => IsHit mem q a) ++ placesIn mem q (low + n) high := by
  rw [placesIn, placesIn, ← List.filter_append]
  congr 1
  by_cases hlast : high + 1 - q.pattern.length - low ≤ n
  · have hnone : high + 1 - q.pattern.length - (low + n) = 0 := by omega
    rw [hnone, Nat.min_eq_left hlast, List.range'_zero, List.append_nil]
  · have hrest : high + 1 - q.pattern.length - low =
        n + (high + 1 - q.pattern.length - (low + n)) := by omega
    rw [Nat.min_eq_right (by omega), List.range'_append_1, ← hrest]

end Chunk

section Region

variable {blocks : List Block} {mem : TargetMemory} {q : AobInput} {found : List Nat}

theorem readMapped_inside {address size : Nat}
    (h : ∀ a, address ≤ a → a < address + size → Mapped blocks a) :
    readMapped blocks mem address size = memBytes mem (UInt64.ofNat address) size := by
  have hall : (List.range' address size).takeWhile (fun a => decide (Mapped blocks a)) =
      List.range' address size := by
    rw [List.takeWhile_eq_self_iff]
    intro a ha
    obtain ⟨hge, hlt⟩ := List.mem_range'_1.1 ha
    exact decide_eq_true (h a hge hlt)
  rw [readMapped, hall, List.length_range']

theorem readMapped_outside {address size : Nat} (h : ¬ Mapped blocks address) :
    readMapped blocks mem address size = [] := by
  cases size with
  | zero => rfl
  | succ size =>
    rw [readMapped, List.range'_succ, List.takeWhile_cons_of_neg (by simpa using h)]
    rfl

theorem chunkLoop_collects (hpattern : 0 < q.pattern.length)
    (hmask : q.mask.length = q.pattern.length) {regionEnd : Nat} (hend : regionEnd < 2 ^ 64)
    (fuel address : Nat) (hfuel : regionEnd - address ≤ fuel)
    (hmapped : ∀ a, address ≤ a → a < regionEnd → Mapped blocks a)
    (hfound : found.length < MAX_HIT_COUNT) :
    Collects found (placesIn mem q address regionEnd)
      (chunkLoop (inspected blocks mem) q regionEnd fuel address found) := by
  induction fuel generalizing address found with
  | zero =>
    rw [placesIn_short (by omega)]
    exact collects_nil hfound
  | succ fuel ih =>
    rw [chunkLoop]
    by_cases hlt : address < regionEnd
    · rw [if_pos hlt]
      have hsize : aobChunkSize = 1048576 := rfl
      generalize aobChunkSize = chunk at hsize ⊢
      generalize hrequested : min (chunk + q.pattern.length - 1) (regionEnd - address) = requested
      have hread : (inspected blocks mem).read address requested =
          memBytes mem (UInt64.ofNat address) requested :=
        readMapped_inside fun a hge hless => hmapped a hge (by omega)
      dsimp only
      rw [hread, memBytes_length, placesIn_split chunk address regionEnd]
      -- the candidates of this chunk
      have hchunk : Collects found
          ((List.range' address (min (regionEnd + 1 - q.pattern.length - address) chunk)).filter
            fun a => IsHit mem q a)
          (if q.pattern.length ≤ requested then
            candidateLoop q address (memBytes mem (UInt64.ofNat address) requested)
              (min (requested - q.pattern.length + 1) chunk) 0 found
          else (found, false)) := by
        split
        · rename_i hfits
          have hsame : min (requested - q.pattern.length + 1) chunk =
              min (regionEnd + 1 - q.pattern.length - address) chunk := by omega
          rw [hsame]
          have hloop := @candidateLoop_collects mem q found hmask address requested
            (min (regionEnd + 1 - q.pattern.length - address) chunk) 0 (by omega) hfound
          rwa [Nat.add_zero] at hloop
        · have hnone : min (regionEnd + 1 - q.pattern.length - address) chunk = 0 := by omega
          rw [hnone]
          exact collects_nil hfound
      generalize (if q.pattern.length ≤ requested then
          candidateLoop q address (memBytes mem (UInt64.ofNat address) requested)
            (min (requested - q.pattern.length + 1) chunk) 0 found
        else (found, false)) = result at hchunk ⊢
      by_cases hfull : result.2 = true
      · rw [if_pos hfull]
        exact hchunk.full hfull _
      · rw [if_neg hfull]
        obtain ⟨hresult, hbelow⟩ := hchunk.below hfull
        by_cases hwrap : (address + chunk) % 2 ^ 64 ≤ address
        · -- the chunk reached the end of the address space
          rw [if_pos hwrap, placesIn_short (by omega), List.append_nil]
          exact hchunk
        · rw [if_neg hwrap]
          have hsum : (address + chunk) % 2 ^ 64 = address + chunk := by omega
          rw [hsum]
          apply hchunk.append hfull
          apply ih (address + chunk) (by omega) (fun a hge hless => hmapped a (by omega) hless)
          rw [hresult]
          exact hbelow
    · rw [if_neg hlt, placesIn_short (by omega)]
      exact collects_nil hfound

theorem chunkLoop_gap (hpattern : 0 < q.pattern.length) {regionEnd : Nat} (fuel address : Nat)
    (hgap : ∀ a, address ≤ a → a < regionEnd → ¬ Mapped blocks a) :
    chunkLoop (inspected blocks mem) q regionEnd fuel address found = (found, false) := by
  induction fuel generalizing address with
  | zero => rfl
  | succ fuel ih =>
    rw [chunkLoop]
    by_cases hlt : address < regionEnd
    · have hread : ∀ size, (inspected blocks mem).read address size = [] := fun size =>
        readMapped_outside (hgap address (Nat.le_refl _) hlt)
      have hnone : ¬ q.pattern.length ≤ ([] : List UInt8).length := by
        rw [List.length_nil]
        omega
      rw [if_pos hlt]
      simp only [hread, if_neg hnone, Bool.false_eq_true, if_false]
      split
      · rfl
      · exact ih _ fun a hge hless => hgap a (by omega) hless
    · rw [if_neg hlt]

end Region

/-! ## All regions -/

section Cursor

variable {maps : MappingList 4096} {mem : TargetMemory} {q : AobInput} {cursor : Nat} {b : Block}

theorem regionPlaces_below (hpattern : 0 < q.pattern.length) (h : b.stop ≤ cursor) :
    regionPlaces mem q cursor b = [] := by
  rw [regionPlaces]
  split
  · rfl
  · exact placesIn_short (by omega)

theorem placesFrom_below (hpattern : 0 < q.pattern.length) {blocks : List Block}
    (h : ∀ b ∈ blocks, b.stop ≤ cursor) : placesFrom blocks mem q cursor = [] := by
  rw [placesFrom, List.flatMap_eq_nil_iff]
  exact fun b hb => regionPlaces_below hpattern (h b hb)

/-- A cursor that moves up to the end of the range or a region behind it changes nothing. -/
theorem regionPlaces_above (hpattern : 0 < q.pattern.length) {next : Nat}
    (hle : cursor ≤ next) (h : next ≤ b.start ∨ q.stop ≤ next ∧ q.stop ≤ b.start) :
    regionPlaces mem q next b = regionPlaces mem q cursor b := by
  unfold regionPlaces
  split
  · rfl
  · rcases h with h | ⟨hnext, hstart⟩
    · rw [Nat.max_eq_left h, Nat.max_eq_left (by omega)]
    · rw [placesIn_short (by omega), placesIn_short (by omega)]

/-- The regions around the one that answers. -/
theorem virtualQueryBlocks_cases (maps : MappingList 4096) (cursor : Nat) :
    (virtualQueryBlocks maps.blocks cursor = none ∧ ∀ b ∈ maps.blocks, b.stop ≤ cursor) ∨
      ∃ before b after, maps.blocks = before ++ b :: after ∧ (∀ b' ∈ before, b'.stop ≤ cursor) ∧
        cursor < b.stop ∧ (∀ b' ∈ after, b.stop ≤ b'.start) ∧
        virtualQueryBlocks maps.blocks cursor = some
          (if b.start ≤ cursor then
            ⟨UInt64.ofNat (cursor / 4096 * 4096), UInt64.ofNat (b.stop - cursor / 4096 * 4096),
              b.protection, b.type⟩
          else ⟨UInt64.ofNat (cursor / 4096 * 4096),
            UInt64.ofNat (b.start - cursor / 4096 * 4096), PAGE_NOACCESS, 0⟩) := by
  -- borders of pages are not between an address and its page
  have hborder : ∀ n, 4096 ∣ n → (cursor / 4096 * 4096 < n ↔ cursor < n) ∧
      (n ≤ cursor / 4096 * 4096 ↔ n ≤ cursor) := by
    intro n hn
    omega
  cases hfind : maps.blocks.find? fun b => decide (cursor / 4096 * 4096 < b.stop) with
  | none =>
    left
    refine ⟨by rw [virtualQueryBlocks, hfind]; rfl, fun b hb => ?_⟩
    obtain ⟨-, -, -, hstop⟩ := maps.aligned b hb
    have hnot := List.find?_eq_none.1 hfind b hb
    rw [decide_eq_true_eq, (hborder b.stop hstop).1] at hnot
    omega
  | some b =>
    right
    obtain ⟨hb, before, after, hsplit, hbefore⟩ := List.find?_eq_some_iff_append.1 hfind
    have hmem : b ∈ maps.blocks := by rw [hsplit]; simp
    obtain ⟨-, -, hstart, hstop⟩ := maps.aligned b hmem
    have hsorted := maps.sorted
    rw [hsplit, List.pairwise_append, List.pairwise_cons] at hsorted
    refine ⟨before, b, after, hsplit, fun b' hb' => ?_, ?_, hsorted.2.1.1, ?_⟩
    · obtain ⟨-, -, -, hstop'⟩ := maps.aligned b' (by rw [hsplit]; simp [hb'])
      have hnot := hbefore b' hb'
      rw [Bool.not_eq_true', decide_eq_false_iff_not, (hborder b'.stop hstop').1] at hnot
      omega
    · exact (hborder b.stop hstop).1.1 (of_decide_eq_true hb)
    · rw [virtualQueryBlocks, hfind, Option.map_some]
      congr 1
      exact if_congr (hborder b.start hstart).2 rfl rfl

theorem cursorLoop_some {p : Inspected} {e fuel : Nat} {protection type : UInt32} {found : List Nat}
    (hquery : p.query cursor = some ⟨UInt64.ofNat (cursor / 4096 * 4096),
      UInt64.ofNat (e - cursor / 4096 * 4096), protection, type⟩)
    (he : cursor < e) (he64 : e < 2 ^ 64) (hlt : cursor < q.stop) {result : List Nat × Bool}
    (hresult : result =
      if protection &&& q.protection ≠ 0 ∧ q.pattern.length ≤ min e q.stop - cursor then
        chunkLoop p q (min e q.stop) (min e q.stop - cursor) cursor found
      else (found, false)) :
    cursorLoop p q (fuel + 1) cursor found =
      if result.2 then result.1 else cursorLoop p q fuel (min e q.stop) result.1 := by
  have hbase : (UInt64.ofNat (cursor / 4096 * 4096)).toNat = cursor / 4096 * 4096 :=
    toNat_ofNat (by omega)
  have hsize : (UInt64.ofNat (e - cursor / 4096 * 4096)).toNat = e - cursor / 4096 * 4096 :=
    toNat_ofNat (by omega)
  have hne : ¬ UInt64.ofNat (e - cursor / 4096 * 4096) = 0 := by
    intro h
    have hzero := congrArg UInt64.toNat h
    rw [hsize] at hzero
    have hnat : (0 : UInt64).toNat = 0 := rfl
    omega
  have hstart : max (cursor / 4096 * 4096) cursor = cursor := by omega
  have hend : (if 2 ^ 64 - 1 - cursor / 4096 * 4096 < e - cursor / 4096 * 4096 then 2 ^ 64 - 1
      else cursor / 4096 * 4096 + (e - cursor / 4096 * 4096)) = e := by
    rw [if_neg (by omega)]
    omega
  have hahead : ¬ min e q.stop ≤ cursor := by omega
  have hpiece : cursor < min e q.stop := by omega
  rw [cursorLoop, if_pos hlt, hquery]
  dsimp only
  rw [if_neg hne, hbase, hsize, hstart, hend, if_neg hahead, hresult]
  simp only [hpiece, true_and]

section

variable (hpattern : 0 < q.pattern.length)
include hpattern

/-- There is nothing left behind the last region, or at the end of the range. -/
theorem placesFrom_done {blocks : List Block}
    (h : (∀ b ∈ blocks, b.stop ≤ cursor) ∨ q.stop ≤ cursor) :
    placesFrom blocks mem q cursor = [] := by
  rcases h with hbelow | hend
  · exact placesFrom_below hpattern hbelow
  · rw [placesFrom, List.flatMap_eq_nil_iff]
    intro b _
    rw [regionPlaces]
    split
    · rfl
    · exact placesIn_short (by omega)

theorem placesFrom_split {before after : List Block} (hbefore : ∀ b' ∈ before, b'.stop ≤ cursor) :
    placesFrom (before ++ b :: after) mem q cursor =
      regionPlaces mem q cursor b ++ placesFrom after mem q cursor := by
  have hnone : placesFrom before mem q cursor = [] := placesFrom_below hpattern hbefore
  rw [placesFrom, List.flatMap_append, List.flatMap_cons]
  rw [placesFrom] at hnone
  rw [hnone, List.nil_append]
  rfl

theorem placesFrom_above {blocks : List Block} {e : Nat}
    (hle : cursor ≤ min e q.stop) (h : ∀ b ∈ blocks, e ≤ b.start) :
    placesFrom blocks mem q (min e q.stop) = placesFrom blocks mem q cursor := by
  rw [placesFrom, placesFrom]
  apply List.flatMap_congr
  intro b hb
  have hstart := h b hb
  exact regionPlaces_above hpattern hle (Or.inl (by omega))

theorem region_collects (hmask : q.mask.length = q.pattern.length) (hstop : q.stop < 2 ^ 64)
    (hb : b ∈ maps.blocks) (hin : b.start ≤ cursor) {found : List Nat}
    (hfound : found.length < MAX_HIT_COUNT) :
    Collects found (regionPlaces mem q cursor b)
      (if b.protection &&& q.protection ≠ 0 ∧ q.pattern.length ≤ min b.stop q.stop - cursor then
        chunkLoop (inspected maps.blocks mem) q (min b.stop q.stop) (min b.stop q.stop - cursor)
          cursor found
      else (found, false)) := by
  rw [regionPlaces]
  by_cases hprotection : b.protection &&& q.protection = 0
  · rw [if_pos hprotection, if_neg (fun h => h.1 hprotection)]
    exact collects_nil hfound
  · rw [if_neg hprotection, Nat.max_eq_right hin]
    by_cases hlength : q.pattern.length ≤ min b.stop q.stop - cursor
    · rw [if_pos ⟨hprotection, hlength⟩]
      apply chunkLoop_collects hpattern hmask (by omega) _ _ (Nat.le_refl _) _ hfound
      exact fun a hge hlt => ⟨b, hb, by omega, by omega⟩
    · rw [if_neg (fun h => hlength h.2), placesIn_short (by omega)]
      exact collects_nil hfound

/-- From the cursor on all places are found: by induction on the addresses that are left.  Each
    round takes a region, a gap, or a page behind the last region. -/
theorem cursorLoop_eq
    (hmask : q.mask.length = q.pattern.length) (hstop : q.stop < 2 ^ 64) (fuel : Nat)
    (hfuel : q.stop - cursor ≤ fuel) {found : List Nat} (hfound : found.length < MAX_HIT_COUNT) :
    cursorLoop (inspected maps.blocks mem) q fuel cursor found =
      (found ++ placesFrom maps.blocks mem q cursor).take MAX_HIT_COUNT := by
  induction fuel generalizing cursor found with
  | zero =>
    rw [placesFrom_done hpattern (Or.inr (by omega)), List.append_nil,
      List.take_of_length_le (by omega)]
    rfl
  | succ fuel ih =>
    by_cases hlt : cursor < q.stop
    · rcases virtualQueryBlocks_cases maps cursor with ⟨hquery, hbelow⟩ |
        ⟨before, b, after, hsplit, hbefore, hb, hafter, hquery⟩
      · -- behind the last region
        have hnone : (inspected maps.blocks mem).query cursor = none := hquery
        rw [cursorLoop, if_pos hlt, hnone, placesFrom_done hpattern (Or.inl hbelow),
          List.append_nil, List.take_of_length_le (by omega)]
        dsimp only
        by_cases hwrap : (cursor + 4096) % 2 ^ 64 ≤ cursor
        · rw [if_pos hwrap]
        · have hsum : (cursor + 4096) % 2 ^ 64 = cursor + 4096 := by omega
          have hrest : placesFrom maps.blocks mem q (cursor + 4096) = [] :=
            placesFrom_done hpattern (Or.inl fun b hb => Nat.le_trans (hbelow b hb) (by omega))
          rw [if_neg hwrap, hsum, ih (by omega) hfound, hrest, List.append_nil,
            List.take_of_length_le (by omega)]
      · have hmem : b ∈ maps.blocks := by rw [hsplit]; simp
        obtain ⟨hless, hlast, -, -⟩ := maps.aligned b hmem
        by_cases hin : b.start ≤ cursor
        · -- in a region
          rw [if_pos hin] at hquery
          have hcollects := @region_collects maps mem q cursor b hpattern hmask hstop hmem hin
            found hfound
          have hplaces : placesFrom maps.blocks mem q cursor = regionPlaces mem q cursor b ++
              placesFrom maps.blocks mem q (min b.stop q.stop) := by
            have hpassed : regionPlaces mem q (min b.stop q.stop) b = [] := by
              rw [regionPlaces]
              split
              · rfl
              · exact placesIn_short (by omega)
            have habove : placesFrom after mem q (min b.stop q.stop) =
                placesFrom after mem q cursor := placesFrom_above hpattern (by omega) hafter
            rw [hsplit, placesFrom_split hpattern hbefore,
              placesFrom_split hpattern fun b' hb' => ?_, hpassed, habove, List.nil_append]
            have hend := hbefore b' hb'
            omega
          rw [cursorLoop_some hquery hb hlast hlt rfl, hplaces]
          generalize (if b.protection &&& q.protection ≠ 0 ∧
              q.pattern.length ≤ min b.stop q.stop - cursor then
            chunkLoop (inspected maps.blocks mem) q (min b.stop q.stop)
              (min b.stop q.stop - cursor) cursor found
            else (found, false)) = result at hcollects ⊢
          by_cases hfull : result.2 = true
          · rw [if_pos hfull]
            exact (hcollects.full hfull _).list
          · obtain ⟨hresult, hroom⟩ := hcollects.below hfull
            rw [if_neg hfull, hresult, ih (by omega) hroom, List.append_assoc]
        · -- in a gap
          rw [if_neg hin] at hquery
          have hgap : ∀ a, cursor ≤ a → a < min b.start q.stop → ¬ Mapped maps.blocks a := by
            rintro a hge hbelow ⟨b', hb', hstart, hstop'⟩
            rw [hsplit, List.mem_append, List.mem_cons] at hb'
            rcases hb' with hb' | rfl | hb'
            · have hend := hbefore b' hb'
              omega
            · omega
            · have hbegin := hafter b' hb'
              omega
          have hnothing : ∀ c : Prop, [Decidable c] → (if c then
              chunkLoop (inspected maps.blocks mem) q (min b.start q.stop)
                (min b.start q.stop - cursor) cursor found else (found, false)) =
              (found, false) := by
            intro c _
            split
            · exact chunkLoop_gap hpattern _ _ hgap
            · rfl
          have hsame : placesFrom maps.blocks mem q (min b.start q.stop) =
              placesFrom maps.blocks mem q cursor := by
            have hbegins : ∀ b' ∈ b :: after, b.start ≤ b'.start := by
              intro b' hb'
              rcases List.mem_cons.1 hb' with rfl | hb'
              · exact Nat.le_refl _
              · have hbegin := hafter b' hb'
                omega
            have habove : placesFrom (b :: after) mem q (min b.start q.stop) =
                placesFrom (b :: after) mem q cursor := placesFrom_above hpattern (by omega) hbegins
            rw [hsplit, placesFrom_split hpattern hbefore,
              placesFrom_split hpattern fun b' hb' => ?_]
            · rw [placesFrom, placesFrom, List.flatMap_cons, List.flatMap_cons] at habove
              exact habove
            · have hend := hbefore b' hb'
              omega
          rw [cursorLoop_some hquery (by omega) (by omega) hlt rfl, hnothing,
            if_neg Bool.false_ne_true, ih (by omega) hfound, hsame]
    · rw [cursorLoop, if_neg hlt, placesFrom_done hpattern (Or.inr (by omega)), List.append_nil,
        List.take_of_length_le (by omega)]

theorem aobScan_eq (hlength : q.pattern.length ≤ MAX_AOB_PATTERN_SIZE)
    (hmask : q.mask.length = q.pattern.length) (hinc : 0 < q.inc) (hrange : q.start < q.stop)
    (hstop : q.stop < 2 ^ 64) :
    aobScan (inspected maps.blocks mem) q =
      (placesFrom maps.blocks mem q q.start).take MAX_HIT_COUNT := by
  have haccepted : ¬ (q.pattern.length = 0 ∨ MAX_AOB_PATTERN_SIZE < q.pattern.length ∨ q.inc = 0 ∨
      q.stop ≤ q.start) := by omega
  have hempty : ([] : List Nat).length < MAX_HIT_COUNT := by decide
  rw [aobScan, if_neg haccepted, cursorLoop_eq hpattern hmask hstop _ (Nat.le_refl _) hempty,
    List.nil_append]

end

end Cursor

end CheatEngine.Ceserver
