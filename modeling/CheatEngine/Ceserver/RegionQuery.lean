/-
  CheatEngine.Ceserver.RegionQuery

  The two region queries compared, on every text of the kernel.

  `VirtualQueryExFull` takes the rest of a long line for a mapping when it reads like one, and
  a mapping at the address 0 for none; `VirtualQueryEx` stops at a rest that reads as a range
  above the address.
-/
import CheatEngine.Ceserver.RegionText

namespace CheatEngine.Ceserver

open CheatEngine.Lib

structure QueriesAgree (k : KernelMaps) : Prop where
  /-- One region for each mapping. -/
  full : ∀ env fuel, ∃ s, virtualQueryExFull 0 env fuel k.smaps = some s ∧
    s.list.entries = k.mappings.map Mapping.region
  /-- A page of a region. -/
  inside : ∀ m ∈ k.mappings, ∀ address, 4096 ∣ address → m.start ≤ address → address < m.stop →
    ∀ stale rinfo, ∃ x, virtualQueryEx stale address rinfo k.maps = some ⟨some x,
      ⟨UInt64.ofNat address, UInt64.ofNat (m.stop - address), m.protection, m.type⟩⟩
  gap : ∀ before m after, k.mappings = before ++ m :: after → ∀ address,
    (∀ b ∈ before, b.stop ≤ address) → address < m.start →
    ∀ stale rinfo, ∃ x, virtualQueryEx stale address rinfo k.maps = some ⟨some x,
      ⟨UInt64.ofNat (address / 4096 * 4096), UInt64.ofNat (m.start - address / 4096 * 4096),
        PAGE_NOACCESS, 0⟩⟩

/-! ## The blocks of smaps -/

def header? (x : List Char) : Option Block :=
  (scanRange x).word.map fun word =>
    ⟨(scanRange x).start, (scanRange x).stop, word.take 24, false⟩

/-- The blocks, in the order in which they are closed; `b` is the one being read. -/
def blocksOf (flags : UInt32) : Block → List (List Char) → List Block
  | b, [] => [b]
  | b, x :: rest =>
    match header? x with
    | some b' => b :: blocksOf flags b' rest
    | none =>
      blocksOf flags
        (if dirtyonly flags ∧ b.start ≠ 0 ∧ saysDirty x then { b with isdirty := true } else b)
        rest

section Full

variable {flags : UInt32} {env : PageReads} {fuel : Nat}

theorem header?_of_word {x word : List Char} (h : (scanRange x).word = some word) :
    header? x = some ⟨(scanRange x).start, (scanRange x).stop, word.take 24, false⟩ := by
  rw [header?, h]
  rfl

theorem header?_eq_none {x : List Char} (h : (scanRange x).word = none) : header? x = none := by
  rw [header?, h]
  rfl

theorem foldlM_fullLine (lines : List (List Char)) (s : Listing) (b : Block) :
    ((lines.foldlM (fullLine flags env fuel) (s, b)).bind fun p =>
        listBlock flags env fuel p.1 p.2) =
      (blocksOf flags b lines).foldlM (listBlock flags env fuel) s := by
  induction lines generalizing s b with
  | nil => simp [blocksOf]
  | cons x rest ih =>
    rw [List.foldlM_cons, blocksOf]
    cases hword : (scanRange x).word with
    | some word =>
      have hline : fullLine flags env fuel (s, b) x = (listBlock flags env fuel s b).bind
          fun listing =>
            some (listing, ⟨(scanRange x).start, (scanRange x).stop, word.take 24, false⟩) := by
        simp only [fullLine, hword]
        rfl
      rw [hline, header?_of_word hword]
      cases hlist : listBlock flags env fuel s b with
      | none => simp [hlist]
      | some s' => simpa [hlist] using ih s' _
    | none =>
      rw [header?_eq_none hword]
      simp only [fullLine, hword]
      split <;> exact ih s _

theorem virtualQueryExFull_eq (smaps : List Char) :
    virtualQueryExFull flags env fuel smaps =
      listBlocks flags env fuel (blocksOf flags noBlock (linesOf smaps)) :=
  foldlM_fullLine (linesOf smaps) (Listing.start flags env) noBlock

theorem blocksOf_zero (b : Block) (lines : List (List Char)) :
    blocksOf 0 b lines = b :: lines.filterMap header? := by
  induction lines generalizing b with
  | nil => rfl
  | cons x rest ih =>
    have hflags : ¬ (dirtyonly 0 ∧ b.start ≠ 0 ∧ saysDirty x) := by
      rintro ⟨h, -⟩
      cases h
    rw [blocksOf, if_neg hflags]
    cases hheader : header? x with
    | none => rw [List.filterMap_cons_none hheader]; exact ih b
    | some b' => rw [List.filterMap_cons_some hheader]; exact congrArg _ (ih b')

/-- The entry of a block. -/
def Block.region (b : Block) : RegionInfo :=
  ⟨UInt64.ofNat b.start, UInt64.ofNat (b.stop + 2 ^ 64 - b.start), b.protection, b.type⟩

/-- A block that is listed without flags. -/
def Block.started (b : Block) : Bool := b.start ≠ 0

theorem listBlocks_zero (blocks : List Block) (s : Listing) :
    ∃ s', blocks.foldlM (listBlock 0 env fuel) s = some s' ∧
      s'.list.entries = s.list.entries ++ (blocks.filter Block.started).map Block.region := by
  induction blocks generalizing s with
  | nil => exact ⟨s, rfl, by simp⟩
  | cons b blocks ih =>
    have hpassed : b.passed 0 = true := by
      simp [Block.passed, noshared, dirtyonly]
    have hpaged : ¬ pagedonly 0 = true := by decide
    by_cases hstart : b.start = 0
    · obtain ⟨s', hrun, hentries⟩ := ih s
      refine ⟨s', ?_, ?_⟩
      · rw [List.foldlM_cons, listBlock, if_neg (fun h => h.1 hstart)]
        exact hrun
      · rw [hentries, List.filter_cons_of_neg (by simp [Block.started, hstart])]
    · obtain ⟨s', hrun, hentries⟩ := ih { s with
        list := s.list.add b.start (b.stop + 2 ^ 64 - b.start) b.type b.protection }
      refine ⟨s', ?_, ?_⟩
      · rw [List.foldlM_cons, listBlock, if_pos ⟨hstart, hpassed⟩, if_neg hpaged]
        exact hrun
      · rw [hentries, List.filter_cons_of_pos (by simp [Block.started, hstart]),
          RegionList.add_entries, List.append_assoc]
        rfl

end Full

def Mapping.block (m : Mapping) : Block := ⟨m.start, m.stop, m.perms, false⟩

/-- The blocks that the rests of a line start. -/
def Mapping.restBlocks (m : Mapping) : List Block := m.rests.filterMap header?

section Smaps

variable {m : Mapping}

theorem linesOf_line_append (hpath : '\n' ∉ m.path) (rest : List Char) :
    linesOf (m.line ++ rest) = linesOf m.line ++ linesOf rest := by
  rw [Mapping.line, List.append_assoc]
  exact linesOf_append (newline_body hpath) rest

theorem linesOf_info_append (i : InfoLine) (rest : List Char) :
    linesOf (i.line ++ rest) = linesOf i.line ++ linesOf rest := by
  have hbody : '\n' ∉ i.name ++ ':' :: i.value := by
    simp [i.name_newline, i.value_newline]
  have hline : ∀ t, i.line ++ t = (i.name ++ ':' :: i.value) ++ '\n' :: t := by
    intro t
    simp [InfoLine.line]
  have hown := hline []
  rw [List.append_nil] at hown
  rw [hline, hown]
  exact linesOf_append hbody rest

theorem headers_line (hstart : m.start < 2 ^ 64) (hstop : m.stop < 2 ^ 64) (hpath : '\n' ∉ m.path) :
    (linesOf m.line).filterMap header? = m.block :: m.restBlocks := by
  obtain ⟨x, hlines, hrange⟩ := linesOf_line hstart hstop hpath
  have hword : (scanRange x).word = some m.perms := by rw [hrange]
  have hheader : header? x = some m.block := by
    rw [header?_of_word hword, hrange]
    rfl
  rw [hlines, List.filterMap_cons_some hheader]
  rfl

theorem headers_infos (infos : List InfoLine) (rest : List Char) :
    (linesOf (infos.flatMap InfoLine.line ++ rest)).filterMap header? =
      (linesOf rest).filterMap header? := by
  induction infos with
  | nil => rfl
  | cons i infos ih =>
    obtain ⟨x, hlines, hword⟩ := linesOf_info i
    rw [List.flatMap_cons, List.append_assoc, linesOf_info_append, hlines, List.singleton_append,
      List.filterMap_cons_none (header?_eq_none hword), ih]

theorem headers_smaps (k : KernelMaps) :
    (linesOf k.smaps).filterMap header? =
      k.mappings.flatMap fun m => m.block :: m.restBlocks := by
  have hall : ∀ entries : List (Mapping × List InfoLine),
      (∀ e ∈ entries, e.1.start < 2 ^ 64 ∧ e.1.stop < 2 ^ 64 ∧ '\n' ∉ e.1.path) →
      (linesOf (entries.flatMap fun e => e.1.line ++ e.2.flatMap InfoLine.line)).filterMap header? =
        (entries.map Prod.fst).flatMap fun m => m.block :: m.restBlocks := by
    intro entries
    induction entries with
    | nil => intro _; rfl
    | cons e entries ih =>
      intro h
      obtain ⟨hstart, hstop, hpath⟩ := h e List.mem_cons_self
      have hrest := ih fun e' he' => h e' (List.mem_cons_of_mem e he')
      rw [List.flatMap_cons, List.append_assoc, linesOf_line_append hpath, List.filterMap_append,
        headers_line hstart hstop hpath, headers_infos, hrest]
      rfl
  apply hall
  intro e he
  obtain ⟨-, -, hlt, hstop⟩ := k.aligned e he
  exact ⟨by omega, hstop, k.path_newline e he⟩

end Smaps

theorem KernelMaps.mapping (k : KernelMaps) {m : Mapping} (hm : m ∈ k.mappings) :
    4096 ∣ m.start ∧ 4096 ∣ m.stop ∧ m.start < m.stop ∧ m.stop < 2 ^ 64 ∧ '\n' ∉ m.path := by
  obtain ⟨e, he, rfl⟩ := List.mem_map.1 hm
  obtain ⟨hstart, hstop, hlt, hlast⟩ := k.aligned e he
  exact ⟨hstart, hstop, hlt, hlast, k.path_newline e he⟩

theorem ofNat_inj {a b : Nat} (ha : a < 2 ^ 64) (hb : b < 2 ^ 64) :
    UInt64.ofNat a = UInt64.ofNat b ↔ a = b := by
  constructor
  · intro h
    have hnat := congrArg UInt64.toNat h
    rwa [UInt64.toNat_ofNat', UInt64.toNat_ofNat', Nat.mod_eq_of_lt ha, Nat.mod_eq_of_lt hb]
      at hnat
  · rintro rfl
    rfl

/-- The numbers that are read fit into their variables. -/
theorem scanRange_lt (x : List Char) :
    (scanRange x).start < 2 ^ 64 ∧ (scanRange x).stop < 2 ^ 64 := by
  unfold scanRange
  split
  · rename_i hfirst
    split
    · rename_i hsecond
      exact ⟨scanHex_lt hfirst, scanHex_lt hsecond⟩
    · exact ⟨scanHex_lt hfirst, Nat.two_pow_pos 64⟩
  · rename_i hfirst
    exact ⟨scanHex_lt hfirst, Nat.two_pow_pos 64⟩
  · decide

theorem restBlocks_lt {m : Mapping} {b : Block} (hb : b ∈ m.restBlocks) : b.start < 2 ^ 64 := by
  obtain ⟨x, -, hheader⟩ := List.mem_filterMap.1 hb
  obtain ⟨word, -, rfl⟩ := Option.map_eq_some_iff.1 hheader
  exact (scanRange_lt x).1

theorem block_region (m : Mapping) (hlt : m.start < m.stop) : m.block.region = m.region := by
  have hsize : UInt64.ofNat (m.stop + 2 ^ 64 - m.start) = UInt64.ofNat (m.stop - m.start) := by
    have hsum : m.stop + 2 ^ 64 - m.start = m.stop - m.start + 2 ^ 64 := by omega
    apply UInt64.toNat.inj
    rw [hsum, UInt64.toNat_ofNat', UInt64.toNat_ofNat', Nat.add_mod_right]
  rw [Block.region, Mapping.region, ← protection_perms, ← type_perms]
  simp only [Mapping.block, hsize]
  rfl

theorem started_blocks {ms : List Mapping} (h : ∀ m ∈ ms, m.start ≠ 0) :
    (ms.flatMap fun m => m.block :: m.restBlocks).filter Block.started =
      ms.flatMap fun m => m.block :: m.restBlocks.filter Block.started := by
  induction ms with
  | nil => rfl
  | cons m ms ih =>
    have hrest := ih fun m' hm' => h m' (List.mem_cons_of_mem m hm')
    have hstart : m.block.started = true := decide_eq_true (h m List.mem_cons_self)
    rw [List.flatMap_cons, List.flatMap_cons, List.filter_append, hrest,
      List.filter_cons_of_pos hstart]

theorem length_started (ms : List Mapping) :
    (ms.flatMap fun m => m.block :: m.restBlocks.filter Block.started).length =
      ms.length + (ms.flatMap fun m => m.restBlocks.filter Block.started).length := by
  induction ms with
  | nil => rfl
  | cons m ms ih =>
    simp only [List.flatMap_cons, List.length_append, List.length_cons, ih]
    omega

theorem full_iff (k : KernelMaps) :
    (∀ env fuel, ∃ s, virtualQueryExFull 0 env fuel k.smaps = some s ∧
      s.list.entries = k.mappings.map Mapping.region) ↔
    (∀ m ∈ k.mappings, m.start ≠ 0) ∧
      ∀ m ∈ k.mappings, ∀ b ∈ m.restBlocks, b.start = 0 := by
  have hlisted : ∀ env fuel, ∃ s, virtualQueryExFull 0 env fuel k.smaps = some s ∧
      s.list.entries =
        ((k.mappings.flatMap fun m => m.block :: m.restBlocks).filter Block.started).map
          Block.region := by
    intro env fuel
    obtain ⟨s, hrun, hentries⟩ := @listBlocks_zero env fuel
      (noBlock :: k.mappings.flatMap fun m => m.block :: m.restBlocks) (Listing.start 0 env)
    refine ⟨s, ?_, hentries⟩
    rw [virtualQueryExFull_eq, blocksOf_zero, headers_smaps]
    exact hrun
  constructor
  · intro h
    obtain ⟨s, hrun, hentries⟩ := hlisted ⟨1, fun _ => true, fun _ _ _ => [],
      Vector.replicate 512 0, Nat.one_pos⟩ 0
    obtain ⟨s', hrun', hmappings⟩ := h ⟨1, fun _ => true, fun _ _ _ => [],
      Vector.replicate 512 0, Nat.one_pos⟩ 0
    obtain rfl : s = s' := Option.some.inj (hrun.symm.trans hrun')
    rw [hentries] at hmappings
    -- a listed region is not at 0
    have hzero : ∀ m ∈ k.mappings, m.start ≠ 0 := by
      intro m hm hstart
      obtain ⟨-, -, hlt, hstop, -⟩ := k.mapping hm
      have hregion : m.region ∈ k.mappings.map Mapping.region := List.mem_map_of_mem hm
      rw [← hmappings, List.mem_map] at hregion
      obtain ⟨b, hb, hsame⟩ := hregion
      rw [List.mem_filter, List.mem_flatMap] at hb
      obtain ⟨⟨m', hm', hb⟩, hstarted⟩ := hb
      have hlt' : b.start < 2 ^ 64 := by
        rcases List.mem_cons.1 hb with rfl | hb
        · obtain ⟨-, -, hless, hlast, -⟩ := k.mapping hm'
          exact Nat.lt_trans hless hlast
        · exact restBlocks_lt hb
      have hbase := (ofNat_inj hlt' (by omega)).1 (congrArg RegionInfo.baseaddress hsame)
      exact absurd (hbase.trans hstart) (of_decide_eq_true hstarted)
    refine ⟨hzero, ?_⟩
    -- so that there is room in the list for the mappings only
    have hlength := congrArg List.length hmappings
    rw [started_blocks hzero, List.length_map, List.length_map, length_started] at hlength
    have hnone : (k.mappings.flatMap fun m => m.restBlocks.filter Block.started) = [] :=
      List.length_eq_zero_iff.1 (by omega)
    intro m hm b hb
    by_contra hstart
    have hmem : b ∈ k.mappings.flatMap fun m => m.restBlocks.filter Block.started :=
      List.mem_flatMap.2 ⟨m, hm, List.mem_filter.2 ⟨hb, decide_eq_true hstart⟩⟩
    rw [hnone] at hmem
    cases hmem
  · rintro ⟨hzero, hrests⟩ env fuel
    obtain ⟨s, hrun, hentries⟩ := hlisted env fuel
    refine ⟨s, hrun, ?_⟩
    have hnone : ∀ m ∈ k.mappings, m.restBlocks.filter Block.started = [] := by
      intro m hm
      rw [List.filter_eq_nil_iff]
      intro b hb hstarted
      exact of_decide_eq_true hstarted (hrests m hm b hb)
    have hblocks : (k.mappings.flatMap fun m => m.block :: m.restBlocks.filter Block.started) =
        k.mappings.map Mapping.block := by
      rw [List.flatMap_congr (fun m hm => by rw [hnone m hm]), List.map_eq_flatMap]
    rw [hentries, started_blocks hzero, hblocks, List.map_map]
    exact List.map_congr_left fun m hm => block_region m (k.mapping hm).2.2.1

/-! ## The line that answers -/

/-- The line ends the loop. -/
def decides (address : Nat) (x : List Char) : Bool :=
  24 < ((scanRange x).word.getD []).length || address < (scanRange x).stop

def answer (stale : List Char) (address : Nat) (rinfo : RegionInfo) (x : List Char) :
    Option Query :=
  if 24 < ((scanRange x).word.getD []).length then none
  else if (scanRange x).start ≤ address then
    some ⟨some x, { rinfo with
      protection := protectionStringToProtection ((scanRange x).word.getD stale)
      type := protectionStringToType ((scanRange x).word.getD stale)
      size := UInt64.ofNat ((scanRange x).stop - address) }⟩
  else
    some ⟨some x, { rinfo with
      size := UInt64.ofNat ((scanRange x).start - address)
      protection := PAGE_NOACCESS
      type := 0 }⟩

/-- What the mapping says of an address behind the mappings before it. -/
def Mapping.regionAt (m : Mapping) (address : Nat) : RegionInfo :=
  if m.start ≤ address then
    ⟨UInt64.ofNat address, UInt64.ofNat (m.stop - address), m.protection, m.type⟩
  else ⟨UInt64.ofNat address, UInt64.ofNat (m.start - address), PAGE_NOACCESS, 0⟩

/-- The rest reads, at the address, like the mapping. -/
def ReadsLike (x : List Char) (m : Mapping) (address : Nat) : Prop :=
  ((scanRange x).word.getD []).length ≤ 24 ∧
    if (scanRange x).start ≤ address then
      m.start ≤ address ∧ (scanRange x).stop = m.stop ∧ ∃ word, (scanRange x).word = some word ∧
        protectionStringToProtection word = m.protection ∧ protectionStringToType word = m.type
    else (scanRange x).start = m.start

section Answer

variable {m : Mapping} {address : Nat} {x : List Char}

theorem queryLines_eq (stale : List Char) (rinfo : RegionInfo) (lines : List (List Char)) :
    queryLines stale address rinfo lines =
      match lines.find? (decides address) with
      | none => some ⟨none, rinfo⟩
      | some x => answer stale address rinfo x := by
  induction lines with
  | nil => rfl
  | cons x rest ih =>
    rw [queryLines, List.find?_cons]
    by_cases hlong : 24 < ((scanRange x).word.getD []).length
    · simp [decides, answer, hlong]
    · by_cases hstop : address < (scanRange x).stop
      · simp [decides, answer, hlong, hstop]
      · simp [decides, hlong, hstop, ih]

theorem protection_ne_noaccess (protectionstring : List Char) :
    protectionStringToProtection protectionstring ≠ PAGE_NOACCESS := by
  unfold protectionStringToProtection
  split <;> split <;> decide

theorem answer_header (stale : List Char) (rinfo : RegionInfo)
    (hx : scanRange x = ⟨m.start, m.stop, some m.perms⟩) :
    answer stale address { rinfo with protection := 0, baseaddress := UInt64.ofNat address } x =
      some ⟨some x, m.regionAt address⟩ := by
  have hperms : ¬ 24 < m.perms.length := Nat.not_lt.2 (Nat.le_of_ble_eq_true rfl)
  rw [answer, hx, Mapping.regionAt, ← protection_perms, ← type_perms]
  dsimp only [Option.getD_some]
  rw [if_neg hperms]
  split <;> rfl

theorem answer_iff (hstart : m.start < m.stop) (hstop : m.stop < 2 ^ 64)
    (haddress : address < m.stop) :
    (∀ (stale : List Char) (rinfo : RegionInfo), ∃ y, answer stale address
        { rinfo with protection := 0, baseaddress := UInt64.ofNat address } x =
          some ⟨some y, m.regionAt address⟩) ↔ ReadsLike x m address := by
  obtain ⟨hstartlt, hstoplt⟩ := scanRange_lt x
  unfold ReadsLike
  constructor
  · intro h
    by_cases hlong : 24 < ((scanRange x).word.getD []).length
    · obtain ⟨y, hy⟩ := h [] ⟨0, 0, 0, 0⟩
      rw [answer, if_pos hlong] at hy
      cases hy
    · refine ⟨by omega, ?_⟩
      by_cases hle : (scanRange x).start ≤ address
      · rw [if_pos hle]
        have hregion : ∀ stale, (⟨UInt64.ofNat address, UInt64.ofNat ((scanRange x).stop - address),
            protectionStringToProtection ((scanRange x).word.getD stale),
            protectionStringToType ((scanRange x).word.getD stale)⟩ : RegionInfo) =
              m.regionAt address := by
          intro stale
          obtain ⟨y, hy⟩ := h stale ⟨0, 0, 0, 0⟩
          rw [answer, if_neg hlong, if_pos hle] at hy
          exact congrArg Query.rinfo (Option.some.inj hy)
        by_cases hin : m.start ≤ address
        · simp only [Mapping.regionAt, if_pos hin, RegionInfo.mk.injEq, true_and] at hregion
          have hsize := (ofNat_inj (by omega) (by omega)).1 (hregion []).1
          refine ⟨hin, by omega, ?_⟩
          cases hword : (scanRange x).word with
          | some word =>
            have hsame := hregion []
            rw [hword] at hsame
            exact ⟨word, rfl, hsame.2⟩
          | none =>
            -- two contents that differ in their protection
            have hread := (hregion []).2.1
            have hwrite := (hregion ['w']).2.1
            rw [hword] at hread hwrite
            exact absurd (hread.trans hwrite.symm) (by decide)
        · simp only [Mapping.regionAt, if_neg hin, RegionInfo.mk.injEq, true_and] at hregion
          exact absurd (hregion []).2.1 (protection_ne_noaccess _)
      · rw [if_neg hle]
        obtain ⟨y, hy⟩ := h [] ⟨0, 0, 0, 0⟩
        rw [answer, if_neg hlong, if_neg hle] at hy
        have hregion := congrArg Query.rinfo (Option.some.inj hy)
        by_cases hin : m.start ≤ address
        · simp only [Mapping.regionAt, if_pos hin, RegionInfo.mk.injEq, true_and] at hregion
          rw [← protection_perms] at hregion
          exact absurd hregion.2.1.symm (protection_ne_noaccess _)
        · simp only [Mapping.regionAt, if_neg hin, RegionInfo.mk.injEq, true_and, and_true]
            at hregion
          have hsize := (ofNat_inj (by omega) (by omega)).1 hregion
          omega
  · rintro ⟨hshort, hreads⟩ stale rinfo
    have hlong : ¬ 24 < ((scanRange x).word.getD []).length := by omega
    refine ⟨x, ?_⟩
    rw [answer, if_neg hlong]
    by_cases hle : (scanRange x).start ≤ address
    · rw [if_pos hle] at hreads ⊢
      obtain ⟨hin, hend, word, hword, hprotection, htype⟩ := hreads
      rw [Mapping.regionAt, if_pos hin, hword, hend, ← hprotection, ← htype]
      rfl
    · rw [if_neg hle] at hreads ⊢
      rw [Mapping.regionAt, if_neg (by omega), hreads]

end Answer

/-! ## All lines of maps -/

theorem linesOf_maps {ms : List Mapping} (h : ∀ m ∈ ms, '\n' ∉ m.path) :
    linesOf (ms.flatMap Mapping.line) = ms.flatMap fun m => linesOf m.line := by
  induction ms with
  | nil => rfl
  | cons m ms ih =>
    rw [List.flatMap_cons, List.flatMap_cons, linesOf_line_append (h m List.mem_cons_self),
      ih fun m' hm' => h m' (List.mem_cons_of_mem m hm')]

theorem find?_lines {before after : List Mapping} {m : Mapping} {address : Nat}
    (hall : ∀ m' ∈ before ++ m :: after,
      m'.start < 2 ^ 64 ∧ m'.stop < 2 ^ 64 ∧ '\n' ∉ m'.path)
    (hbefore : ∀ b ∈ before, b.stop ≤ address) (haddress : address < m.stop) :
    ∃ x, scanRange x = ⟨m.start, m.stop, some m.perms⟩ ∧
      ((before ++ m :: after).flatMap fun m => linesOf m.line).find? (decides address) =
        ((before.flatMap Mapping.rests).find? (decides address)).or (some x) := by
  induction before with
  | nil =>
    obtain ⟨hstart, hstop, hpath⟩ := hall m List.mem_cons_self
    obtain ⟨x, hlines, hrange⟩ := linesOf_line hstart hstop hpath
    have hdecides : decides address x = true := by
      rw [decides, hrange, Bool.or_eq_true]
      exact Or.inr (decide_eq_true haddress)
    refine ⟨x, hrange, ?_⟩
    rw [List.nil_append, List.flatMap_cons, hlines, List.cons_append,
      List.find?_cons_of_pos hdecides]
    rfl
  | cons b before ih =>
    obtain ⟨x, hrange, hfind⟩ := ih (fun m' hm' => hall m' (List.mem_cons_of_mem b hm'))
      (fun b' hb' => hbefore b' (List.mem_cons_of_mem b hb'))
    obtain ⟨hstart, hstop, hpath⟩ := hall b List.mem_cons_self
    obtain ⟨y, hlines, hheader⟩ := linesOf_line hstart hstop hpath
    -- the header line of a mapping before the address is passed over
    have hpassed : ¬ decides address y = true := by
      have hperms : b.perms.length = 4 := rfl
      have hend := hbefore b List.mem_cons_self
      rw [decides, hheader]
      simp [hperms, hend]
    refine ⟨x, hrange, ?_⟩
    rw [List.cons_append, List.flatMap_cons, hlines, List.cons_append,
      List.find?_cons_of_neg hpassed, List.find?_append, hfind, List.flatMap_cons,
      List.find?_append, Option.or_assoc]

theorem virtualQueryEx_split (k : KernelMaps) {before after : List Mapping} {m : Mapping}
    (hsplit : k.mappings = before ++ m :: after) {address : Nat} (hpage : 4096 ∣ address)
    (hbefore : ∀ b ∈ before, b.stop ≤ address) (haddress : address < m.stop) :
    ∃ x, scanRange x = ⟨m.start, m.stop, some m.perms⟩ ∧ ∀ stale rinfo,
      virtualQueryEx stale address rinfo k.maps = answer stale address
        { rinfo with protection := 0, baseaddress := UInt64.ofNat address }
        (((before.flatMap Mapping.rests).find? (decides address)).getD x) := by
  have hall : ∀ m' ∈ k.mappings, m'.start < 2 ^ 64 ∧ m'.stop < 2 ^ 64 ∧ '\n' ∉ m'.path := by
    intro m' hm'
    obtain ⟨-, -, hlt, hstop, hpath⟩ := k.mapping hm'
    exact ⟨by omega, hstop, hpath⟩
  rw [hsplit] at hall
  obtain ⟨x, hrange, hfind⟩ := find?_lines hall hbefore haddress
  refine ⟨x, hrange, fun stale rinfo => ?_⟩
  have hlines : linesOf k.maps = (before ++ m :: after).flatMap fun m => linesOf m.line := by
    rw [KernelMaps.maps, hsplit, linesOf_maps fun m' hm' => (hall m' hm').2.2]
  rw [virtualQueryEx, Nat.div_mul_cancel hpage, queryLines_eq, hlines, hfind]
  cases (before.flatMap Mapping.rests).find? (decides address) <;> rfl

/-- Rests of long lines that do no harm. -/
structure RestsHarmless (k : KernelMaps) : Prop where
  noZero : ∀ m ∈ k.mappings, m.start ≠ 0
  noBlock : ∀ m ∈ k.mappings, ∀ b ∈ m.restBlocks, b.start = 0
  /-- The first rest that ends the search for an address, if there is one. -/
  noRange : ∀ before m after, k.mappings = before ++ m :: after → ∀ address, 4096 ∣ address →
    (∀ b ∈ before, b.stop ≤ address) → address < m.stop →
    ∀ x, (before.flatMap Mapping.rests).find? (decides address) = some x → ReadsLike x m address

/-- The answers for a page, of a mapping or in front of it. -/
def PagesAnswered (k : KernelMaps) : Prop :=
  ∀ before m after, k.mappings = before ++ m :: after → ∀ address, 4096 ∣ address →
    (∀ b ∈ before, b.stop ≤ address) → address < m.stop →
    ∀ (stale : List Char) (rinfo : RegionInfo), ∃ x,
      virtualQueryEx stale address rinfo k.maps = some ⟨some x, m.regionAt address⟩

theorem pagesAnswered_iff (k : KernelMaps) :
    PagesAnswered k ↔
      ∀ before m after, k.mappings = before ++ m :: after → ∀ address, 4096 ∣ address →
        (∀ b ∈ before, b.stop ≤ address) → address < m.stop →
        ∀ x, (before.flatMap Mapping.rests).find? (decides address) = some x →
          ReadsLike x m address := by
  have hm : ∀ {before m after}, k.mappings = before ++ m :: after →
      m.start < m.stop ∧ m.stop < 2 ^ 64 := by
    intro before m after hsplit
    obtain ⟨-, -, hlt, hstop, -⟩ := k.mapping (m := m) (by rw [hsplit]; simp)
    exact ⟨hlt, hstop⟩
  constructor
  · intro h before m after hsplit address hpage hbefore haddress y hfind
    obtain ⟨hlt, hstop⟩ := hm hsplit
    obtain ⟨x, -, hquery⟩ := virtualQueryEx_split k hsplit hpage hbefore haddress
    rw [hfind, Option.getD_some] at hquery
    apply (answer_iff hlt hstop haddress).1
    intro stale rinfo
    rw [← hquery stale rinfo]
    exact h before m after hsplit address hpage hbefore haddress stale rinfo
  · intro h before m after hsplit address hpage hbefore haddress stale rinfo
    obtain ⟨hlt, hstop⟩ := hm hsplit
    obtain ⟨x, hrange, hquery⟩ := virtualQueryEx_split k hsplit hpage hbefore haddress
    rw [hquery]
    cases hfind : (before.flatMap Mapping.rests).find? (decides address) with
    | none => exact ⟨x, answer_header stale rinfo hrange⟩
    | some y =>
      have hreads := h before m after hsplit address hpage hbefore haddress y hfind
      exact (answer_iff hlt hstop haddress).2 hreads stale rinfo

theorem KernelMaps.split (k : KernelMaps) {m : Mapping} (hm : m ∈ k.mappings) :
    ∃ before after, k.mappings = before ++ m :: after ∧ ∀ b ∈ before, b.stop ≤ m.start := by
  obtain ⟨before, after, hsplit⟩ := List.append_of_mem hm
  refine ⟨before, after, hsplit, fun b hb => ?_⟩
  have hsorted := k.sorted
  rw [← KernelMaps.mappings, hsplit, List.pairwise_append] at hsorted
  exact hsorted.2.2 b hb m List.mem_cons_self

/-- The two queries agree exactly when no mapping is at 0 and the rests of long lines do no
    harm. -/
theorem queriesAgree_iff (k : KernelMaps) : QueriesAgree k ↔ RestsHarmless k := by
  constructor
  · intro h
    obtain ⟨hzero, hblocks⟩ := (full_iff k).1 h.full
    refine ⟨hzero, hblocks, (pagesAnswered_iff k).1 ?_⟩
    intro before m after hsplit address hpage hbefore haddress stale rinfo
    by_cases hin : m.start ≤ address
    · have hmem : m ∈ k.mappings := by rw [hsplit]; simp
      rw [Mapping.regionAt, if_pos hin]
      exact h.inside m hmem address hpage hin haddress stale rinfo
    · have hgap := h.gap before m after hsplit address hbefore (by omega) stale rinfo
      rw [Nat.div_mul_cancel hpage] at hgap
      rw [Mapping.regionAt, if_neg hin]
      exact hgap
  · intro h
    have hanswers := (pagesAnswered_iff k).2 h.noRange
    refine ⟨(full_iff k).2 ⟨h.noZero, h.noBlock⟩, ?_, ?_⟩
    · intro m hm address hpage hin haddress stale rinfo
      obtain ⟨before, after, hsplit, hbefore⟩ := k.split hm
      have hanswer := hanswers before m after hsplit address hpage
        (fun b hb => Nat.le_trans (hbefore b hb) hin) haddress stale rinfo
      rw [Mapping.regionAt, if_pos hin] at hanswer
      exact hanswer
    · intro before m after hsplit address hbefore haddress stale rinfo
      obtain ⟨hstart, -, hlt, -⟩ := k.mapping (m := m) (by rw [hsplit]; simp)
      -- the page of the address is in the gap, too
      have hpage : ∀ b ∈ before, b.stop ≤ address / 4096 * 4096 := by
        intro b hb
        obtain ⟨-, hstop, -⟩ := k.mapping (m := b) (by rw [hsplit]; simp [hb])
        have hle := hbefore b hb
        omega
      have hanswer := hanswers before m after hsplit (address / 4096 * 4096)
        (Nat.dvd_mul_left _ _) hpage (by omega) stale rinfo
      rw [Mapping.regionAt, if_neg (by omega)] at hanswer
      have hround : virtualQueryEx stale address rinfo k.maps =
          virtualQueryEx stale (address / 4096 * 4096) rinfo k.maps := by
        rw [virtualQueryEx, virtualQueryEx, Nat.mul_div_cancel _ (by decide)]
      rw [hround]
      exact hanswer

/-- A mapped file whose name goes on with `1000-2000 rwxp` behind 224 characters. -/
def misleading : Mapping :=
  ⟨0x7f0000000000, 0x7f0000001000, true, false, false, false, 0, 8, 1, 1234,
    '/' :: (List.replicate 223 'a' ++ "1000-2000 rwxp".toList)⟩

/-- The only mapping of a process, with one info line. -/
def misleadingMaps : KernelMaps where
  entries := [(misleading,
    [⟨"Size".toList, "                  4 kB".toList, by decide, by decide, by decide, by decide⟩])]
  aligned := by decide
  sorted := List.pairwise_singleton _ _
  path_newline := by decide

theorem queries_disagree : ¬ ∀ k : KernelMaps, QueriesAgree k := by
  intro h
  have hrests := ((full_iff misleadingMaps).1 (h misleadingMaps).full).2 misleading
    List.mem_cons_self
  exact absurd hrests (by decide +kernel)

end CheatEngine.Ceserver
