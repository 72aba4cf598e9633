/-
  CheatEngine.Client.TwoScanners

  The scanner of the server (native-api.c) and that of the client (client.go) on the same
  process: the one walks with `VirtualQueryEx`, the other takes the list of
  `VirtualQueryExFull`; the one reads ahead of a chunk, the other carries its end over.

  All mapped bytes can be read, and the line is undisturbed.
-/
import CheatEngine.Ceserver.AobScan

namespace CheatEngine.Client

open CheatEngine.Lib CheatEngine.Ceserver

/-! ## The same process -/

def sentRegion (r : RegionInfo) : RegionEntry := ⟨r.baseaddress, r.size, r.protection, r.type⟩

/-- The server shows a process with these regions and this memory, and answers each read of a
    chunk completely. -/
structure Serves (srv : MemoryServer) (entries : List RegionInfo) (mem : TargetMemory) : Prop where
  mem : srv.mem = mem
  regions : srv.regions = entries.map sentRegion
  handle : srv.handle ≠ 0
  complete : ∀ k, chunkSize.toNat ≤ srv.prefixOf k

/-- The same question to the server. -/
def ScanQuery.aobInput (q : ScanQuery) : AobInput :=
  ⟨q.pattern, q.mask, q.start.toNat, q.stop.toNat, q.alignment.toInt.toNat, q.protection⟩

section Expected

variable {srv : MemoryServer} {mem : TargetMemory} {q : ScanQuery}

theorem readEnd_complete (h : ∀ k, chunkSize.toNat ≤ srv.prefixOf k) {high : Nat}
    (fuel k address : Nat) (hfuel : high - address ≤ fuel) (hle : address ≤ high) :
    (srv.readEnd high fuel k address).1 = high := by
  have hchunk : chunkSize.toNat = 1048576 := rfl
  induction fuel generalizing k address with
  | zero =>
    rw [MemoryServer.readEnd]
    omega
  | succ fuel ih =>
    by_cases hdone : high ≤ address
    · rw [MemoryServer.readEnd, if_pos hdone]
      omega
    · have hanswered : srv.answered k (min 1048576 (high - address)) =
          min 1048576 (high - address) := by
        have hprefix := h k
        rw [MemoryServer.answered]
        omega
      rw [readEnd_succ hdone, hanswered, if_neg (by omega)]
      exact ih (k + 1) _ (by omega) (by omega)

theorem places_eq (low high : Nat) (h : srv.mem = mem) :
    srv.places q low high = placesIn mem q.aobInput low high := by
  rw [MemoryServer.places, placesIn]
  subst h
  rfl

theorem clipped_block {b : Ceserver.Block} (hlt : b.start < b.stop) (hstop : b.stop < 2 ^ 64) :
    MemoryServer.clipped q (sentRegion b.region) =
      (max b.start q.start.toNat, min b.stop q.stop.toNat) := by
  have hbase : (UInt64.ofNat b.start).toNat = b.start := toNat_ofNat (by omega)
  have hsize : (UInt64.ofNat (b.stop + 2 ^ 64 - b.start)).toNat = b.stop - b.start := by
    rw [UInt64.toNat_ofNat']
    omega
  rw [MemoryServer.clipped]
  simp only [sentRegion, Block.region, hbase, hsize]
  congr 1
  omega

/-- What the client is to find is what the server is to find. -/
theorem expected_eq (hpattern : 0 < q.pattern.length) (hmem : srv.mem = mem)
    (h : ∀ k, chunkSize.toNat ≤ srv.prefixOf k)
    {blocks : List Ceserver.Block} (hblocks : ∀ b ∈ blocks, b.start < b.stop ∧ b.stop < 2 ^ 64)
    (k : Nat) :
    srv.expected q ((blocks.map Block.region).map sentRegion) k =
      placesFrom blocks mem q.aobInput q.start.toNat := by
  induction blocks generalizing k with
  | nil => rfl
  | cons b blocks ih =>
    obtain ⟨hlt, hstop⟩ := hblocks b List.mem_cons_self
    have hrest := ih fun b' hb' => hblocks b' (List.mem_cons_of_mem b hb')
    have hprotection : (sentRegion b.region).protection = b.protection := rfl
    have hregion : placesFrom (b :: blocks) mem q.aobInput q.start.toNat =
        regionPlaces mem q.aobInput q.start.toNat b ++
          placesFrom blocks mem q.aobInput q.start.toNat := rfl
    rw [List.map_cons, List.map_cons, MemoryServer.expected, clipped_block hlt hstop, hprotection,
      hregion, regionPlaces]
    dsimp only
    have hsame : q.aobInput.protection = q.protection := rfl
    have hend : q.aobInput.stop = q.stop.toNat := rfl
    have hlength : q.aobInput.pattern.length = q.pattern.length := rfl
    rw [hsame, hend]
    by_cases hskip : b.protection &&& q.protection = 0
    · rw [if_pos (Or.inl hskip), if_pos hskip, hrest, List.nil_append]
    · rw [if_neg hskip]
      by_cases hshort : min b.stop q.stop.toNat ≤ max b.start q.start.toNat ∨
          min b.stop q.stop.toNat - max b.start q.start.toNat < q.pattern.length
      · rw [if_pos (Or.inr hshort), hrest, placesIn_short (by omega), List.nil_append]
      · rw [if_neg (not_or.2 ⟨hskip, hshort⟩), hrest, readEnd_complete h _ _ _ (Nat.le_refl _)
          (by omega), places_eq _ _ hmem]

end Expected

/-! ## Agreement -/

/-- What both are asked. -/
structure Asked (pattern mask : List UInt8) (start stop : UInt64) (alignment : Nat) : Prop where
  nonempty : 1 ≤ pattern.length
  most : pattern.length ≤ MAX_AOB_PATTERN_SIZE
  lengths : mask.length = pattern.length
  range : start < stop
  aligned : 1 ≤ alignment
  aligned_lt : alignment < 2 ^ 31

/-- The client returns what the server finds. -/
def ScannersAgree (maps : MappingList 4096) (mem : TargetMemory) (srv : MemoryServer) (pid : Int32)
    (pattern mask : List UInt8) (start stop : UInt64) (alignment : Nat) (protection : UInt32) :
    Prop :=
  ∃ l', Prog.interp srv.serve (scanMemory pid pattern mask start stop (Int64.ofNat alignment)
      protection 5000000).run Line.fresh =
    some (.ok ((aobScan (inspected maps.blocks mem)
      ⟨pattern, mask, start.toNat, stop.toNat, alignment, protection⟩).map UInt64.ofNat), l')

section Agreement

variable {maps : MappingList 4096} {env : PageReads} {fuel : Nat} {s : Listing}

theorem listed_entries (hzero : ∀ b ∈ maps.blocks, b.start ≠ 0)
    (hlist : listBlocks 0 env fuel maps.blocks = some s) :
    s.list.entries = maps.blocks.map Block.region := by
  obtain ⟨s', hrun, hentries⟩ := @listBlocks_zero env fuel maps.blocks (Listing.start 0 env)
  obtain rfl : s = s' := Option.some.inj (hlist.symm.trans hrun)
  have hall : maps.blocks.filter Block.started = maps.blocks := by
    rw [List.filter_eq_self]
    exact fun b hb => decide_eq_true (hzero b hb)
  rw [hentries, hall]
  rfl

theorem alignment_toInt {alignment : Nat} (h : alignment < 2 ^ 31) :
    (Int64.ofNat alignment).toInt = alignment := Int64.toInt_ofNat_of_lt (by omega)

end Agreement

/-- Two regions with a gap, and an `A` in each of them. -/
def gappedMaps : MappingList 4096 where
  blocks := [⟨0x1000, 0x2000, ['r'], false⟩, ⟨0x3000, 0x4000, ['r', 'w'], false⟩]
  aligned := by unfold Block.Aligned; decide
  sorted := by decide

section Refused

variable {srv : MemoryServer} {rough : Prop} {l : Line}

theorem ends_regionsWithHandle_refused {handle : UInt32} {flags : UInt8} (h : Settled rough l)
    (hm : l.missed = false) (hmany : maximumCollectionEntries < srv.regions.length) :
    Ends srv rough (regionsWithHandle handle flags) l fun r l' =>
      (∃ e, r = .error e) ∧ l'.crossed = false := by
  have hcount : (UInt32.ofNat srv.regions.length).toNat = srv.regions.length :=
    UInt32.toNat_ofNat_of_lt' srv.regions_lt
  have hlate : ∀ (e : ClientError) (l' : Line), Settled rough l' → l'.disturbed = true →
      (∃ e', (Except.error e : Except ClientError (List Region)) = .error e') ∧
        l'.crossed = false := fun e l' hs _ => ⟨⟨e, rfl⟩, hs.crossed⟩
  refine Ends.bind (ends_request h hm rfl (fun l₁ h₁ hc₁ => ?_) hlate)
  refine Ends.bind (ends_readU32 h₁ (fun l₂ h₂ hc₂ => ?_) hlate)
  show Ends srv rough (if maximumCollectionEntries < (UInt32.ofNat srv.regions.length).toNat then _
    else _) l₂ _
  rw [hcount, if_pos hmany]
  exact ends_throw ⟨⟨_, rfl⟩, h₂.crossed⟩

theorem ends_scanMemory_refused {pid : Int32} {pattern mask : List UInt8} {start stop : UInt64}
    {alignment maximumMatches : Int64} (protection : UInt32)
    (h : Accepted pattern mask start stop alignment maximumMatches)
    (hmany : maximumCollectionEntries < srv.regions.length) :
    Ends srv rough (scanMemory pid pattern mask start stop alignment protection maximumMatches)
      Line.fresh fun r _ => ∃ e, r = .error e := by
  have hargs : ¬ (pattern.length = 0 ∨ pattern.length ≠ mask.length) :=
    not_or.2 ⟨h.nonempty, not_not.2 h.lengths.symm⟩
  have hcount : ¬ (maximumMatches.toInt < 1 ∨ maximumCollectionEntries < maximumMatches.toInt) := by
    have hleast := h.least
    have hmost := h.most
    omega
  have halign : ¬ alignment.toInt < 1 := by
    have haligned := h.aligned
    omega
  rw [scanMemory, if_neg hargs, if_neg halign, if_neg (UInt64.not_le.2 h.range), if_neg hcount]
  refine Ends.bind (ends_openProcess settled_fresh rfl (fun l₁ hs₁ hm₁ _ _ => ?_)
    fun e _ _ _ => ⟨e, rfl⟩)
  refine ends_deferClose (Ends.bind (Ends.imp (ends_regionsWithHandle_refused hs₁ hm₁ hmany) ?_))
  rintro _ l₂ ⟨⟨e, rfl⟩, hcrossed⟩
  exact ends_closeHandle hcrossed fun _ _ _ _ => ⟨e, rfl⟩

end Refused

/-- A process of `n` regions of one page, with a page between them. -/
def manyMaps (n : Nat) (hn : n < 2 ^ 50) : MappingList 4096 where
  blocks := (List.range n).map fun i => ⟨8192 * i + 4096, 8192 * i + 8192, ['r'], false⟩
  aligned := by
    intro b hb
    obtain ⟨i, hi, rfl⟩ := List.mem_map.1 hb
    rw [List.mem_range] at hi
    exact ⟨by dsimp only; omega, by dsimp only; omega, by dsimp only; omega, by dsimp only; omega⟩
  sorted := by
    rw [List.pairwise_map]
    apply List.pairwise_lt_range.imp
    intro i j hij
    dsimp only
    omega

theorem manyMaps_start {n : Nat} (hn : n < 2 ^ 50) : ∀ b ∈ (manyMaps n hn).blocks, b.start ≠ 0 := by
  intro b hb
  obtain ⟨i, -, rfl⟩ := List.mem_map.1 hb
  dsimp only
  omega

theorem length_manyMaps {n : Nat} (hn : n < 2 ^ 50) : (manyMaps n hn).blocks.length = n := by
  rw [manyMaps, List.length_map, List.length_range]

end CheatEngine.Client
