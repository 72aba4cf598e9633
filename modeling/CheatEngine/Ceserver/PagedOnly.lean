/-
  CheatEngine.Ceserver.PagedOnly

  What `VirtualQueryExFull` lists with VQE_PAGEDONLY: when it ends, and that complete
  reads of the page map give just the present pages.
-/
import CheatEngine.Ceserver.RegionList
import Mathlib.Data.List.Pairwise

namespace CheatEngine.Ceserver

open CheatEngine.Lib

/-- A block that is not empty, on page borders. -/
def Block.Aligned (pagesize : Nat) (b : Block) : Prop :=
  b.start < b.stop ∧ b.stop < 2 ^ 64 ∧ pagesize ∣ b.start ∧ pagesize ∣ b.stop

/-- The mappings of a process, one behind the other. -/
structure MappingList (pagesize : Nat) where
  blocks : List Block
  aligned : ∀ b ∈ blocks, b.Aligned pagesize
  sorted : blocks.Pairwise fun b b' => b.stop ≤ b'.start

/-- Every read that does not fail gives all the entries of the page map that were asked
    for. -/
def PageReads.Complete (env : PageReads) (pagemap : Nat → UInt64) : Prop :=
  ∀ k offset count, count ≤ 512 →
    (env.data k offset count).take count = (List.range' offset count).map pagemap

/-- The number of reads that succeed among `n` from the `k`-th on. -/
def PageReads.successes (env : PageReads) : Nat → Nat → Nat
  | _, 0 => 0
  | k, n + 1 => (if env.fails k then 0 else 1) + env.successes (k + 1) n

def piecesOf (pages : Nat) : Nat := (pages + 511) / 512

/-- The block is listed, as the code decides it. -/
def Block.listed (flags : UInt32) (b : Block) : Bool := b.start ≠ 0 ∧ b.passed flags

def needed (flags : UInt32) (pagesize : Nat) (blocks : List Block) : Nat :=
  (blocks.map fun b =>
    if b.listed flags then piecesOf (b.stop / pagesize - b.start / pagesize) else 0).sum

/-! ## One block -/

section PageLoop

variable {env : PageReads} {b : Block} {s s' : Listing} {c e k m n : Nat}

theorem successes_add : env.successes k (m + n) = env.successes k m + env.successes (k + m) n := by
  induction m generalizing k with
  | zero => simp [PageReads.successes]
  | succ m ih =>
    rw [Nat.succ_add, PageReads.successes, PageReads.successes, ih, Nat.add_assoc k,
      Nat.add_comm 1 m]
    omega

theorem pages_left (hstop : b.stop = e * env.pagesize) :
    (c * env.pagesize < b.stop ↔ c < e) ∧ (b.stop - c * env.pagesize) / env.pagesize = e - c ∧
      c * env.pagesize / env.pagesize = c := by
  have hpos := env.pagesize_pos
  refine ⟨?_, ?_, Nat.mul_div_cancel c hpos⟩
  · rw [hstop]
    exact Nat.mul_lt_mul_right hpos
  · rw [hstop, ← Nat.sub_mul, Nat.mul_div_cancel _ hpos]

/-- The listing after a piece of `count` pages that was read. -/
def Listing.piece (s : Listing) (env : PageReads) (b : Block) (c count : Nat) : Listing :=
  let data := (env.data s.reads c count).take count
  let entries := data ++ s.pagemapEntries.drop data.length
  ⟨addRuns env.pagesize (c * env.pagesize) b s.list
    (runsOf ((entries.take count).map present) 0 none), s.reads + 1, entries⟩

theorem pageLoop_done (hstop : b.stop = e * env.pagesize) (h : ¬ c < e) (fuel : Nat) :
    pageLoop env b (fuel + 1) (c * env.pagesize) s = some s := by
  rw [pageLoop, if_neg ((pages_left hstop).1.not.2 h)]

theorem pageLoop_failed (hstop : b.stop = e * env.pagesize) (h : c < e)
    (hfails : env.fails s.reads = true) (fuel : Nat) :
    pageLoop env b (fuel + 1) (c * env.pagesize) s =
      pageLoop env b fuel (c * env.pagesize) { s with reads := s.reads + 1 } := by
  rw [pageLoop, if_pos ((pages_left hstop).1.2 h)]
  simp only [PageReads.pread, hfails, if_true]

theorem pageLoop_read (hstop : b.stop = e * env.pagesize) (h : c < e)
    (hfails : ¬ env.fails s.reads = true) (fuel : Nat) :
    pageLoop env b (fuel + 1) (c * env.pagesize) s =
      pageLoop env b fuel ((c + min (e - c) 512) * env.pagesize)
        (s.piece env b c (min (e - c) 512)) := by
  obtain ⟨hmore, hpages, hoffset⟩ := pages_left (c := c) hstop
  rw [pageLoop, if_pos (hmore.2 h)]
  simp only [PageReads.pread, hfails, hpages, hoffset]
  rw [← Nat.add_mul]
  rfl

theorem piecesOf_next (h : c < e) :
    piecesOf (e - c) = 1 + piecesOf (e - (c + min (e - c) 512)) := by
  unfold piecesOf
  omega

theorem pageLoop_terminates (hstop : b.stop = e * env.pagesize)
    (hreads : piecesOf (e - c) ≤ env.successes s.reads n) :
    ∃ fuel s', pageLoop env b fuel (c * env.pagesize) s = some s' := by
  induction n generalizing c s with
  | zero =>
    have hdone : ¬ c < e := by
      simp only [PageReads.successes, piecesOf] at hreads
      omega
    exact ⟨1, s, pageLoop_done hstop hdone 0⟩
  | succ n ih =>
    by_cases hdone : c < e
    · rw [PageReads.successes] at hreads
      by_cases hfails : env.fails s.reads = true
      · -- the same piece again
        rw [if_pos hfails, Nat.zero_add] at hreads
        obtain ⟨fuel, s', hrun⟩ := @ih { s with reads := s.reads + 1 } c hreads
        exact ⟨fuel + 1, s', (pageLoop_failed hstop hdone hfails fuel).trans hrun⟩
      · rw [if_neg hfails, piecesOf_next hdone] at hreads
        obtain ⟨fuel, s', hrun⟩ := @ih (s.piece env b c (min (e - c) 512))
          (c + min (e - c) 512) (Nat.le_of_add_le_add_left hreads)
        exact ⟨fuel + 1, s', (pageLoop_read hstop hdone hfails fuel).trans hrun⟩
    · exact ⟨1, s, pageLoop_done hstop hdone 0⟩

def regionOf (pagesize : Nat) (b : Block) (r : Span) : RegionInfo :=
  ⟨UInt64.ofNat (r.first * pagesize), UInt64.ofNat (r.count * pagesize), b.protection, b.type⟩

def regionsOf (pagesize : Nat) (b : Block) (runs : List Span) : List RegionInfo :=
  runs.map (regionOf pagesize b)

/-- The runs of a piece that starts at the page `c`. -/
def shiftBy (c : Nat) (r : Span) : Span := ⟨c + r.first, r.count⟩

theorem addRuns_entries (pagesize c : Nat) (b : Block) (list : RegionList) (runs : List Span) :
    (addRuns pagesize (c * pagesize) b list runs).entries =
      list.entries ++ regionsOf pagesize b (runs.map (shiftBy c)) := by
  unfold addRuns
  induction runs generalizing list with
  | nil => simp [regionsOf]
  | cons r runs ih =>
    rw [List.foldl_cons, ih, RegionList.add_entries, List.append_assoc, ← Nat.add_mul]
    rfl

theorem map_shiftBy_runsOf (row : List Bool) (c i : Nat) (start : Option Nat) :
    (runsOf row i start).map (shiftBy c) = runsOf row (c + i) (start.map (c + ·)) := by
  induction row generalizing i start with
  | nil =>
    cases start with
    | none => rfl
    | some s => simp [runsOf, shiftBy, Nat.add_sub_add_left]
  | cons bit row ih =>
    cases bit with
    | true =>
      rw [runsOf, ih, runsOf, Nat.add_assoc]
      cases start <;> rfl
    | false =>
      cases start with
      | none => rw [runsOf, ih]; rfl
      | some s =>
        rw [runsOf, List.map_cons, ih]
        simp [runsOf, shiftBy, Nat.add_sub_add_left, Nat.add_assoc]

def shown (pagemap : Nat → UInt64) (n : Nat) : Bool := present (pagemap n)

theorem piece_entries {pagemap : Nat → UInt64} (hcomplete : env.Complete pagemap)
    (hcount : n ≤ 512) : ∃ runs, Runs (shown pagemap) c (c + n) runs ∧
      (s.piece env b c n).list.entries = s.list.entries ++ regionsOf env.pagesize b runs := by
  have hdata := hcomplete s.reads c n hcount
  generalize hrow : ((List.range' c n).map pagemap).map present = row
  have hlen : row.length = n := by rw [← hrow]; simp
  refine ⟨runsOf row c none, ?_, ?_⟩
  · rw [← hlen]
    refine Runs.of_row row c none (fun j hj => ?_) fun start h => nomatch h
    simp [← hrow, shown]
  · have htake : ((List.range' c n).map pagemap ++ s.pagemapEntries.drop
        ((List.range' c n).map pagemap).length).take n = (List.range' c n).map pagemap :=
      List.take_left' (by simp)
    simp only [Listing.piece, hdata, htake, hrow]
    rw [addRuns_entries, map_shiftBy_runsOf]
    rfl

theorem pageLoop_result {fuel : Nat} (hstop : b.stop = e * env.pagesize) (hle : c ≤ e)
    (hrun : pageLoop env b fuel (c * env.pagesize) s = some s') :
    ∃ n, s'.reads = s.reads + n ∧ env.successes s.reads n = piecesOf (e - c) ∧
      ∀ pagemap, env.Complete pagemap → ∃ runs, Runs (shown pagemap) c e runs ∧
        s'.list.entries = s.list.entries ++ regionsOf env.pagesize b runs := by
  induction fuel generalizing c s with
  | zero => cases hrun
  | succ fuel ih =>
    by_cases hdone : c < e
    · by_cases hfails : env.fails s.reads = true
      · rw [pageLoop_failed hstop hdone hfails] at hrun
        obtain ⟨n, hreads, hsuccesses, hlist⟩ := ih hle hrun
        refine ⟨n + 1, by rw [hreads]; simp only; omega, ?_, hlist⟩
        rw [PageReads.successes, if_pos hfails, Nat.zero_add]
        exact hsuccesses
      · rw [pageLoop_read hstop hdone hfails] at hrun
        obtain ⟨n, hreads, hsuccesses, hlist⟩ := ih (by omega) hrun
        refine ⟨n + 1, by rw [hreads]; simp only [Listing.piece]; omega, ?_, ?_⟩
        · rw [PageReads.successes, if_neg hfails, piecesOf_next hdone]
          exact congrArg (1 + ·) hsuccesses
        · intro pagemap hcomplete
          obtain ⟨runs, hruns, hentries⟩ := hlist pagemap hcomplete
          obtain ⟨runs', hruns', hentries'⟩ := @piece_entries env b s c (min (e - c) 512) pagemap
            hcomplete (Nat.min_le_right _ _)
          refine ⟨runs' ++ runs, Runs.append (Nat.le_add_right _ _) (by omega) hruns' hruns, ?_⟩
          rw [hentries, hentries', List.append_assoc]
          simp [regionsOf]
    · rw [pageLoop_done hstop hdone] at hrun
      obtain rfl : s = s' := by simpa using hrun
      obtain rfl : c = e := by omega
      refine ⟨0, rfl, by simp [PageReads.successes, piecesOf], fun pagemap _ => ⟨[], ?_, ?_⟩⟩
      · exact Runs.nil fun n hlow hhigh => absurd hhigh (by omega)
      · simp [regionsOf]

theorem pageLoop_more {fuel current : Nat} (hrun : pageLoop env b fuel current s = some s') :
    pageLoop env b (fuel + 1) current s = some s' := by
  induction fuel generalizing current s with
  | zero => cases hrun
  | succ fuel ih =>
    rw [pageLoop] at hrun ⊢
    split
    · next hmore =>
      rw [if_pos hmore] at hrun
      dsimp only at hrun ⊢
      split at hrun
      · exact ih hrun
      · exact ih hrun
    · next hmore =>
      rw [if_neg hmore] at hrun
      exact hrun

end PageLoop

/-! ## All blocks -/

section Blocks

variable {flags : UInt32} {env : PageReads} {b : Block} {s s' : Listing} {k n : Nat}
  {blocks : List Block}

theorem listBlock_eq (hpaged : pagedonly flags = true) (fuel : Nat) :
    listBlock flags env fuel s b =
      if b.listed flags then pageLoop env b fuel b.start s else some s := by
  rw [listBlock, if_pos hpaged, Block.listed]
  simp only [decide_eq_true_eq]

def BlockRegions (flags : UInt32) (pagesize : Nat) (pagemap : Nat → UInt64) (b : Block)
    (regions : List RegionInfo) : Prop :=
  if b.listed flags then
    ∃ runs, Runs (shown pagemap) (b.start / pagesize) (b.stop / pagesize) runs ∧
      regions = regionsOf pagesize b runs
  else regions = []

theorem needed_cons : needed flags env.pagesize (b :: blocks) =
    (if b.listed flags then piecesOf (b.stop / env.pagesize - b.start / env.pagesize) else 0) +
      needed flags env.pagesize blocks := by
  simp [needed]

theorem listBlock_result {fuel : Nat} (hpaged : pagedonly flags = true)
    (hb : b.Aligned env.pagesize) (hrun : listBlock flags env fuel s b = some s') :
    ∃ n, s'.reads = s.reads + n ∧ env.successes s.reads n = (if b.listed flags then
        piecesOf (b.stop / env.pagesize - b.start / env.pagesize) else 0) ∧
      ∀ pagemap, env.Complete pagemap → ∃ regions,
        BlockRegions flags env.pagesize pagemap b regions ∧
        s'.list.entries = s.list.entries ++ regions := by
  obtain ⟨hlt, -, ⟨c, hc⟩, ⟨e, he⟩⟩ := hb
  have hpos := env.pagesize_pos
  rw [Nat.mul_comm] at hc he
  have hcdiv : b.start / env.pagesize = c := by rw [hc, Nat.mul_div_cancel c hpos]
  have hediv : b.stop / env.pagesize = e := by rw [he, Nat.mul_div_cancel e hpos]
  rw [listBlock_eq hpaged] at hrun
  unfold BlockRegions
  rw [hcdiv, hediv]
  by_cases hlisted : b.listed flags = true
  · rw [if_pos hlisted, hc] at hrun
    have hle : c ≤ e := by
      rw [hc, he] at hlt
      exact Nat.le_of_lt (Nat.lt_of_mul_lt_mul_right hlt)
    obtain ⟨n, hreads, hsuccesses, hlist⟩ := pageLoop_result he hle hrun
    refine ⟨n, hreads, by rw [if_pos hlisted]; exact hsuccesses, fun pagemap hcomplete => ?_⟩
    obtain ⟨runs, hruns, hentries⟩ := hlist pagemap hcomplete
    exact ⟨_, by rw [if_pos hlisted]; exact ⟨runs, hruns, rfl⟩, hentries⟩
  · rw [if_neg hlisted] at hrun
    obtain rfl : s = s' := by simpa using hrun
    exact ⟨0, rfl, by rw [if_neg hlisted]; rfl,
      fun pagemap _ => ⟨[], by rw [if_neg hlisted], by simp⟩⟩

theorem foldlM_result {fuel : Nat} (hpaged : pagedonly flags = true)
    (hblocks : ∀ b ∈ blocks, b.Aligned env.pagesize)
    (hrun : blocks.foldlM (listBlock flags env fuel) s = some s') :
    ∃ n, s'.reads = s.reads + n ∧ env.successes s.reads n = needed flags env.pagesize blocks ∧
      ∀ pagemap, env.Complete pagemap → ∃ regions,
        List.Forall₂ (BlockRegions flags env.pagesize pagemap) blocks regions ∧
        s'.list.entries = s.list.entries ++ regions.flatten := by
  induction blocks generalizing s with
  | nil =>
    obtain rfl : s = s' := by simpa using hrun
    exact ⟨0, rfl, rfl, fun pagemap _ => ⟨[], List.Forall₂.nil, by simp⟩⟩
  | cons b blocks ih =>
    rw [List.foldlM_cons] at hrun
    obtain ⟨s₁, hfirst, hrest⟩ := Option.bind_eq_some_iff.1 hrun
    obtain ⟨m, hreads, hsuccesses, hlist⟩ :=
      listBlock_result hpaged (hblocks b List.mem_cons_self) hfirst
    obtain ⟨n, hreads', hsuccesses', hlist'⟩ :=
      ih (fun b' hb' => hblocks b' (List.mem_cons_of_mem _ hb')) hrest
    refine ⟨m + n, by omega, ?_, fun pagemap hcomplete => ?_⟩
    · rw [successes_add, hsuccesses, ← hreads, hsuccesses', needed_cons]
    · obtain ⟨regions, hb, hentries⟩ := hlist pagemap hcomplete
      obtain ⟨regions', hbs, hentries'⟩ := hlist' pagemap hcomplete
      refine ⟨regions :: regions', List.Forall₂.cons hb hbs, ?_⟩
      rw [hentries', hentries, List.flatten_cons, List.append_assoc]

theorem listBlock_more {fuel : Nat} (k : Nat) (hrun : listBlock flags env fuel s b = some s') :
    listBlock flags env (fuel + k) s b = some s' := by
  induction k with
  | zero => exact hrun
  | succ k ih =>
    unfold listBlock at ih ⊢
    split
    · next hlisted =>
      rw [if_pos hlisted] at ih
      split
      · next hpaged => exact pageLoop_more (by rwa [if_pos hpaged] at ih)
      · next hpaged => rwa [if_neg hpaged] at ih
    · next hlisted => rwa [if_neg hlisted] at ih

theorem foldlM_more {fuel : Nat} (k : Nat)
    (hrun : blocks.foldlM (listBlock flags env fuel) s = some s') :
    blocks.foldlM (listBlock flags env (fuel + k)) s = some s' := by
  induction blocks generalizing s with
  | nil => exact hrun
  | cons b blocks ih =>
    rw [List.foldlM_cons] at hrun ⊢
    obtain ⟨s₁, hfirst, hrest⟩ := Option.bind_eq_some_iff.1 hrun
    exact Option.bind_eq_some_iff.2 ⟨s₁, listBlock_more k hfirst, ih hrest⟩

theorem foldlM_terminates (hpaged : pagedonly flags = true)
    (hblocks : ∀ b ∈ blocks, b.Aligned env.pagesize)
    (hreads : needed flags env.pagesize blocks ≤ env.successes s.reads n) :
    ∃ fuel s', blocks.foldlM (listBlock flags env fuel) s = some s' := by
  induction blocks generalizing s n with
  | nil => exact ⟨0, s, rfl⟩
  | cons b blocks ih =>
    rw [needed_cons] at hreads
    have hb := hblocks b List.mem_cons_self
    obtain ⟨fuel, s₁, hfirst⟩ : ∃ fuel s₁, listBlock flags env fuel s b = some s₁ := by
      by_cases hlisted : b.listed flags = true
      · obtain ⟨-, -, ⟨c, hc⟩, ⟨e, he⟩⟩ := hb
        have hpos := env.pagesize_pos
        rw [Nat.mul_comm] at hc he
        rw [if_pos hlisted, hc, he, Nat.mul_div_cancel c hpos, Nat.mul_div_cancel e hpos] at hreads
        obtain ⟨fuel, s₁, hrun⟩ := pageLoop_terminates he (Nat.le_trans (Nat.le_add_right _ _) hreads)
        exact ⟨fuel, s₁, by rw [listBlock_eq hpaged, if_pos hlisted, hc]; exact hrun⟩
      · exact ⟨0, s, by rw [listBlock_eq hpaged, if_neg hlisted]⟩
    obtain ⟨m, hm, hsuccesses, -⟩ := listBlock_result hpaged hb hfirst
    have hrest : needed flags env.pagesize blocks ≤ env.successes s₁.reads (n - m) := by
      rw [hm]
      rcases Nat.le_total m n with hle | hle
      · have hsplit := @successes_add env s.reads m (n - m)
        rw [Nat.add_sub_cancel' hle] at hsplit
        omega
      · -- all the reads went into the first block
        have hsplit := @successes_add env s.reads n (m - n)
        rw [Nat.add_sub_cancel' hle] at hsplit
        omega
    obtain ⟨fuel', s', hrun⟩ := ih (fun b' hb' => hblocks b' (List.mem_cons_of_mem _ hb')) hrest
    refine ⟨fuel + fuel', s', ?_⟩
    rw [List.foldlM_cons]
    refine Option.bind_eq_some_iff.2 ⟨s₁, listBlock_more fuel' hfirst, ?_⟩
    rw [Nat.add_comm]
    exact foldlM_more fuel hrun

end Blocks

/-! ## The list -/

/-- The address is in the region. -/
def RegionInfo.Holds (r : RegionInfo) (a : Nat) : Prop :=
  r.baseaddress.toNat ≤ a ∧ a < r.baseaddress.toNat + r.size.toNat

/-- What the list should be: just the present pages of the chosen blocks, in ascending
    order, each with what its mapping says. -/
structure Exact (chosen : Block → Bool) (pagesize : Nat) (pagemap : Nat → UInt64)
    (blocks : List Block) (list : List RegionInfo) : Prop where
  covers : ∀ a, (∃ r ∈ list, r.Holds a) ↔
    ∃ b ∈ blocks, chosen b = true ∧ b.start ≤ a ∧ a < b.stop ∧ shown pagemap (a / pagesize) = true
  ascending : list.Pairwise fun r r' =>
    r.baseaddress.toNat + r.size.toNat ≤ r'.baseaddress.toNat
  carries : ∀ r ∈ list, ∃ b ∈ blocks, chosen b = true ∧ b.start ≤ r.baseaddress.toNat ∧
    r.baseaddress.toNat + r.size.toNat ≤ b.stop ∧ r.type = b.type ∧ r.protection = b.protection

section Exact

variable {flags : UInt32} {pagesize : Nat} {pagemap : Nat → UInt64} {b : Block}
  {blocks : List Block} {runs : List Span} {list : List RegionInfo}

theorem regionOf_range {r : Span} {hi : Nat} (hend : r.first + r.count ≤ hi)
    (hstop : hi * pagesize < 2 ^ 64) :
    (regionOf pagesize b r).baseaddress.toNat = r.first * pagesize ∧
      (regionOf pagesize b r).size.toNat = r.count * pagesize := by
  have hall : (r.first + r.count) * pagesize ≤ hi * pagesize := Nat.mul_le_mul_right _ hend
  rw [Nat.add_mul] at hall
  exact ⟨UInt64.toNat_ofNat_of_lt' (Nat.lt_of_le_of_lt (by omega) hstop),
    UInt64.toNat_ofNat_of_lt' (Nat.lt_of_le_of_lt (by omega) hstop)⟩

theorem regionOf_holds {r : Span} {hi a : Nat} (hpos : 0 < pagesize) (hend : r.first + r.count ≤ hi)
    (hstop : hi * pagesize < 2 ^ 64) :
    (regionOf pagesize b r).Holds a ↔ r.Mem (a / pagesize) := by
  obtain ⟨hbase, hsize⟩ := regionOf_range (b := b) hend hstop
  rw [RegionInfo.Holds, hbase, hsize, ← Nat.add_mul, Span.Mem, Nat.le_div_iff_mul_le hpos,
    Nat.div_lt_iff_lt_mul hpos]

theorem exact_block {c e : Nat} (hpos : 0 < pagesize) (hstart : b.start = c * pagesize)
    (hstop : b.stop = e * pagesize) (hlt : b.stop < 2 ^ 64)
    (hruns : Runs (shown pagemap) c e runs) :
    Exact (fun _ => true) pagesize pagemap [b] (regionsOf pagesize b runs) := by
  rw [hstop] at hlt
  have hmem : ∀ r ∈ regionsOf pagesize b runs, ∃ x ∈ runs, r = regionOf pagesize b x := by
    intro r hr
    obtain ⟨x, hx, rfl⟩ := List.mem_map.1 hr
    exact ⟨x, hx, rfl⟩
  refine ⟨fun a => ?_, ?_, fun r hr => ?_⟩
  · have hpage : (∃ r ∈ regionsOf pagesize b runs, r.Holds a) ↔ ∃ x ∈ runs, x.Mem (a / pagesize) := by
      constructor
      · rintro ⟨r, hr, ha⟩
        obtain ⟨x, hx, rfl⟩ := hmem r hr
        exact ⟨x, hx, (regionOf_holds hpos (hruns.within x hx).2.2 hlt).1 ha⟩
      · rintro ⟨x, hx, ha⟩
        exact ⟨regionOf pagesize b x, List.mem_map_of_mem hx,
          (regionOf_holds hpos (hruns.within x hx).2.2 hlt).2 ha⟩
    rw [hpage, hruns.mem_iff, Nat.le_div_iff_mul_le hpos, Nat.div_lt_iff_lt_mul hpos]
    simp [hstart, hstop]
  · refine List.pairwise_map.2 (hruns.ascending.imp_of_mem fun {x y} hx hy hbefore => ?_)
    obtain ⟨hbase, hsize⟩ := regionOf_range (b := b) (hruns.within x hx).2.2 hlt
    obtain ⟨hbase', -⟩ := regionOf_range (b := b) (hruns.within y hy).2.2 hlt
    show (regionOf pagesize b x).baseaddress.toNat + (regionOf pagesize b x).size.toNat ≤
      (regionOf pagesize b y).baseaddress.toNat
    rw [hbase, hsize, hbase', ← Nat.add_mul]
    exact Nat.mul_le_mul_right _ hbefore
  · obtain ⟨x, hx, rfl⟩ := hmem r hr
    obtain ⟨hlow, -, hhigh⟩ := hruns.within x hx
    obtain ⟨hbase, hsize⟩ := regionOf_range (b := b) hhigh hlt
    refine ⟨b, List.mem_singleton_self b, rfl, ?_, ?_, rfl, rfl⟩
    · rw [hbase, hstart]
      exact Nat.mul_le_mul_right _ hlow
    · rw [hbase, hsize, hstop, ← Nat.add_mul]
      exact Nat.mul_le_mul_right _ hhigh

theorem Exact.cons {chosen : Block → Bool} {regions : List RegionInfo}
    (hb : if chosen b then Exact (fun _ => true) pagesize pagemap [b] regions else regions = [])
    (hsorted : ∀ b' ∈ blocks, b.stop ≤ b'.start) (h : Exact chosen pagesize pagemap blocks list) :
    Exact chosen pagesize pagemap (b :: blocks) (regions ++ list) := by
  by_cases hchosen : chosen b = true
  · rw [if_pos hchosen] at hb
    refine ⟨fun a => ?_, List.pairwise_append.2 ⟨hb.ascending, h.ascending, fun r hr r' hr' => ?_⟩,
      fun r hr => ?_⟩
    · have hfirst := hb.covers a
      simp only [List.mem_singleton, exists_eq_left, true_and] at hfirst
      simp only [List.mem_append, or_and_right, exists_or, hfirst, h.covers, List.mem_cons,
        exists_eq_left, hchosen, true_and]
    · obtain ⟨b₁, hb₁, -, -, hend, -, -⟩ := hb.carries r hr
      obtain rfl := List.mem_singleton.1 hb₁
      obtain ⟨b', hb', -, hbegin, -, -, -⟩ := h.carries r' hr'
      have hgap := hsorted b' hb'
      omega
    · rcases List.mem_append.1 hr with hr | hr
      · obtain ⟨b₁, hb₁, -, hrest⟩ := hb.carries r hr
        obtain rfl := List.mem_singleton.1 hb₁
        exact ⟨b₁, List.mem_cons_self, hchosen, hrest⟩
      · obtain ⟨b', hb', hrest⟩ := h.carries r hr
        exact ⟨b', List.mem_cons_of_mem _ hb', hrest⟩
  · rw [if_neg hchosen] at hb
    subst hb
    refine ⟨fun a => ?_, h.ascending, fun r hr => ?_⟩
    · rw [List.nil_append, h.covers]
      simp [hchosen]
    · obtain ⟨b', hb', hrest⟩ := h.carries r hr
      exact ⟨b', List.mem_cons_of_mem _ hb', hrest⟩

theorem exact_blocks {regions : List (List RegionInfo)} (hpos : 0 < pagesize)
    (haligned : ∀ b ∈ blocks, b.Aligned pagesize)
    (hsorted : blocks.Pairwise fun b b' => b.stop ≤ b'.start)
    (h : List.Forall₂ (BlockRegions flags pagesize pagemap) blocks regions) :
    Exact (Block.listed flags) pagesize pagemap blocks regions.flatten := by
  induction h with
  | nil =>
    refine ⟨fun a => ?_, List.Pairwise.nil, fun r hr => absurd hr List.not_mem_nil⟩
    simp
  | @cons b regions blocks _ hb _ ih =>
    obtain ⟨hbefore, hsorted⟩ := List.pairwise_cons.1 hsorted
    rw [List.flatten_cons]
    refine Exact.cons ?_ hbefore
      (ih (fun b' hb' => haligned b' (List.mem_cons_of_mem _ hb')) hsorted)
    unfold BlockRegions at hb
    split
    · next hlisted =>
      rw [if_pos hlisted] at hb
      obtain ⟨runs, hruns, rfl⟩ := hb
      obtain ⟨-, hlt, ⟨c, hc⟩, ⟨e, he⟩⟩ := haligned b List.mem_cons_self
      rw [Nat.mul_comm] at hc he
      rw [hc, he, Nat.mul_div_cancel c hpos, Nat.mul_div_cancel e hpos] at hruns
      exact exact_block hpos hc he hlt hruns
    · next hlisted => rwa [if_neg hlisted] at hb

end Exact

/-! ## VQE_PAGEDONLY -/

/-- The listing of the mappings ends, and complete reads give just the present pages of
    the mappings that pass the filters. -/
structure PagedListing (flags : UInt32) (env : PageReads) (mappings : MappingList env.pagesize) :
    Prop where
  ends : ∃ fuel s, listBlocks flags env fuel mappings.blocks = some s
  exact : ∀ pagemap, env.Complete pagemap → ∀ fuel s,
    listBlocks flags env fuel mappings.blocks = some s →
      Exact (Block.passed flags) env.pagesize pagemap mappings.blocks s.list.entries

section PagedListing

variable {flags : UInt32} {env : PageReads} {mappings : MappingList env.pagesize}
  {pagemap : Nat → UInt64} {fuel : Nat} {s : Listing}

theorem exact_listed (hpaged : pagedonly flags = true) (hcomplete : env.Complete pagemap)
    (hrun : listBlocks flags env fuel mappings.blocks = some s) :
    Exact (Block.listed flags) env.pagesize pagemap mappings.blocks s.list.entries := by
  obtain ⟨n, -, -, hlist⟩ := foldlM_result hpaged mappings.aligned hrun
  obtain ⟨regions, hregions, hentries⟩ := hlist pagemap hcomplete
  have hexact := exact_blocks env.pagesize_pos mappings.aligned mappings.sorted hregions
  rw [hentries]
  exact hexact

theorem MappingList.eq_of_holds {b b' : Block} {a : Nat} (hb : b ∈ mappings.blocks)
    (hb' : b' ∈ mappings.blocks) (h : b.start ≤ a ∧ a < b.stop) (h' : b'.start ≤ a ∧ a < b'.stop) :
    b = b' := by
  by_contra hne
  have hapart : mappings.blocks.Pairwise fun x y => x.stop ≤ y.start ∨ y.stop ≤ x.start :=
    mappings.sorted.imp Or.inl
  have : Std.Symm fun x y : Block => x.stop ≤ y.start ∨ y.stop ≤ x.start := ⟨fun _ _ => Or.symm⟩
  rcases hapart.forall hb hb' hne with hle | hle <;> omega

theorem listed_iff {b : Block} :
    b.listed flags = true ↔ b.start ≠ 0 ∧ b.passed flags = true := by
  rw [Block.listed, decide_eq_true_eq]

end PagedListing

/-- It is so just when enough reads succeed, and no present page is in a mapping at the
    address 0 that passes the filters. -/
theorem pagedListing_iff (flags : UInt32) (env : PageReads) (mappings : MappingList env.pagesize)
    (hpaged : pagedonly flags = true) :
    PagedListing flags env mappings ↔
      (∃ n, needed flags env.pagesize mappings.blocks ≤ env.successes 0 n) ∧
        ∀ pagemap, env.Complete pagemap → ∀ b ∈ mappings.blocks, b.start = 0 →
          b.passed flags = true → ∀ a < b.stop, shown pagemap (a / env.pagesize) = false := by
  constructor
  · rintro ⟨⟨fuel, s, hrun⟩, hexact⟩
    refine ⟨?_, fun pagemap hcomplete b hb hzero hpassed a ha => ?_⟩
    · obtain ⟨n, -, hsuccesses, -⟩ := foldlM_result hpaged mappings.aligned hrun
      exact ⟨n, Nat.le_of_eq hsuccesses.symm⟩
    · by_contra hshown
      rw [Bool.not_eq_false] at hshown
      -- the page has to be listed, but no block that is listed holds it
      have hholds := ((hexact pagemap hcomplete fuel s hrun).covers a).2
        ⟨b, hb, hpassed, by omega, ha, hshown⟩
      obtain ⟨b', hb', hlisted, hlow, hhigh, -⟩ :=
        ((exact_listed hpaged hcomplete hrun).covers a).1 hholds
      obtain rfl := MappingList.eq_of_holds hb hb' ⟨by omega, ha⟩ ⟨hlow, hhigh⟩
      exact (listed_iff.1 hlisted).1 hzero
  · rintro ⟨⟨n, hreads⟩, hzero⟩
    refine ⟨foldlM_terminates hpaged mappings.aligned hreads, fun pagemap hcomplete fuel s hrun => ?_⟩
    have hexact := exact_listed hpaged hcomplete hrun
    refine ⟨fun a => ?_, hexact.ascending, fun r hr => ?_⟩
    · rw [hexact.covers]
      constructor
      · rintro ⟨b, hb, hlisted, hrest⟩
        exact ⟨b, hb, (listed_iff.1 hlisted).2, hrest⟩
      · rintro ⟨b, hb, hpassed, hlow, hhigh, hshown⟩
        refine ⟨b, hb, listed_iff.2 ⟨fun hstart => ?_, hpassed⟩, hlow, hhigh, hshown⟩
        rw [hzero pagemap hcomplete b hb hstart hpassed a hhigh] at hshown
        cases hshown
    · obtain ⟨b, hb, hlisted, hrest⟩ := hexact.carries r hr
      exact ⟨b, hb, (listed_iff.1 hlisted).2, hrest⟩

def onePage : MappingList 4096 where
  blocks := [⟨0x1000, 0x2000, ['r', '-', '-', 'p'], false⟩]
  aligned := by
    intro b hb
    obtain rfl := List.mem_singleton.1 hb
    exact ⟨by decide, by decide, by decide, by decide⟩
  sorted := List.pairwise_singleton _ _

/-- A page map whose reads all succeed, or all fail. -/
def allPresent (fails : Bool) : PageReads where
  pagesize := 4096
  fails _ := fails
  data _ _ count := List.replicate count 0x8000000000000000
  stale := Vector.replicate 512 0
  pagesize_pos := by decide

theorem pagedListing_one : PagedListing 1 (allPresent false) onePage ↔
    (∃ n, needed 1 4096 onePage.blocks ≤ (allPresent false).successes 0 n) ∧
      ∀ pagemap, (allPresent false).Complete pagemap → ∀ b ∈ onePage.blocks, b.start = 0 →
        b.passed 1 = true → ∀ a < b.stop, shown pagemap (a / 4096) = false :=
  pagedListing_iff 1 (allPresent false) onePage (by decide)

/-- Where every read fails, the listing never ends. -/
theorem not_ends_failing : ¬ PagedListing 1 (allPresent true) onePage := by
  rintro ⟨⟨fuel, s, hrun⟩, -⟩
  obtain ⟨n, -, hsuccesses, -⟩ := foldlM_result (by decide) onePage.aligned hrun
  have hnone : ∀ k n, (allPresent true).successes k n = 0 := by
    intro k n
    induction n generalizing k with
    | zero => rfl
    | succ n ih => rw [PageReads.successes, ih]; rfl
  rw [hnone] at hsuccesses
  exact absurd hsuccesses (by decide)

end CheatEngine.Ceserver
