/-
  CheatEngine.Client.Scanner

  What `ScanMemory` returns (internal/ceserver/client.go).

  On an undisturbed line it is the list of all places of the pattern, region by region
  and up to the limit: every address of a region that was read, whatever lies between
  two chunks.  And on every line where no read request follows a missed deadline, an
  address is only returned when the pattern is there; a read request after a missed
  deadline is answered with the late bytes.
-/
import CheatEngine.Client.Line

namespace CheatEngine.Client

open CheatEngine.Lib

instance (mem : TargetMemory) (pattern mask : List UInt8) (address : UInt64) :
    Decidable (MatchesAt mem pattern mask address) :=
  decidable_of_iff (∀ i : Fin pattern.length, mask[i.val]? = some '?'.toUInt8 ∨
      mem (address + UInt64.ofNat i.val) = pattern[i])
    ⟨fun h i p hp => by
      obtain ⟨hi, rfl⟩ := List.getElem?_eq_some_iff.1 hp
      exact h ⟨i, hi⟩,
    fun h i => h i.val _ (List.getElem?_eq_getElem i.isLt)⟩

namespace MemoryServer

variable (srv : MemoryServer)

/-- The reads of a region from `address` on, after `k` read requests: the first address
    that was not read, and the number of read requests then. -/
def readEnd (regionEnd : Nat) : Nat → Nat → Nat → Nat × Nat
  | 0, k, address => (address, k)
  | fuel + 1, k, address =>
    if regionEnd ≤ address then (address, k)
    else
      let requested := min 1048576 (regionEnd - address)
      if srv.answered k requested < requested then (address + srv.answered k requested, k + 1)
      else readEnd regionEnd fuel (k + 1) (address + requested)

/-- The places of the pattern from `low` on, in what was read up to `stop`. -/
def places (q : ScanQuery) (low stop : Nat) : List Nat :=
  (List.range' low (stop + 1 - q.pattern.length - low)).filter fun a =>
    (a - q.start.toNat) % q.alignment.toInt.toNat = 0 ∧
      MatchesAt srv.mem q.pattern q.mask (UInt64.ofNat a)

/-- The part of a region in the scan range; its end is at most the last address. -/
def clipped (q : ScanQuery) (region : RegionEntry) : Nat × Nat :=
  (max region.baseAddress.toNat q.start.toNat,
    min (min (region.baseAddress.toNat + region.size.toNat) (2 ^ 64 - 1)) q.stop.toNat)

/-- The places in all regions, after `k` read requests. -/
def expected (q : ScanQuery) : List RegionEntry → Nat → List Nat
  | [], _ => []
  | region :: rest, k =>
    let (low, high) := clipped q region
    if region.protection &&& q.protection = 0 ∨ high ≤ low ∨ high - low < q.pattern.length then
      expected q rest k
    else
      let (stop, k) := srv.readEnd high (high - low) k low
      srv.places q low stop ++ expected q rest k

end MemoryServer

/-! ## Arithmetic of addresses -/

section Addresses

theorem toNat_ofNat {n : Nat} (h : n < 2 ^ 64) : (UInt64.ofNat n).toNat = n :=
  UInt64.toNat_ofNat_of_lt' h

theorem addressesFrom_eq (low n : Nat) :
    addressesFrom (UInt64.ofNat low) n = (List.range' low n).map UInt64.ofNat := by
  induction n generalizing low with
  | zero => rfl
  | succ n ih =>
    have hnext : UInt64.ofNat low + 1 = UInt64.ofNat (low + 1) := (UInt64.ofNat_add low 1).symm
    rw [addressesFrom, hnext, ih, List.range'_succ, List.map_cons]

theorem ofNat_sub_ofNat {m n : Nat} (h : n ≤ m) (hm : m < 2 ^ 64) :
    UInt64.ofNat m - UInt64.ofNat n = UInt64.ofNat (m - n) := by
  have hle : UInt64.ofNat n ≤ UInt64.ofNat m := by
    rw [UInt64.le_iff_toNat_le, toNat_ofNat (by omega), toNat_ofNat hm]
    exact h
  rw [← UInt64.toNat_inj, UInt64.toNat_sub_of_le _ _ hle, toNat_ofNat hm, toNat_ofNat (by omega),
    toNat_ofNat (by omega)]

theorem toNat_toUInt64 {n : Int64} (h : 0 ≤ n.toInt) : n.toUInt64.toNat = n.toInt.toNat := by
  have hcond := BitVec.toInt_eq_toNat_cond n.toBitVec
  have hint : n.toInt = n.toBitVec.toInt := rfl
  have hnat : n.toUInt64.toNat = n.toBitVec.toNat := rfl
  rw [hint] at h ⊢
  rw [hnat]
  split at hcond <;> omega

theorem aligned_iff {a : Nat} {start : UInt64} {alignment : Int64} (h : 1 ≤ alignment.toInt)
    (ha : a < 2 ^ 64) (hstart : start.toNat ≤ a) :
    (UInt64.ofNat a - start) % alignment.toUInt64 = 0 ↔
      (a - start.toNat) % alignment.toInt.toNat = 0 := by
  have hle : start ≤ UInt64.ofNat a := by
    rw [UInt64.le_iff_toNat_le, toNat_ofNat ha]
    exact hstart
  have halignment : alignment.toUInt64.toNat = alignment.toInt.toNat := toNat_toUInt64 (by omega)
  rw [← UInt64.toNat_inj, UInt64.toNat_mod, UInt64.toNat_sub_of_le _ _ hle, toNat_ofNat ha,
    halignment]
  rfl

end Addresses

section Places

variable {srv : MemoryServer} {q : ScanQuery}

theorem places_of_short {low stop : Nat} (h : stop < low + q.pattern.length) :
    srv.places q low stop = [] := by
  have hzero : stop + 1 - q.pattern.length - low = 0 := by omega
  rw [MemoryServer.places, hzero]
  rfl

theorem places_append {low middle stop next : Nat} (h : middle ≤ stop)
    (hnext : next = low + (middle + 1 - q.pattern.length - low)) :
    srv.places q low middle ++ srv.places q next stop = srv.places q low stop := by
  have hcount : stop + 1 - q.pattern.length - low =
      (middle + 1 - q.pattern.length - low) + (stop + 1 - q.pattern.length - next) := by
    omega
  rw [MemoryServer.places, MemoryServer.places, MemoryServer.places, ← List.filter_append, hcount,
    ← List.range'_append_1, hnext]

theorem matchesAt_of_mem_places {low stop : Nat} {a : UInt64}
    (ha : a ∈ (srv.places q low stop).map UInt64.ofNat) :
    MatchesAt srv.mem q.pattern q.mask a := by
  obtain ⟨n, hn, rfl⟩ := List.mem_map.1 ha
  have hplace := (List.mem_filter.1 hn).2
  exact (of_decide_eq_true hplace).2

theorem scanBuffer_places {found : List UInt64} {low n : Nat} (hpattern : 0 < q.pattern.length)
    (hmask : q.mask.length = q.pattern.length) (halign : 1 ≤ q.alignment.toInt)
    (hfound : found.length < q.maximumMatches) (hstart : q.start.toNat ≤ low)
    (hlow : low + n < 2 ^ 64) :
    scanBuffer q.pattern q.mask q.start q.alignment (UInt64.ofNat low) q.maximumMatches
        (UInt64.ofNat low) (memBytes srv.mem (UInt64.ofNat low) n) found =
      (found ++ (srv.places q low (low + n)).map UInt64.ofNat).take q.maximumMatches := by
  have hcount : low + n + 1 - q.pattern.length - low = n + 1 - q.pattern.length := by omega
  rw [scanBuffer_eq hpattern hmask hfound, addressesFrom_eq, MemoryServer.places, hcount,
    List.filter_map]
  congr 3
  refine List.filter_congr fun a ha => ?_
  obtain ⟨hge, hlt⟩ := List.mem_range'_1.1 ha
  have ha64 : a < 2 ^ 64 := by omega
  rw [Function.comp_apply, Bool.eq_iff_iff, isHit_iff hmask, decide_eq_true_iff,
    aligned_iff halign ha64 (by omega)]
  have hnot : ¬ UInt64.ofNat a < UInt64.ofNat low := by
    rw [UInt64.lt_iff_toNat_lt, toNat_ofNat ha64, toNat_ofNat (by omega)]
    omega
  rw [and_iff_right hnot]

theorem readEnd_succ {high fuel k address : Nat} (h : ¬ high ≤ address) :
    srv.readEnd high (fuel + 1) k address =
      if srv.answered k (min 1048576 (high - address)) < min 1048576 (high - address) then
        (address + srv.answered k (min 1048576 (high - address)), k + 1)
      else srv.readEnd high fuel (k + 1) (address + min 1048576 (high - address)) := by
  simp only [MemoryServer.readEnd, if_neg h]

theorem le_readEnd {high fuel k address : Nat} : address ≤ (srv.readEnd high fuel k address).1 := by
  induction fuel generalizing k address with
  | zero => exact Nat.le_refl _
  | succ fuel ih =>
    simp only [MemoryServer.readEnd]
    split
    · exact Nat.le_refl _
    · split
      · exact Nat.le_add_right _ _
      · exact Nat.le_trans (Nat.le_add_right _ _) ih

end Places

/-! ## The chunk loop -/

/-- How far the scanner looks back from an address in a region that starts at `low`. -/
def overlap (q : ScanQuery) (low address : Nat) : Nat := min (q.pattern.length - 1) (address - low)

/-- A query that `ScanMemory` accepts. -/
structure ScanQuery.Valid (q : ScanQuery) : Prop where
  pattern : 0 < q.pattern.length
  mask : q.mask.length = q.pattern.length
  alignment : 1 ≤ q.alignment.toInt

/-- What the loop over a region gives: true places only; and on an undisturbed line, all
    places from what was not tried yet. -/
structure Scanned (srv : MemoryServer) (rough : Prop) (q : ScanQuery) (high fuel address first : Nat) (l : Line)
    (found found' : List UInt64) (reached : Bool) (l' : Line) : Prop where
  settled : Settled rough l'
  disturbed : l.disturbed = true → l'.disturbed = true
  sound : ∀ a ∈ found', a ∈ found ∨ MatchesAt srv.mem q.pattern q.mask a
  limit : reached = false → found'.length < q.maximumMatches
  cut : reached = true → q.maximumMatches ≤ found'.length
  exact : l'.disturbed = false → found' = (found ++ (srv.places q first
    (srv.readEnd high fuel l.reads address).1).map UInt64.ofNat).take q.maximumMatches
  reads : l'.disturbed = false → reached = false →
    l'.reads = (srv.readEnd high fuel l.reads address).2

section Loop

variable {srv : MemoryServer} {rough : Prop} {q : ScanQuery} {handle : UInt32} {low high : Nat}
  {l : Line} {found : List UInt64} {address first fuel : Nat} {l' : Line}

/-- A region that is left without looking at more. -/
theorem Scanned.leave (hs : Settled rough l')
    (hd : l.disturbed = true → l'.disturbed = true) (hfound : found.length < q.maximumMatches)
    (hend : l'.disturbed = false → (srv.readEnd high fuel l.reads address).1 <
      first + q.pattern.length ∧ l'.reads = (srv.readEnd high fuel l.reads address).2) :
    Scanned srv rough q high fuel address first l found found false l' := by
  refine ⟨hs, hd, fun a ha => Or.inl ha, fun _ => hfound, (fun h => nomatch h), fun hl => ?_,
    fun hl _ => (hend hl).2⟩
  rw [places_of_short (hend hl).1, List.map_nil, List.append_nil,
    List.take_of_length_le (Nat.le_of_lt hfound)]

variable {n : Nat}

theorem scanned_chunk (hq : q.Valid) (hstart : q.start.toNat ≤ low)
    (hfound : found.length < q.maximumMatches) (hlow : low ≤ address)
    (hfit : address + n < 2 ^ 64) :
    scanBuffer q.pattern q.mask q.start q.alignment
        (UInt64.ofNat (address - overlap q low address)) q.maximumMatches
        (UInt64.ofNat address - UInt64.ofNat (memBytes srv.mem
          (UInt64.ofNat (address - overlap q low address)) (overlap q low address)).length)
        (memBytes srv.mem (UInt64.ofNat (address - overlap q low address)) (overlap q low address) ++
          memBytes srv.mem (UInt64.ofNat address) n) found =
      (found ++ (srv.places q (address - overlap q low address) (address + n)).map
        UInt64.ofNat).take q.maximumMatches := by
  have hover : overlap q low address ≤ address - low := Nat.min_le_right _ _
  generalize overlap q low address = t at *
  have hback : UInt64.ofNat address - UInt64.ofNat t = UInt64.ofNat (address - t) :=
    ofNat_sub_ofNat (by omega) (by omega)
  have hforth : UInt64.ofNat (address - t) + UInt64.ofNat t = UInt64.ofNat address := by
    rw [← UInt64.ofNat_add]
    congr 1
    omega
  have hbytes : memBytes srv.mem (UInt64.ofNat (address - t)) t ++
      memBytes srv.mem (UInt64.ofNat address) n =
      memBytes srv.mem (UInt64.ofNat (address - t)) (t + n) := by
    rw [memBytes_append, hforth]
  rw [memBytes_length, hback, hbytes, scanBuffer_places hq.pattern hq.mask hq.alignment hfound
    (by omega) (by omega)]
  congr 4
  omega

theorem overlap_next (hlow : low ≤ address) :
    min (q.pattern.length - 1) (overlap q low address + n) = overlap q low (address + n) := by
  unfold overlap
  omega

theorem tail_next (hlow : low ≤ address) :
    (memBytes srv.mem (UInt64.ofNat (address - overlap q low address)) (overlap q low address) ++
        memBytes srv.mem (UInt64.ofNat address) n).drop
      (overlap q low address + n - overlap q low (address + n)) =
      memBytes srv.mem (UInt64.ofNat (address + n - overlap q low (address + n)))
        (overlap q low (address + n)) := by
  have hover : overlap q low address ≤ address - low := Nat.min_le_right _ _
  have hnext := overlap_next (q := q) (n := n) hlow
  have hle : overlap q low (address + n) ≤ overlap q low address + n := by
    rw [← hnext]
    exact Nat.min_le_right _ _
  generalize overlap q low address = t at *
  generalize overlap q low (address + n) = t' at *
  have hforth : UInt64.ofNat (address - t) + UInt64.ofNat t = UInt64.ofNat address := by
    rw [← UInt64.ofNat_add]
    congr 1
    omega
  have hend : UInt64.ofNat (address - t) + UInt64.ofNat (t + n - t') =
      UInt64.ofNat (address + n - t') := by
    rw [← UInt64.ofNat_add]
    congr 1
    omega
  have hsplit : t + n = (t + n - t') + t' := by omega
  rw [← hforth, ← memBytes_append]
  conv_lhs => rw [hsplit, Nat.add_sub_cancel]
  rw [drop_memBytes, hend]

theorem candidate_next (hpattern : 0 < q.pattern.length) (hlow : low ≤ address) (hfit : address + n < 2 ^ 64) :
    (if q.pattern.length ≤ overlap q low address + n then
        UInt64.ofNat address - UInt64.ofNat (overlap q low address) +
          UInt64.ofNat (overlap q low address + n - q.pattern.length + 1)
      else UInt64.ofNat (address - overlap q low address)) =
      UInt64.ofNat (address + n - overlap q low (address + n)) := by
  have hover : overlap q low address ≤ address - low := Nat.min_le_right _ _
  rw [← overlap_next hlow]
  generalize overlap q low address = t at *
  rw [ofNat_sub_ofNat (by omega) (by omega), ← UInt64.ofNat_add]
  split <;> congr 1 <;> omega

variable {found₁ : List UInt64}

theorem mem_or_matchesAt {stop : Nat}
    (h : found₁ = (found ++ (srv.places q first stop).map UInt64.ofNat).take q.maximumMatches) :
    ∀ a ∈ found₁, a ∈ found ∨ MatchesAt srv.mem q.pattern q.mask a := by
  intro a ha
  rw [h] at ha
  exact (List.mem_append.1 (List.mem_of_mem_take ha)).imp id matchesAt_of_mem_places

/-- Below the limit nothing was cut. -/
theorem eq_append_of_lt {stop : Nat}
    (h : found₁ = (found ++ (srv.places q first stop).map UInt64.ofNat).take q.maximumMatches)
    (hlt : found₁.length < q.maximumMatches) :
    found₁ = found ++ (srv.places q first stop).map UInt64.ofNat := by
  rw [h, List.length_take] at hlt
  rw [h, List.take_of_length_le (by omega)]

/-- The limit is reached in a chunk: what comes after it does not matter. -/
theorem Scanned.full {stop : Nat}
    (hs : Settled rough l') (hd : l.disturbed = true → l'.disturbed = true)
    (h : found₁ = (found ++ (srv.places q first stop).map UInt64.ofNat).take q.maximumMatches)
    (hfull : q.maximumMatches ≤ found₁.length)
    (hstop : stop ≤ (srv.readEnd high fuel l.reads address).1) :
    Scanned srv rough q high fuel address first l found found₁ true l' := by
  refine ⟨hs, hd, mem_or_matchesAt h, (fun h => nomatch h), fun _ => hfull, fun _ => ?_,
    fun _ h => nomatch h⟩
  have hlen : q.maximumMatches ≤ (found ++ (srv.places q first stop).map UInt64.ofNat).length := by
    rw [h, List.length_take] at hfull
    omega
  rw [h, ← places_append hstop rfl, List.map_append, ← List.append_assoc,
    List.take_append_of_le_length hlen]

theorem Scanned.next {stop first' : Nat} {l₁ : Line} {found' : List UInt64} {reached : Bool}
    (hfirst : first' = first + (stop + 1 - q.pattern.length - first))
    (hd : l.disturbed = true → l₁.disturbed = true)
    (h : found₁ = found ++ (srv.places q first stop).map UInt64.ofNat)
    (hend : srv.readEnd high (fuel + 1) l.reads address = srv.readEnd high fuel l₁.reads stop)
    (hrest : Scanned srv rough q high fuel stop first' l₁ found₁ found' reached l') :
    Scanned srv rough q high (fuel + 1) address first l found found' reached l' := by
  refine ⟨hrest.settled, fun hl => hrest.disturbed (hd hl), fun a ha => ?_, hrest.limit,
    hrest.cut, fun hl => ?_, fun hl hreached => ?_⟩
  · rcases hrest.sound a ha with hmem | hmatch
    · rw [h] at hmem
      exact (List.mem_append.1 hmem).imp id matchesAt_of_mem_places
    · exact Or.inr hmatch
  · rw [hrest.exact hl, hend, ← places_append le_readEnd hfirst, h, List.map_append,
      List.append_assoc]
  · rw [hrest.reads hl hreached, hend]

/-- What a run of the loop may end with. -/
def LoopPost (srv : MemoryServer) (rough : Prop) (q : ScanQuery) (high fuel address first : Nat) (l : Line)
    (found : List UInt64) : Except ClientError (List UInt64 × Bool) → Line → Prop
  | .ok (found', reached), l' => Scanned srv rough q high fuel address first l found found' reached l'
  | .error _, l' => Settled rough l' ∧ l'.disturbed = true

theorem ends_checkContext {Q : Except ClientError Unit → Line → Prop} (hok : Q (.ok ()) l)
    (herr : ∀ e, rough → Q (.error e) l.disturb) : Ends srv rough checkContext l Q := by
  refine Ends.bind (ends_ask ?_)
  rintro r l' ⟨hstep, -⟩
  rcases hstep with ⟨rfl, rfl⟩ | ⟨hrough, ⟨e, rfl⟩, rfl⟩
  · exact ends_pure hok
  · exact ends_throw (herr _ hrough)

theorem requested_eq (hhigh : high < 2 ^ 64) (hlt : address < high) :
    (min chunkSize (UInt64.ofNat high - UInt64.ofNat address)).toNat =
      min 1048576 (high - address) := by
  have hsub : (UInt64.ofNat high - UInt64.ofNat address).toNat = high - address := by
    rw [ofNat_sub_ofNat (by omega) hhigh, toNat_ofNat (by omega)]
  have hchunk : chunkSize.toNat = 1048576 := rfl
  have hmin : min chunkSize (UInt64.ofNat high - UInt64.ofNat address) =
      if chunkSize ≤ UInt64.ofNat high - UInt64.ofNat address then chunkSize
      else UInt64.ofNat high - UInt64.ofNat address := rfl
  rw [hmin]
  split
  · next h =>
    rw [UInt64.le_iff_toNat_le, hchunk, hsub] at h
    omega
  · next h =>
    rw [UInt64.le_iff_toNat_le, hchunk, hsub] at h
    omega

theorem ends_scanRegionLoop (hq : q.Valid) (hstart : q.start.toNat ≤ low) (hhigh : high < 2 ^ 64)
    (hlow : low ≤ address) (hle : address ≤ high)
    (hfuel : high - address ≤ fuel) (hs : Settled rough l) (hfound : found.length < q.maximumMatches) :
    Ends srv rough (scanRegionLoop q handle (UInt64.ofNat high) fuel (UInt64.ofNat address)
        (UInt64.ofNat (address - overlap q low address))
        (memBytes srv.mem (UInt64.ofNat (address - overlap q low address)) (overlap q low address))
        found) l
      (LoopPost srv rough q high fuel address (address - overlap q low address) l found) := by
  have hpattern := hq.pattern
  have hover : ∀ a, overlap q low a ≤ q.pattern.length - 1 := fun a => Nat.min_le_left _ _
  induction fuel generalizing address l found with
  | zero =>
    refine ends_pure (Scanned.leave hs id hfound fun _ => ?_)
    have := hover address
    simp only [MemoryServer.readEnd]
    exact ⟨by omega, trivial⟩
  | succ fuel ih =>
    have hback := hover address
    have hge : UInt64.ofNat high ≤ UInt64.ofNat address ↔ high ≤ address := by
      rw [UInt64.le_iff_toNat_le, toNat_ofNat hhigh, toNat_ofNat (by omega)]
    rw [scanRegionLoop]
    by_cases hdone : high ≤ address
    · rw [if_pos (hge.2 hdone)]
      refine ends_pure (Scanned.leave hs id hfound fun _ => ?_)
      simp only [MemoryServer.readEnd, if_pos hdone]
      exact ⟨by omega, trivial⟩
    · rw [if_neg (hge.not.2 hdone)]
      refine Ends.bind (ends_checkContext ?_ fun e hrough => ⟨hs.disturb hrough, rfl⟩)
      have hreq := requested_eq hhigh (Nat.lt_of_not_le hdone)
      generalize min chunkSize (UInt64.ofNat high - UInt64.ofNat address) = requested at hreq ⊢
      have hreq32 : requested.toUInt32.toNat = min 1048576 (high - address) := by
        rw [UInt64.toNat_toUInt32, hreq]
        omega
      refine Ends.attempt_bind (ends_readMemoryWithHandle hs (by omega)
        (fun l' hs' hreads hdist => ?_) fun e l' hs' hdist => ?_)
      · rw [hreq32]
        have hn : srv.answered l.reads (min 1048576 (high - address)) ≤
            min 1048576 (high - address) := Nat.min_le_right _ _
        have hend : srv.readEnd high (fuel + 1) l.reads address = _ := readEnd_succ hdone
        generalize hr : min 1048576 (high - address) = r at *
        generalize srv.answered l.reads r = n at *
        have hdist' : l.disturbed = true → l'.disturbed = true := fun h => hdist.trans h
        show Ends srv rough (if memBytes srv.mem (UInt64.ofNat address) n = [] then _ else _) l' _
        by_cases hzero : n = 0
        · subst hzero
          rw [if_pos (show memBytes srv.mem (UInt64.ofNat address) 0 = [] from rfl)]
          refine ends_pure (Scanned.leave hs' hdist' hfound fun _ => ?_)
          rw [hend, if_pos (by omega)]
          exact ⟨by simp only; omega, hreads⟩
        · have hne : memBytes srv.mem (UInt64.ofNat address) n ≠ [] := by
            intro h
            exact hzero (by simpa using congrArg List.length h)
          rw [if_neg hne]
          dsimp only
          rw [scanned_chunk hq hstart hfound hlow (by omega)]
          generalize hfound₁ : (found ++ (srv.places q (address - overlap q low address)
            (address + n)).map UInt64.ofNat).take q.maximumMatches = found₁
          have hstop : address + n ≤ (srv.readEnd high (fuel + 1) l.reads address).1 := by
            rw [hend]
            split
            · exact Nat.le_refl _
            · exact Nat.le_trans (by omega) le_readEnd
          by_cases hfull : q.maximumMatches ≤ found₁.length
          · rw [if_pos hfull]
            exact ends_pure (Scanned.full hs' hdist' hfound₁.symm hfull hstop)
          · have hshort : UInt64.ofNat (memBytes srv.mem (UInt64.ofNat address) n).length <
                requested ↔ n < r := by
              rw [memBytes_length, UInt64.lt_iff_toNat_lt, toNat_ofNat (by omega), hreq]
            rw [if_neg hfull]
            by_cases hpart : n < r
            · -- a short read ends the region
              rw [if_pos (hshort.2 hpart)]
              rw [if_pos hpart] at hend
              refine ends_pure ⟨hs', hdist', mem_or_matchesAt hfound₁.symm, fun _ => by omega,
                (fun h => nomatch h), fun _ => ?_, fun _ _ => ?_⟩
              · rw [hend, hfound₁]
              · rw [hend, hreads]
            · obtain rfl : n = r := by omega
              rw [if_neg (hshort.not.2 hpart), List.length_append, memBytes_length,
                memBytes_length, candidate_next hpattern hlow (by omega), overlap_next hlow,
                tail_next hlow, ← UInt64.ofNat_add]
              rw [if_neg hpart, ← hreads] at hend
              refine Ends.imp (ih (by omega) (by omega) (by omega) hs' (by omega)) ?_
              rintro (e | ⟨found', reached⟩) l'' hpost
              · exact hpost
              · refine Scanned.next ?_ hdist' (eq_append_of_lt hfound₁.symm (by omega)) hend hpost
                have hnext := overlap_next (q := q) (n := n) hlow
                omega
      · -- an error of the read ends the region
        exact ends_pure (Scanned.leave hs' (fun _ => hdist) hfound fun h => by simp [hdist] at h)

theorem clip_eq (q : ScanQuery) (e : RegionEntry) :
    clip q e.region = (UInt64.ofNat (MemoryServer.clipped q e).1,
      UInt64.ofNat (MemoryServer.clipped q e).2) := by
  have hbase := e.baseAddress.toNat_lt
  have hsize := e.size.toNat_lt
  have hstart := q.start.toNat_lt
  have hstop := q.stop.toNat_lt
  have hmax : max e.baseAddress q.start =
      if e.baseAddress ≤ q.start then q.start else e.baseAddress := rfl
  have hmin : min (saturatingAdd e.baseAddress e.size) q.stop =
      if saturatingAdd e.baseAddress e.size ≤ q.stop then saturatingAdd e.baseAddress e.size
      else q.stop := rfl
  have hsat : (saturatingAdd e.baseAddress e.size).toNat =
      min (e.baseAddress.toNat + e.size.toNat) (2 ^ 64 - 1) := by
    have htop : (0xFFFFFFFFFFFFFFFF : UInt64).toNat = 2 ^ 64 - 1 := rfl
    have hle : e.baseAddress ≤ 0xFFFFFFFFFFFFFFFF := by
      rw [UInt64.le_iff_toNat_le, htop]
      omega
    unfold saturatingAdd
    split
    · next h =>
      rw [UInt64.lt_iff_toNat_lt, UInt64.toNat_sub_of_le _ _ hle, htop] at h
      rw [htop]
      omega
    · next h =>
      rw [UInt64.lt_iff_toNat_lt, UInt64.toNat_sub_of_le _ _ hle, htop] at h
      rw [UInt64.toNat_add]
      omega
  refine Prod.ext (UInt64.toNat_inj.1 ?_) (UInt64.toNat_inj.1 ?_)
  · show (max e.baseAddress q.start).toNat = _
    rw [hmax, toNat_ofNat (by simp only [MemoryServer.clipped]; omega)]
    simp only [MemoryServer.clipped]
    split
    · next h => rw [UInt64.le_iff_toNat_le] at h; omega
    · next h => rw [UInt64.le_iff_toNat_le] at h; omega
  · show (min (saturatingAdd e.baseAddress e.size) q.stop).toNat = _
    rw [hmin, toNat_ofNat (by simp only [MemoryServer.clipped]; omega)]
    simp only [MemoryServer.clipped]
    split
    · next h => rw [UInt64.le_iff_toNat_le, hsat] at h; omega
    · next h => rw [UInt64.le_iff_toNat_le, hsat] at h; omega

/-- What a run of the region loop may end with. -/
def RegionsPost (srv : MemoryServer) (rough : Prop) (q : ScanQuery) (entries : List RegionEntry) (l : Line)
    (found : List UInt64) : Except ClientError (List UInt64) → Line → Prop
  | .ok found', l' => Settled rough l' ∧ (l.disturbed = true → l'.disturbed = true) ∧
      (∀ a ∈ found', a ∈ found ∨ MatchesAt srv.mem q.pattern q.mask a) ∧
      (l'.disturbed = false → found' = (found ++ (srv.expected q entries l.reads).map
        UInt64.ofNat).take q.maximumMatches)
  | .error _, l' => Settled rough l' ∧ l'.disturbed = true

theorem RegionsPost.skip {e : RegionEntry} {entries : List RegionEntry}
    (heq : srv.expected q (e :: entries) l.reads = srv.expected q entries l.reads)
    {r : Except ClientError (List UInt64)} (h : RegionsPost srv rough q entries l found r l') :
    RegionsPost srv rough q (e :: entries) l found r l' := by
  cases r with
  | error err => exact h
  | ok found' =>
    rw [RegionsPost, heq]
    exact h

theorem ends_scanRegions (hq : q.Valid) (entries : List RegionEntry) (hs : Settled rough l)
    (hfound : found.length < q.maximumMatches) :
    Ends srv rough (scanRegions q handle (entries.map RegionEntry.region) found) l
      (RegionsPost srv rough q entries l found) := by
  induction entries generalizing l found with
  | nil =>
    refine ends_pure ⟨hs, id, fun a ha => Or.inl ha, fun _ => ?_⟩
    simp only [MemoryServer.expected, List.map_nil, List.append_nil]
    exact (List.take_of_length_le (Nat.le_of_lt hfound)).symm
  | cons e entries ih =>
    have hstart := q.start.toNat_lt
    have hstop := q.stop.toNat_lt
    have hbase := e.baseAddress.toNat_lt
    rw [List.map_cons, scanRegions]
    refine Ends.bind (ends_checkContext ?_ fun _ hrough => ⟨hs.disturb hrough, rfl⟩)
    show Ends srv rough (if e.protection &&& q.protection = 0 then _ else _) l _
    have hclip := clip_eq q e
    generalize hlow : (MemoryServer.clipped q e).1 = low at hclip
    generalize hhigh : (MemoryServer.clipped q e).2 = high at hclip
    have hlow64 : low < 2 ^ 64 := by
      rw [← hlow]
      simp only [MemoryServer.clipped]
      omega
    have hhigh64 : high < 2 ^ 64 := by
      rw [← hhigh]
      simp only [MemoryServer.clipped]
      omega
    have hexpected : srv.expected q (e :: entries) l.reads =
        if e.protection &&& q.protection = 0 ∨ high ≤ low ∨ high - low < q.pattern.length then
          srv.expected q entries l.reads
        else srv.places q low (srv.readEnd high (high - low) l.reads low).1 ++
          srv.expected q entries (srv.readEnd high (high - low) l.reads low).2 := by
      rw [MemoryServer.expected, ← hlow, ← hhigh]
    by_cases hprotection : e.protection &&& q.protection = 0
    · rw [if_pos hprotection]
      rw [if_pos (Or.inl hprotection)] at hexpected
      exact Ends.imp (ih hs hfound) fun r l' h => h.skip hexpected
    · rw [if_neg hprotection, hclip]
      have hle : UInt64.ofNat high ≤ UInt64.ofNat low ↔ high ≤ low := by
        rw [UInt64.le_iff_toNat_le, toNat_ofNat hhigh64, toNat_ofNat hlow64]
      have hshort : (UInt64.ofNat high ≤ UInt64.ofNat low ∨
          (UInt64.ofNat high - UInt64.ofNat low).toNat < q.pattern.length) ↔
          high ≤ low ∨ high - low < q.pattern.length := by
        by_cases h : high ≤ low
        · simp [hle, h]
        · rw [ofNat_sub_ofNat (by omega) hhigh64, toNat_ofNat (by omega), hle]
      show Ends srv rough (if UInt64.ofNat high ≤ UInt64.ofNat low ∨
        (UInt64.ofNat high - UInt64.ofNat low).toNat < q.pattern.length then _ else _) l _
      by_cases hsmall : high ≤ low ∨ high - low < q.pattern.length
      · rw [if_pos (hshort.2 hsmall)]
        rw [if_pos (Or.inr hsmall)] at hexpected
        exact Ends.imp (ih hs hfound) fun r l' h => h.skip hexpected
      · rw [if_neg (hshort.not.2 hsmall)]
        rw [if_neg (not_or.2 ⟨hprotection, hsmall⟩)] at hexpected
        have hfirst : q.start.toNat ≤ low := by
          rw [← hlow]
          exact Nat.le_max_right _ _
        have hzero : overlap q low low = 0 := by simp [overlap]
        have hle' : low ≤ high := by omega
        have hloop := @ends_scanRegionLoop srv rough q handle low high l found low
          (high - low) hq hfirst hhigh64 (Nat.le_refl low) hle' (Nat.le_refl _) hs hfound
        rw [hzero, Nat.sub_zero] at hloop
        rw [ofNat_sub_ofNat (by omega) hhigh64, toNat_ofNat (by omega)]
        refine Ends.bind (Ends.imp hloop ?_)
        rintro (err | ⟨found₁, reached⟩) l₁ hpost
        · exact hpost
        · show Ends srv rough (if reached = true then _ else _) l₁ _
          obtain ⟨hs₁, hdist₁, hsound₁, hlimit₁, hcut₁, hexact₁, hreads₁⟩ := hpost
          generalize srv.places q low (srv.readEnd high (high - low) l.reads low).1 = here at *
          cases reached with
          | true =>
            refine ends_pure ⟨hs₁, hdist₁, hsound₁, fun hl => ?_⟩
            have hlen : q.maximumMatches ≤ (found ++ here.map UInt64.ofNat).length := by
              have hcut := hcut₁ rfl
              rw [hexact₁ hl, List.length_take] at hcut
              omega
            rw [hexpected, List.map_append, ← List.append_assoc,
              List.take_append_of_le_length hlen]
            exact hexact₁ hl
          | false =>
            have hlt := hlimit₁ rfl
            refine Ends.imp (ih hs₁ hlt) ?_
            rintro (err | found₂) l₂ hpost
            · exact hpost
            · obtain ⟨hs₂, hdist₂, hsound₂, hexact₂⟩ := hpost
              refine ⟨hs₂, fun hl => hdist₂ (hdist₁ hl), fun a ha => ?_, fun hl => ?_⟩
              · exact (hsound₂ a ha).elim (hsound₁ a) Or.inr
              · have hl₁ : l₁.disturbed = false := by
                  cases h : l₁.disturbed with
                  | false => rfl
                  | true => rw [hdist₂ h] at hl; cases hl
                have happend : found₁ = found ++ here.map UInt64.ofNat := by
                  have hcut := hexact₁ hl₁
                  rw [hcut, List.length_take] at hlt
                  rw [hcut, List.take_of_length_le (by omega)]
                rw [hexact₂ hl, hreads₁ hl₁ rfl, hexpected, happend, List.map_append,
                  List.append_assoc]

end Loop

/-! ## `ScanMemory` -/

section ScanMemory

variable {srv : MemoryServer} {rough : Prop} {pid : Int32} {pattern mask : List UInt8}
  {start stop : UInt64} {alignment : Int64} {protection : UInt32} {maximumMatches : Int64}

/-- The query that `ScanMemory` makes of its arguments. -/
def scanQuery (pattern mask : List UInt8) (start stop : UInt64) (alignment : Int64)
    (protection : UInt32) (maximumMatches : Int64) : ScanQuery :=
  ⟨pattern, mask, start, stop, alignment, protection, maximumMatches.toInt.toNat⟩

/-- The checks of `ScanMemory` on its arguments. -/
structure Accepted (pattern mask : List UInt8) (start stop : UInt64)
    (alignment maximumMatches : Int64) : Prop where
  nonempty : pattern.length ≠ 0
  lengths : mask.length = pattern.length
  aligned : 1 ≤ alignment.toInt
  range : start < stop
  least : 1 ≤ maximumMatches.toInt
  most : maximumMatches.toInt ≤ maximumCollectionEntries

/-- What a run of `ScanMemory` may end with. -/
def ScanPost (srv : MemoryServer) (rough : Prop) (q : ScanQuery) :
    Except ClientError (List UInt64) → Line → Prop
  | .ok found, l' => l'.crossed = false ∧ (∀ a ∈ found, MatchesAt srv.mem q.pattern q.mask a) ∧
      (¬ rough → found = ((srv.expected q srv.regions 0).map UInt64.ofNat).take q.maximumMatches)
  | .error _, l' => l'.crossed = false ∧
      (rough ∨ srv.handle = 0 ∨ maximumCollectionEntries < srv.regions.length)

theorem settled_fresh : Settled rough Line.fresh :=
  ⟨rfl, fun _ => rfl, (fun h => nomatch h), fun h => nomatch h⟩

theorem ends_scanMemory (protection : UInt32)
    (h : Accepted pattern mask start stop alignment maximumMatches) :
    Ends srv rough (scanMemory pid pattern mask start stop alignment protection maximumMatches)
      Line.fresh
      (ScanPost srv rough (scanQuery pattern mask start stop alignment protection maximumMatches)) := by
  have hvalid : (scanQuery pattern mask start stop alignment protection maximumMatches).Valid :=
    ⟨Nat.pos_of_ne_zero h.nonempty, h.lengths, h.aligned⟩
  have hlimit : ([] : List UInt64).length <
      (scanQuery pattern mask start stop alignment protection maximumMatches).maximumMatches := by
    have hleast := h.least
    simp only [scanQuery, List.length_nil]
    omega
  have hargs : ¬ (pattern.length = 0 ∨ pattern.length ≠ mask.length) :=
    not_or.2 ⟨h.nonempty, not_not.2 h.lengths.symm⟩
  have hcount : ¬ (maximumMatches.toInt < 1 ∨ maximumCollectionEntries < maximumMatches.toInt) := by
    have hleast := h.least
    have hmost := h.most
    omega
  have halign : ¬ alignment.toInt < 1 := by
    have := h.aligned
    omega
  have hrange : ¬ stop ≤ start := UInt64.not_le.2 h.range
  rw [scanMemory, if_neg hargs, if_neg halign, if_neg hrange, if_neg hcount]
  refine Ends.bind (ends_openProcess settled_fresh rfl (fun l₁ hs₁ hm₁ hc₁ _ => ?_)
    fun e l₁ hs₁ hcause => ⟨hs₁.crossed, hcause.imp hs₁.rough Or.inl⟩)
  refine ends_deferClose (Ends.bind (ends_regionsWithHandle hs₁ hm₁ (fun l₂ hs₂ hm₂ hc₂ => ?_)
    fun e l₂ hcrossed hcause => ?_))
  · refine Ends.imp (ends_scanRegions hvalid srv.regions hs₂ hlimit) ?_
    have hreads : l₂.reads = 0 := hc₂.reads.trans hc₁.reads
    rintro (e | found) l₃ hpost
    · exact ends_closeHandle hpost.1.crossed fun _ l₄ hcrossed _ =>
        ⟨hcrossed, Or.inl (hpost.1.rough hpost.2)⟩
    · obtain ⟨hs₃, -, hsound, hexact⟩ := hpost
      refine ends_closeHandle hs₃.crossed fun _ l₄ hcrossed _ => ⟨hcrossed, ?_, fun hquiet => ?_⟩
      · exact fun a ha => (hsound a ha).resolve_left List.not_mem_nil
      · rw [hreads] at hexact
        exact hexact (Bool.eq_false_iff.2 fun hd => hquiet (hs₃.rough hd))
  · exact ends_closeHandle hcrossed fun _ l₃ hcrossed' _ => ⟨hcrossed', hcause.imp id Or.inr⟩

/-- `ScanMemory` returns the first places in the regions, up to the limit, when every
    answer of the server is in time. -/
theorem scanMemory_exact (h : Accepted pattern mask start stop alignment maximumMatches)
    (hhandle : srv.handle ≠ 0) (hregions : srv.regions.length ≤ maximumCollectionEntries) :
    ∃ l', Prog.interp srv.serve
        (scanMemory pid pattern mask start stop alignment protection maximumMatches).run Line.fresh =
      some (.ok (((srv.expected
        (scanQuery pattern mask start stop alignment protection maximumMatches)
        srv.regions 0).map UInt64.ofNat).take maximumMatches.toInt.toNat), l') := by
  obtain ⟨r, l', hrun, hpost⟩ := (@ends_scanMemory srv False pid _ _ _ _ _ _ protection h).exists_interp
  refine ⟨l', hrun.trans ?_⟩
  cases r with
  | ok found => rw [hpost.2.2 id]; rfl
  | error e =>
    rcases hpost.2 with hfalse | hzero | hmany
    · exact hfalse.elim
    · exact absurd hzero hhandle
    · exact absurd hmany (Nat.not_lt.2 hregions)

/-- Two regions of four bytes with an `A` at 0x1001, 0x1003 and 0x2000. -/
def twoRegions : MemoryServer where
  mem a := if a = 0x1001 ∨ a = 0x1003 ∨ a = 0x2000 then 0x41 else 0
  regions := [⟨0x1000, 4, 4, 0⟩, ⟨0x2000, 4, 4, 0⟩]
  handle := 7
  prefixOf _ := 4
  regions_lt := by decide

theorem scanMemory_exact_two : ∃ l', Prog.interp twoRegions.serve
    (scanMemory 1 [0x41] [0x78] 0x1002 0x3000 1 4 10).run Line.fresh =
      some (.ok [0x1003, 0x2000], l') := by
  have hplaces : ((twoRegions.expected (scanQuery [0x41] [0x78] 0x1002 0x3000 1 4 10)
      twoRegions.regions 0).map UInt64.ofNat).take (10 : Int64).toInt.toNat =
      [0x1003, 0x2000] := by decide
  rw [← hplaces]
  exact scanMemory_exact ⟨by decide, by decide, by decide, by decide, by decide, by decide⟩
    (by decide) (by decide)

/-- When no read request follows a missed deadline, every address that is returned is a
    place of the pattern, and no byte is taken for the answer to another read request. -/
theorem scanMemory_sound (srv : MemoryServer) (pid : Int32) (pattern mask : List UInt8)
    (start stop : UInt64) (alignment : Int64) (protection : UInt32) (maximumMatches : Int64) :
    Prog.Always (PromptStep srv True)
      (fun r l' => l'.crossed = false ∧
        ∀ found, r = .ok found → ∀ a ∈ found, MatchesAt srv.mem pattern mask a)
      (scanMemory pid pattern mask start stop alignment protection maximumMatches).run Line.fresh := by
  have hrefused : ∀ e : ClientError, Ends srv True (throw e : ClientM (List UInt64)) Line.fresh
      fun r l' => l'.crossed = false ∧
        ∀ found, r = .ok found → ∀ a ∈ found, MatchesAt srv.mem pattern mask a :=
    fun e => ends_throw ⟨rfl, fun found h => nomatch h⟩
  by_cases h : Accepted pattern mask start stop alignment maximumMatches
  · refine Ends.imp (ends_scanMemory protection h) ?_
    rintro (e | found) l' hpost
    · exact ⟨hpost.1, fun found h => nomatch h⟩
    · refine ⟨hpost.1, ?_⟩
      rintro _ ⟨rfl⟩
      exact hpost.2.1
  · show Ends srv True (scanMemory pid pattern mask start stop alignment protection maximumMatches)
      Line.fresh _
    rw [scanMemory]
    split
    · exact hrefused _
    · next hargs =>
      split
      · exact hrefused _
      · next halign =>
        split
        · exact hrefused _
        · next hrange =>
          split
          · exact hrefused _
          · next hcount =>
            rw [not_or, not_not] at hargs
            rw [not_or] at hcount
            exact absurd ⟨hargs.1, hargs.2.symm, by omega, UInt64.not_le.1 hrange, by omega,
              by omega⟩ h

/-- The answer to the first read request comes after its deadline. -/
def lateAnswer (srv : MemoryServer) : (o : NetOp) → Line → Option (NetSig.Res o × Line)
  | .read n, l =>
    if 0 < n ∧ l.reads = 1 ∧ l.missed = false then some (.error "i/o timeout", l.late 0)
    else srv.serve (.read n) l
  | o, l => srv.serve o l

theorem lineStep_of_lateAnswer {srv : MemoryServer} (o : NetOp) (l : Line) (r : NetSig.Res o)
    (l' : Line) (h : lateAnswer srv o l = some (r, l')) : LineStep srv True o l r l' := by
  cases o with
  | read n =>
    simp only [lateAnswer] at h
    split at h
    · next hlate =>
      cases h
      exact Or.inr ⟨Or.inl trivial, "i/o timeout", 0, hlate.1, rfl, rfl⟩
    · exact lineStep_of_serve _ l r l' h
  | _ => exact lineStep_of_serve _ l r l' h

/-- The answer for the first region is scanned as the answer for the second. -/
theorem scanMemory_not_sound :
    ¬ Prog.Always (LineStep twoRegions True)
        (fun r _ => ∀ found, r = .ok found → ∀ a ∈ found, MatchesAt twoRegions.mem [0x41] [0x78] a)
        (scanMemory 1 [0x41] [0x78] 0 0x3000 1 4 10).run Line.fresh ∧
      ¬ Prog.Always (LineStep twoRegions True) (fun _ l' => l'.crossed = false)
        (scanMemory 1 [0x41] [0x78] 0 0x3000 1 4 10).run Line.fresh := by
  obtain ⟨l', hcrossed, hrun⟩ : ∃ l', l'.crossed = true ∧ Prog.interp (lateAnswer twoRegions)
      (scanMemory 1 [0x41] [0x78] 0 0x3000 1 4 10).run Line.fresh =
        some (.ok [0x2001, 0x2003], l') := ⟨_, rfl, by rfl⟩
  refine ⟨fun h => ?_, fun h => ?_⟩
  · have hmatch := Prog.Always.of_interp lineStep_of_lateAnswer h hrun _ rfl 0x2001 (by decide)
    exact absurd hmatch (by decide)
  · have hown := Prog.Always.of_interp lineStep_of_lateAnswer h hrun
    rw [hcrossed] at hown
    cases hown

end ScanMemory

end CheatEngine.Client
