/-
  CheatEngine.PointerScan.NewScan

  A scan is given to a child with the DONEWSCAN message (`TScanDataUploader.execute`
  and `HandleUpdateStatusReply_DoNewScan` of pointerscancontroller.pas): the
  settings, the pointer map, and the pointer maps to compare with.  The child then
  makes workers of its own (`addworkerThread`).  `negativeOffsets` and `useHeapData`
  are not in the message, and two numbers are sent as words.
-/
import CheatEngine.Lib.Stream
import CheatEngine.PointerScan.ResultEntries

namespace CheatEngine.PointerScan

open CheatEngine.Lib

/-! ## The controller -/

/-- `TReversePointerListHandler`: the pointer map, with what entries are packed by. -/
structure ScanData where
  pointerMap : PointerMap
  modulecount : Nat
  canHaveStatic : Bool

/-- How a file is decompressed and loaded, as a pointer map, or to compare with;
    then the modules are put in the order of the pointer map. -/
structure Loader where
  scanData : List UInt8 → ScanData
  rescanList : ScanData → List UInt8 → RescanList

/-- `TPointerscanController`: the settings of a scan and its files.  Of the files to
    compare with there is also the address; the form sets `instantrescan` when
    there are any. -/
structure Controller where
  maxlevel : Int32
  sz : Int32
  compressedptr : Bool
  staticonly : Bool
  noLoop : Bool
  limitToMaxOffsetsPerNode : Bool
  unalligned : Bool
  maxOffsetsPerNode : Int32
  mustStartWithBase : Bool
  baseStart : UInt64
  baseStop : UInt64
  onlyOneStaticInPath : Bool
  mustEndWithSpecificOffset : Bool
  mustEndWithSpecificOffsetMaxDeviation : UInt32
  mustendwithoffsetlist : List UInt32
  negativeOffsets : Bool
  useHeapData : Bool
  loadedPointermap : List UInt8
  instantrescanfiles : List (UInt64 × List UInt8)

namespace Controller

def initializeCompressedPtrVariables (c : Controller) (d : ScanData) : MaxBitCount :=
  if c.compressedptr then
    let level := if c.mustEndWithSpecificOffsetMaxDeviation = 0 then
      getMaxBitCount (c.maxlevel.toUInt32 - UInt32.ofNat c.mustendwithoffsetlist.length) false
      else getMaxBitCount c.maxlevel.toUInt32 false
    let offset := getMaxBitCount c.sz.toUInt32 false
    { moduleIndex := getMaxBitCount (UInt32.ofNat d.modulecount - 1) true
      moduleOffset :=
        if d.pointerMap.maxlevel = 15 ∧ (c.staticonly = false ∨ d.canHaveStatic) then 64 else 32
      level := level
      offset := if c.unalligned then offset else offset - 2 }
  else ⟨0, 0, 0, 0⟩

/-- The settings that `addworkerThread` gives to a worker. -/
def settings (c : Controller) : Settings where
  maxlevel := c.maxlevel.toInt.toNat
  structsize := c.sz
  mustEndWithSpecificOffset := c.mustEndWithSpecificOffset
  mustEndWithSpecificOffsetMaxDeviation := c.mustEndWithSpecificOffsetMaxDeviation
  mustendwithoffsetlist := c.mustendwithoffsetlist
  useHeapData := c.useHeapData
  useOnlyHeapData := c.useHeapData
  onlyOneStaticInPath := c.onlyOneStaticInPath
  staticonly := c.staticonly
  noLoop := c.noLoop
  limitToMaxOffsetsPerNode := c.limitToMaxOffsetsPerNode
  maxOffsetsPerNode := c.maxOffsetsPerNode
  negativeOffsets := c.negativeOffsets

/-- `addworkerThread`, after `ProcessScanDataFiles`. -/
def addWorkerThread (l : Loader) (c : Controller) : ScanWorker where
  settings := c.settings
  compressedptr := c.compressedptr
  alligned := !c.unalligned
  maxBitCount := c.initializeCompressedPtrVariables (l.scanData c.loadedPointermap)
  instantrescan := c.instantrescanfiles.map fun (address, file) =>
    (l.rescanList (l.scanData c.loadedPointermap) file, address)

/-- What a worker of this controller stores for an element; `findAddress` looks up
    the heap of the node it runs on. -/
def evaluate (l : Loader) (c : Controller) (findAddress : Option (UInt64 → Option UInt64))
    (entry : Nat → UInt8) (startlevel : Nat) (a : Arrays) (valuetofind : UInt64) :
    List (List UInt8) :=
  (c.addWorkerThread l).evaluate ⟨(l.scanData c.loadedPointermap).pointerMap, findAddress⟩
    entry startlevel a valuetofind

def writeFlag (b : Bool) : List UInt8 := u8 (if b then 1 else 0)

def writeFile (file : UInt64 × List UInt8) : List UInt8 :=
  u64 file.1 ++ u64 (UInt64.ofNat file.2.length) ++ file.2

/-- The files that are sent; the address of the first one is not important. -/
def files (c : Controller) : List (UInt64 × List UInt8) :=
  (0, c.loadedPointermap) :: c.instantrescanfiles

/-- The message of `TScanDataUploader.execute` behind the command. -/
def writeNewScan (c : Controller) (childid currentscanid : UInt32) : List UInt8 :=
  u32 childid ++ u32 currentscanid ++ u32 c.maxlevel.toUInt32 ++ u32 c.sz.toUInt32 ++
  writeFlag c.compressedptr ++ writeFlag c.staticonly ++ writeFlag c.noLoop ++
  writeFlag c.limitToMaxOffsetsPerNode ++ writeFlag c.unalligned ++
  u16 c.maxOffsetsPerNode.toUInt32.toUInt16 ++
  writeFlag c.mustStartWithBase ++ u64 c.baseStart ++ u64 c.baseStop ++
  writeFlag c.onlyOneStaticInPath ++ writeFlag c.mustEndWithSpecificOffset ++
  u32 c.mustEndWithSpecificOffsetMaxDeviation ++
  u16 (UInt16.ofNat c.mustendwithoffsetlist.length) ++ c.mustendwithoffsetlist.flatMap u32 ++
  u32 (UInt32.ofNat c.files.length) ++
  u64 (UInt64.ofNat (c.files.map fun file => file.2.length).sum) ++ c.files.flatMap writeFile

def readFlag : Reader Bool := (fun b : UInt8 => decide (b = 1)) <$> Reader.byte

def readFile : Reader (UInt64 × List UInt8) := do
  let address ← Reader.qword
  let streamsize ← Reader.qword
  let content ← Reader.bytes streamsize.toNat
  pure (address, content)

end Controller

/-- The controller of a child.  Nothing sets the two settings there. -/
structure ChildController where
  controller : Controller
  negativeOffsets_eq : controller.negativeOffsets = false
  useHeapData_eq : controller.useHeapData = false

open Controller in
/-- `HandleUpdateStatusReply_DoNewScan`: `newscannerid`, `newcurrentscanid` and the
    controller after it. -/
def ChildController.doNewScan (child : ChildController) :
    Reader (UInt32 × UInt32 × ChildController) := do
  let newscannerid ← Reader.dword
  let newcurrentscanid ← Reader.dword
  let maxlevel ← Reader.dword
  let sz ← Reader.dword
  let compressedptr ← readFlag
  let staticonly ← readFlag
  let noLoop ← readFlag
  let limitToMaxOffsetsPerNode ← readFlag
  let unalligned ← readFlag
  let maxOffsetsPerNode ← Reader.word
  let mustStartWithBase ← readFlag
  let baseStart ← Reader.qword
  let baseStop ← Reader.qword
  let onlyOneStaticInPath ← readFlag
  let mustEndWithSpecificOffset ← readFlag
  let deviation ← Reader.dword
  let count ← Reader.word
  let mustendwithoffsetlist ← Reader.many Reader.dword count.toNat
  let filecount ← Reader.dword
  let _total ← Reader.qword
  let files ← Reader.many readFile filecount.toNat
  match files with
  | [] => fun _ => none -- an exception: no file
  | map :: instantrescanfiles =>
    let controller : Controller := { child.controller with
      maxlevel := maxlevel.toInt32, sz := sz.toInt32, compressedptr, staticonly, noLoop,
      limitToMaxOffsetsPerNode, unalligned,
      maxOffsetsPerNode := Int32.ofNat maxOffsetsPerNode.toNat,
      mustStartWithBase, baseStart, baseStop, onlyOneStaticInPath, mustEndWithSpecificOffset,
      mustEndWithSpecificOffsetMaxDeviation := deviation, mustendwithoffsetlist,
      loadedPointermap := map.2, instantrescanfiles }
    pure (newscannerid, newcurrentscanid,
      ⟨controller, child.negativeOffsets_eq, child.useHeapData_eq⟩)

namespace Controller

open Reader

/-- What the message says of a scan. -/
def received (c : Controller) : Controller :=
  { c with
    maxOffsetsPerNode := Int32.ofNat c.maxOffsetsPerNode.toUInt32.toUInt16.toNat,
    negativeOffsets := false, useHeapData := false }

/-- The lists and the files are not too long for the numbers in front of them. -/
structure Sendable (c : Controller) : Prop where
  offsets : c.mustendwithoffsetlist.length < 2 ^ 16
  files : c.files.length < 2 ^ 32
  sizes : ∀ file ∈ c.files, file.2.length < 2 ^ 64

theorem reads_flag (b : Bool) : Reads readFlag (writeFlag b) b := by
  have h := (Reads.byte (if b then 1 else 0)).map fun b : UInt8 => decide (b = 1)
  have hb : decide ((if b then 1 else 0 : UInt8) = 1) = b := by
    cases b <;> rfl
  rwa [hb] at h

theorem reads_file {file : UInt64 × List UInt8} (h : file.2.length < 2 ^ 64) :
    Reads readFile (writeFile file) file := by
  have hsize : (UInt64.ofNat file.2.length).toNat = file.2.length := UInt64.toNat_ofNat_of_lt' h
  have hcontent : Reads (Reader.bytes (UInt64.ofNat file.2.length).toNat >>= fun content =>
      (pure (file.1, content) : Reader _)) file.2 file := by
    rw [hsize]
    exact (Reads.bytes file.2).bind_pure
  rw [writeFile, List.append_assoc]
  exact (Reads.qword _).bind ((Reads.qword _).bind hcontent)

theorem reads_files {files : List (UInt64 × List UInt8)}
    (h : ∀ file ∈ files, file.2.length < 2 ^ 64) :
    Reads (Reader.many readFile files.length) (files.flatMap writeFile) files := by
  induction files with
  | nil => exact Reads.pure []
  | cons file files ih =>
    have hrest := ih fun other hother => h other (List.mem_cons_of_mem _ hother)
    exact (reads_file (h file List.mem_cons_self)).bind hrest.bind_pure

theorem reads_newScan {c : Controller} (h : c.Sendable) (child : ChildController)
    (childid currentscanid : UInt32) :
    ∃ child' : ChildController, child'.controller = c.received ∧
      Reads child.doNewScan (c.writeNewScan childid currentscanid)
        (childid, currentscanid, child') := by
  have hcount : (UInt16.ofNat c.mustendwithoffsetlist.length).toNat =
      c.mustendwithoffsetlist.length := UInt16.toNat_ofNat_of_lt' h.offsets
  have hfiles : (UInt32.ofNat c.files.length).toNat = c.files.length :=
    UInt32.toNat_ofNat_of_lt' h.files
  have hlist := Reads.many (r := Reader.dword) id Reads.dword c.mustendwithoffsetlist
  rw [List.map_id] at hlist
  refine ⟨⟨c.received, rfl, rfl⟩, rfl, ?_⟩
  unfold writeNewScan ChildController.doNewScan
  simp only [List.append_assoc]
  -- one field after another, in the order of the message
  apply (Reads.dword childid).bind
  apply (Reads.dword currentscanid).bind
  apply (Reads.dword _).bind
  apply (Reads.dword _).bind
  apply (reads_flag _).bind
  apply (reads_flag _).bind
  apply (reads_flag _).bind
  apply (reads_flag _).bind
  apply (reads_flag _).bind
  apply (Reads.word _).bind
  apply (reads_flag _).bind
  apply (Reads.qword _).bind
  apply (Reads.qword _).bind
  apply (reads_flag _).bind
  apply (reads_flag _).bind
  apply (Reads.dword _).bind
  apply (Reads.word _).bind
  rw [hcount]
  apply hlist.bind
  apply (Reads.dword _).bind
  apply (Reads.qword _).bind
  rw [hfiles]
  -- the two settings that are not sent stay as they are on every child
  obtain ⟨⟨⟩, hnegative, hheap⟩ := child
  dsimp only at hnegative hheap
  subst hnegative hheap
  rw [← List.append_nil (c.files.flatMap writeFile)]
  apply (reads_files h.sizes).bind
  exact Reads.pure _

end Controller

/-- The two searches look in the same places, from every level that is searched. -/
structure SameSearch (s s' : Settings) (t t' : Target) : Prop where
  maxlevel : s.maxlevel = s'.maxlevel
  noLoop : s.noLoop = s'.noLoop
  onlyOneStaticInPath : s.onlyOneStaticInPath = s'.onlyOneStaticInPath
  staticonly : s.staticonly = s'.staticonly
  limit : s.limitToMaxOffsetsPerNode = s'.limitToMaxOffsetsPerNode
  maxOffsets : s.limitToMaxOffsetsPerNode = true → s.maxOffsetsPerNode = s'.maxOffsetsPerNode
  pointerMap : t.pointerlisthandler = t'.pointerlisthandler
  window : ∀ valuetofind, ∀ level < s.maxlevel,
    window s t valuetofind level = window s' t' valuetofind level

namespace SameSearch

variable {s s' : Settings} {t t' : Target}

section

variable (h : SameSearch s s' t t')
include h

theorem enter (quit : Bool) (a : Arrays) (valuetofind : UInt64)
    (level : Nat) : enter s t quit a valuetofind level = enter s' t' quit a valuetofind level := by
  by_cases hlevel : level < s.maxlevel
  · simp only [PointerScan.enter, h.window valuetofind level hlevel, h.maxlevel, h.noLoop,
      h.pointerMap]
  · have hle : s.maxlevel ≤ level := Nat.le_of_not_lt hlevel
    have hle' : s'.maxlevel ≤ level := h.maxlevel ▸ hle
    rw [PointerScan.enter, PointerScan.enter, if_pos (.inl hle), if_pos (.inl hle')]

theorem nextList (a : Arrays) (f : Frame) :
    nextList s a f = nextList s' a f := by
  have hcount : f.countOffset s = f.countOffset s' := by
    rw [Frame.countOffset, Frame.countOffset, h.limit]
  have hmax : (s.limitToMaxOffsetsPerNode ∧ s.maxOffsetsPerNode.toInt ≤ f.countOffset s) ↔
      (s'.limitToMaxOffsetsPerNode ∧ s'.maxOffsetsPerNode.toInt ≤ f.countOffset s') := by
    rw [← hcount, ← h.limit]
    apply and_congr_right
    intro hlimit
    rw [h.maxOffsets hlimit]
  rw [PointerScan.nextList, PointerScan.nextList, if_congr hmax rfl rfl, hcount]

theorem scanEntries (child : Arrays → UInt64 → Arrays × List StoreCall) (level : Nat)
    (entries : List PointerEntry) (dontGoDeeper : Bool) (a : Arrays) :
    scanEntries s child level entries dontGoDeeper a =
      scanEntries s' child level entries dontGoDeeper a := by
  induction entries generalizing dontGoDeeper a with
  | nil => rfl
  | cons e entries ih =>
    simp only [PointerScan.scanEntries, ih, h.onlyOneStaticInPath, h.maxlevel, h.staticonly]

theorem scanLists
    (child : Arrays → UInt64 → Arrays × List StoreCall) (lists : List PointerList) (f : Frame)
    (a : Arrays) : scanLists s child lists f a = scanLists s' child lists f a := by
  induction lists generalizing f a with
  | nil =>
    unfold PointerScan.scanLists
    simp only [h.scanEntries, h.nextList]
  | cons plist lists ih =>
    unfold PointerScan.scanLists
    simp only [h.scanEntries, h.nextList]
    split
    · rename_i heq
      cases heq
      rw [ih]
    · rfl

theorem rscanFrom (fuel level : Nat) :
    rscanFrom s t fuel level = rscanFrom s' t' fuel level := by
  induction fuel generalizing level with
  | zero => rfl
  | succ fuel ih =>
    funext a valuetofind
    simp only [PointerScan.rscanFrom, h.enter, h.scanLists, ih]

theorem rscan (level : Nat) (a : Arrays) (valuetofind : UInt64) :
    rscan s t level a valuetofind = rscan s' t' level a valuetofind := by
  rw [PointerScan.rscan, PointerScan.rscan, h.maxlevel, h.rscanFrom]

end

end SameSearch

/-! ## Where an element is evaluated -/

namespace Controller

/-- Some level is searched by range, not for a given offset. -/
def SearchesRange (c : Controller) : Prop :=
  ∃ level < c.maxlevel.toInt.toNat,
    ¬ (c.mustEndWithSpecificOffset ∧ level < c.mustendwithoffsetlist.length)

/-- The limit of offsets fits into the word it is sent as. -/
def LimitFits (c : Controller) : Prop :=
  c.limitToMaxOffsetsPerNode = true →
    0 ≤ c.maxOffsetsPerNode.toInt ∧ c.maxOffsetsPerNode.toInt < 2 ^ 16

/-- No level is searched with a setting that is not sent. -/
def RangeSent (c : Controller) : Prop :=
  c.SearchesRange → c.useHeapData = false ∧ (c.negativeOffsets = true → c.sz = 0)

/-- A child that gets the scan stores for every element, byte for byte, the entries
    that a worker of the initializer would store: with any pointer map, whatever
    the heaps of the two nodes are, and for a buffer with the same content. -/
def StoresAlike (c : Controller) : Prop :=
  ∀ (l : Loader) (child : ChildController) (childid currentscanid : UInt32) (rest : List UInt8),
    ∃ child' : ChildController,
      child.doNewScan (c.writeNewScan childid currentscanid ++ rest) =
        some ((childid, currentscanid, child'), rest) ∧
      ∀ findAddress findAddress' entry startlevel a valuetofind,
        child'.controller.evaluate l findAddress' entry startlevel a valuetofind =
          c.evaluate l findAddress entry startlevel a valuetofind

variable {c : Controller}

theorem int32_of_word {n : Int32} (hge : 0 ≤ n.toInt) (hlt : n.toInt < 2 ^ 16) :
    Int32.ofNat n.toUInt32.toUInt16.toNat = n := by
  have hdword : n.toUInt32.toNat = n.toInt.toNat :=
    Int32.toNat_toUInt32_of_le (Int32.le_iff_toInt_le.2 hge)
  have hword : n.toUInt32.toUInt16.toNat = n.toInt.toNat := by
    rw [UInt32.toNat_toUInt16, hdword]
    omega
  apply Int32.toInt_inj.1
  rw [hword, Int32.toInt_ofNat_of_lt (by omega)]
  omega

theorem sameLayout_received (l : Loader) :
    (c.received.addWorkerThread l).SameLayout (c.addWorkerThread l) :=
  ⟨rfl, rfl, rfl, rfl, rfl, rfl, rfl⟩

theorem window_of_range {s : Settings} (t : Target) (valuetofind : UInt64) {level : Nat}
    (h : ¬ (s.mustEndWithSpecificOffset ∧ level < s.mustendwithoffsetlist.length)) :
    window s t valuetofind level =
      let structsize := s.structsize.toInt64.toUInt64
      let startvalue := valuetofind - structsize
      let stopvalue := if s.negativeOffsets then valuetofind + structsize else valuetofind
      let startvalue := if stopvalue < startvalue then 0 else startvalue
      match t.findAddress, s.useHeapData with
      | some findAddress, true =>
        match findAddress valuetofind with
        | some baseAddress => some (baseAddress, baseAddress)
        | none => if s.useOnlyHeapData then none else some (startvalue, stopvalue)
      | _, _ => some (startvalue, stopvalue) := by
  have hnone : (if s.mustEndWithSpecificOffset then s.mustendwithoffsetlist[level]? else none) =
      none := by
    split
    · rename_i hend
      have hle : s.mustendwithoffsetlist.length ≤ level :=
        Nat.le_of_not_lt fun hlt => h ⟨hend, hlt⟩
      exact List.getElem?_eq_none hle
    · rfl
  rw [window]
  split
  · next offset hsome =>
    rw [hnone] at hsome
    cases hsome
  · exact Eq.refl _

theorem window_received (hrange : c.RangeSent) (m : PointerMap)
    (findAddress findAddress' : Option (UInt64 → Option UInt64)) (valuetofind : UInt64)
    {level : Nat} (hlevel : level < c.maxlevel.toInt.toNat) :
    window c.received.settings ⟨m, findAddress'⟩ valuetofind level =
      window c.settings ⟨m, findAddress⟩ valuetofind level := by
  by_cases hexact : c.mustEndWithSpecificOffset ∧ level < c.mustendwithoffsetlist.length
  · -- a given offset: the settings that are not sent are not used
    obtain ⟨hend, hlt⟩ := hexact
    simp only [window, settings, received, hend, if_true, List.getElem?_eq_getElem hlt]
  · obtain ⟨hheap, hnegative⟩ := hrange ⟨level, hlevel, hexact⟩
    rw [window_of_range _ _ hexact, window_of_range _ _ hexact]
    have hstop : (if c.negativeOffsets then valuetofind + c.sz.toInt64.toUInt64 else valuetofind) =
        valuetofind := by
      split
      · rename_i hneg
        rw [hnegative hneg]
        exact UInt64.add_zero valuetofind
      · rfl
    simp only [settings, received, hheap, hstop]
    cases findAddress <;> cases findAddress' <;> rfl

theorem sameSearch_received (hlimit : c.LimitFits) (hrange : c.RangeSent) (m : PointerMap)
    (findAddress findAddress' : Option (UInt64 → Option UInt64)) :
    SameSearch c.received.settings c.settings ⟨m, findAddress'⟩ ⟨m, findAddress⟩ where
  maxlevel := rfl
  noLoop := rfl
  onlyOneStaticInPath := rfl
  staticonly := rfl
  limit := rfl
  maxOffsets h := by
    obtain ⟨hge, hlt⟩ := hlimit h
    exact int32_of_word hge hlt
  pointerMap := rfl
  window valuetofind _ hlevel := window_received hrange m findAddress findAddress' valuetofind hlevel

theorem storesAlike_of_sent (hsend : c.Sendable) (hlimit : c.LimitFits) (hrange : c.RangeSent) :
    c.StoresAlike := by
  intro l child childid currentscanid rest
  obtain ⟨child', hchild', hreads⟩ := reads_newScan hsend child childid currentscanid
  refine ⟨child', hreads.whole rest, ?_⟩
  intro findAddress findAddress' entry startlevel a valuetofind
  have hsearch := sameSearch_received hlimit hrange
    (l.scanData c.loadedPointermap).pointerMap findAddress findAddress'
  rw [hchild', evaluate, evaluate, ScanWorker.evaluate, ScanWorker.evaluate,
    (sameLayout_received l).storePaths]
  exact congrArg (fun r => (c.addWorkerThread l).storePaths entry r.2)
    (hsearch.rscan startlevel a valuetofind)

end Controller

/-! ## A pointer map that shows the difference -/

/-- One static address with a pointer to `0x8000000000000000`, and a value 0 that no
    address holds. -/
def probe : PointerMap where
  maxlevel := 15
  lists := [⟨0x8000000000000000, [⟨0, some ⟨0, 0⟩⟩]⟩, ⟨0, []⟩]

namespace probe

theorem findPointerValue_top {startvalue : UInt64} (h : startvalue ≤ 0x8000000000000000) :
    probe.findPointerValue startvalue 0x8000000000000000 = probe.lists := by
  have hdescend : probe.descend 0x8000000000000000 (probe.maxlevel + 1) 0 = probe.lists := by
    decide
  have hlt : ¬ (0x8000000000000000 : UInt64) < startvalue := UInt64.not_lt.2 h
  rw [PointerMap.findPointerValue, hdescend]
  exact if_neg hlt

theorem findPointerValue_below (startvalue : UInt64) {stopvalue : UInt64}
    (hge : 7 * 16 ^ 15 ≤ stopvalue.toNat) (hlt : stopvalue < 0x8000000000000000) :
    probe.findPointerValue startvalue stopvalue = [] ∨
      probe.findPointerValue startvalue stopvalue = [⟨0, []⟩] := by
  have hlt' : stopvalue.toNat < 8 * 16 ^ 15 := UInt64.lt_iff_toNat_lt.1 hlt
  have hdigit : probe.entrynr 0 stopvalue = 7 := by
    simp only [PointerMap.entrynr, probe]
    omega
  have hshares : ∀ other, probe.SharesPath 1 other stopvalue ↔ probe.entrynr 0 other = 7 := by
    intro other
    rw [PointerMap.SharesPath, ← hdigit]
    constructor
    · exact fun h => h 0 Nat.zero_lt_one
    · intro h i hi
      have hi0 : i = 0 := by omega
      rw [hi0, h]
  have hany : ¬ (probe.lists.any fun l => probe.SharesPath 1 l.pointervalue stopvalue) = true := by
    simp only [hshares]
    decide
  have hshort : ∀ other, probe.SharesPath 0 other stopvalue := fun _ _ h => absurd h (Nat.not_lt_zero _)
  have habove : PointerMap.fromLast (fun l => probe.SharesPath 0 l.pointervalue stopvalue ∧
      probe.entrynr 0 stopvalue < probe.entrynr 0 l.pointervalue) probe.lists = probe.lists := by
    simp only [hshort, hdigit, true_and]
    decide
  have hdescend : probe.descend stopvalue (probe.maxlevel + 1) 0 = [⟨0, []⟩] := by
    rw [PointerMap.descend, if_neg hany, PointerMap.findClosestPointer, habove]
    simp [probe, PointerMap.notAbove, hlt]
  rw [PointerMap.findPointerValue, hdescend]
  dsimp only
  split
  · exact .inl rfl
  · exact .inr rfl

variable {s : Settings} {findAddress : Option (UInt64 → Option UInt64)} {a : Arrays}
  {valuetofind startvalue stopvalue : UInt64} {level : Nat}

/-- Nothing is stored when no list, or only the empty one, is found. -/
theorem rscan_below (h : ∀ startvalue stopvalue,
      window s ⟨probe, findAddress⟩ valuetofind level = some (startvalue, stopvalue) →
      7 * 16 ^ 15 ≤ stopvalue.toNat ∧ stopvalue < 0x8000000000000000) :
    (rscan s ⟨probe, findAddress⟩ level a valuetofind).2 = [] := by
  rw [rscan]
  cases s.maxlevel - level with
  | zero => rfl
  | succ fuel =>
    have hfound : ∀ f, (enter s ⟨probe, findAddress⟩ false a valuetofind level).2 = some f →
        f.entries = [] ∧ f.previous = [] := by
      intro f hf
      simp only [enter] at hf
      split at hf
      · cases hf
      split at hf
      · cases hf
      rename_i startvalue stopvalue hwindow
      obtain ⟨hge, hlt⟩ := h startvalue stopvalue hwindow
      split at hf
      · cases hf
      split at hf
      · cases hf
      rcases findPointerValue_below startvalue hge hlt with hlist | hlist
      · rw [hlist] at hf
        cases hf
      · rw [hlist] at hf
        cases hf
        exact ⟨rfl, rfl⟩
    rw [rscanFrom]
    generalize enter s ⟨probe, findAddress⟩ false a valuetofind level = entered at *
    obtain ⟨a₁, found⟩ := entered
    cases found with
    | none => rfl
    | some f =>
      obtain ⟨hentries, hprevious⟩ := hfound f rfl
      dsimp only
      rw [hprevious]
      unfold scanLists
      simp only [hentries, scanEntries]

theorem rscan_top (hlevel : level < s.maxlevel)
    (hwindow : window s ⟨probe, findAddress⟩ valuetofind level =
      some (startvalue, 0x8000000000000000)) (hle : startvalue ≤ 0x8000000000000000)
    (hfresh : ∀ i < level, a.valuelist i ≠ valuetofind) :
    ∃ tempresults calls, (rscan s ⟨probe, findAddress⟩ level a valuetofind).2 =
      ⟨level, 0, 0, tempresults⟩ :: calls := by
  have hloop : ¬ (s.noLoop ∧ ∃ i < level, a.valuelist i = valuetofind) :=
    fun ⟨_, i, hi, hvalue⟩ => hfresh i hi hvalue
  have hquit : ¬ (s.maxlevel ≤ level ∨ false = true) := by
    simp only [Bool.false_eq_true, or_false]
    omega
  obtain ⟨fuel, hfuel⟩ : ∃ fuel, s.maxlevel - level = fuel + 1 := ⟨s.maxlevel - level - 1, by omega⟩
  rw [rscan, hfuel, rscanFrom, enter, if_neg hquit, hwindow]
  simp only [if_neg hloop, if_neg (UInt64.not_lt.2 hle), findPointerValue_top hle]
  unfold scanLists
  simp only [probe, scanEntries]
  generalize nextList s _ _ = next
  obtain ⟨a₂, found⟩ := next
  cases found with
  | none => exact ⟨_, _, rfl⟩
  | some f => exact ⟨_, _, rfl⟩

end probe

namespace Controller

def probeLoader : Loader where
  scanData _ := ⟨probe, 1, false⟩
  rescanList _ _ := ⟨[], false, fun _ => none⟩

/-- The offsets of the elements that are tried. -/
def noArrays : Arrays := ⟨fun _ => 0, fun _ => 0⟩

variable {c : Controller} {findAddress : Option (UInt64 → Option UInt64)}
  {valuetofind startvalue : UInt64} {level : Nat}

theorem evaluate_below (h : ∀ startvalue stopvalue,
      window c.settings ⟨probe, findAddress⟩ valuetofind level = some (startvalue, stopvalue) →
      7 * 16 ^ 15 ≤ stopvalue.toNat ∧ stopvalue < 0x8000000000000000) :
    c.evaluate probeLoader findAddress (fun _ => 0) level noArrays valuetofind = [] := by
  have hcalls := probe.rscan_below (a := noArrays) h
  rw [evaluate, ScanWorker.evaluate]
  change ScanWorker.storePaths _ _
    (rscan c.settings ⟨probe, findAddress⟩ level noArrays valuetofind).2 = []
  rw [hcalls]
  rfl

theorem evaluate_top (hfiles : c.instantrescanfiles = [])
    (hlevel : level < c.maxlevel.toInt.toNat) (hlist : c.mustendwithoffsetlist.length ≤ level)
    (hwindow : window c.settings ⟨probe, findAddress⟩ valuetofind level =
      some (startvalue, 0x8000000000000000)) (hle : startvalue ≤ 0x8000000000000000)
    (hvalue : valuetofind ≠ 0) :
    c.evaluate probeLoader findAddress (fun _ => 0) level noArrays valuetofind ≠ [] := by
  obtain ⟨tempresults, calls, hcalls⟩ := probe.rscan_top (a := noArrays) hlevel hwindow hle
    fun _ _ => Ne.symm hvalue
  have hrescan : (c.addWorkerThread probeLoader).instantrescan = [] := by
    rw [addWorkerThread, hfiles]
    rfl
  have hpartial : ¬ ((c.addWorkerThread probeLoader).settings.mustEndWithSpecificOffsetMaxDeviation
      = 0 ∧ level + 1 < (c.addWorkerThread probeLoader).settings.mustendwithoffsetlist.length) := by
    have hsame : (c.addWorkerThread probeLoader).settings.mustendwithoffsetlist =
        c.mustendwithoffsetlist := rfl
    rw [hsame]
    omega
  rw [evaluate, ScanWorker.evaluate]
  change ScanWorker.storePaths _ _
    (rscan c.settings ⟨probe, findAddress⟩ level noArrays valuetofind).2 ≠ []
  rw [hcalls, ScanWorker.storePaths, ScanWorker.storePath, hrescan]
  intro hnil
  obtain ⟨hnil, -⟩ := List.append_eq_nil_iff.1 hnil
  simp only [doRescan, List.all_nil, not_true_eq_false, if_false] at hnil
  split at hnil
  · cases hnil
  · cases hnil

/-- The window never starts above its end. -/
theorem start_le_stop (startvalue stopvalue : UInt64) :
    (if stopvalue < startvalue then 0 else startvalue) ≤ stopvalue := by
  split
  · exact UInt64.zero_le
  · rename_i hlt
    exact UInt64.not_lt.1 hlt

/-- What is subtracted for a structure size. -/
theorem toNat_structsize (sz : Int32) :
    (sz.toInt64.toUInt64.toNat : Int) = if 0 ≤ sz.toInt then sz.toInt else sz.toInt + 2 ^ 64 := by
  have hint : sz.toInt64.toInt = sz.toInt := Int32.toInt_toInt64 sz
  have hcond := BitVec.toInt_eq_toNat_cond sz.toInt64.toBitVec
  have hnat : sz.toInt64.toBitVec.toNat = sz.toInt64.toUInt64.toNat := rfl
  have hdef : sz.toInt64.toBitVec.toInt = sz.toInt64.toInt := rfl
  rw [hdef, hint, hnat] at hcond
  split at hcond <;> split <;> omega

theorem differs_of_negative (hfiles : c.instantrescanfiles = [])
    (hlevel : level < c.maxlevel.toInt.toNat) (hle : c.mustendwithoffsetlist.length ≤ level)
    (hexact : ¬ (c.mustEndWithSpecificOffset ∧ level < c.mustendwithoffsetlist.length))
    (hneg : c.negativeOffsets = true) (hsz : c.sz ≠ 0) :
    ¬ ∀ valuetofind,
      c.received.evaluate probeLoader none (fun _ => 0) level noArrays valuetofind =
        c.evaluate probeLoader none (fun _ => 0) level noArrays valuetofind := by
  intro hsame
  have hsize := toNat_structsize c.sz
  have hlow := c.sz.le_toInt
  have hhigh := c.sz.toInt_lt
  have htopNat : (0x8000000000000000 : UInt64).toNat = 2 ^ 63 := rfl
  have hne : c.sz.toInt ≠ 0 := fun h => hsz (Int32.toInt_inj.1 h)
  have hother : ∀ valuetofind, window c.received.settings ⟨probe, none⟩ valuetofind level =
      some (if valuetofind < valuetofind - c.sz.toInt64.toUInt64 then 0
        else valuetofind - c.sz.toInt64.toUInt64, valuetofind) := by
    intro valuetofind
    rw [window_of_range _ _ hexact]
    rfl
  have hown : ∀ valuetofind, window c.settings ⟨probe, none⟩ valuetofind level =
      some (if valuetofind + c.sz.toInt64.toUInt64 < valuetofind - c.sz.toInt64.toUInt64 then 0
        else valuetofind - c.sz.toInt64.toUInt64, valuetofind + c.sz.toInt64.toUInt64) := by
    intro valuetofind
    rw [window_of_range _ _ hexact]
    simp only [settings, hneg, if_true]
  generalize c.sz.toInt64.toUInt64 = structsize at *
  by_cases hpos : 0 ≤ c.sz.toInt
  · -- the initializer looks up to the value, the child stops below it
    rw [if_pos hpos] at hsize
    have hvalue : (0x8000000000000000 - structsize).toNat = 2 ^ 63 - structsize.toNat := by
      have hsub : structsize ≤ 0x8000000000000000 := by
        rw [UInt64.le_iff_toNat_le, htopNat]
        omega
      rw [UInt64.toNat_sub_of_le _ _ hsub, htopNat]
    have htop : c.evaluate probeLoader none (fun _ => 0) level noArrays
        (0x8000000000000000 - structsize) ≠ [] := by
      have hwindow := hown (0x8000000000000000 - structsize)
      rw [UInt64.sub_add_cancel] at hwindow
      apply evaluate_top hfiles hlevel hle hwindow (start_le_stop _ _)
      intro hzero
      rw [hzero] at hvalue
      have hnat : (0 : UInt64).toNat = 0 := rfl
      omega
    have hbelow : c.received.evaluate probeLoader none (fun _ => 0) level noArrays
        (0x8000000000000000 - structsize) = [] := by
      apply evaluate_below
      intro startvalue stopvalue hwindow
      rw [hother] at hwindow
      obtain ⟨-, hstop⟩ := Prod.mk.inj (Option.some.inj hwindow)
      rw [← hstop, UInt64.lt_iff_toNat_lt, hvalue, htopNat]
      omega
    exact htop ((hsame _).symm.trans hbelow)
  · -- a negative size: the initializer stops below
    rw [if_neg hpos] at hsize
    have hvalue : (0x8000000000000000 + structsize).toNat = structsize.toNat - 2 ^ 63 := by
      rw [UInt64.toNat_add, htopNat]
      omega
    have htop : c.received.evaluate probeLoader none (fun _ => 0) level noArrays
        0x8000000000000000 ≠ [] :=
      evaluate_top (c := c.received) hfiles hlevel hle (hother _) (start_le_stop _ _) (by decide)
    have hbelow : c.evaluate probeLoader none (fun _ => 0) level noArrays
        0x8000000000000000 = [] := by
      apply evaluate_below
      intro startvalue stopvalue hwindow
      rw [hown] at hwindow
      obtain ⟨-, hstop⟩ := Prod.mk.inj (Option.some.inj hwindow)
      rw [← hstop, UInt64.lt_iff_toNat_lt, hvalue, htopNat]
      omega
    exact htop ((hsame _).trans hbelow)

/-- A level that is searched by range tells the two nodes apart, on the heap or
    above the value. -/
theorem rangeSent_of_storesAlike (hsend : c.Sendable) (hfiles : c.instantrescanfiles = [])
    (hlist : c.mustEndWithSpecificOffset = false → c.mustendwithoffsetlist = [])
    (h : c.StoresAlike) : c.RangeSent := by
  rintro ⟨level, hlevel, hexact⟩
  have hle : c.mustendwithoffsetlist.length ≤ level := by
    cases hend : c.mustEndWithSpecificOffset with
    | false => simp [hlist hend]
    | true => exact Nat.le_of_not_lt fun hlt => hexact ⟨hend, hlt⟩
  have hsame : ∀ findAddress findAddress' valuetofind,
      c.received.evaluate probeLoader findAddress' (fun _ => 0) level noArrays valuetofind =
        c.evaluate probeLoader findAddress (fun _ => 0) level noArrays valuetofind := by
    intro findAddress findAddress' valuetofind
    obtain ⟨child', hread, hstores⟩ := h probeLoader ⟨c.received, rfl, rfl⟩ 0 0 []
    obtain ⟨child'', hchild, hreads⟩ := reads_newScan hsend ⟨c.received, rfl, rfl⟩ 0 0
    have hboth := hread.symm.trans (hreads.whole [])
    cases hboth
    rw [← hchild]
    exact hstores ..
  by_contra hsent
  by_cases hheap : c.useHeapData = true
  · -- the initializer finds no heap block, the child does not look for one
    have hbelow : c.evaluate probeLoader (some fun _ => none) (fun _ => 0) level noArrays
        0x8000000000000000 = [] := by
      apply evaluate_below
      rw [window_of_range _ _ hexact]
      simp [settings, hheap]
    have htop : c.received.evaluate probeLoader none (fun _ => 0) level noArrays
        0x8000000000000000 ≠ [] := by
      apply evaluate_top (c := c.received) hfiles hlevel hle
      · rw [window_of_range _ _ hexact]
        rfl
      · exact start_le_stop _ _
      · decide
    exact htop ((hsame _ _ _).trans hbelow)
  · have hheap' : c.useHeapData = false := by simpa using hheap
    obtain ⟨hneg, hsz⟩ : c.negativeOffsets = true ∧ c.sz ≠ 0 := by
      by_contra hcon
      exact hsent ⟨hheap', fun hneg => by_contra fun hsz => hcon ⟨hneg, hsz⟩⟩
    exact absurd (hsame none none) (differs_of_negative hfiles hlevel hle hexact hneg hsz)

/-- A child stores what the initializer would store when the lists, the files and
    the limit of offsets fit into their numbers, and no level is searched by range on
    the heap or with negative offsets.  As long as they fit, and there is no other
    pointer map that could reject every path, no other scan has this. -/
theorem newScan_storesAlike (c : Controller) :
    (c.Sendable → c.LimitFits → c.RangeSent → c.StoresAlike) ∧
      (c.Sendable → c.instantrescanfiles = [] →
        (c.mustEndWithSpecificOffset = false → c.mustendwithoffsetlist = []) →
        c.StoresAlike → c.RangeSent) :=
  ⟨storesAlike_of_sent, rangeSent_of_storesAlike⟩

/-- A scan of aligned, static paths with four offsets of less than 4096. -/
def defaultScan : Controller where
  maxlevel := 4
  sz := 4095
  compressedptr := true
  staticonly := true
  noLoop := true
  limitToMaxOffsetsPerNode := true
  unalligned := false
  maxOffsetsPerNode := 3
  mustStartWithBase := false
  baseStart := 0
  baseStop := 0
  onlyOneStaticInPath := false
  mustEndWithSpecificOffset := false
  mustEndWithSpecificOffsetMaxDeviation := 0
  mustendwithoffsetlist := []
  negativeOffsets := false
  useHeapData := false
  loadedPointermap := [0xce]
  instantrescanfiles := []

theorem sendable_defaultScan : defaultScan.Sendable :=
  ⟨by decide, by decide, by decide⟩

/-- This scan is evaluated alike on a child. -/
theorem newScan_storesAlike_default :
    defaultScan.StoresAlike ∧ defaultScan.RangeSent := by
  have halike : defaultScan.StoresAlike :=
    (newScan_storesAlike defaultScan).1 sendable_defaultScan
      (fun _ => by decide) fun _ => ⟨rfl, nofun⟩
  exact ⟨halike, (newScan_storesAlike defaultScan).2 sendable_defaultScan rfl (fun _ => rfl) halike⟩

/-- The same scan with negative offsets, which are not packed. -/
theorem not_storesAlike_negative :
    ¬ { defaultScan with negativeOffsets := true, compressedptr := false }.StoresAlike := by
  intro h
  have hsend : { defaultScan with negativeOffsets := true, compressedptr := false }.Sendable :=
    ⟨by decide, by decide, by decide⟩
  have hrange := rangeSent_of_storesAlike hsend rfl (fun _ => rfl) h ⟨0, by decide, nofun⟩
  exact absurd (hrange.2 rfl) (by decide)

end Controller

end CheatEngine.PointerScan
