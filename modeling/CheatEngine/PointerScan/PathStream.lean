/-
  CheatEngine.PointerScan.PathStream

  Elements of the queue on a connection (pointerscancontroller.pas).  Both sides
  know `maxlevel` and `noLoop`, so that an element has a fixed size.

  Main result: what is received are the elements that were sent, with their level,
  value, offsets and values, and nothing is received of a part of them.
-/
import CheatEngine.Lib.Stream
import CheatEngine.PointerScan.Workers

namespace CheatEngine.PointerScan

open CheatEngine.Lib

/-- What an element holds: `maxlevel + 1` offsets, and with `noLoop` as many
    values. -/
structure PathData where
  startlevel : UInt32
  valuetofind : UInt64
  tempresults : List UInt32
  valuelist : List UInt64
  deriving DecidableEq, Repr

def PathQueueElement.data (s : Settings) (e : PathQueueElement) : PathData where
  startlevel := UInt32.ofNat e.startlevel
  valuetofind := e.valuetofind
  tempresults := (List.range (s.maxlevel + 1)).map e.arrays.tempresults
  valuelist := if s.noLoop then (List.range (s.maxlevel + 1)).map e.arrays.valuelist else []

/-- The element with this content. -/
def PathData.element (d : PathData) : PathQueueElement where
  startlevel := d.startlevel.toNat
  valuetofind := d.valuetofind
  arrays := ⟨fun i => d.tempresults.getD i 0, fun i => d.valuelist.getD i 0⟩

def writePathQueueElementToStream (s : Settings) (e : PathQueueElement) : List UInt8 :=
  u32 (UInt32.ofNat e.startlevel) ++ u64 e.valuetofind ++
    ((List.range (s.maxlevel + 1)).map e.arrays.tempresults).flatMap u32 ++
    (if s.noLoop then (List.range (s.maxlevel + 1)).map e.arrays.valuelist else []).flatMap u64

def loadPathQueueElementFromStream (s : Settings) : Reader PathData := do
  let startlevel ← Reader.dword
  let valuetofind ← Reader.qword
  let tempresults ← Reader.many Reader.dword (s.maxlevel + 1)
  let valuelist ← Reader.many Reader.qword (if s.noLoop then s.maxlevel + 1 else 0)
  pure ⟨startlevel, valuetofind, tempresults, valuelist⟩

def getPathQueueElementSize (s : Settings) : Nat :=
  if s.noLoop then 4 + 8 + 4 * (s.maxlevel + 1) + 8 * (s.maxlevel + 1)
  else 4 + 8 + 4 * (s.maxlevel + 1)

/-- The number of paths and the paths, as they are sent. -/
def writePaths (s : Settings) (paths : List PathQueueElement) : List UInt8 :=
  u32 (UInt32.ofNat paths.length) ++ paths.flatMap (writePathQueueElementToStream s)

/-- A message with paths is received: all bytes at once, and then the elements. -/
def readPaths (s : Settings) : Reader (List PathData) := do
  let count ← Reader.dword
  if 65536 < count then failure
  else
    let buf ← Reader.bytes (getPathQueueElementSize s * count.toNat)
    match Reader.many (loadPathQueueElementFromStream s) count.toNat buf with
    | some (paths, _) => pure paths
    | none => failure

variable {s : Settings}

theorem flatMap_u32_length (vs : List UInt32) : (vs.flatMap u32).length = 4 * vs.length := by
  induction vs with
  | nil => rfl
  | cons v vs ih =>
    rw [List.flatMap_cons, List.length_append, u32_length, ih, List.length_cons]
    omega

theorem flatMap_u64_length (vs : List UInt64) : (vs.flatMap u64).length = 8 * vs.length := by
  induction vs with
  | nil => rfl
  | cons v vs ih =>
    rw [List.flatMap_cons, List.length_append, u64_length, ih, List.length_cons]
    omega

@[simp] theorem writePathQueueElementToStream_length (e : PathQueueElement) :
    (writePathQueueElementToStream s e).length = getPathQueueElementSize s := by
  unfold writePathQueueElementToStream getPathQueueElementSize
  simp only [List.length_append, u32_length, u64_length, flatMap_u32_length, flatMap_u64_length,
    List.length_map, List.length_range]
  cases s.noLoop <;> simp

theorem writePaths_elements_length (paths : List PathQueueElement) :
    (paths.flatMap (writePathQueueElementToStream s)).length =
      getPathQueueElementSize s * paths.length := by
  induction paths with
  | nil => rfl
  | cons e paths ih =>
    rw [List.flatMap_cons, List.length_append, writePathQueueElementToStream_length, ih,
      List.length_cons, Nat.mul_succ, Nat.add_comm]

theorem reads_element (e : PathQueueElement) :
    Reader.Reads (loadPathQueueElementFromStream s) (writePathQueueElementToStream s e)
      (e.data s) := by
  have htempresults := Reader.Reads.many id Reader.Reads.dword
    ((List.range (s.maxlevel + 1)).map e.arrays.tempresults)
  have hvaluelist := Reader.Reads.many id Reader.Reads.qword
    (if s.noLoop then (List.range (s.maxlevel + 1)).map e.arrays.valuelist else [])
  have hcount : (if s.noLoop then (List.range (s.maxlevel + 1)).map e.arrays.valuelist
      else []).length = if s.noLoop then s.maxlevel + 1 else 0 := by
    cases s.noLoop <;> simp
  rw [List.map_id, List.length_map, List.length_range] at htempresults
  rw [List.map_id, hcount] at hvaluelist
  unfold writePathQueueElementToStream
  rw [List.append_assoc, List.append_assoc]
  apply (Reader.Reads.dword _).bind
  apply (Reader.Reads.qword _).bind
  apply htempresults.bind
  exact hvaluelist.bind_pure

theorem reads_paths {paths : List PathQueueElement} (hcount : paths.length ≤ 65536) :
    Reader.Reads (readPaths s) (writePaths s paths) (paths.map (PathQueueElement.data s)) := by
  have hlength : (UInt32.ofNat paths.length).toNat = paths.length :=
    UInt32.toNat_ofNat_of_lt' (Nat.lt_of_le_of_lt hcount (by decide))
  have hle : ¬ 65536 < UInt32.ofNat paths.length := by
    rw [UInt32.lt_iff_toNat_lt, hlength]
    exact Nat.not_lt.2 hcount
  have hload := (Reader.Reads.many (PathQueueElement.data s) reads_element paths).whole []
  have hbytes := Reader.Reads.bytes (paths.flatMap (writePathQueueElementToStream s))
  rw [List.append_nil] at hload
  rw [writePaths_elements_length] at hbytes
  apply (Reader.Reads.dword _).bind
  rw [if_neg hle, hlength, ← List.append_nil (paths.flatMap (writePathQueueElementToStream s))]
  apply hbytes.bind
  rw [hload]
  exact Reader.Reads.pure _

/-- Nothing is changed by the way through the stream. -/
theorem data_element (e : PathQueueElement) : ((e.data s).element).data s = e.data s := by
  have hget : ∀ {α : Type} (f : Nat → α) (d : α) (n : Nat),
      (List.range n).map (fun i => ((List.range n).map f).getD i d) = (List.range n).map f := by
    intro α f d n
    apply List.map_congr_left
    intro i hi
    rw [List.getD_eq_getElem?_getD, List.getElem?_map, List.getElem?_range (List.mem_range.1 hi)]
    rfl
  unfold PathQueueElement.data PathData.element
  simp only [UInt32.ofNat_toNat, hget]
  cases s.noLoop with
  | false => rfl
  | true => simp only [if_true, hget]

end CheatEngine.PointerScan
