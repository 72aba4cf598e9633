/-
  CheatEngine.Ceserver.CompressedRead

  `CMD_READPROCESSMEMORY` with a compression level.  The bytes that were read are
  deflated into blocks of 64 KiB: one loop feeds the input, a second one finishes
  the stream, and both append a block whenever the last one is full.  The list of
  the blocks doubles when it is full itself.

  zlib is a parameter.  How much a call of `deflate` takes and writes is left
  open; what is assumed is that it makes progress where it has room, that it ends
  when everything was written, and what becomes of the whole stream.
-/
import CheatEngine.Lib.Loop
import CheatEngine.Ceserver.Dispatch

namespace CheatEngine.Ceserver

open CheatEngine.Lib

/-- `Z_OK`, `Z_STREAM_END` and the error codes. -/
inductive DeflateCode
  | ok
  | streamEnd
  | error

/-- What one call of `deflate` did. -/
structure DeflateStep (State : Type) where
  code : DeflateCode
  strm : State
  /-- How much of `next_in` was taken. -/
  consumed : Nat
  /-- What was stored at `next_out`. -/
  output : List UInt8

/-- `deflateInit` for each level and `deflate`, which is told whether to finish, the
    input and the room for output. -/
structure Deflater where
  State : Type
  deflateInit : UInt8 → State
  deflate : State → (finish : Bool) → (input : List UInt8) → (room : Nat) → DeflateStep State

namespace Deflater

variable (z : Deflater) (level : UInt8) (input : List UInt8)

/-- A stream under way: whether it is being finished, the input that is left and the
    output so far. -/
inductive Fed : Bool → z.State → List UInt8 → List UInt8 → Prop
  | init : Fed false (z.deflateInit level) input []
  | feed {s : z.State} {rest output : List UInt8} {room : Nat} : Fed false s rest output →
      rest ≠ [] → 0 < room → (z.deflate s false rest room).code = .ok →
        Fed false (z.deflate s false rest room).strm (rest.drop (z.deflate s false rest room).consumed)
          (output ++ (z.deflate s false rest room).output)
  | finish {f : Bool} {s : z.State} {rest output : List UInt8} {room : Nat} : Fed f s rest output →
      0 < room → (z.deflate s true rest room).code = .ok →
        Fed true (z.deflate s true rest room).strm (rest.drop (z.deflate s true rest room).consumed)
          (output ++ (z.deflate s true rest room).output)

def Writes (output : List UInt8) : Prop :=
  ∃ f s rest written room, z.Fed level input f s rest written ∧ 0 < room ∧
    (z.deflate s true rest room).code = .streamEnd ∧
      output = written ++ (z.deflate s true rest room).output

/-- What is relied on for the level and the input. -/
structure Deflates (inflate : List UInt8 → Option (List UInt8)) : Prop where
  /-- A call stays within what it is given. -/
  fits : ∀ s finish rest room, (z.deflate s finish rest room).consumed ≤ rest.length ∧
    (z.deflate s finish rest room).output.length ≤ room
  feeds : ∀ {s rest output room}, z.Fed level input false s rest output → rest ≠ [] → 0 < room →
    (z.deflate s false rest room).code = .ok ∧
      0 < (z.deflate s false rest room).consumed + (z.deflate s false rest room).output.length
  /-- With room a call that finishes ends the stream or makes progress. -/
  finishes : ∀ {f s rest output room}, z.Fed level input f s rest output → 0 < room →
    (z.deflate s true rest room).code = .streamEnd ∨
      (z.deflate s true rest room).code = .ok ∧
        0 < (z.deflate s true rest room).consumed + (z.deflate s true rest room).output.length
  /-- The output stays below 4 GiB (`deflateBound`). -/
  bounded : ∀ {f s rest output}, z.Fed level input f s rest output → output.length < 2 ^ 32
  bounded_writes : ∀ {output}, z.Writes level input output → output.length < 2 ^ 32
  inflates : ∀ {output}, z.Writes level input output → inflate output = some input

end Deflater

def compressBlocksize : Nat := 64 * 1024

/-- The `z_stream` and the list of blocks. -/
structure Compression (z : Deflater) where
  strm : z.State
  nextIn : List UInt8
  availOut : Nat
  totalOut : Nat
  /-- `compressedBlocks` below `currentBlock`. -/
  filled : List (List UInt8)
  block : List UInt8
  maxBlocks : Nat

abbrev FreshBlocks : Type := Nat → { block : List UInt8 // block.length = compressBlocksize }

namespace Compression

variable {z : Deflater} (fresh : FreshBlocks)

def currentBlock (s : Compression z) : Nat := s.filled.length

/-- The state before the first loop. -/
def start (z : Deflater) (level : UInt8) (size : UInt32) (uncompressed : List UInt8) :
    Compression z where
  strm := z.deflateInit level
  nextIn := uncompressed
  availOut := compressBlocksize
  totalOut := 0
  filled := []
  block := (fresh 0).val
  maxBlocks := 1 + size.toNat / compressBlocksize

/-- `deflate(&strm, flush)`; `next_out` is behind what the block holds already. -/
def deflate (finish : Bool) (s : Compression z) : DeflateCode × Compression z :=
  let r := z.deflate s.strm finish s.nextIn s.availOut
  let used := compressBlocksize - s.availOut
  (r.code,
    { s with
      strm := r.strm
      nextIn := s.nextIn.drop r.consumed
      availOut := s.availOut - r.output.length
      totalOut := s.totalOut + r.output.length
      block := s.block.take used ++ r.output ++ s.block.drop (used + r.output.length) })

/-- A new output block; `none` where its place is outside the list. -/
def newBlock (s : Compression z) : Option (Compression z) :=
  let current := s.currentBlock + 1
  let maxBlocks := if s.maxBlocks ≤ current then s.maxBlocks * 2 else s.maxBlocks
  if current < maxBlocks then
    some { s with
      filled := s.filled ++ [s.block]
      block := (fresh current).val
      availOut := compressBlocksize
      maxBlocks := maxBlocks }
  else none

/-- The end of a turn of both loops: a block that is full is followed by a new one. -/
def turnEnd (s : Compression z) : Compression z ⊕ Option (Compression z) :=
  if s.availOut = 0 then
    match newBlock fresh s with
    | some s' => .inl s'
    | none => .inr none
  else .inl s

def feedTurn (s : Compression z) : Compression z ⊕ Option (Compression z) :=
  if s.nextIn = [] then .inr (some s)
  else
    match deflate false s with
    | (.ok, s') => turnEnd fresh s'
    | (_, s') => .inr (some s')

def finishTurn (s : Compression z) : Compression z ⊕ Option (Compression z) :=
  match deflate true s with
  | (.ok, s') => turnEnd fresh s'
  | (_, s') => .inr (some s')

/-- Both loops were left without a store outside the list. -/
def Compresses (s result : Compression z) : Prop :=
  ∃ fed, LeavesWith (feedTurn fresh) s (some fed) ∧ LeavesWith (finishTurn fresh) fed (some result)

/-- What is sent: both sizes, the full blocks and what the last one holds. -/
def sent (uncompressedSize : UInt32) (s : Compression z) : List UInt8 :=
  u32 uncompressedSize ++ u32 (UInt32.ofNat s.totalOut) ++
    (s.filled.map (·.take compressBlocksize)).flatten ++
      s.block.take (compressBlocksize - s.availOut)

/-! ## The invariant of both loops -/

def written (s : Compression z) : List UInt8 :=
  s.filled.flatten ++ s.block.take (compressBlocksize - s.availOut)

/-- The blocks hold what the stream has written, and the list has room for them. -/
structure BlockInv (s : Compression z) (output : List UInt8) : Prop where
  holds : s.written = output
  total : s.totalOut = output.length
  size : s.block.length = compressBlocksize
  sizes : ∀ block ∈ s.filled, block.length = compressBlocksize
  avail : s.availOut ≤ compressBlocksize
  fits : s.currentBlock < s.maxBlocks

section Blocks

variable {s : Compression z} {output : List UInt8}

theorem blockInv_start (z : Deflater) (level : UInt8) (size : UInt32) (uncompressed : List UInt8) :
    BlockInv (start fresh z level size uncompressed) [] where
  holds := by simp [written, start]
  total := rfl
  size := (fresh 0).property
  sizes := by simp [start]
  avail := Nat.le_refl _
  fits := by
    show 0 < 1 + size.toNat / compressBlocksize
    exact Nat.lt_of_lt_of_le Nat.one_pos (Nat.le_add_right ..)

theorem BlockInv.deflate (h : BlockInv s output) (finish : Bool)
    (hfits : (z.deflate s.strm finish s.nextIn s.availOut).output.length ≤ s.availOut) :
    BlockInv (s.deflate finish).2
      (output ++ (z.deflate s.strm finish s.nextIn s.availOut).output) := by
  have havail := h.avail
  have hsize := h.size
  have hheld := h.holds
  simp only [Compression.deflate]
  generalize z.deflate s.strm finish s.nextIn s.availOut = r at hfits
  have hused : (s.block.take (compressBlocksize - s.availOut)).length =
      compressBlocksize - s.availOut := List.length_take_of_le (by omega)
  have hnext : compressBlocksize - (s.availOut - r.output.length) =
      (s.block.take (compressBlocksize - s.availOut) ++ r.output).length := by
    rw [List.length_append, hused]
    omega
  refine ⟨?_, ?_, ?_, h.sizes, ?_, h.fits⟩
  · rw [written] at hheld ⊢
    show s.filled.flatten ++ List.take _ (_ ++ _ ++ _) = _
    rw [hnext, List.take_left, ← List.append_assoc, hheld]
  · show s.totalOut + r.output.length = _
    rw [h.total, List.length_append]
  · show List.length (_ ++ _ ++ _ : List UInt8) = _
    rw [List.length_append, ← hnext, List.length_drop]
    omega
  · show s.availOut - r.output.length ≤ compressBlocksize
    omega

theorem BlockInv.newBlock (h : BlockInv s output) (hfull : s.availOut = 0) :
    ∃ s', s.newBlock fresh = some s' ∧ BlockInv s' output ∧ s'.availOut = compressBlocksize ∧
      s'.strm = s.strm ∧ s'.nextIn = s.nextIn ∧ s'.totalOut = s.totalOut := by
  have hfits := h.fits
  -- the list is doubled before its last place is passed
  have hroom : s.currentBlock + 1 <
      if s.maxBlocks ≤ s.currentBlock + 1 then s.maxBlocks * 2 else s.maxBlocks := by
    split <;> omega
  refine ⟨_, if_pos hroom, ?_, rfl, rfl, rfl, rfl⟩
  refine ⟨?_, h.total, (fresh _).property, ?_, Nat.le_refl _, ?_⟩
  · have hheld := h.holds
    rw [written, hfull, Nat.sub_zero, List.take_of_length_le (Nat.le_of_eq h.size)] at hheld
    show (s.filled ++ [s.block]).flatten ++ List.take _ _ = _
    rw [Nat.sub_self, List.take_zero, List.append_nil, List.flatten_append, List.flatten_singleton,
      hheld]
  · intro block hblock
    rcases List.mem_append.1 hblock with hblock | hblock
    · exact h.sizes block hblock
    · rw [List.mem_singleton.1 hblock]
      exact h.size
  · show (s.filled ++ [s.block]).length < _
    rw [List.length_append]
    exact hroom

theorem BlockInv.sent_eq (h : BlockInv s output) (uncompressedSize : UInt32) :
    sent uncompressedSize s = u32 uncompressedSize ++ u32 (UInt32.ofNat output.length) ++ output := by
  have hfull : s.filled.map (·.take compressBlocksize) = s.filled := by
    have hblock : ∀ block ∈ s.filled, block.take compressBlocksize = id block := fun block hmem =>
      List.take_of_length_le (Nat.le_of_eq (h.sizes block hmem))
    rw [List.map_congr_left hblock, List.map_id]
  rw [sent, hfull, h.total, List.append_assoc, ← written, h.holds]

theorem BlockInv.turnEnd (h : BlockInv s output) :
    ∃ s', s.turnEnd fresh = .inl s' ∧ BlockInv s' output ∧ 0 < s'.availOut ∧
      s'.strm = s.strm ∧ s'.nextIn = s.nextIn ∧ s'.totalOut = s.totalOut := by
  rw [Compression.turnEnd]
  by_cases hfull : s.availOut = 0
  · obtain ⟨s', hnew, hinv, hroom, hkept⟩ := h.newBlock fresh hfull
    rw [if_pos hfull, hnew]
    have hpos : 0 < s'.availOut := by
      rw [hroom]
      exact Nat.lt_of_sub_eq_succ rfl
    exact ⟨s', rfl, hinv, hpos, hkept⟩
  · rw [if_neg hfull]
    exact ⟨s, rfl, h, Nat.pos_of_ne_zero hfull, rfl, rfl, rfl⟩

end Blocks

/-! ## The two loops -/

section Loops

variable {level : UInt8} {input : List UInt8} {inflate : List UInt8 → Option (List UInt8)}
  {s : Compression z}

/-- Between two calls: where the stream is, and room for the next call. -/
def StreamInv (level : UInt8) (input : List UInt8) (finishing : Bool) (s : Compression z) : Prop :=
  ∃ output, z.Fed level input finishing s.strm s.nextIn output ∧ BlockInv s output ∧ 0 < s.availOut

/-- The input that is left and the output that may still come. -/
def measure (s : Compression z) : Nat := s.nextIn.length + (2 ^ 32 - s.totalOut)

theorem goesOn (hz : z.Deflates level input inflate) {finish f : Bool} {output : List UInt8}
    (h : BlockInv s output)
    (hfed : z.Fed level input f (z.deflate s.strm finish s.nextIn s.availOut).strm
      (s.nextIn.drop (z.deflate s.strm finish s.nextIn s.availOut).consumed)
      (output ++ (z.deflate s.strm finish s.nextIn s.availOut).output))
    (hprogress : 0 < (z.deflate s.strm finish s.nextIn s.availOut).consumed +
      (z.deflate s.strm finish s.nextIn s.availOut).output.length) :
    ∃ s', (s.deflate finish).2.turnEnd fresh = .inl s' ∧ StreamInv level input f s' ∧
      s'.measure < s.measure := by
  have hfits := hz.fits s.strm finish s.nextIn s.availOut
  obtain ⟨s', hturn, hinv, hroom, hstrm, hnext, htotal⟩ := (h.deflate finish hfits.2).turnEnd fresh
  refine ⟨s', hturn, ⟨_, ?_, hinv, hroom⟩, ?_⟩
  · rw [hstrm, hnext]
    exact hfed
  · have hbound := hz.bounded hfed
    have hold := h.total
    have hleft : s'.nextIn.length = s.nextIn.length -
        (z.deflate s.strm finish s.nextIn s.availOut).consumed := by
      rw [hnext]
      exact List.length_drop
    have hnew : s'.totalOut = s.totalOut +
        (z.deflate s.strm finish s.nextIn s.availOut).output.length := htotal
    rw [List.length_append] at hbound
    rw [measure, measure, hleft, hnew]
    omega

theorem feed_leaves (hz : z.Deflates level input inflate) (h : StreamInv level input false s) :
    ∃ fed, LeavesWith (feedTurn fresh) s (some fed) ∧ StreamInv level input false fed := by
  have hloop : ∃ r, LeavesWith (feedTurn fresh) s r ∧
      ∃ fed, r = some fed ∧ StreamInv level input false fed := by
    refine leaves_of_measure measure (fun s hs => ?_) h
    obtain ⟨output, hfed, hinv, hroom⟩ := hs
    by_cases hempty : s.nextIn = []
    · exact .inr ⟨some s, if_pos hempty, s, rfl, output, hfed, hinv, hroom⟩
    · obtain ⟨hcode, hprogress⟩ := hz.feeds hfed hempty hroom
      obtain ⟨s', hturn, hs', hless⟩ := goesOn fresh hz hinv (hfed.feed hempty hroom hcode)
        hprogress
      refine .inl ⟨s', ?_, hs', hless⟩
      have hcall : s.deflate false = (.ok, (s.deflate false).2) := by rw [← hcode]; rfl
      rw [feedTurn, if_neg hempty, hcall]
      exact hturn
  obtain ⟨r, hleave, fed, rfl, hfed⟩ := hloop
  exact ⟨fed, hleave, hfed⟩

theorem finish_leaves (hz : z.Deflates level input inflate) {f : Bool} (h : StreamInv level input f s) :
    ∃ result output, LeavesWith (finishTurn fresh) s (some result) ∧ BlockInv result output ∧
      z.Writes level input output := by
  have hloop : ∃ r, LeavesWith (finishTurn fresh) s r ∧
      ∃ result output, r = some result ∧ BlockInv result output ∧ z.Writes level input output := by
    refine leaves_of_measure (I := fun s => ∃ f, StreamInv level input f s) measure
      (fun s hs => ?_) ⟨f, h⟩
    obtain ⟨f, output, hfed, hinv, hroom⟩ := hs
    rcases hz.finishes hfed hroom with hend | ⟨hcode, hprogress⟩
    · have hcall : s.deflate true = (.streamEnd, (s.deflate true).2) := by rw [← hend]; rfl
      refine .inr ⟨some (s.deflate true).2, by rw [finishTurn, hcall], _, _, rfl,
        hinv.deflate true (hz.fits _ _ _ _).2, ?_⟩
      exact ⟨f, s.strm, s.nextIn, output, s.availOut, hfed, hroom, hend, rfl⟩
    · obtain ⟨s', hturn, hs', hless⟩ := goesOn fresh hz hinv (hfed.finish hroom hcode)
        hprogress
      refine .inl ⟨s', ?_, ⟨true, hs'⟩, hless⟩
      have hcall : s.deflate true = (.ok, (s.deflate true).2) := by rw [← hcode]; rfl
      rw [finishTurn, hcall]
      exact hturn
  obtain ⟨r, hleave, result, output, rfl, hresult⟩ := hloop
  exact ⟨result, output, hleave, hresult⟩

end Loops

end Compression

/-- For every read, the loops end, inside the list of blocks, with the whole output of
    the stream; both sizes and this output are sent, whatever the blocks held
    before, and the handler replies with the same bytes. -/
theorem compressedRead (z : Deflater) (compress : UInt8) (hcompress : compress ≠ 0)
    (inflate : List UInt8 → Option (List UInt8)) (size : UInt32) (data : List UInt8)
    (hfits : data.length ≤ size.toInt32.toInt.toNat) (hz : z.Deflates compress data inflate)
    (fresh : FreshBlocks) :
    ∃ (s : Compression z) (output : List UInt8),
      Compression.Compresses fresh (Compression.start fresh z compress size data) s ∧
      z.Writes compress data output ∧ inflate output = some data ∧
      (UInt32.ofNat output.length).toNat = output.length ∧
      s.sent (UInt32.ofNat data.length) =
        u32 (UInt32.ofNat data.length) ++ u32 (UInt32.ofNat output.length) ++ output ∧
      ∀ (σ : Type) (o : Outcomes σ) (b : Build) (handle : UInt32) (address : UInt64) (a : σ)
          (log : List (Prog.Event CeApi)),
        (o (.readProcessMemory handle (b.pointer address) size.toInt32) a).1 = .stored data hfits →
        (o (.deflate compress data)
          (o (.readProcessMemory handle (b.pointer address) size.toInt32) a).2).1.val = output →
          ∃ a' log', drive o.env (onReadProcessMemory b handle address size compress).run
              ⟨[], [], a, log⟩ =
            (pure (some ()), ⟨[], s.sent (UInt32.ofNat data.length), a', log'⟩) := by
  have hstart : Compression.StreamInv compress data false (Compression.start fresh z compress size data) :=
    ⟨[], .init, Compression.blockInv_start fresh z compress size data, Nat.lt_of_sub_eq_succ rfl⟩
  obtain ⟨fed, hfeed, hfed⟩ := Compression.feed_leaves fresh hz hstart
  obtain ⟨s, output, hfinish, hinv, hwrites⟩ := Compression.finish_leaves fresh hz hfed
  refine ⟨s, output, ⟨fed, hfeed, hfinish⟩, hwrites, hz.inflates hwrites, ?_, hinv.sent_eq _, ?_⟩
  · rw [UInt32.toNat_ofNat']
    exact Nat.mod_eq_of_lt (hz.bounded_writes hwrites)
  · intro σ o b handle address a log hread hdeflate
    rw [hinv.sent_eq, onReadProcessMemory, drive_outcome, hread, if_pos hcompress, drive_outcome]
    rw [← hdeflate]
    exact ⟨_, _, rfl⟩

/-! ## One stream -/

def threeStream : List UInt8 := [120, 156, 99, 100, 98, 6, 0, 0, 13, 0, 7]

/-- zlib on these bytes: the input is taken at once, the header is written first and
    the rest when the stream is finished. -/
abbrev threeBytes : Deflater where
  State := Nat
  deflateInit _ := 0
  deflate written finish input room :=
    let ready := if finish then threeStream else threeStream.take 2
    let output := (ready.drop written).take room
    ⟨if finish ∧ threeStream.length ≤ written + output.length then .streamEnd else .ok,
      written + output.length, input.length, output⟩

theorem take_append_ready (stream : List UInt8) (n written room : Nat) (h : written ≤ stream.length) :
    stream.take written ++ ((stream.take n).drop written).take room =
        stream.take (written + (((stream.take n).drop written).take room).length) ∧
      written + (((stream.take n).drop written).take room).length ≤ stream.length := by
  rw [List.drop_take, List.take_take, List.length_take, List.length_drop]
  refine ⟨?_, by omega⟩
  rw [List.take_add, ← List.length_drop, ← List.take_eq_take_min]

theorem threeBytes_fed {f : Bool} {written : threeBytes.State} {rest output : List UInt8}
    (h : threeBytes.Fed 6 [1, 2, 3] f written rest output) :
    written ≤ threeStream.length ∧ output = threeStream.take written := by
  induction h with
  | init => exact ⟨Nat.zero_le _, rfl⟩
  | @feed written rest output room _ _ _ _ ih =>
    obtain ⟨hfront, hle⟩ := take_append_ready threeStream 2 written room ih.1
    rw [ih.2]
    exact ⟨hle, hfront⟩
  | @finish f written rest output room _ _ _ ih =>
    obtain ⟨hfront, hle⟩ := take_append_ready threeStream threeStream.length written room ih.1
    rw [List.take_length] at hfront hle
    rw [ih.2]
    exact ⟨hle, hfront⟩

theorem threeBytes_writes {output : List UInt8} (h : threeBytes.Writes 6 [1, 2, 3] output) :
    output = threeStream := by
  obtain ⟨f, written, rest, before, room, hfed, -, hcode, rfl⟩ := h
  obtain ⟨hle, rfl⟩ := threeBytes_fed hfed
  obtain ⟨hfront, -⟩ := take_append_ready threeStream threeStream.length written room hle
  rw [List.take_length] at hfront
  -- the stream ends when nothing of it is left
  have hall : threeStream.length ≤ written + ((threeStream.drop written).take room).length := by
    by_contra hshort
    have hok : (threeBytes.deflate written true rest room).code = .ok :=
      if_neg fun h => hshort h.2
    rw [hok] at hcode
    cases hcode
  exact hfront.trans (List.take_of_length_le hall)

theorem threeBytes_deflates : threeBytes.Deflates 6 [1, 2, 3]
    fun output => if output = threeStream then some [1, 2, 3] else none where
  fits s finish rest room := ⟨Nat.le_refl _, List.length_take_le ..⟩
  feeds := by
    intro s rest output room _ hrest _
    have hpos := List.length_pos_iff.2 hrest
    exact ⟨rfl, Nat.lt_of_lt_of_le hpos (Nat.le_add_right ..)⟩
  finishes := by
    intro f written rest output room hfed hroom
    obtain ⟨hle, -⟩ := threeBytes_fed hfed
    by_cases hall : threeStream.length ≤ written + ((threeStream.drop written).take room).length
    · exact .inl (if_pos ⟨rfl, hall⟩)
    · refine .inr ⟨if_neg fun h => hall h.2, ?_⟩
      show 0 < rest.length + ((threeStream.drop written).take room).length
      rw [List.length_take, List.length_drop] at hall ⊢
      omega
  bounded := by
    intro f s rest output hfed
    rw [(threeBytes_fed hfed).2, List.length_take]
    have hlen : threeStream.length = 11 := rfl
    omega
  bounded_writes := by
    intro output h
    rw [threeBytes_writes h]
    exact (by decide : threeStream.length < 2 ^ 32)
  inflates := by
    intro output h
    exact if_pos (threeBytes_writes h)

/-- Three bytes of memory. -/
theorem compressedRead_three : ∃ (s : Compression threeBytes) (output : List UInt8),
    (6 : UInt8) ≠ 0 ∧ ([1, 2, 3] : List UInt8).length ≤ (UInt32.toInt32 3).toInt.toNat ∧
    threeBytes.Writes 6 [1, 2, 3] output ∧
    s.sent 3 = u32 3 ++ u32 (UInt32.ofNat output.length) ++ output := by
  obtain ⟨s, output, -, hwrites, -, -, hsent, -⟩ := compressedRead threeBytes 6 (by decide) _ 3
    [1, 2, 3] (by decide) threeBytes_deflates fun _ => ⟨List.replicate compressBlocksize 0,
      List.length_replicate⟩
  exact ⟨s, output, by decide, by decide, hwrites, hsent⟩

end CheatEngine.Ceserver
