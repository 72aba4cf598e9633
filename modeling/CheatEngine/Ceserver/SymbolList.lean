/-
  CheatEngine.Ceserver.SymbolList

  The compressed symbol list (symbols.c).  Each symbol becomes a record of 17 bytes and its
  name; the records are collected in a buffer of 64 KiB, which is deflated when the next one
  does not fit, into an output buffer that is doubled whenever it is full.

  The length of a name is written as one byte, but the whole name is copied.

  zlib is a parameter: what one call of `deflate` consumes and writes, and what becomes of the
  whole stream.
-/
import CheatEngine.Client.Remote
import CheatEngine.Ceserver.Elf

namespace CheatEngine.Ceserver

open CheatEngine.Lib
open CheatEngine.Client (Inflate)

/-! ## zlib -/

/-- All that `deflate` writes: a call for each piece, the last one with Z_FINISH. -/
def deflated {σ : Type} (deflate : σ → List UInt8 → σ × List UInt8)
    (finish : σ → List UInt8 → List UInt8) : σ → List (List UInt8) → List UInt8 → List UInt8
  | strm, [], last => finish strm last
  | strm, piece :: pieces, last =>
    (deflate strm piece).2 ++ deflated deflate finish (deflate strm piece).1 pieces last

/-- `deflate` with an output buffer that always has room, and the reader of the Go client.
    The pieces together are what is read back; a stream that is cut off is an error once the
    reader comes to its end. -/
structure Zlib where
  State : Type
  init : State
  deflate : State → List UInt8 → State × List UInt8
  finish : State → List UInt8 → List UInt8
  inflate : Inflate
  inflate_deflated : ∀ (pieces : List (List UInt8)) (last : List UInt8) (limit : Nat),
    inflate (deflated deflate finish init pieces last) limit =
      .ok ((pieces.flatten ++ last).take limit)
  inflate_truncated : ∀ (pieces : List (List UInt8)) (last : List UInt8) (n limit : Nat)
    (read : List UInt8), n < (deflated deflate finish init pieces last).length →
    inflate ((deflated deflate finish init pieces last).take n) limit = .ok read →
    read.length = limit

def markBytes (bytes : List UInt8) : List UInt8 := bytes.flatMap fun b => [1, b]

def readMarked : List UInt8 → Nat → Except (String × String) (List UInt8)
  | _, 0 => .ok []
  | 0 :: _, _ => .ok []
  | _ :: b :: rest, limit + 1 =>
    match readMarked rest limit with
    | .ok bytes => .ok (b :: bytes)
    | .error e => .error e
  | _, _ => .error ("decompress symbols", "unexpected EOF")

theorem readMarked_all (bytes : List UInt8) : ∀ limit,
    readMarked (markBytes bytes ++ [0]) limit = .ok (bytes.take limit) := by
  induction bytes with
  | nil => intro limit; cases limit <;> rfl
  | cons b bytes ih =>
    intro limit
    cases limit with
    | zero => rfl
    | succ limit =>
      have hmark : markBytes (b :: bytes) ++ [0] = 1 :: b :: (markBytes bytes ++ [0]) := rfl
      rw [hmark, readMarked, ih]
      · rfl
      · intro h; cases h

theorem readMarked_truncated (bytes : List UInt8) : ∀ (n limit : Nat) (read : List UInt8),
    n < (markBytes bytes ++ [0]).length →
    readMarked ((markBytes bytes ++ [0]).take n) limit = .ok read → read.length = limit := by
  induction bytes with
  | nil =>
    intro n limit read hn hread
    have hzero : n = 0 := by simpa [markBytes] using hn
    subst hzero
    cases limit with
    | zero => rw [← Except.ok.inj hread]; rfl
    | succ limit => cases hread
  | cons b bytes ih =>
    intro n limit read hn hread
    have hmark : markBytes (b :: bytes) ++ [0] = 1 :: b :: (markBytes bytes ++ [0]) := rfl
    rw [hmark] at hn hread
    cases limit with
    | zero => simp only [readMarked] at hread; rw [← Except.ok.inj hread]; rfl
    | succ limit =>
      match n with
      | 0 => cases hread
      | 1 => cases hread
      | n + 2 =>
        have hlt : n < (markBytes bytes ++ [0]).length := by simpa using hn
        simp only [List.take_succ_cons] at hread
        rw [readMarked] at hread
        · split at hread
          case h_1 rest hrest =>
            have hlen := ih n limit rest hlt hrest
            rw [← Except.ok.inj hread, List.length_cons, hlen]
          case h_2 => cases hread
        · intro h; cases h

theorem deflated_mark (pieces : List (List UInt8)) (last : List UInt8) :
    deflated (fun _ piece => ((), markBytes piece)) (fun _ last => markBytes last ++ [0]) ()
      pieces last = markBytes (pieces.flatten ++ last) ++ [0] := by
  induction pieces with
  | nil => rfl
  | cons piece pieces ih =>
    rw [deflated, ih]
    simp [markBytes]

def markedZlib : Zlib where
  State := Unit
  init := ()
  deflate _ piece := ((), markBytes piece)
  finish _ last := markBytes last ++ [0]
  inflate := readMarked
  inflate_deflated pieces last limit := by
    rw [deflated_mark, readMarked_all]
  inflate_truncated pieces last n limit read := by
    rw [deflated_mark]
    exact readMarked_truncated _ n limit read

/-- `symbolinfo`, with the name that is copied behind it. -/
structure SymbolInfo where
  address : UInt64
  size : UInt32
  type : UInt32
  name : List UInt8

/-- The bytes of an entry: `namelength` is one byte. -/
def SymbolInfo.encode (si : SymbolInfo) : List UInt8 :=
  u64 si.address ++ u32 si.size ++ u32 si.type ++ u8 (UInt8.ofNat si.name.length) ++ si.name

/-- `entrysize` -/
theorem SymbolInfo.length_encode (si : SymbolInfo) : si.encode.length = 17 + si.name.length := by
  simp [SymbolInfo.encode]
  omega

/-- TEMPBUFSIZE -/
def tempBufSize : Nat := 64 * 1024

/-- `*output` behind its first 12 bytes, up to `strm.next_out`. -/
structure OutBuffer where
  written : List UInt8
  avail_out : Nat
  maxoutputsize : Nat

namespace OutBuffer

def start : OutBuffer := ⟨[], tempBufSize - 12, tempBufSize⟩

/-- One byte from `deflate`; without room it cannot go on.  A full buffer is doubled. -/
def put (o : OutBuffer) (b : UInt8) : Option OutBuffer :=
  if o.avail_out = 0 then none
  else if o.avail_out = 1 then
    some ⟨o.written ++ [b], o.maxoutputsize, 2 * o.maxoutputsize⟩
  else some ⟨o.written ++ [b], o.avail_out - 1, o.maxoutputsize⟩

def write (o : OutBuffer) (bytes : List UInt8) : Option OutBuffer := bytes.foldlM put o

/-- There is room, and what is used and what is not make up the buffer. -/
structure Sized (o : OutBuffer) : Prop where
  room : 0 < o.avail_out
  size : 12 + o.written.length + o.avail_out = o.maxoutputsize

theorem start_sized : Sized start := ⟨by decide, by decide⟩

theorem put_sized {o : OutBuffer} (h : Sized o) (b : UInt8) :
    ∃ o', o.put b = some o' ∧ Sized o' ∧ o'.written = o.written ++ [b] := by
  have hroom := h.room
  have hsize := h.size
  unfold put
  rw [if_neg (by omega)]
  split
  · refine ⟨_, rfl, ⟨?_, ?_⟩, rfl⟩
    · simp only
      omega
    · simp only [List.length_append, List.length_singleton]
      omega
  · refine ⟨_, rfl, ⟨?_, ?_⟩, rfl⟩
    · simp only
      omega
    · simp only [List.length_append, List.length_singleton]
      omega

theorem write_sized (bytes : List UInt8) : ∀ {o : OutBuffer}, Sized o →
    ∃ o', o.write bytes = some o' ∧ Sized o' ∧ o'.written = o.written ++ bytes := by
  induction bytes with
  | nil => intro o h; exact ⟨o, rfl, h, by simp⟩
  | cons b bytes ih =>
    intro o h
    obtain ⟨o₁, hput, hsized, hwritten⟩ := put_sized h b
    obtain ⟨o₂, hrest, hsized₂, hwritten₂⟩ := ih hsized
    refine ⟨o₂, ?_, hsized₂, ?_⟩
    · rw [write, List.foldlM_cons, hput]
      exact hrest
    · rw [hwritten₂, hwritten, List.append_assoc, List.singleton_append]

end OutBuffer

/-! ## The staging buffer -/

/-- `tempbuffer` up to `tempbufferpos`, the stream, and the output. -/
structure Staging (z : Zlib) where
  tempbuffer : List UInt8
  strm : z.State
  total_in : Nat
  out : OutBuffer

namespace Staging

variable {z : Zlib}

def start (z : Zlib) : Staging z := ⟨[], z.init, 0, .start⟩

/-- "compress the current temp buffer" -/
def flush (s : Staging z) : Option (Staging z) :=
  if s.tempbuffer = [] then some s
  else
    (s.out.write (z.deflate s.strm s.tempbuffer).2).map fun out =>
      ⟨[], (z.deflate s.strm s.tempbuffer).1, s.total_in + s.tempbuffer.length, out⟩

/-- "add it to the tempbuffer"; an entry that is larger than the buffer is written past its
    end. -/
def add (s : Staging z) (si : SymbolInfo) : Option (Staging z) :=
  if tempBufSize ≤ s.tempbuffer.length + si.encode.length then
    s.flush.bind fun s =>
      if tempBufSize < si.encode.length then none
      else some { s with tempbuffer := s.tempbuffer ++ si.encode }
  else some { s with tempbuffer := s.tempbuffer ++ si.encode }

/-- The last call of `deflate`, with `strm.total_in` and what was written. -/
def close (s : Staging z) : Option (Nat × List UInt8) :=
  (s.out.write (z.finish s.strm s.tempbuffer)).map fun out =>
    (s.total_in + s.tempbuffer.length, out.written)

end Staging

def compress (z : Zlib) (entries : List SymbolInfo) : Option (Nat × List UInt8) :=
  (entries.foldlM Staging.add (Staging.start z)).bind Staging.close

/-- `*output`: whether it is an executable, the two sizes, and the stream. -/
def symbolOutput (e_type : UInt16) (total_in : Nat) (written : List UInt8) : List UInt8 :=
  u32 (if e_type = etExec then 1 else 0) ++ u32 (UInt32.ofNat (written.length + 12)) ++
    u32 (UInt32.ofNat total_in) ++ written

section Staging

variable {z : Zlib}

/-- The pieces that are deflated on the way, and the rest: what is pending goes when the next
    entry does not fit. -/
def pieces (pending : List UInt8) : List SymbolInfo → List (List UInt8) × List UInt8
  | [] => ([], pending)
  | si :: rest =>
    if tempBufSize ≤ pending.length + si.encode.length then
      if pending = [] then pieces si.encode rest
      else (pending :: (pieces si.encode rest).1, (pieces si.encode rest).2)
    else pieces (pending ++ si.encode) rest

theorem pieces_flatten (entries : List SymbolInfo) : ∀ pending : List UInt8,
    (pieces pending entries).1.flatten ++ (pieces pending entries).2 =
      pending ++ entries.flatMap SymbolInfo.encode := by
  induction entries with
  | nil => intro pending; simp [pieces]
  | cons si rest ih =>
    intro pending
    rw [pieces]
    split
    · split
      case isTrue hpending => simp [ih, hpending]
      case isFalse => simp [ih]
    · simp [ih]

def stream (z : Zlib) (entries : List SymbolInfo) : List UInt8 :=
  deflated z.deflate z.finish z.init (pieces [] entries).1 (pieces [] entries).2

theorem foldlM_add_close (entries : List SymbolInfo)
    (hfit : ∀ si ∈ entries, si.encode.length ≤ tempBufSize) :
    ∀ s : Staging z, s.out.Sized →
      (entries.foldlM Staging.add s).bind Staging.close =
        some (s.total_in + (s.tempbuffer ++ entries.flatMap SymbolInfo.encode).length,
          s.out.written ++ deflated z.deflate z.finish s.strm (pieces s.tempbuffer entries).1
            (pieces s.tempbuffer entries).2) := by
  induction entries with
  | nil =>
    intro s h
    obtain ⟨out, hout, -, hwritten⟩ := OutBuffer.write_sized (z.finish s.strm s.tempbuffer) h
    simp [Staging.close, hout, hwritten, pieces, deflated]
  | cons si rest ih =>
    intro s h
    have hsi := hfit si List.mem_cons_self
    have hrest := ih fun x hx => hfit x (List.mem_cons_of_mem si hx)
    rw [List.foldlM_cons, pieces, Staging.add]
    split
    case isTrue hfull =>
      rw [Staging.flush]
      split
      case isTrue hempty =>
        -- the buffer is empty, and there is nothing to deflate
        have hnot : ¬ tempBufSize < si.encode.length := by omega
        simp only [Option.bind_some, if_neg hnot]
        refine (hrest { s with tempbuffer := s.tempbuffer ++ si.encode } h).trans ?_
        simp [hempty]
      case isFalse hempty =>
        obtain ⟨out, hout, hsized, hwritten⟩ :=
          OutBuffer.write_sized (z.deflate s.strm s.tempbuffer).2 h
        have hnot : ¬ tempBufSize < si.encode.length := by omega
        simp only [hout, Option.map_some, Option.bind_some, if_neg hnot]
        refine (hrest _ hsized).trans ?_
        simp [hwritten, deflated]
        omega
    case isFalse =>
      refine (hrest { s with tempbuffer := s.tempbuffer ++ si.encode } h).trans ?_
      simp

/-- An entry that is larger than the buffer is written past its end. -/
theorem foldlM_add_none (entries : List SymbolInfo)
    (hlong : ∃ si ∈ entries, tempBufSize < si.encode.length) :
    ∀ s : Staging z, entries.foldlM Staging.add s = none := by
  induction entries with
  | nil => simp at hlong
  | cons si rest ih =>
    intro s
    rw [List.foldlM_cons, Staging.add]
    by_cases hsi : tempBufSize < si.encode.length
    · rw [if_pos (by omega)]
      cases s.flush with
      | none => rfl
      | some s' => simp [hsi]
    · have hrest : ∃ x ∈ rest, tempBufSize < x.encode.length := by
        obtain ⟨x, hx, hlen⟩ := hlong
        rcases List.mem_cons.1 hx with rfl | hx
        · exact absurd hlen hsi
        · exact ⟨x, hx, hlen⟩
      have hnone := ih hrest
      cases hstep : (if tempBufSize ≤ s.tempbuffer.length + si.encode.length then
          s.flush.bind fun s => if tempBufSize < si.encode.length then none
            else some { s with tempbuffer := s.tempbuffer ++ si.encode }
        else some { s with tempbuffer := s.tempbuffer ++ si.encode }) with
      | none => rfl
      | some s' => exact hnone s'

/-- What is staged, when it can be. -/
theorem compress_eq (entries : List SymbolInfo) :
    compress z entries =
      if ∀ si ∈ entries, si.encode.length ≤ tempBufSize then
        some ((entries.flatMap SymbolInfo.encode).length, stream z entries)
      else none := by
  split
  case isTrue hfit =>
    have hclose := foldlM_add_close entries hfit (Staging.start z) OutBuffer.start_sized
    rw [compress, hclose]
    simp [Staging.start, OutBuffer.start, stream]
  case isFalse hfit =>
    have hlong : ∃ si ∈ entries, tempBufSize < si.encode.length := by
      simpa only [not_forall, exists_prop, Nat.not_le] using hfit
    rw [compress, foldlM_add_none entries hlong]
    rfl

theorem inflate_stream (entries : List SymbolInfo) (limit : Nat) :
    z.inflate (stream z entries) limit =
      .ok ((entries.flatMap SymbolInfo.encode).take limit) := by
  rw [stream, z.inflate_deflated, pieces_flatten, List.nil_append]

end Staging

def symbolEntry (address : UInt64) (sym : Sym) (name : List UInt8) : SymbolInfo :=
  ⟨address, sym.st_size.toUInt32, sym.st_info.toUInt32, name⟩

section

variable (z : Zlib) (file : List UInt8) (fileoffset : UInt32)

/-- `ELF32`; `some none` is an output that is NULL. -/
def elf32 (b : Ehdr) : Option (Option (List UInt8)) :=
  if b.e_phentsize = 0 then some none
  else if (programHeaders file fileoffset layout32 b).isNone then some none
  else match sectionHeaders file fileoffset layout32 b with
    | none => some none
    | some shdrs =>
      (symbols32 file fileoffset layout32 shdrs).bind fun symbols =>
        (compress z (symbols.map fun p => symbolEntry p.1.st_value p.1 p.2)).map fun out =>
          some (symbolOutput b.e_type out.1 out.2)

def elf64 (b : Ehdr) : Option (Option (List UInt8)) :=
  if b.e_phentsize = 0 then some none
  else match programHeaders file fileoffset layout64 b with
    | none => some none
    | some phdrs =>
      let offset := match firstLoad phdrs with
        | some p_vaddr => asInt p_vaddr
        | none => 0
      match sectionHeaders file fileoffset layout64 b with
      | none => some none
      | some shdrs =>
        (symbols64 file fileoffset layout64 b shdrs).bind fun symbols =>
          (compress z (symbols.map fun p => symbolEntry (p.1.st_value - offset) p.1 p.2)).map
            fun out => some (symbolOutput b.e_type out.1 out.2)

/-- `GetSymbolListFromFile`, for a file that can be opened. -/
def getSymbolListFromFile : Option (Option (List UInt8)) :=
  if u32At (elfHeader file fileoffset) 0 ≠ 0x464c457f then some none
  else if isClass32 file fileoffset then
    elf32 z file fileoffset (layout32.ehdr (elfHeader file fileoffset))
  else elf64 z file fileoffset (layout64.ehdr (elfHeader file fileoffset))

end

/-- What is sent: as many bytes as the output says, or 0. -/
def symbolReply (output : Option (List UInt8)) : List UInt8 :=
  match output with
  | some output => output.take (u32At output 4).toNat
  | none => u64 0

/-! ## The output for a well-formed file -/

/-- The entry of a symbol, with `sub` taken off its value. -/
def FileSymbol.info (sub : UInt64) (s : FileSymbol) : SymbolInfo :=
  ⟨s.st_value - sub, s.st_size.toUInt32, s.st_info.toUInt32, s.name⟩

/-- What is taken off the values: ELF64 has `p_vaddr` in an `int`, ELF32 takes nothing. -/
def subtracted (file : List UInt8) (fileoffset : UInt32) : UInt64 :=
  if isClass32 file fileoffset then 0 else asInt (elf64Image file fileoffset).p_vaddr

def elfImage (file : List UInt8) (fileoffset : UInt32) : ElfImage :=
  if isClass32 file fileoffset then elf32Image file fileoffset else elf64Image file fileoffset

section Output

variable {z : Zlib} {file : List UInt8} {fileoffset : UInt32}

theorem map_symbolEntry {symbols : List (Sym × List UInt8)} {m : ElfImage}
    (h : symbols.map toFileSymbol = m.entries) (sub : UInt64) :
    (symbols.map fun p => symbolEntry (p.1.st_value - sub) p.1 p.2) =
      m.entries.map (FileSymbol.info sub) := by
  rw [← h, List.map_map]
  rfl

theorem phentsize_ne_zero {m : ElfImage} (h : m.WellFormed) (hsize : m.layout.phdrSize ≠ 0) :
    m.header.e_phentsize ≠ 0 := by
  intro hzero
  have hsame := h.phentsize
  rw [hzero] at hsame
  exact hsize hsame.symm

theorem elf32_eq (h : (elf32Image file fileoffset).WellFormed) :
    elf32 z file fileoffset (elf32Image file fileoffset).header =
      (compress z ((elf32Image file fileoffset).entries.map (FileSymbol.info 0))).map fun out =>
        some (symbolOutput (elf32Image file fileoffset).header.e_type out.1 out.2) := by
  obtain ⟨shdrs, hshdrs⟩ := Option.isSome_iff_exists.1 h.shdrs
  obtain ⟨phdrs, hphdrs⟩ := Option.isSome_iff_exists.1 h.phdrs
  obtain ⟨symbols, hsymbols, hentries⟩ := symbols32_eq h
  have hsize : (elf32Image file fileoffset).header.e_phentsize ≠ 0 :=
    phentsize_ne_zero h (show (32 : Nat) ≠ 0 by decide)
  have hown : (elf32Image file fileoffset).shdrs = shdrs := by rw [ElfImage.shdrs, hshdrs]; rfl
  rw [hown] at hsymbols
  have hmap := map_symbolEntry hentries 0
  simp only [UInt64.sub_zero] at hmap
  have hphdrs' : programHeaders file fileoffset layout32 (elf32Image file fileoffset).header =
    some phdrs := hphdrs
  have hshdrs' : sectionHeaders file fileoffset layout32 (elf32Image file fileoffset).header =
    some shdrs := hshdrs
  have hsymbols' : symbols32 file fileoffset layout32 shdrs = some symbols := hsymbols
  rw [elf32, if_neg hsize, hphdrs', if_neg (by simp), hshdrs']
  simp only [hsymbols', Option.bind_some, hmap]

theorem elf64_eq (h : (elf64Image file fileoffset).WellFormed) :
    elf64 z file fileoffset (elf64Image file fileoffset).header =
      (compress z ((elf64Image file fileoffset).entries.map
        (FileSymbol.info (asInt (elf64Image file fileoffset).p_vaddr)))).map fun out =>
          some (symbolOutput (elf64Image file fileoffset).header.e_type out.1 out.2) := by
  obtain ⟨shdrs, hshdrs⟩ := Option.isSome_iff_exists.1 h.shdrs
  obtain ⟨phdrs, hphdrs⟩ := Option.isSome_iff_exists.1 h.phdrs
  obtain ⟨p_vaddr, hload⟩ := Option.isSome_iff_exists.1 h.load
  obtain ⟨symbols, hsymbols, hentries⟩ := symbols64_eq h
  have hsize : (elf64Image file fileoffset).header.e_phentsize ≠ 0 :=
    phentsize_ne_zero h (show (56 : Nat) ≠ 0 by decide)
  have hown : (elf64Image file fileoffset).shdrs = shdrs := by rw [ElfImage.shdrs, hshdrs]; rfl
  have hsegs : (elf64Image file fileoffset).phdrs = phdrs := by rw [ElfImage.phdrs, hphdrs]; rfl
  have hvaddr : (elf64Image file fileoffset).p_vaddr = p_vaddr := by
    rw [ElfImage.p_vaddr, hload]; rfl
  rw [hown] at hsymbols
  rw [hsegs] at hload
  have hmap := map_symbolEntry hentries (asInt p_vaddr)
  have hphdrs' : programHeaders file fileoffset layout64 (elf64Image file fileoffset).header =
    some phdrs := hphdrs
  have hshdrs' : sectionHeaders file fileoffset layout64 (elf64Image file fileoffset).header =
    some shdrs := hshdrs
  have hsymbols' : symbols64 file fileoffset layout64 (elf64Image file fileoffset).header shdrs =
    some symbols := hsymbols
  rw [elf64, if_neg hsize, hphdrs']
  simp only [hload, hshdrs', hsymbols', Option.bind_some, hmap, hvaddr]

def sentEntries (file : List UInt8) (fileoffset : UInt32) : List SymbolInfo :=
  (elfImage file fileoffset).entries.map (FileSymbol.info (subtracted file fileoffset))

theorem getSymbolListFromFile_eq (h : (elfImage file fileoffset).WellFormed) :
    getSymbolListFromFile z file fileoffset =
      (compress z (sentEntries file fileoffset)).map fun out =>
        some (symbolOutput (elfImage file fileoffset).header.e_type out.1 out.2) := by
  rw [getSymbolListFromFile]
  have hfile : (elfImage file fileoffset).file = file ∧
      (elfImage file fileoffset).fileoffset = fileoffset := by
    unfold elfImage
    split <;> exact ⟨rfl, rfl⟩
  have hmagic := h.magic
  rw [hfile.1, hfile.2] at hmagic
  rw [if_neg (by simp [hmagic])]
  by_cases hclass : isClass32 file fileoffset = true
  · rw [elfImage, if_pos hclass] at h
    rw [if_pos hclass, sentEntries, elfImage, if_pos hclass, subtracted, if_pos hclass]
    exact elf32_eq h
  · rw [elfImage, if_neg hclass] at h
    rw [if_neg hclass, sentEntries, elfImage, if_neg hclass, subtracted, if_neg hclass]
    exact elf64_eq h

end Output

end CheatEngine.Ceserver
