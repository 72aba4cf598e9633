/-
  CheatEngine.Ceserver.RegionText

  `VirtualQueryExFull` and `VirtualQueryEx` (api.c) on the texts of /proc/pid/smaps and
  /proc/pid/maps, and how the lines of the kernel are read.

  Both read with a buffer of 200 characters, and drop at most 98 more of a line that does not
  fit: what is left of a longer line is read as further lines.  The addresses are those of a
  64-bit process; opening the files does not fail.
-/
import CheatEngine.Ceserver.RegionList
import CheatEngine.Lib.Stdio

namespace CheatEngine.Ceserver

open CheatEngine.Lib

/-- `fgets(x, 200, maps)`, and the end of a line that did not fit. -/
def readLine (stream : List Char) : Option (List Char × List Char) :=
  match fgets 200 stream with
  | none => none
  | some (x, rest) =>
    if x.getLast? = some '\n' then some (x, rest)
    else
      -- `discard[99]` is set to 0 and not written by `fgets(discard, 99, maps)`, so that the
      -- loop ends after one round
      match fgets 99 rest with
      | none => some (x, rest)
      | some (_, rest) => some (x, rest)

def readLines : Nat → List Char → List (List Char)
  | 0, _ => []
  | fuel + 1, stream =>
    match readLine stream with
    | none => []
    | some (x, rest) => x :: readLines fuel rest

/-- The contents of `x`, one after the other. -/
def linesOf (stream : List Char) : List (List Char) := readLines stream.length stream

/-- What `sscanf(x, "%llx-%llx %s", &start, &stop, ..)` finds, with 0 where it finds
    no number. -/
structure Range where
  start : Nat
  stop : Nat
  word : Option (List Char)

def scanRange (x : List Char) : Range :=
  match scanHex x with
  | some (start, '-' :: rest) =>
    match scanHex rest with
    | some (stop, rest) => ⟨start, stop, scanWord rest⟩
    | none => ⟨start, 0, none⟩
  | some (start, _) => ⟨start, 0, none⟩
  | none => ⟨0, 0, none⟩

/-- The info line says that pages are dirty: `sscanf(x, "%31[^:]: %d", name, &number)`. -/
def saysDirty (x : List Char) : Bool :=
  match scanUntilColon 31 x with
  | some (name, ':' :: rest) =>
    match scanInt rest with
    | some number =>
      0 < number && (name = "Shared_Dirty".toList || name = "Private_Dirty".toList)
    | none => false
  | _ => false

/-- One line of smaps.  A header line closes the block before it. -/
def fullLine (flags : UInt32) (env : PageReads) (fuel : Nat) (s : Listing × Block)
    (x : List Char) : Option (Listing × Block) :=
  let range := scanRange x
  match range.word with
  | some word => do
    let listing ← listBlock flags env fuel s.1 s.2
    return (listing, ⟨range.start, range.stop, word.take 24, false⟩)
  | none =>
    if dirtyonly flags ∧ s.2.start ≠ 0 ∧ saysDirty x then
      some (s.1, { s.2 with isdirty := true })
    else some s

def noBlock : Block := ⟨0, 0, [], false⟩

/-- `VirtualQueryExFull`.  The end closes the last block. -/
def virtualQueryExFull (flags : UInt32) (env : PageReads) (fuel : Nat) (smaps : List Char) :
    Option Listing := do
  let s ← (linesOf smaps).foldlM (fullLine flags env fuel) (Listing.start flags env, noBlock)
  listBlock flags env fuel s.1 s.2

/-- The answer of `VirtualQueryEx`: the line that it was found in, and `*rinfo`. -/
structure Query where
  mapsline : Option (List Char)
  rinfo : RegionInfo

/-- The loop of `VirtualQueryEx`; `stale` is what `protectionstring` holds when nothing is
    scanned into it. -/
def queryLines (stale : List Char) (address : Nat) (rinfo : RegionInfo) :
    List (List Char) → Option Query
  | [] => some ⟨none, rinfo⟩
  | x :: rest =>
    let range := scanRange x
    let protectionstring := range.word.getD stale
    -- `%s` into 25 bytes
    if 24 < (range.word.getD []).length then none
    else if address < range.stop then
      if range.start ≤ address then
        some ⟨some x, { rinfo with
          protection := protectionStringToProtection protectionstring
          type := protectionStringToType protectionstring
          size := UInt64.ofNat (range.stop - address) }⟩
      else
        some ⟨some x, { rinfo with
          size := UInt64.ofNat (range.start - address)
          protection := PAGE_NOACCESS
          type := 0 }⟩
    else queryLines stale address rinfo rest

def virtualQueryEx (stale : List Char) (lpAddress : Nat) (rinfo : RegionInfo)
    (maps : List Char) : Option Query :=
  let base := lpAddress / 4096 * 4096
  queryLines stale base { rinfo with protection := 0, baseaddress := UInt64.ofNat base }
    (linesOf maps)

/-- A mapping, as the kernel prints it. -/
structure Mapping where
  start : Nat
  stop : Nat
  read : Bool
  write : Bool
  exec : Bool
  shared : Bool
  offset : Nat
  major : Nat
  minor : Nat
  inode : Nat
  path : List Char

namespace Mapping

section

variable (m : Mapping)

def perms : List Char :=
  [if m.read then 'r' else '-', if m.write then 'w' else '-', if m.exec then 'x' else '-',
    if m.shared then 's' else 'p']

/-- What follows the permissions, in front of the path. -/
def device : List Char :=
  putHex 8 m.offset ++ ' ' :: (putHex 2 m.major ++ ':' :: (putHex 2 m.minor ++
    ' ' :: (Nat.toDigits 10 m.inode ++ [' '])))

def header : List Char :=
  putHex 8 m.start ++ '-' :: (putHex 8 m.stop ++ ' ' :: (m.perms ++ ' ' :: m.device))

/-- The line without its newline: the path starts in a column of its own. -/
def body : List Char :=
  if m.path = [] then m.header
  else m.header ++ (List.replicate (72 - m.header.length) ' ' ++ ' ' :: m.path)

def line : List Char := m.body ++ ['\n']

def protection : UInt32 :=
  match m.exec, m.write with
  | true, true => PAGE_EXECUTE_READWRITE
  | true, false => PAGE_EXECUTE_READ
  | false, true => PAGE_READWRITE
  | false, false => PAGE_READONLY

def type : UInt32 := if m.shared then MEM_MAPPED else MEM_PRIVATE

def region : RegionInfo :=
  ⟨UInt64.ofNat m.start, UInt64.ofNat (m.stop - m.start), m.protection, m.type⟩

/-- What is read of the line of a mapping after its first 297 characters. -/
def rests : List (List Char) := (linesOf m.line).tail

end

end Mapping

/-- An info line of smaps: a name, a colon, and values. -/
structure InfoLine where
  name : List Char
  value : List Char
  name_dash : '-' ∉ name
  name_newline : '\n' ∉ name
  value_newline : '\n' ∉ value
  short : name.length + value.length < 296

def InfoLine.line (i : InfoLine) : List Char := i.name ++ ':' :: i.value ++ ['\n']

/-- The mappings of a process with their info lines, as maps and smaps show them. -/
structure KernelMaps where
  entries : List (Mapping × List InfoLine)
  aligned : ∀ e ∈ entries, 4096 ∣ e.1.start ∧ 4096 ∣ e.1.stop ∧ e.1.start < e.1.stop ∧
    e.1.stop < 2 ^ 64
  sorted : (entries.map Prod.fst).Pairwise fun m m' => m.stop ≤ m'.start
  path_newline : ∀ e ∈ entries, '\n' ∉ e.1.path

namespace KernelMaps

def mappings (k : KernelMaps) : List Mapping := k.entries.map Prod.fst

def maps (k : KernelMaps) : List Char := k.mappings.flatMap Mapping.line

def smaps (k : KernelMaps) : List Char :=
  k.entries.flatMap fun e => e.1.line ++ e.2.flatMap InfoLine.line

end KernelMaps

/-! ## What is read of a line -/

section Lines

variable {body rest : List Char}

theorem readLine_short (hbody : '\n' ∉ body) (hlen : body.length < 199) :
    readLine (body ++ '\n' :: rest) = some (body ++ ['\n'], rest) := by
  have hread : fgets 200 (body ++ '\n' :: rest) = some (body ++ ['\n'], rest) := by
    rw [fgets, if_neg (by simp), fgetsLine_short hbody _ _ (by omega)]
  rw [readLine, hread]
  simp

theorem readLine_long (hbody : '\n' ∉ body) (hlen : 199 ≤ body.length) :
    readLine (body ++ '\n' :: rest) = some (body.take 199,
      if body.length < 297 then rest else body.drop 297 ++ '\n' :: rest) := by
  have hread : fgets 200 (body ++ '\n' :: rest) =
      some (body.take 199, body.drop 199 ++ '\n' :: rest) := by
    rw [fgets, if_neg (by simp), fgetsLine_long hbody _ _ (by omega)]
  have hcut : (body.take 199).getLast? ≠ some '\n' := by
    intro h
    exact hbody (List.mem_of_mem_take (List.mem_of_getLast? h))
  have hdrop : '\n' ∉ body.drop 199 := fun h => hbody (List.mem_of_mem_drop h)
  rw [readLine, hread]
  dsimp only
  rw [if_neg hcut, fgets, if_neg (by simp)]
  by_cases hfits : body.length < 297
  · rw [fgetsLine_short hdrop _ _ (by rw [List.length_drop]; omega), if_pos hfits]
  · rw [fgetsLine_long hdrop _ _ (by rw [List.length_drop]; omega), if_neg hfits, List.drop_drop]

variable {stream : List Char}

theorem readLine_length {x : List Char} (h : readLine stream = some (x, rest)) :
    rest.length < stream.length := by
  unfold readLine at h
  split at h
  · cases h
  · rename_i y left hread
    have hline := length_fgets (by decide) hread
    split at h
    · cases h
      omega
    · split at h
      · cases h
        omega
      · rename_i hdiscard
        have hrest := length_fgets (by decide) hdiscard
        cases h
        omega

theorem readLines_eq {fuel : Nat} (h : stream.length ≤ fuel) :
    readLines fuel stream = linesOf stream := by
  have hmore : ∀ n (stream : List Char), stream.length ≤ n → ∀ fuel, n ≤ fuel →
      readLines fuel stream = readLines n stream := by
    intro n
    induction n with
    | zero =>
      intro stream hlen fuel _
      obtain rfl : stream = [] := List.length_eq_zero_iff.1 (by omega)
      cases fuel <;> rfl
    | succ n ih =>
      intro stream hlen fuel hfuel
      obtain ⟨fuel, rfl⟩ : ∃ f, fuel = f + 1 := ⟨fuel - 1, by omega⟩
      rw [readLines, readLines]
      cases hread : readLine stream with
      | none => rfl
      | some p =>
        have hless := readLine_length hread
        dsimp only
        rw [ih p.2 (by omega) fuel (by omega)]
  exact hmore stream.length stream (Nat.le_refl _) fuel h

theorem linesOf_nil : linesOf [] = [] := rfl

theorem linesOf_of_read {x : List Char} (h : readLine stream = some (x, rest)) :
    linesOf stream = x :: linesOf rest := by
  have hless := readLine_length h
  obtain ⟨n, hn⟩ : ∃ n, stream.length = n + 1 := ⟨stream.length - 1, by omega⟩
  rw [linesOf, hn, readLines, h]
  dsimp only
  rw [readLines_eq (by omega)]

theorem linesOf_short (hbody : '\n' ∉ body) (hlen : body.length < 199) :
    linesOf (body ++ '\n' :: rest) = (body ++ ['\n']) :: linesOf rest :=
  linesOf_of_read (readLine_short hbody hlen)

theorem linesOf_long (hbody : '\n' ∉ body) (hlen : 199 ≤ body.length) :
    linesOf (body ++ '\n' :: rest) = body.take 199 ::
      if body.length < 297 then linesOf rest else linesOf (body.drop 297 ++ '\n' :: rest) := by
  rw [linesOf_of_read (readLine_long hbody hlen)]
  split <;> rfl

/-- The lines of a text are read one after the other: by induction on the length of the first
    one, which loses 297 characters in each round. -/
theorem linesOf_append (hbody : '\n' ∉ body) (rest : List Char) :
    linesOf (body ++ '\n' :: rest) = linesOf (body ++ ['\n']) ++ linesOf rest := by
  induction hn : body.length using Nat.strongRecOn generalizing body with
  | ind n ih =>
    by_cases hshort : body.length < 199
    · rw [linesOf_short hbody hshort, linesOf_short hbody hshort, linesOf_nil]
      rfl
    · rw [linesOf_long hbody (by omega), linesOf_long hbody (by omega)]
      split
      · rw [linesOf_nil]
        rfl
      · have hdrop : '\n' ∉ body.drop 297 := fun h => hbody (List.mem_of_mem_drop h)
        rw [ih (body.drop 297).length (by rw [List.length_drop]; omega) hdrop rfl,
          List.cons_append]

end Lines

/-! ## Header lines -/

section Header

variable {m : Mapping}

theorem protection_perms (m : Mapping) : protectionStringToProtection m.perms = m.protection := by
  cases hr : m.read <;> cases hw : m.write <;> cases hx : m.exec <;> cases hs : m.shared <;>
    simp [protectionStringToProtection, Mapping.perms, Mapping.protection, hr, hw, hx, hs]

theorem type_perms (m : Mapping) : protectionStringToType m.perms = m.type := by
  cases hr : m.read <;> cases hw : m.write <;> cases hx : m.exec <;> cases hs : m.shared <;>
    simp [protectionStringToType, Mapping.perms, Mapping.type, hr, hw, hx, hs]

theorem perms_space (m : Mapping) : ∀ c ∈ m.perms, isSpace c = false := by
  cases hr : m.read <;> cases hw : m.write <;> cases hx : m.exec <;> cases hs : m.shared <;>
    simp [Mapping.perms, hr, hw, hx, hs, isSpace]

/-- The permissions end in front of the blank. -/
theorem scanWord_perms (m : Mapping) (t : List Char) :
    scanWord (' ' :: (m.perms ++ ' ' :: t)) = some m.perms := by
  have hskip : (' ' :: (m.perms ++ ' ' :: t)).dropWhile isSpace = m.perms ++ ' ' :: t := by
    have hfirst : isSpace (if m.read then 'r' else '-') = false :=
      perms_space m _ List.mem_cons_self
    rw [List.dropWhile_cons_of_pos rfl, Mapping.perms, List.cons_append,
      List.dropWhile_cons_of_neg (by rw [hfirst]; decide)]
  have hword : (m.perms ++ ' ' :: t).takeWhile (fun c => !isSpace c) = m.perms := by
    rw [List.takeWhile_append_of_pos (fun c hc => by rw [perms_space m c hc]; rfl),
      List.takeWhile_cons_of_neg (by decide), List.append_nil]
  rw [scanWord, hskip, hword]
  rfl

theorem scanRange_header (hstart : m.start < 2 ^ 64) (hstop : m.stop < 2 ^ 64) (t : List Char) :
    scanRange (putHex 8 m.start ++ '-' :: (putHex 8 m.stop ++ ' ' :: (m.perms ++ ' ' :: t))) =
      ⟨m.start, m.stop, some m.perms⟩ := by
  have hfirst := scanHex_putHex (w := 8) hstart (c := '-') rfl (by decide)
    (putHex 8 m.stop ++ ' ' :: (m.perms ++ ' ' :: t))
  have hsecond := scanHex_putHex (w := 8) hstop (c := ' ') rfl (by decide)
    (m.perms ++ ' ' :: t)
  rw [scanRange, hfirst]
  simp only [hsecond, scanWord_perms]

/-- The range and the permissions of a header line, in front of a blank. -/
def Mapping.front (m : Mapping) : List Char :=
  putHex 8 m.start ++ '-' :: (putHex 8 m.stop ++ ' ' :: m.perms)

theorem length_putHex_le {w v : Nat} (hw : w ≤ 16) (hv : v < 2 ^ 64) : (putHex w v).length ≤ 16 := by
  have hdigits : (Nat.toDigits 16 v).length ≤ 16 :=
    (Nat.length_toDigits_le_iff (by decide) (by decide)).2 (by omega)
  rw [putHex, List.length_leftpad]
  omega

theorem length_front_le (hstart : m.start < 2 ^ 64) (hstop : m.stop < 2 ^ 64) :
    m.front.length ≤ 38 := by
  have h1 := length_putHex_le (w := 8) (by decide) hstart
  have h2 := length_putHex_le (w := 8) (by decide) hstop
  have h3 : m.perms.length = 4 := rfl
  simp only [Mapping.front, List.length_append, List.length_cons]
  omega

theorem scanRange_front (hstart : m.start < 2 ^ 64) (hstop : m.stop < 2 ^ 64) (t : List Char) :
    scanRange (m.front ++ ' ' :: t) = ⟨m.start, m.stop, some m.perms⟩ := by
  rw [← scanRange_header hstart hstop t, Mapping.front]
  simp only [List.append_assoc, List.cons_append]

/-- The line goes on behind the permissions. -/
theorem body_eq (m : Mapping) : ∃ t, m.body = m.front ++ ' ' :: t := by
  unfold Mapping.body Mapping.header Mapping.front
  split
  · exact ⟨m.device, by simp⟩
  · exact ⟨_, by simp only [List.append_assoc, List.cons_append]; rfl⟩

theorem newline_putHex (w v : Nat) : '\n' ∉ putHex w v := by
  intro h
  have hhex := hexValue_putHex h
  cases hhex

theorem newline_body (hpath : '\n' ∉ m.path) : '\n' ∉ m.body := by
  have hperms : '\n' ∉ m.perms := by
    intro h
    have hspace := perms_space m _ h
    cases hspace
  have hinode : '\n' ∉ Nat.toDigits 10 m.inode := by
    intro h
    have hdigit := Nat.isDigit_of_mem_toDigits (by decide) (by decide) h
    cases hdigit
  have hheader : '\n' ∉ m.header := by
    simp [Mapping.header, Mapping.device, newline_putHex, hperms, hinode]
  unfold Mapping.body
  split
  · exact hheader
  · simp [hheader, hpath]

theorem linesOf_line (hstart : m.start < 2 ^ 64) (hstop : m.stop < 2 ^ 64) (hpath : '\n' ∉ m.path) :
    ∃ x, linesOf m.line = x :: m.rests ∧ scanRange x = ⟨m.start, m.stop, some m.perms⟩ := by
  obtain ⟨t, hbody⟩ := body_eq m
  have hfront := length_front_le hstart hstop
  have hnewline := newline_body hpath
  by_cases hshort : m.body.length < 199
  · refine ⟨m.body ++ ['\n'], ?_, ?_⟩
    · rw [Mapping.rests, Mapping.line, linesOf_short hnewline hshort]
      rfl
    · rw [hbody, List.append_assoc, List.cons_append]
      exact scanRange_front hstart hstop _
  · refine ⟨m.body.take 199, ?_, ?_⟩
    · rw [Mapping.rests, Mapping.line, linesOf_long hnewline (by omega)]
      rfl
    · -- the cut is behind the permissions
      obtain ⟨n, hn⟩ : ∃ n, 199 = m.front.length + (n + 1) :=
        ⟨198 - m.front.length, by omega⟩
      rw [hbody, hn, List.take_length_add_append, List.take_succ_cons]
      exact scanRange_front hstart hstop _

/-- A line of at most 296 characters leaves no rest. -/
theorem rests_eq_nil (hpath : '\n' ∉ m.path) (hlen : m.body.length < 297) : m.rests = [] := by
  rw [Mapping.rests, Mapping.line]
  by_cases hshort : m.body.length < 199
  · rw [linesOf_short (newline_body hpath) hshort, linesOf_nil, List.tail_cons]
  · rw [linesOf_long (newline_body hpath) (by omega), if_pos hlen, linesOf_nil, List.tail_cons]

end Header

/-! ## Info lines -/

/-- There is a colon in front of every dash. -/
def ColonFirst (s : List Char) : Prop := ∀ t u, s = t ++ '-' :: u → ':' ∈ t

variable {s : List Char}

theorem ColonFirst.tail {c : Char} (h : ColonFirst (c :: s)) (hc : c ≠ ':') :
    ColonFirst s := by
  intro t u hs
  have hmem := h (c :: t) u (by rw [hs]; rfl)
  rcases List.mem_cons.1 hmem with hhead | htail
  · exact absurd hhead.symm hc
  · exact htail

section

variable (h : ColonFirst s)
include h

theorem ColonFirst.head : s.head? ≠ some '-' := by
  intro hhead
  cases s with
  | nil => cases hhead
  | cons c s =>
    obtain rfl : c = '-' := Option.some.inj hhead
    exact absurd (h [] s rfl) List.not_mem_nil

theorem ColonFirst.take (n : Nat) : ColonFirst (s.take n) := by
  intro t u hs
  apply h t (u ++ s.drop n)
  have hsplit := List.take_append_drop n s
  rw [hs, List.append_assoc, List.cons_append] at hsplit
  exact hsplit.symm

theorem ColonFirst.dropWhile :
    ColonFirst (s.dropWhile isSpace) := by
  induction s with
  | nil => exact h
  | cons c s ih =>
    rw [List.dropWhile_cons]
    split
    · rename_i hspace
      apply ih (h.tail _)
      rintro rfl
      cases hspace
    · exact h

theorem ColonFirst.hexDigits (acc : Nat) :
    ColonFirst (hexDigits acc s).2 := by
  induction s generalizing acc with
  | nil => exact h
  | cons c s ih =>
    rw [Lib.hexDigits]
    split
    · rename_i d hd
      obtain ⟨-, -, -, -, -, -, hcolon⟩ := hexValue_special (c := c) (by rw [hd]; rfl)
      exact ih (h.tail hcolon) _
    · exact h

theorem ColonFirst.skipSign : ColonFirst (skipSign s).2 := by
  unfold Lib.skipSign
  split
  · exact absurd rfl h.head
  · exact h.tail (by decide)
  · exact h

theorem ColonFirst.skipPrefix : ColonFirst (skipPrefix s) := by
  unfold Lib.skipPrefix
  split
  · rename_i x t
    split
    · rename_i hx
      apply (h.tail (by decide)).tail
      rcases hx with rfl | rfl <;> decide
    · exact h
  · exact h

end

theorem ColonFirst.scanRange {x : List Char} (h : ColonFirst x) : (scanRange x).word = none := by
  unfold Ceserver.scanRange
  have hnext : ∀ v t, scanHex x = some (v, t) → ColonFirst t := by
    intro v t hscan
    unfold scanHex at hscan
    dsimp only at hscan
    split at hscan
    · cases hscan
    · split at hscan
      · cases hscan
        exact h.dropWhile.skipSign.skipPrefix.hexDigits 0
      · cases hscan
  split
  · rename_i start rest hscan
    exact absurd rfl (hnext _ _ hscan).head
  · rfl
  · rfl

theorem colonFirst_name {name : List Char} (h : '-' ∉ name) (value : List Char) :
    ColonFirst (name ++ ':' :: value) := by
  induction name with
  | nil =>
    intro t u hs
    cases t with
    | nil => cases hs
    | cons c t =>
      obtain ⟨rfl, -⟩ := List.cons.inj hs
      exact List.mem_cons_self
  | cons c name ih =>
    rw [List.mem_cons, not_or] at h
    intro t u hs
    cases t with
    | nil => exact absurd (List.cons.inj hs).1.symm h.1
    | cons d t => exact List.mem_cons_of_mem d (ih h.2 t u (List.cons.inj hs).2)

theorem linesOf_info (i : InfoLine) :
    ∃ x, linesOf i.line = [x] ∧ (scanRange x).word = none := by
  have hbody : '\n' ∉ i.name ++ ':' :: i.value := by
    simp [i.name_newline, i.value_newline]
  have hline : i.line = (i.name ++ ':' :: i.value) ++ '\n' :: [] := by
    simp [InfoLine.line]
  have hcolon : ColonFirst i.line := by
    rw [hline, List.append_assoc]
    exact colonFirst_name i.name_dash _
  have hbodylen : (i.name ++ ':' :: i.value).length = i.name.length + (i.value.length + 1) := by
    rw [List.length_append, List.length_cons]
  have hlen := i.short
  by_cases hshort : (i.name ++ ':' :: i.value).length < 199
  · refine ⟨i.line, ?_, hcolon.scanRange⟩
    rw [hline, linesOf_short hbody hshort, linesOf_nil]
  · refine ⟨(i.name ++ ':' :: i.value).take 199, ?_, ?_⟩
    · rw [hline, linesOf_long hbody (by omega), if_pos (by omega), linesOf_nil]
    · exact ((colonFirst_name i.name_dash i.value).take 199).scanRange

end CheatEngine.Ceserver
