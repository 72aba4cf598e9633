/-
  CheatEngine.Ceserver.RegionList

  The region list of `VirtualQueryExFull` (api.c), behind the parser: one block for each
  mapping of smaps, filtered by the flags, and with VQE_PAGEDONLY cut down to the pages
  that /proc/pid/pagemap shows as present.

  The blocks are read in pieces of 512 entries.  A read that fails is made again, for ever
  if need be; and a mapping at the address 0 is taken for no mapping at all.
-/
import CheatEngine.Ceserver.Api
import CheatEngine.Lib.Runs

namespace CheatEngine.Ceserver

open CheatEngine.Lib

def PAGE_NOACCESS : UInt32 := 1
def PAGE_READONLY : UInt32 := 2
def PAGE_READWRITE : UInt32 := 4
def PAGE_EXECUTE_READ : UInt32 := 32
def PAGE_EXECUTE_READWRITE : UInt32 := 64
def MEM_PRIVATE : UInt32 := 131072
def MEM_MAPPED : UInt32 := 262144

def protectionStringToType (protectionstring : List Char) : UInt32 :=
  if 's' ∈ protectionstring then MEM_MAPPED else MEM_PRIVATE

def protectionStringToProtection (protectionstring : List Char) : UInt32 :=
  if 'x' ∈ protectionstring then
    if 'w' ∈ protectionstring then PAGE_EXECUTE_READWRITE else PAGE_EXECUTE_READ
  else
    if 'w' ∈ protectionstring then PAGE_READWRITE else PAGE_READONLY

/-- The growing array: there is room for one more entry. -/
structure RegionList where
  entries : List RegionInfo
  max : Nat
  room : entries.length < max

namespace RegionList

def empty (max : Nat) (h : 0 < max) : RegionList := ⟨[], max, h⟩

def add (l : RegionList) (base size : Nat) (type protection : UInt32) : RegionList where
  entries := l.entries ++ [⟨UInt64.ofNat base, UInt64.ofNat size, protection, type⟩]
  max := if l.max ≤ l.entries.length + 1 then l.max * 2 else l.max
  room := by
    have hroom := l.room
    rw [List.length_append, List.length_singleton]
    split <;> omega

@[simp] theorem add_entries (l : RegionList) (base size : Nat) (type protection : UInt32) :
    (l.add base size type protection).entries =
      l.entries ++ [⟨UInt64.ofNat base, UInt64.ofNat size, protection, type⟩] := rfl

end RegionList

/-- A mapping as the parser leaves it: the range of its header line, the protection string,
    and whether an info line said that it is dirty. -/
structure Block where
  start : Nat
  stop : Nat
  protectionstring : List Char
  isdirty : Bool
  deriving DecidableEq, Repr

namespace Block

def type (b : Block) : UInt32 := protectionStringToType b.protectionstring

def protection (b : Block) : UInt32 := protectionStringToProtection b.protectionstring

end Block

def pagedonly (flags : UInt32) : Bool := flags &&& 1 ≠ 0
def dirtyonly (flags : UInt32) : Bool := flags &&& 2 ≠ 0
def noshared (flags : UInt32) : Bool := flags &&& 4 ≠ 0

/-- The checks of a block, apart from VQE_PAGEDONLY. -/
def Block.passed (flags : UInt32) (b : Block) : Bool :=
  ¬ (noshared flags ∧ b.type = MEM_MAPPED) ∧ ¬ (dirtyonly flags ∧ ¬ b.isdirty)

/-- The page size, and what the reads of /proc/pid/pagemap do: the `k`-th one fails, or it
    gives at most `count` entries from the entry `offset` on.  `stale` is what is in the
    buffer before the first read. -/
structure PageReads where
  pagesize : Nat
  fails : Nat → Bool
  data : Nat → Nat → Nat → List UInt64
  stale : Vector UInt64 512
  pagesize_pos : 0 < pagesize

def PageReads.pread (env : PageReads) (k offset count : Nat) : Option (List UInt64) :=
  if env.fails k then none else some ((env.data k offset count).take count)

def present (entry : UInt64) : Bool := entry >>> 63 ≠ 0

/-- The state of the listing. -/
structure Listing where
  list : RegionList
  reads : Nat
  pagemapEntries : List UInt64

/-- One `AddToRegionList` for each run of present pages, from the address `current` on. -/
def addRuns (pagesize current : Nat) (b : Block) (list : RegionList) (runs : List Span) :
    RegionList :=
  runs.foldl (fun l r => l.add (current + r.first * pagesize) (r.count * pagesize) b.type
    b.protection) list

/-- The loop over the pages of a block, for at most that many rounds. -/
def pageLoop (env : PageReads) (b : Block) : Nat → Nat → Listing → Option Listing
  | 0, _, _ => none
  | fuel + 1, current, s =>
    if current < b.stop then
      let offset := current / env.pagesize
      let pagecount := min ((b.stop - current) / env.pagesize) 512
      match env.pread s.reads offset pagecount with
      -- the cursor stays where it is
      | none => pageLoop env b fuel current { s with reads := s.reads + 1 }
      | some data =>
        let entries := data ++ s.pagemapEntries.drop data.length
        let runs := runsOf ((entries.take pagecount).map present) 0 none
        pageLoop env b fuel (current + pagecount * env.pagesize)
          ⟨addRuns env.pagesize current b s.list runs, s.reads + 1, entries⟩
    else some s

section

variable (flags : UInt32) (env : PageReads)

/-- A block whose header line is followed by another one, or by the end. -/
def listBlock (fuel : Nat) (s : Listing) (b : Block) : Option Listing :=
  if b.start ≠ 0 ∧ b.passed flags then
    if pagedonly flags then pageLoop env b fuel b.start s
    -- the difference is taken modulo 2^64
    else some { s with list := s.list.add b.start (b.stop + 2 ^ 64 - b.start) b.type b.protection }
  else some s

def Listing.start : Listing :=
  ⟨RegionList.empty (if pagedonly flags then 64 else 128) (by split <;> decide), 0,
    env.stale.toList⟩

/-- `VirtualQueryExFull` over the blocks of smaps. -/
def listBlocks (fuel : Nat) (blocks : List Block) : Option Listing :=
  blocks.foldlM (listBlock flags env fuel) (Listing.start flags env)

end

end CheatEngine.Ceserver
