/-
  CheatEngine.Client.Scan

  The portable scanner: `ScanMemory` and `scanBuffer` of
  internal/ceserver/client.go.  The scanner walks the region list and reads
  each region in chunks, carrying the last `len(pattern) - 1` bytes over to the
  next chunk.
-/
import CheatEngine.Client.Memory

namespace CheatEngine.Client

open CheatEngine.Lib

/-- The inner loop of `scanBuffer`: the pattern matches at the front of
    `data`. -/
def matchesFront : List UInt8 → List UInt8 → List UInt8 → Bool
  | p :: pattern, m :: mask, d :: data =>
    (m == '?'.toUInt8 || d == p) && matchesFront pattern mask data
  | _, _, _ => true

/-- `scanBuffer`, from the address of the first byte of `data` on. -/
def scanBuffer (pattern mask : List UInt8) (scanStart : UInt64) (alignment : Int64)
    (minimumCandidate : UInt64) (maximumMatches : Nat) :
    UInt64 → List UInt8 → List UInt64 → List UInt64
  | address, [], found =>
    if ([] : List UInt8).length < pattern.length then found
    else if ¬ address < minimumCandidate ∧ (address - scanStart) % alignment.toUInt64 = 0 then
      found ++ [address]
    else found
  | address, d :: data, found =>
    if (d :: data).length < pattern.length then found
    else if ¬ address < minimumCandidate ∧ (address - scanStart) % alignment.toUInt64 = 0 ∧
        matchesFront pattern mask (d :: data) then
      if maximumMatches ≤ (found ++ [address]).length then found ++ [address]
      else scanBuffer pattern mask scanStart alignment minimumCandidate maximumMatches
        (address + 1) data (found ++ [address])
    else scanBuffer pattern mask scanStart alignment minimumCandidate maximumMatches
      (address + 1) data found

def saturatingAdd (left right : UInt64) : UInt64 :=
  if 0xFFFFFFFFFFFFFFFF - left < right then 0xFFFFFFFFFFFFFFFF else left + right

def chunkSize : UInt64 := 1048576

/-- What a scan is asked for. -/
structure ScanQuery where
  pattern : List UInt8
  mask : List UInt8
  start : UInt64
  stop : UInt64
  alignment : Int64
  protection : UInt32
  maximumMatches : Nat

/-- The chunk loop over one region up to `regionEnd`, and whether the limit
    was reached.  Each round that goes on has read at least one byte, so the
    bytes left are enough fuel. -/
def scanRegionLoop (q : ScanQuery) (handle : UInt32) (regionEnd : UInt64) :
    Nat → UInt64 → UInt64 → List UInt8 → List UInt64 → ClientM (List UInt64 × Bool)
  | 0, _, _, _, found => return (found, false)
  | fuel + 1, address, nextCandidate, tail, found =>
    if regionEnd ≤ address then return (found, false)
    else do
      checkContext
      let requested := min chunkSize (regionEnd - address)
      match ← attempt (readMemoryWithHandle handle address requested.toUInt32) with
      | .error _ => return (found, false)
      | .ok data =>
        if data = [] then return (found, false)
        else
          let combined := tail ++ data
          let baseAddress := address - UInt64.ofNat tail.length
          let found := scanBuffer q.pattern q.mask q.start q.alignment nextCandidate
            q.maximumMatches baseAddress combined found
          if q.maximumMatches ≤ found.length then return (found, true)
          else if UInt64.ofNat data.length < requested then return (found, false)
          else
            let nextCandidate :=
              if q.pattern.length ≤ combined.length then
                baseAddress + UInt64.ofNat (combined.length - q.pattern.length + 1)
              else nextCandidate
            let tailLength := min (q.pattern.length - 1) combined.length
            scanRegionLoop q handle regionEnd fuel (address + UInt64.ofNat data.length)
              nextCandidate (combined.drop (combined.length - tailLength)) found

def clip (q : ScanQuery) (region : Region) : UInt64 × UInt64 :=
  (max region.baseAddress q.start, min (saturatingAdd region.baseAddress region.size) q.stop)

def scanRegions (q : ScanQuery) (handle : UInt32) :
    List Region → List UInt64 → ClientM (List UInt64)
  | [], found => return found
  | region :: rest, found => do
    checkContext
    if region.protection &&& q.protection = 0 then scanRegions q handle rest found
    else
      let (regionStart, regionEnd) := clip q region
      if regionEnd ≤ regionStart ∨ (regionEnd - regionStart).toNat < q.pattern.length then
        scanRegions q handle rest found
      else
        let (found, reached) ← scanRegionLoop q handle regionEnd
          (regionEnd - regionStart).toNat regionStart regionStart [] found
        if reached then return found
        else scanRegions q handle rest found

def scanMemory (pid : Int32) (pattern mask : List UInt8) (start stop : UInt64)
    (alignment : Int64) (protection : UInt32) (maximumMatches : Int64) :
    ClientM (List UInt64) := do
  if pattern.length = 0 ∨ pattern.length ≠ mask.length then
    throw (.plain (text "pattern and mask must be non-empty and have equal lengths"))
  else if alignment.toInt < 1 then
    throw (.plain (text "alignment must be at least 1"))
  else if stop ≤ start then
    throw (.plain (text "scan end must be greater than scan start"))
  else if maximumMatches.toInt < 1 ∨ maximumCollectionEntries < maximumMatches.toInt then
    throw (.plain ⟨"maximum matches must be between 1 and %d",
      [.int maximumCollectionEntries]⟩)
  else
    let handle ← openProcess pid
    deferClose handle do
      let list ← regionsWithHandle handle 0
      scanRegions ⟨pattern, mask, start, stop, alignment, protection, maximumMatches.toInt.toNat⟩
        handle list []

end CheatEngine.Client
