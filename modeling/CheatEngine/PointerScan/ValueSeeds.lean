/-
  CheatEngine.PointerScan.ValueSeeds

  The start of `TPointerscanController.reversescan` with `findValueInsteadOfAddress`:
  every address that `TValueFinder` finds goes to `pathqueue`, or through
  `overflowqueuebuffer` to `overflowqueue`.  The position in the buffer is not set
  back when the buffer is copied, and at the end all 128 elements are copied once
  more, however many of them hold an address.
-/
import CheatEngine.PointerScan.Workers

namespace CheatEngine.PointerScan

/-- What is set of a queue element here. -/
structure Seed where
  startlevel : Nat := 0
  valuetofind : UInt64 := 0

/-- An address that was found, with `pathqueuelength` as it is then and again inside
    `pathqueueCS`: the workers take and put elements meanwhile. -/
structure FoundValue where
  currentaddress : UInt64
  pathqueuelength : Nat
  lockedlength : Nat

/-- What `reversescan` has put into the queues, and the indexes it has used. -/
structure SeedState where
  pathqueue : List Seed := []
  overflowqueue : List Seed := []
  overflowqueuebuffer : List Seed := List.replicate 128 {}
  overfloqeueuebufferpos : Nat := 0
  indexes : List Nat := []

namespace SeedState

def addSeed (s : SeedState) (f : FoundValue) : SeedState :=
  if f.pathqueuelength < maxQueueSize - 1 ∧ f.lockedlength < maxQueueSize - 1 then
    { s with pathqueue := s.pathqueue ++ [⟨0, f.currentaddress⟩] }
  else
    let pos := s.overfloqeueuebufferpos
    let buffer := s.overflowqueuebuffer.modify pos fun e =>
      { e with valuetofind := f.currentaddress }
    { s with
      overflowqueuebuffer := buffer
      overfloqeueuebufferpos := pos + 1
      indexes := s.indexes ++ [pos]
      overflowqueue := if 128 ≤ pos + 1 then s.overflowqueue ++ buffer else s.overflowqueue }

/-- A scan that is not terminated. -/
def addSeeds (found : List FoundValue) : SeedState :=
  let s := found.foldl addSeed {}
  { s with overflowqueue := s.overflowqueue ++ s.overflowqueuebuffer }

/-- Each address is in one of the queues, once and with level 0, and nothing else; the
    indexes fit the buffer. -/
structure Exact (found : List FoundValue) (s : SeedState) : Prop where
  seeds : (s.pathqueue ++ s.overflowqueue).Perm (found.map fun f => ⟨0, f.currentaddress⟩)
  indexes : ∀ i ∈ s.indexes, i < 128

/-- After `n` addresses, as far as it can be counted: from the 128th that did not fit
    into `pathqueue` on the buffer is copied each time. -/
structure Counted (n : Nat) (s : SeedState) : Prop where
  put : s.pathqueue.length + s.overfloqeueuebufferpos = n
  buffer : s.overflowqueuebuffer.length = 128
  copied : s.overflowqueue.length = 128 * (s.overfloqeueuebufferpos - 127)
  indexes : s.indexes = List.range s.overfloqeueuebufferpos

theorem Counted.addSeed {n : Nat} {s : SeedState} (h : Counted n s) (f : FoundValue) :
    Counted (n + 1) (s.addSeed f) := by
  obtain ⟨hput, hbuffer, hcopied, hindexes⟩ := h
  unfold SeedState.addSeed
  split
  · refine ⟨?_, hbuffer, hcopied, hindexes⟩
    rw [List.length_append, List.length_singleton]
    dsimp only
    omega
  · refine ⟨by dsimp only; omega, by simpa using hbuffer, ?_, ?_⟩
    · dsimp only
      split
      · rw [List.length_append, List.length_modify, hbuffer, hcopied]
        omega
      · rw [hcopied]
        omega
    · rw [hindexes, List.range_succ]

theorem Counted.foldl {n : Nat} {s : SeedState} (h : Counted n s) (found : List FoundValue) :
    Counted (n + found.length) (found.foldl SeedState.addSeed s) := by
  induction found generalizing n s with
  | nil => exact h
  | cons f rest ih =>
    rw [List.length_cons, Nat.add_left_comm, Nat.add_comm]
    exact ih (h.addSeed f)

theorem not_exact_of_counted {found : List FoundValue} {s : SeedState}
    (h : Counted found.length s) :
    ¬ Exact found { s with overflowqueue := s.overflowqueue ++ s.overflowqueuebuffer } := by
  rintro ⟨hseeds, hindexes⟩
  have hlength := hseeds.length_eq
  have hput := h.put
  simp only [List.length_append, List.length_map, h.buffer, h.copied] at hlength
  -- more than 128 addresses need index 128
  have hle : s.overfloqeueuebufferpos ≤ 128 := by
    by_contra hmore
    have hlt := hindexes 128 (h.indexes ▸ List.mem_range.2 (Nat.lt_of_not_le hmore))
    exact absurd hlt (Nat.lt_irrefl 128)
  omega

theorem counted_addSeeds (found : List FoundValue) :
    Counted found.length (found.foldl addSeed {}) := by
  have hstart : Counted 0 {} := ⟨rfl, rfl, rfl, rfl⟩
  simpa using hstart.foldl found

/-- The seeds are never exact, whatever is found and however fast the workers are. -/
theorem addSeeds_not_exact (found : List FoundValue) : ¬ Exact found (addSeeds found) :=
  not_exact_of_counted (counted_addSeeds found)

/-- One address that fits into `pathqueue`: 128 empty elements are copied. -/
theorem one_seed_not_exact :
    ¬ Exact [⟨0x1000, 0, 0⟩] (addSeeds [⟨0x1000, 0, 0⟩]) :=
  not_exact_of_counted (counted_addSeeds _)

end SeedState

end CheatEngine.PointerScan
