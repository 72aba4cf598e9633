/-
  CheatEngine.Dbvm.LogRetrieval

  The retrieval of a log while pages of the guest are missing (epthandler.c).
  `ept_watch_retrievelog` copies up to the first page that is not present, raises its page
  fault, and goes on from there when the guest executes the VMCALL again.  The size of the
  part in front of the missing page is a difference of addresses, and it is negative when the
  destination lies inside that page.
-/
import CheatEngine.Dbvm.WatchLog

namespace CheatEngine.Dbvm

open CheatEngine.Lib

variable {t : EntryType}

/-! ## Runs -/

/-- What happens during a transfer. -/
inductive TransferInput (t : EntryType)
  /-- The guest executes the VMCALL, with these entries of the CPU's map table in use. -/
  | call (used : Nat → Bool)
  | event (e : LogEvent t)
  /-- The guest makes a page present. -/
  | paged (page : Nat)

/-- A transfer, and the error code that ended it. -/
structure Transfer (t : EntryType) where
  s : Retrieval t
  ended : Option Nat

namespace GuestMemory

def pageIn (g : GuestMemory) (page : Nat) : GuestMemory :=
  { g with present := fun p => p = page || g.present p }

theorem StartsPresent.pageIn {g : GuestMemory} {address : Nat} (h : g.StartsPresent address)
    (page : Nat) : (g.pageIn page).StartsPresent address := by
  rcases h with haligned | hpresent
  · exact Or.inl haligned
  · right
    show (_ || g.present (address / 4096)) = true
    rw [hpresent, Bool.or_true]

end GuestMemory

namespace Transfer

/-- What the guest does with the reply to its call. -/
def reply (x : RetrieveReply × Retrieval t) : Transfer t :=
  match x.1 with
  | .returned errorcode => ⟨x.2, some errorcode⟩
  -- the guest handles the page fault
  | .fault address => ⟨{ x.2 with guest := x.2.guest.pageIn (address / 4096) }, none⟩
  | .rerun => ⟨x.2, none⟩

/-- One step.  When the transfer has ended the guest does not call again. -/
def step (eptWatchListPos ID results : Nat) (x : Transfer t) : TransferInput t → Option (Transfer t)
  | .call used =>
    if x.ended.isSome then some x
    else (x.s.retrievelog eptWatchListPos ID results used).map reply
  | .event e => (x.s.logged.logEvent e).map fun logged => { x with s := { x.s with logged := logged } }
  | .paged page => some { x with s := { x.s with guest := x.s.guest.pageIn page } }

/-- A call returns, and the offset that it returns is not smaller. -/
def Advances (eptWatchListPos ID results : Nat) (x : Transfer t) : TransferInput t → Prop
  | .call used => ∃ x', x.step eptWatchListPos ID results (.call used) = some x' ∧
      x.s.offset ≤ x'.s.offset
  | .event _ | .paged _ => True

end Transfer

/-- The byte at this offset belongs to `missedEntries`. -/
def isMissedField (i : Nat) : Prop := 12 ≤ i ∧ i < 16

/-- The log can be copied: its destination starts with a page, or the first page of it is
    present, and `sizeleft` is not a negative number that rounds to a page. -/
def Retrieval.CanCopy (s : Retrieval t) (results : Nat) : Prop :=
  s.guest.StartsPresent results ∧ s.logged.log.sizeneeded + results % 4096 ≤ 2 ^ 32 - 4096

/-- A call is not refused because of its parameters. -/
def Retrieval.Accepts (eptWatchListPos ID results : Nat) (s : Retrieval t) : Prop :=
  ID < eptWatchListPos ∧ s.logged.watch.active = true ∧ s.logged.log.sizeneeded ≤ s.resultSize ∧
    results ≠ 0

namespace Transfer

/-- What a transfer promises: each call returns, that is it copies no negative number of bytes,
    and with an offset that is not smaller; no byte of the guest outside the destination
    changes; and after error code 0 the destination holds the log as it was at the start, but
    for its count of missed events. -/
def Complete (eptWatchListPos ID results : Nat) (s : Retrieval t) (inputs : List (TransferInput t)) :
    Prop :=
  AlongM (step eptWatchListPos ID results) (Advances eptWatchListPos ID results) ⟨s, none⟩ inputs ∧
    ∀ x, execM (step eptWatchListPos ID results) ⟨s, none⟩ inputs = some x →
      (∀ a, a < 2 ^ 64 → (∀ i, i < s.logged.log.sizeneeded → a ≠ addressAt results i) →
        x.s.guest.byte a = s.guest.byte a) ∧
      (x.ended = some 0 → ∀ i, i < s.logged.log.sizeneeded → ¬ isMissedField i →
        some (x.s.guest.byte (addressAt results i)) = s.logged.log.bytes[i]?)

end Transfer

namespace WatchLog

/-- The logs differ in `missedEntries` at most. -/
def SameEntries (log log' : WatchLog t) : Prop :=
  log'.id = log.id ∧ log'.maxNumberOfEntries = log.maxNumberOfEntries ∧ log'.pe = log.pe

theorem SameEntries.refl (log : WatchLog t) : SameEntries log log := ⟨rfl, rfl, rfl⟩

theorem SameEntries.sizeneeded {log log' : WatchLog t} (h : SameEntries log log') :
    log'.sizeneeded = log.sizeneeded := by
  rw [WatchLog.sizeneeded, WatchLog.sizeneeded, h.2.2]

theorem bytes_eq (log : WatchLog t) :
    log.bytes =
      (u32 log.id ++ u32 log.maxNumberOfEntries ++ u32 (UInt32.ofNat log.pe.length)) ++
        (u32 log.missedEntries ++
          (u32 t.code ++ List.replicate 4 0 ++ log.pe.flatMap LogEntry.bytes)) := by
  simp only [bytes, header, List.append_assoc]

theorem getElem?_append_middle {a b b' c : List UInt8} {i : Nat} (hlength : b'.length = b.length)
    (hi : i < a.length ∨ a.length + b.length ≤ i) :
    (a ++ (b' ++ c))[i]? = (a ++ (b ++ c))[i]? := by
  rcases hi with hlt | hge
  · rw [List.getElem?_append_left hlt, List.getElem?_append_left hlt]
  · rw [List.getElem?_append_right (by omega), List.getElem?_append_right (by omega),
      List.getElem?_append_right (by omega), List.getElem?_append_right (by omega), hlength]

theorem SameEntries.getElem?_bytes {log log' : WatchLog t} (h : SameEntries log log') {i : Nat}
    (hi : ¬ isMissedField i) : log'.bytes[i]? = log.bytes[i]? := by
  obtain ⟨hid, hmax, hpe⟩ := h
  have hlength : (u32 log'.missedEntries).length = (u32 log.missedEntries).length := by
    rw [u32_length, u32_length]
  rw [bytes_eq, bytes_eq, hid, hmax, hpe]
  apply getElem?_append_middle hlength
  simp only [List.length_append, u32_length]
  unfold isMissedField at hi
  omega

end WatchLog

/-! ## One call -/

namespace Retrieval

variable {s s' : Retrieval t} {results eptWatchListPos ID : Nat} {used : Nat → Bool}

def advance (s : Retrieval t) (results n : Nat) : Retrieval t :=
  { s with
    logged := { s.logged with copyInProgress := true }
    guest := s.guest.write (addressAt results s.offset) ((s.logged.log.bytes.drop s.offset).take n)
    offset := s.offset + n }

/-- What a call can do. -/
inductive Moved (results : Nat) (s : Retrieval t) : RetrieveReply → Retrieval t → Prop
  /-- Nothing is copied. -/
  | refused {errorcode : Nat} {s' : Retrieval t} (hcode : errorcode ≠ 0)
      (hguest : s'.guest = s.guest) (hoffset : s'.offset = s.offset)
      (hlog : s'.logged.log = s.logged.log) : Moved results s (.returned errorcode) s'
  /-- A block is copied, and the next one can be. -/
  | copied {n : Nat} {reply : RetrieveReply} (hsize : s.logged.log.sizeneeded < 2 ^ 31)
      (hn : s.offset + n ≤ s.logged.log.sizeneeded)
      (hnext : (s.advance results n).guest.StartsPresent (addressAt results (s.offset + n)))
      (hreply : ∀ errorcode, reply ≠ .returned errorcode) :
      Moved results s reply (s.advance results n)
  /-- The last block is copied. -/
  | finished {n : Nat} (hn : s.offset + n = s.logged.log.sizeneeded) :
      Moved results s (.returned 0) (s.advance results n).finish

theorem copyBlock_eq (n : Nat) (hn : s.offset + n < 2 ^ 32) :
    ({ s with logged := { s.logged with copyInProgress := true } } : Retrieval t).copyBlock
      (addressAt results s.offset) n = some (s.advance results n) := by
  rw [copyBlock, if_neg (by omega), Int.toNat_natCast]
  show some ({ s with logged := _, guest := _, offset := (s.offset + n) % 2 ^ 32 } : Retrieval t) = _
  rw [Nat.mod_eq_of_lt hn]
  rfl

/-- The address behind a block of 16 pages is on the page that the block ends in, or starts a
    page. -/
theorem startsPresent_of_mapped {g : GuestMemory} {address : Nat} (haddress : address < 2 ^ 64)
    (h : mapVMmemoryEx g used address (16 * 4096) = .mapped) :
    g.StartsPresent (addressAt address (16 * 4096)) := by
  by_cases haligned : address % 4096 = 0
  · left
    unfold addressAt
    omega
  · right
    have hlast : addressAt address (16 * 4096) / 4096 = addressAt address (16 * 4096 - 1) / 4096 := by
      unfold addressAt
      omega
    rw [hlast]
    exact present_of_mapped haddress h (by omega)

theorem moved_transfer (hsize : s.logged.log.sizeneeded < 2 ^ 31)
    (hoffset : s.offset ≤ s.logged.log.sizeneeded)
    (hstart : s.guest.StartsPresent (addressAt results s.offset)) :
    ∃ reply s', s.transfer results used = some (reply, s') ∧ Moved results s reply s' := by
  have hleft : toInt32 (s.logged.log.sizeneeded - s.offset) =
      (s.logged.log.sizeneeded - s.offset : Nat) := by
    unfold toInt32
    omega
  have hblock : min (toInt32 (s.logged.log.sizeneeded - s.offset)) (16 * 4096) =
      (min (s.logged.log.sizeneeded - s.offset) (16 * 4096) : Nat) := by
    rw [hleft]
    omega
  have haddress : addressAt results s.offset < 2 ^ 64 := addressAt_lt _ _
  unfold transfer
  dsimp only
  rw [hblock]
  rcases Nat.eq_zero_or_pos (min (s.logged.log.sizeneeded - s.offset) (16 * 4096)) with hzero | hpos
  · -- nothing is left: the size is refused
    rw [hzero, mapVMmemoryEx, if_pos Int.natCast_zero]
    exact ⟨_, _, rfl, .refused (by omega) rfl rfl rfl⟩
  · cases hmap : mapVMmemoryEx s.guest used (addressAt results s.offset)
        (min (s.logged.log.sizeneeded - s.offset) (16 * 4096) : Nat) with
    | noRoom => exact ⟨_, _, rfl, .refused (by omega) rfl rfl rfl⟩
    | badSize => exact ⟨_, _, rfl, .refused (by omega) rfl rfl rfl⟩
    | pageFault a =>
      obtain ⟨n, hdifference, hn, ha, haligned⟩ :=
        hstart.pageFault haddress (by omega) (by omega) hmap
      dsimp only
      rw [hdifference, copyBlock_eq n (by omega)]
      refine ⟨_, _, rfl, .copied hsize (by omega) (Or.inl ?_) (fun _ h => (by cases h))⟩
      rw [← addressAt_add, ← ha]
      exact haligned
    | mapped =>
      dsimp only
      rw [copyBlock_eq _ (by omega), Option.map_some]
      split
      · next hend =>
        have hlast : s.offset + min (s.logged.log.sizeneeded - s.offset) (16 * 4096) =
            s.logged.log.sizeneeded := by
          have hge : s.logged.log.sizeneeded ≤
            s.offset + min (s.logged.log.sizeneeded - s.offset) (16 * 4096) := hend
          omega
        exact ⟨_, _, rfl, .finished hlast⟩
      · next hend =>
        have hfull : min (s.logged.log.sizeneeded - s.offset) (16 * 4096) = 16 * 4096 := by
          have hlt : ¬ s.logged.log.sizeneeded ≤
            s.offset + min (s.logged.log.sizeneeded - s.offset) (16 * 4096) := hend
          omega
        refine ⟨_, _, rfl, .copied hsize (by omega) ?_ (fun _ h => (by cases h))⟩
        rw [hfull] at hmap ⊢
        rw [← addressAt_add]
        exact startsPresent_of_mapped haddress hmap

theorem moved_transfer_of_large (hsize : 2 ^ 31 ≤ s.logged.log.sizeneeded)
    (hfits : s.logged.log.sizeneeded + results % 4096 ≤ 2 ^ 32 - 4096) (hoffset : s.offset = 0) :
    ∃ reply s', s.transfer results used = some (reply, s') ∧ Moved results s reply s' := by
  have hleft : toInt32 (s.logged.log.sizeneeded - s.offset) =
      (s.logged.log.sizeneeded : Int) - 2 ^ 32 := by
    unfold toInt32
    omega
  have hblock : min (toInt32 (s.logged.log.sizeneeded - s.offset)) (16 * 4096) =
      (s.logged.log.sizeneeded : Int) - 2 ^ 32 := by
    rw [hleft]
    omega
  have hmod : addressAt results s.offset % 4096 = results % 4096 := by
    unfold addressAt
    omega
  have hnone : mmFindMapPositionForSize used ((s.logged.log.sizeneeded : Int) - 2 ^ 32 +
      (addressAt results s.offset % 4096 : Nat)) = none :=
    mmFindMapPositionForSize_of_neg used (by omega)
  have hmap : mapVMmemoryEx s.guest used (addressAt results s.offset)
      ((s.logged.log.sizeneeded : Int) - 2 ^ 32) = .noRoom := by
    rw [mapVMmemoryEx, if_neg (by omega)]
    dsimp only
    rw [hnone, Option.isNone_none, if_pos rfl]
  unfold transfer
  dsimp only
  rw [hblock, hmap]
  exact ⟨_, _, rfl, .refused (by omega) rfl rfl rfl⟩

theorem moved_retrievelog (htransfer : s.Accepts eptWatchListPos ID results →
      s.offset ≤ s.logged.log.sizeneeded → ∃ reply s', s.transfer results used = some (reply, s') ∧
        Moved results s reply s') :
    ∃ reply s', s.retrievelog eptWatchListPos ID results used = some (reply, s') ∧
      Moved results s reply s' := by
  unfold retrievelog
  by_cases hID : eptWatchListPos ≤ ID
  · rw [if_pos hID]
    exact ⟨_, _, rfl, .refused (by omega) rfl rfl rfl⟩
  rw [if_neg hID]
  by_cases hactive : s.logged.watch.active = true
  swap
  · rw [if_pos (by simpa using hactive)]
    exact ⟨_, _, rfl, .refused (by omega) rfl rfl rfl⟩
  rw [if_neg (by simp [hactive])]
  by_cases hsize : s.resultSize < s.logged.log.sizeneeded
  · rw [if_pos hsize]
    exact ⟨_, _, rfl, .refused (by omega) rfl rfl rfl⟩
  rw [if_neg hsize]
  by_cases hresults : results = 0
  · rw [if_pos hresults]
    exact ⟨_, _, rfl, .refused (by omega) rfl rfl rfl⟩
  rw [if_neg hresults]
  -- an offset without a copy in progress, and one behind the end
  split
  · exact ⟨_, _, rfl, .refused (by omega) rfl rfl rfl⟩
  split
  · exact ⟨_, _, rfl, .refused (by omega) rfl rfl rfl⟩
  · next hoffset =>
    exact htransfer ⟨by omega, hactive, by omega, hresults⟩ (by omega)

end Retrieval

/-! ## The transfer -/

namespace Transfer

variable {x x' : Transfer t} {log₀ : WatchLog t} {g₀ : GuestMemory}
  {eptWatchListPos ID results : Nat}

/-- The bytes of the guest in front of the offset are those of the log, and all others are as
    they were. -/
structure Copied (log₀ : WatchLog t) (g₀ : GuestMemory) (results : Nat) (s : Retrieval t) :
    Prop where
  offset : s.offset ≤ log₀.sizeneeded
  copied : ∀ i, i < s.offset → ¬ isMissedField i →
    some (s.guest.byte (addressAt results i)) = log₀.bytes[i]?
  frame : ∀ a, a < 2 ^ 64 → (∀ i, i < s.offset → a ≠ addressAt results i) →
    s.guest.byte a = g₀.byte a

/-- The next call can copy. -/
structure Waiting (log₀ : WatchLog t) (results : Nat) (s : Retrieval t) : Prop where
  log : WatchLog.SameEntries log₀ s.logged.log
  start : s.guest.StartsPresent (addressAt results s.offset)
  size : log₀.sizeneeded < 2 ^ 31 ∨
    s.offset = 0 ∧ log₀.sizeneeded + results % 4096 ≤ 2 ^ 32 - 4096

/-- What a transfer keeps. -/
structure Inv (log₀ : WatchLog t) (g₀ : GuestMemory) (results : Nat) (x : Transfer t) : Prop where
  copied : Copied log₀ g₀ results x.s
  waiting : x.ended = none → Waiting log₀ results x.s
  complete : x.ended = some 0 → x.s.offset = log₀.sizeneeded

/-- After the first call the events are missed. -/
def Copying (x : Transfer t) : Prop := x.ended = none → x.s.logged.copyInProgress = true

theorem Copied.advance {s : Retrieval t} (h : Copied log₀ g₀ results s)
    (hlog : WatchLog.SameEntries log₀ s.logged.log) {n : Nat}
    (hn : s.offset + n ≤ log₀.sizeneeded) : Copied log₀ g₀ results (s.advance results n) := by
  have haddress : addressAt results s.offset < 2 ^ 64 := addressAt_lt _ _
  have hsize : log₀.sizeneeded < 2 ^ 32 := Nat.mod_lt _ (by omega)
  have hbytes : log₀.sizeneeded ≤ s.logged.log.bytes.length := by
    rw [← hlog.sizeneeded]
    exact s.logged.log.sizeneeded_le
  have hlength : ((s.logged.log.bytes.drop s.offset).take n).length = n := by
    rw [List.length_take, List.length_drop]
    omega
  refine ⟨hn, fun i hi hfield => ?_, fun a ha hother => ?_⟩
  · show some ((s.guest.write _ _).byte _) = _
    by_cases hlt : i < s.offset
    · -- an earlier block, which does not overlap this one
      rw [GuestMemory.byte_write_of_ne haddress (addressAt_lt _ _), h.copied i hlt hfield]
      intro j hj
      rw [hlength] at hj
      rw [addressAt_add]
      unfold addressAt
      omega
    · have hi' : i < s.offset + n := hi
      obtain ⟨j, rfl⟩ : ∃ j, i = s.offset + j := ⟨i - s.offset, by omega⟩
      rw [← addressAt_add, GuestMemory.byte_write haddress (by omega),
        List.getElem?_take_of_lt (by omega), List.getElem?_drop, ← hlog.getElem?_bytes hfield,
        List.getElem?_eq_getElem (by omega), Option.getD_some]
  · show (s.guest.write _ _).byte a = _
    rw [GuestMemory.byte_write_of_ne haddress ha]
    · exact h.frame a ha fun i hi => hother i (Nat.lt_of_lt_of_le hi (Nat.le_add_right _ _))
    · intro i hi
      rw [hlength] at hi
      rw [addressAt_add]
      exact hother (s.offset + i) (Nat.add_lt_add_left hi _)

theorem Copied.congr {s s' : Retrieval t} (h : Copied log₀ g₀ results s)
    (hbyte : s'.guest.byte = s.guest.byte) (hoffset : s'.offset = s.offset) :
    Copied log₀ g₀ results s' := by
  refine ⟨?_, ?_, ?_⟩
  · rw [hoffset]
    exact h.offset
  · rw [hoffset, hbyte]
    exact h.copied
  · rw [hoffset, hbyte]
    exact h.frame

theorem inv_reply {s s' : Retrieval t} {r : RetrieveReply} (hcopied : Copied log₀ g₀ results s)
    (hlog : WatchLog.SameEntries log₀ s.logged.log) (hmoved : s.Moved results r s') :
    s.offset ≤ (reply (r, s')).s.offset ∧ Inv log₀ g₀ results (reply (r, s')) ∧
      Copying (reply (r, s')) := by
  have hsizes := hlog.sizeneeded
  cases hmoved with
  | refused hcode hguest hoffset hrest =>
    refine ⟨hoffset.ge, ⟨?_, fun hnone => (by cases hnone), fun hzero => ?_⟩,
      fun hnone => (by cases hnone)⟩
    · exact hcopied.congr (congrArg GuestMemory.byte hguest) hoffset
    · exact absurd (Option.some.inj hzero) hcode
  | @copied n _ hsize hn hnext hreply =>
    rw [hsizes] at hsize hn
    have hcopied := hcopied.advance hlog hn
    cases r with
    | returned errorcode => exact absurd rfl (hreply errorcode)
    | fault a =>
      refine ⟨Nat.le_add_right _ _, ⟨hcopied.congr rfl rfl, fun _ => ?_,
        fun hzero => (by cases hzero)⟩, fun _ => rfl⟩
      exact ⟨hlog, hnext.pageIn _, Or.inl hsize⟩
    | rerun =>
      refine ⟨Nat.le_add_right _ _, ⟨hcopied, fun _ => ?_, fun hzero => (by cases hzero)⟩,
        fun _ => rfl⟩
      exact ⟨hlog, hnext, Or.inl hsize⟩
  | @finished n hn =>
    rw [hsizes] at hn
    refine ⟨Nat.le_add_right _ _, ⟨?_, fun hnone => (by cases hnone), fun _ => hn⟩,
      fun hnone => (by cases hnone)⟩
    exact (hcopied.advance hlog (Nat.le_of_eq hn)).congr rfl rfl

theorem inv_call (eptWatchListPos ID : Nat) (used : Nat → Bool) (hended : x.ended = none)
    (hcopied : Copied log₀ g₀ results x.s) (hlog : WatchLog.SameEntries log₀ x.s.logged.log)
    (hwaiting : x.s.Accepts eptWatchListPos ID results → Waiting log₀ results x.s) :
    ∃ x', x.step eptWatchListPos ID results (.call used) = some x' ∧ x.s.offset ≤ x'.s.offset ∧
      Inv log₀ g₀ results x' ∧ Copying x' := by
  have htransfer : x.s.Accepts eptWatchListPos ID results →
      x.s.offset ≤ x.s.logged.log.sizeneeded →
      ∃ reply s', x.s.transfer results used = some (reply, s') ∧
        Retrieval.Moved results x.s reply s' := by
    intro haccepts hoffset
    obtain ⟨-, hstart, hsize⟩ := hwaiting haccepts
    rcases Nat.lt_or_ge x.s.logged.log.sizeneeded (2 ^ 31) with hsmall | hlarge
    · exact Retrieval.moved_transfer hsmall hoffset hstart
    · rw [← hlog.sizeneeded] at hsize
      rcases hsize with hsmall | ⟨hzero, hfits⟩
      · omega
      · exact Retrieval.moved_transfer_of_large hlarge hfits hzero
  obtain ⟨r, s', hcall, hmoved⟩ := Retrieval.moved_retrievelog htransfer
  refine ⟨reply (r, s'), ?_, inv_reply hcopied hlog hmoved⟩
  show (if x.ended.isSome then some x else _) = _
  rw [hended, Option.isSome_none, if_neg Bool.false_ne_true, hcall, Option.map_some]

theorem logEvent_of_copying {w : LoggedWatch t} (h : w.copyInProgress = true) (e : LogEvent t) :
    w.logEvent e = some w ∨ w.logEvent e = some w.miss := by
  rw [LoggedWatch.logEvent, if_pos h]
  split
  · exact Or.inl rfl
  · exact Or.inr rfl

theorem inv_event (e : LogEvent t) (h : Inv log₀ g₀ results x) (hcopying : Copying x)
    (hstep : x.step eptWatchListPos ID results (.event e) = some x') :
    Inv log₀ g₀ results x' ∧ Copying x' := by
  obtain ⟨logged, hlogged, rfl⟩ := Option.map_eq_some_iff.1 hstep
  refine ⟨⟨h.copied.congr rfl rfl, fun hnone => ?_, h.complete⟩, fun hnone => ?_⟩
  · obtain ⟨hlog, hstart, hsize⟩ := h.waiting hnone
    rcases logEvent_of_copying (hcopying hnone) e with heq | heq
    · obtain rfl := Option.some.inj (heq.symm.trans hlogged)
      exact ⟨hlog, hstart, hsize⟩
    · obtain rfl := Option.some.inj (heq.symm.trans hlogged)
      exact ⟨hlog, hstart, hsize⟩
  · rcases logEvent_of_copying (hcopying hnone) e with heq | heq
    · obtain rfl := Option.some.inj (heq.symm.trans hlogged)
      exact hcopying hnone
    · obtain rfl := Option.some.inj (heq.symm.trans hlogged)
      exact hcopying hnone

theorem inv_paged (page : Nat) (h : Inv log₀ g₀ results x) (hcopying : Copying x)
    (hstep : x.step eptWatchListPos ID results (.paged page) = some x') :
    Inv log₀ g₀ results x' ∧ Copying x' := by
  obtain rfl := Option.some.inj hstep
  refine ⟨⟨h.copied.congr rfl rfl, fun hnone => ?_, h.complete⟩, hcopying⟩
  obtain ⟨hlog, hstart, hsize⟩ := h.waiting hnone
  exact ⟨hlog, hstart.pageIn page, hsize⟩

theorem inv_step (i : TransferInput t) (h : Inv log₀ g₀ results x) (hcopying : Copying x) :
    x.Advances eptWatchListPos ID results i ∧
      ∀ x', x.step eptWatchListPos ID results i = some x' →
        Inv log₀ g₀ results x' ∧ Copying x' := by
  cases i with
  | call used =>
    cases hended : x.ended with
    | none =>
      have hwaiting := h.waiting hended
      obtain ⟨x₁, hstep, hoffset, hnext⟩ :=
        inv_call eptWatchListPos ID used hended h.copied hwaiting.log fun _ => hwaiting
      refine ⟨⟨x₁, hstep, hoffset⟩, fun x' hx' => ?_⟩
      obtain rfl := Option.some.inj (hstep.symm.trans hx')
      exact hnext
    | some errorcode =>
      -- the guest does not call any more
      have hstep : x.step eptWatchListPos ID results (.call used) = some x := by
        show (if x.ended.isSome then some x else _) = _
        rw [hended, Option.isSome_some, if_pos rfl]
      refine ⟨⟨x, hstep, Nat.le_refl _⟩, fun x' hx' => ?_⟩
      obtain rfl := Option.some.inj (hstep.symm.trans hx')
      exact ⟨h, hcopying⟩
  | event e => exact ⟨trivial, fun x' hstep => inv_event e h hcopying hstep⟩
  | paged page => exact ⟨trivial, fun x' hstep => inv_paged page h hcopying hstep⟩

/-- For every log, every destination, every set of present pages and every run that starts
    with a call at offset 0: when the log can be copied if the parameters of the call are
    accepted, the transfer keeps its promise. -/
theorem retrieval_complete (eptWatchListPos ID results : Nat) (s : Retrieval t)
    (used : Nat → Bool) (inputs : List (TransferInput t)) (hresults : results < 2 ^ 64)
    (hoffset : s.offset = 0) (hcopy : s.Accepts eptWatchListPos ID results → s.CanCopy results) :
    Complete eptWatchListPos ID results s (.call used :: inputs) := by
  have hstart : addressAt results s.offset = results := by
    rw [hoffset]
    exact Nat.mod_eq_of_lt hresults
  have hcopied : Copied s.logged.log s.guest results s := by
    refine ⟨?_, ?_, fun a _ _ => rfl⟩
    · rw [hoffset]
      exact Nat.zero_le _
    · intro i hi
      rw [hoffset] at hi
      exact absurd hi (Nat.not_lt_zero i)
  have hwaiting : s.Accepts eptWatchListPos ID results → Waiting s.logged.log results s := by
    intro haccepts
    obtain ⟨hpresent, hfits⟩ := hcopy haccepts
    refine ⟨.refl _, ?_, Or.inr ⟨hoffset, hfits⟩⟩
    rw [hstart]
    exact hpresent
  -- the first call; then the events are missed
  obtain ⟨x₁, hstep, hadvances, hinv, hcopying⟩ :=
    inv_call (x := ⟨s, none⟩) eptWatchListPos ID used rfl hcopied (.refl _) hwaiting
  have hrun : ∀ (x : Transfer t) i, Inv s.logged.log s.guest results x ∧ Copying x →
      x.Advances eptWatchListPos ID results i ∧
        ∀ x', x.step eptWatchListPos ID results i = some x' →
          Inv s.logged.log s.guest results x' ∧ Copying x' :=
    fun x i h => inv_step i h.1 h.2
  constructor
  · refine ⟨⟨x₁, hstep, hadvances⟩, fun x' hx' => ?_⟩
    obtain rfl := Option.some.inj (hstep.symm.trans hx')
    exact AlongM.imp (P := fun _ _ => True) (fun x i hx _ => hrun x i hx) ⟨hinv, hcopying⟩
      (alongM_of_forall fun _ _ _ => trivial)
  · intro x hx
    rw [execM_cons, hstep, Option.bind_some] at hx
    obtain ⟨hx, -⟩ := execM_preserves (fun x i x' hI hs => (hrun x i hI).2 x' hs)
      ⟨hinv, hcopying⟩ hx
    constructor
    · intro a ha hother
      exact hx.copied.frame a ha fun i hi => hother i (Nat.lt_of_lt_of_le hi hx.copied.offset)
    · intro hended i hi hfield
      exact hx.copied.copied i (hx.complete hended ▸ hi) hfield

/-- An empty log of an active watch, to be copied to a guest without any page. -/
def emptyLog : Retrieval .basic where
  logged :=
    { watch := ⟨0x5000, 8, .write, 0, 0, 0, true⟩
      copyInProgress := false
      log := ⟨0, 16, 0, [], 48 + 256 * 16⟩ }
  guest := ⟨fun _ => 0, fun _ => false⟩
  resultSize := 0x1000
  offset := 0

/-- To the start of a page: a page fault, and the log is copied when the page is there. -/
theorem emptyLog_complete :
    Complete 1 0 0x2000 emptyLog [.call fun _ => false, .call fun _ => false] := by
  refine retrieval_complete 1 0 0x2000 emptyLog (fun _ => false) [.call fun _ => false] (by omega) rfl ?_
  intro _
  exact ⟨Or.inl rfl, by decide⟩

/-- To an address inside a page: the first call copies a negative number of bytes. -/
theorem not_complete : ¬ ∀ (eptWatchListPos ID results : Nat) (s : Retrieval .basic)
    (used : Nat → Bool) (inputs : List (TransferInput .basic)), results < 2 ^ 64 → s.offset = 0 →
    Complete eptWatchListPos ID results s (.call used :: inputs) := by
  intro hall
  obtain ⟨⟨⟨x, hcall, -⟩, -⟩, -⟩ := hall 1 0 0x2008 emptyLog (fun _ => false) [] (by omega) rfl
  have hnone : (⟨emptyLog, none⟩ : Transfer .basic).step 1 0 0x2008 (.call fun _ => false) = none := by
    decide
  rw [hnone] at hcall
  cases hcall

end Transfer

end CheatEngine.Dbvm
