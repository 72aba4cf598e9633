/-
  CheatEngine.Dbvm.EventLog

  The log of a watch over all its events and retrievals (epthandler.c).  An entry is written
  behind the others when there is room, and in front of it all entries are searched for the
  same place in the code.  When a log grows, `numberOfEntries` is set where
  `maxNumberOfEntries` was meant, and the next entry is written behind the block.
-/
import CheatEngine.Dbvm.WatchLog

namespace CheatEngine.Dbvm

open CheatEngine.Lib

variable {t : EntryType}

/-- What tells the entries of a log apart. -/
def PageEventBasic.key (options : UInt32) (p : PageEventBasic) : List UInt64 :=
  if options &&& eptoMultipleRip = 0 then [p.rip]
  else
    [p.rip, p.rsp, p.rbp, p.rax, p.rbx, p.rcx, p.rdx, p.rsi, p.rdi, p.r8, p.r9, p.r10, p.r11,
      p.r12, p.r13, p.r14, p.r15]

theorem fillPageEventBasic_rip (c : Cpu) : (fillPageEventBasic c).rip = c.rip := by
  obtain ⟨control, _, _, _, _, _, _, _, _, _, _, _⟩ := c
  cases control <;> rfl

theorem PageEventBasic.isSame_iff (peb : PageEventBasic) (options : UInt32) (c : Cpu) :
    peb.isSame options c = true ↔ peb.key options = (fillPageEventBasic c).key options := by
  unfold isSame sameRegisters key
  by_cases hmultiple : options &&& eptoMultipleRip = 0
  · simp only [hmultiple, Bool.and_eq_true, Bool.or_eq_true, decide_eq_true_eq, true_or, and_true,
      if_true, List.cons.injEq]
    rw [fillPageEventBasic_rip]
  · simp only [hmultiple, Bool.and_eq_true, Bool.or_eq_true, decide_eq_true_eq, false_or, if_false,
      List.cons.injEq, and_true, and_assoc]
    obtain ⟨control, _, _, _, _, _, _, _, _, _, _, _⟩ := c
    cases control <;> rfl

theorem LogEntry.key_again (options : UInt32) (e : LogEntry t) :
    e.again.basic.key options = e.basic.key options := rfl

theorem PageEventBasic.key_withoutGrowth (options : UInt32) (p : PageEventBasic) :
    p.key (options &&& ~~~eptoGrowWhenFull) = p.key options := by
  have hbit : options &&& ~~~eptoGrowWhenFull &&& eptoMultipleRip = options &&& eptoMultipleRip := by
    rw [UInt32.and_assoc]
    rfl
  rw [key, key, hbit]

/-! ## Runs -/

/-- A VMCALL that retrieves the log, and the memory of its guest. -/
structure RetrieveCall where
  eptWatchListPos : Nat
  ID : Nat
  results : Nat
  used : Nat → Bool
  guest : GuestMemory
  resultSize : Nat
  offset : Nat

/-- What happens to a log. -/
inductive LogInput (t : EntryType)
  | event (e : LogEvent t)
  | retrieve (c : RetrieveCall)

/-- The stack of the guest can be saved: it starts with a page or in one that is present, or
    there is no place to map it. -/
def LogEvent.CanSaveStack (e : LogEvent t) : Prop :=
  e.guest.StartsPresent e.cpu.rsp.toNat ∨
    mmFindMapPositionForSize e.used (4096 + (e.cpu.rsp.toNat % 4096 : Nat)) = none

namespace LoggedWatch

/-- `ept_watch_retrievelog`, by what it does to the watch. -/
def retrieve (w : LoggedWatch t) (c : RetrieveCall) : Option (LoggedWatch t) :=
  (Retrieval.retrievelog c.eptWatchListPos c.ID c.results c.used
    ⟨w, c.guest, c.resultSize, c.offset⟩).map fun x => x.2.logged

def step (w : LoggedWatch t) : LogInput t → Option (LoggedWatch t)
  | .event e => w.logEvent e
  | .retrieve c => w.retrieve c

def Passes (w : LoggedWatch t) (e : LogEvent t) : Prop :=
  w.watch.ignoresFetch e.violation = false ∧ w.watch.passesFilter e.physicalAddress = true

def IsNew (w : LoggedWatch t) (e : LogEvent t) : Prop :=
  ∀ entry ∈ w.log.pe, entry.basic.key w.watch.options ≠ (fillPageEventBasic e.cpu).key w.watch.options

/-- What becomes of an event that passes the filter. -/
inductive Handled (w : LoggedWatch t) (e : LogEvent t) (w' : LoggedWatch t) : Prop
  | recorded (entry : LogEntry t) (hnew : w.IsNew e) (hbasic : entry.basic = fillPageEventBasic e.cpu)
      (hlog : w'.log = { w.log with pe := w.log.pe ++ [entry] })
  | counted (i : Nat) (entry : LogEntry t) (hi : w.log.pe[i]? = some entry)
      (hsame : entry.basic.key w.watch.options = (fillPageEventBasic e.cpu).key w.watch.options)
      (hlog : w'.log = { w.log with pe := w.log.pe.set i entry.again })
  /-- Counted as missed, when the log is copied or full; a log that is to grow has then got no
      memory. -/
  | missed (hreason : w.copyInProgress = true ∨
        w.isFull = true ∧ (w.watch.options &&& eptoGrowWhenFull ≠ 0 → e.hasMemory = false))
      (hlog : w'.log = w.log.miss)

/-- A step as it should be: an event has a result, which is one of those if it passes the
    filter, and else leaves the entries alone; a retrieval keeps the entries or removes them
    all. -/
def Orderly (w : LoggedWatch t) : LogInput t → Prop
  | .event e => ∃ w', w.logEvent e = some w' ∧ (w.Passes e → w.Handled e w') ∧
      (¬ w.Passes e → w'.log.pe = w.log.pe)
  | .retrieve c => ∀ w', w.retrieve c = some w' → w'.log.pe = w.log.pe ∨ w'.log.pe = []

/-- The entries fit the block, and no two have the same key. -/
def InBlock (w : LoggedWatch t) : Prop :=
  headerSize + w.log.pe.length * t.entrySize ≤ w.log.block ∧
    w.log.pe.Pairwise fun a b => a.basic.key w.watch.options ≠ b.basic.key w.watch.options

/-- The steps that keep the log in order: an event that needs a new entry does not make a full
    log grow, and its stack can be saved if the log keeps stacks. -/
def Keeps (w : LoggedWatch t) : LogInput t → Prop
  | .event e => w.Passes e → w.copyInProgress = false → w.IsNew e →
      if w.isFull = true then w.watch.options &&& eptoGrowWhenFull ≠ 0 → e.hasMemory = false
      else t.stackSize ≠ 0 → e.CanSaveStack
  | .retrieve _ => True

instance (e : LogEvent t) : Decidable e.CanSaveStack := inferInstanceAs (Decidable (_ ∨ _))

instance (w : LoggedWatch t) (e : LogEvent t) : Decidable (w.Passes e) :=
  inferInstanceAs (Decidable (_ ∧ _))

instance (w : LoggedWatch t) (e : LogEvent t) : Decidable (w.IsNew e) :=
  inferInstanceAs (Decidable (∀ entry ∈ w.log.pe, _))

instance (w : LoggedWatch t) : (i : LogInput t) → Decidable (w.Keeps i)
  | .event e =>
    inferInstanceAs (Decidable (w.Passes e → w.copyInProgress = false → w.IsNew e → ite _ _ _))
  | .retrieve _ => inferInstanceAs (Decidable True)

variable {w w' : LoggedWatch t} {e : LogEvent t}

theorem exists_saveStack (h : e.CanSaveStack) :
    ∃ stack, saveStack e.guest e.used e.cpu.rsp.toNat = some stack := by
  unfold saveStack
  dsimp only
  cases hmap : mapVMmemoryEx e.guest e.used e.cpu.rsp.toNat 4096 with
  | mapped => exact ⟨_, rfl⟩
  | noRoom => exact ⟨_, rfl⟩
  | badSize => exact ⟨_, rfl⟩
  | pageFault a =>
    rcases h with hstart | hroom
    · obtain ⟨n, hdifference, -⟩ := hstart.pageFault e.cpu.rsp.toNat_lt (by omega) (by omega) hmap
      dsimp only
      rw [hdifference, if_neg (by omega)]
      exact ⟨_, rfl⟩
    · -- without a place nothing is looked at
      rw [mapVMmemoryEx, if_neg (by omega)] at hmap
      dsimp only at hmap
      rw [hroom, Option.isNone_none, if_pos rfl] at hmap
      cases hmap

theorem exists_newEntry (h : t.stackSize ≠ 0 → e.CanSaveStack) :
    ∃ entry : LogEntry t, newEntry e = some entry ∧ entry.basic = fillPageEventBasic e.cpu := by
  unfold newEntry
  dsimp only
  split
  · exact ⟨_, rfl, rfl⟩
  · next hsize =>
    obtain ⟨stack, hstack⟩ := exists_saveStack (h hsize)
    rw [hstack]
    exact ⟨_, rfl, rfl⟩

/-! ## Invariant -/

/-- What a log keeps: its block has room for all entries it may have, and no two entries are
    for the same place. -/
structure Inv (w : LoggedWatch t) : Prop where
  room : headerSize + w.log.maxNumberOfEntries.toNat * t.entrySize ≤ w.log.block
  length : w.log.pe.length ≤ w.log.maxNumberOfEntries.toNat
  distinct : w.log.pe.Pairwise fun a b => a.basic.key w.watch.options ≠ b.basic.key w.watch.options

theorem Inv.inBlock (h : w.Inv) : w.InBlock := by
  have hsize := Nat.mul_le_mul_right t.entrySize h.length
  have hroom := h.room
  exact ⟨by omega, h.distinct⟩

theorem Inv.addEntry (h : w.Inv) (hfull : w.isFull = false) (hnew : w.IsNew e)
    (hstack : t.stackSize ≠ 0 → e.CanSaveStack) :
    ∃ w', w.addEntry e = some w' ∧ w.Handled e w' ∧ w'.Inv := by
  have hlt : w.log.pe.length < w.log.maxNumberOfEntries.toNat := by
    unfold isFull at hfull
    simpa using hfull
  have hfits : headerSize + (w.log.pe.length + 1) * t.entrySize ≤ w.log.block := by
    have hsize : (w.log.pe.length + 1) * t.entrySize ≤
        w.log.maxNumberOfEntries.toNat * t.entrySize := Nat.mul_le_mul_right t.entrySize hlt
    have hroom := h.room
    omega
  obtain ⟨entry, hentry, hbasic⟩ := exists_newEntry hstack
  unfold LoggedWatch.addEntry
  rw [if_pos hfits, hentry, Option.map_some]
  refine ⟨_, rfl, .recorded entry hnew hbasic rfl, h.room, ?_, ?_⟩
  · show (w.log.pe ++ [entry]).length ≤ w.log.maxNumberOfEntries.toNat
    rw [List.length_append, List.length_singleton]
    exact hlt
  · show (w.log.pe ++ [entry]).Pairwise _
    rw [List.pairwise_append]
    refine ⟨h.distinct, List.pairwise_singleton _ _, fun a ha b hb => ?_⟩
    obtain rfl := List.mem_singleton.1 hb
    rw [hbasic]
    exact hnew a ha

theorem Inv.miss (h : w.Inv) : w.miss.Inv := ⟨h.room, h.length, h.distinct⟩

theorem pairwise_set_again {options : UInt32} {l : List (LogEntry t)} {i : Nat} {entry : LogEntry t}
    (hi : l[i]? = some entry)
    (h : l.Pairwise fun a b => a.basic.key options ≠ b.basic.key options) :
    (l.set i entry.again).Pairwise fun a b => a.basic.key options ≠ b.basic.key options := by
  have hkeys : (l.set i entry.again).map (fun a => a.basic.key options) =
      l.map fun a => a.basic.key options := by
    obtain ⟨hlt, rfl⟩ := List.getElem?_eq_some_iff.1 hi
    rw [List.map_set, LogEntry.key_again]
    apply List.ext_getElem?
    intro j
    rw [List.getElem?_set]
    split
    · next hij =>
      subst hij
      rw [List.length_map, if_pos hlt, List.getElem?_map, hi, Option.map_some]
    · rfl
  have hpairwise := List.pairwise_map.2 h
  rw [← hkeys] at hpairwise
  exact List.pairwise_map.1 hpairwise

/-- The search for the place of an event. -/
theorem findIdx?_isSame_none (h : w.log.pe.findIdx? (·.basic.isSame w.watch.options e.cpu) = none) :
    w.IsNew e := by
  intro entry hentry hsame
  have hnone := List.findIdx?_eq_none_iff.1 h entry hentry
  exact Bool.eq_false_iff.1 hnone ((PageEventBasic.isSame_iff _ _ _).2 hsame)

theorem findIdx?_isSame_some {i : Nat}
    (h : w.log.pe.findIdx? (·.basic.isSame w.watch.options e.cpu) = some i) :
    ∃ entry, w.log.pe[i]? = some entry ∧
      entry.basic.key w.watch.options = (fillPageEventBasic e.cpu).key w.watch.options := by
  obtain ⟨hlt, hsame, -⟩ := List.findIdx?_eq_some_iff_getElem.1 h
  exact ⟨w.log.pe[i], List.getElem?_eq_getElem hlt, (PageEventBasic.isSame_iff _ _ _).1 hsame⟩

theorem Inv.logEvent (h : w.Inv) (hkeeps : w.Keeps (.event e)) :
    ∃ w', w.logEvent e = some w' ∧ (w.Passes e → w.Handled e w') ∧
      (¬ w.Passes e → w'.log.pe = w.log.pe) ∧ w'.Inv := by
  unfold LoggedWatch.logEvent
  by_cases hfetch : w.watch.ignoresFetch e.violation = true
  · rw [if_pos hfetch]
    refine ⟨w, rfl, fun hpasses => ?_, fun _ => rfl, h⟩
    exact absurd (hpasses.1.symm.trans hfetch) Bool.false_ne_true
  rw [if_neg hfetch]
  by_cases hcopying : w.copyInProgress = true
  · rw [if_pos hcopying]
    exact ⟨w.miss, rfl, fun _ => .missed (Or.inl hcopying) rfl, fun _ => rfl, h.miss⟩
  rw [if_neg hcopying]
  by_cases hfilter : w.watch.passesFilter e.physicalAddress = true
  swap
  · rw [if_pos (by simpa using hfilter)]
    exact ⟨w, rfl, fun hpasses => absurd hpasses.2 hfilter, fun _ => rfl, h⟩
  rw [if_neg (by simp [hfilter])]
  have hpasses : w.Passes e := ⟨Bool.eq_false_iff.2 hfetch, hfilter⟩
  cases hfind : w.log.pe.findIdx? (·.basic.isSame w.watch.options e.cpu) with
  | some i =>
    obtain ⟨entry, hi, hsame⟩ := findIdx?_isSame_some hfind
    have hmodify : w.log.pe.modify i LogEntry.again = w.log.pe.set i entry.again := by
      have : Inhabited (LogEntry t) := ⟨entry⟩
      rw [List.modify_eq_set, hi]
      rfl
    dsimp only
    rw [hmodify]
    refine ⟨_, rfl, fun _ => .counted i entry hi hsame rfl, fun hnot => absurd hpasses hnot,
      h.room, ?_, pairwise_set_again hi h.distinct⟩
    show (w.log.pe.set i entry.again).length ≤ _
    rw [List.length_set]
    exact h.length
  | none =>
    have hnew := findIdx?_isSame_none hfind
    have hkeeps := hkeeps hpasses (Bool.eq_false_iff.2 hcopying) hnew
    dsimp only
    by_cases hfull : w.isFull = true
    · rw [if_pos hfull] at hkeeps ⊢
      by_cases hgrow : w.watch.options &&& eptoGrowWhenFull = 0
      · rw [if_pos hgrow]
        exact ⟨w.miss, rfl, fun _ => .missed (Or.inr ⟨hfull, hkeeps⟩) rfl, fun _ => rfl, h.miss⟩
      · -- there is no memory to grow
        rw [if_neg hgrow, hkeeps hgrow, if_neg Bool.false_ne_true]
        refine ⟨_, rfl, fun _ => .missed (Or.inr ⟨hfull, hkeeps⟩) rfl, fun _ => rfl, h.room,
          h.length, ?_⟩
        have hdistinct := h.distinct
        simp only [← PageEventBasic.key_withoutGrowth w.watch.options] at hdistinct
        exact hdistinct
    · rw [if_neg hfull] at hkeeps ⊢
      obtain ⟨w', hadd, hhandled, hinv⟩ := h.addEntry (Bool.eq_false_iff.2 hfull) hnew hkeeps
      exact ⟨w', hadd, fun _ => hhandled, fun hnot => absurd hpasses hnot, hinv⟩

/-! ## Retrievals -/

/-- What a retrieval leaves of a watch: all but its entries, and these or none. -/
structure Keeping (w w' : LoggedWatch t) : Prop where
  watch : w'.watch = w.watch
  id : w'.log.id = w.log.id
  max : w'.log.maxNumberOfEntries = w.log.maxNumberOfEntries
  missed : w'.log.missedEntries = w.log.missedEntries
  block : w'.log.block = w.log.block
  entries : w'.log.pe = w.log.pe ∨ w'.log.pe = []

theorem Keeping.refl (w : LoggedWatch t) : Keeping w w := ⟨rfl, rfl, rfl, rfl, rfl, Or.inl rfl⟩

theorem logged_copyBlock {s s' : Retrieval t} {destinationaddress : Nat} {blocksize : Int}
    (h : s.copyBlock destinationaddress blocksize = some s') : s'.logged = s.logged := by
  unfold Retrieval.copyBlock at h
  split at h
  · cases h
  · obtain rfl := Option.some.inj h
    rfl

theorem keeping_transfer {s s' : Retrieval t} {results : Nat} {used : Nat → Bool} {r : RetrieveReply}
    (h : s.transfer results used = some (r, s')) : Keeping s.logged s'.logged := by
  unfold Retrieval.transfer at h
  dsimp only at h
  split at h
  · obtain ⟨-, rfl⟩ := Prod.mk.inj (Option.some.inj h)
    exact ⟨rfl, rfl, rfl, rfl, rfl, Or.inl rfl⟩
  · obtain ⟨-, rfl⟩ := Prod.mk.inj (Option.some.inj h)
    exact ⟨rfl, rfl, rfl, rfl, rfl, Or.inl rfl⟩
  · obtain ⟨s₁, hcopy, heq⟩ := Option.map_eq_some_iff.1 h
    obtain ⟨-, rfl⟩ := Prod.mk.inj heq
    rw [logged_copyBlock hcopy]
    exact ⟨rfl, rfl, rfl, rfl, rfl, Or.inl rfl⟩
  · obtain ⟨s₁, hcopy, heq⟩ := Option.map_eq_some_iff.1 h
    have hlogged := logged_copyBlock hcopy
    split at heq
    · -- all is copied, and the log is empty again
      obtain ⟨-, rfl⟩ := Prod.mk.inj heq
      unfold Retrieval.finish
      dsimp only
      rw [hlogged]
      exact ⟨rfl, rfl, rfl, rfl, rfl, Or.inr rfl⟩
    · obtain ⟨-, rfl⟩ := Prod.mk.inj heq
      rw [hlogged]
      exact ⟨rfl, rfl, rfl, rfl, rfl, Or.inl rfl⟩

theorem keeping_retrieve {c : RetrieveCall} (h : w.retrieve c = some w') : Keeping w w' := by
  obtain ⟨⟨r, s'⟩, hcall, rfl⟩ := Option.map_eq_some_iff.1 h
  unfold Retrieval.retrievelog at hcall
  -- six errors in front of the transfer
  iterate 6
    split at hcall
    · obtain ⟨-, rfl⟩ := Prod.mk.inj (Option.some.inj hcall)
      exact .refl w
  exact keeping_transfer hcall

theorem Inv.keeping (h : w.Inv) (hk : Keeping w w') : w'.Inv := by
  obtain ⟨hwatch, -, hmax, -, hblock, hentries⟩ := hk
  refine ⟨?_, ?_, ?_⟩
  · rw [hmax, hblock]
    exact h.room
  · rcases hentries with heq | heq
    · rw [heq, hmax]
      exact h.length
    · rw [heq]
      exact Nat.zero_le _
  · rw [hwatch]
    rcases hentries with heq | heq
    · rw [heq]
      exact h.distinct
    · rw [heq]
      exact List.Pairwise.nil

theorem Inv.step (h : w.Inv) (i : LogInput t) (hkeeps : w.Keeps i) :
    w.Orderly i ∧ ∀ w', w.step i = some w' → w'.Inv := by
  cases i with
  | event e =>
    obtain ⟨w₁, hlog, hpasses, hnot, hinv⟩ := h.logEvent hkeeps
    refine ⟨⟨w₁, hlog, hpasses, hnot⟩, fun w' hw' => ?_⟩
    obtain rfl := Option.some.inj (hlog.symm.trans hw')
    exact hinv
  | retrieve c =>
    exact ⟨fun w' hw' => (keeping_retrieve hw').entries,
      fun w' hw' => h.keeping (keeping_retrieve hw')⟩

theorem inv_activate (ID : Nat) (watch : WatchEntry) (copyInProgress : Bool) {maxEntryCount : Nat}
    (hfits : t.entrySize * maxEntryCount < 2 ^ 31) :
    (activate t ID watch copyInProgress maxEntryCount).Inv := by
  have hle : maxEntryCount ≤ t.entrySize * maxEntryCount :=
    Nat.le_mul_of_pos_left maxEntryCount t.entrySize_pos
  have hmax : (UInt32.ofNat maxEntryCount).toNat = maxEntryCount := by
    rw [UInt32.toNat_ofNat']
    exact Nat.mod_eq_of_lt (by omega)
  have hblock : ((headerSize * 2 + toInt32 (t.entrySize * maxEntryCount)) % 2 ^ 64).toNat =
      headerSize * 2 + t.entrySize * maxEntryCount := by
    unfold toInt32 headerSize
    rw [if_pos (by omega)]
    omega
  refine ⟨?_, Nat.zero_le _, List.Pairwise.nil⟩
  show headerSize + (UInt32.ofNat maxEntryCount).toNat * t.entrySize ≤
    ((headerSize * 2 + toInt32 (t.entrySize * maxEntryCount)) % 2 ^ 64).toNat
  rw [hmax, hblock, Nat.mul_comm]
  omega

/-- For every watch that is activated with a log whose size fits an `int`, and every sequence
    of events and retrievals that keeps the log in order: each step is as it should be, and in
    every state reached the entries fit the block and are distinct. -/
theorem log_kept {κ : Type} (s : WatchState κ) (args : WatchArguments) (copyInProgress : Bool)
    (inputs : List (LogInput (.ofOptions args.options)))
    (hfits : (EntryType.ofOptions args.options).entrySize * args.maxEntryCount < 2 ^ 31)
    (hrun : AlongM step Keeps
      (activate (.ofOptions args.options) s.getFreeWatchID (s.newWatch args) copyInProgress
        args.maxEntryCount) inputs) :
    AlongM step Orderly
        (activate (.ofOptions args.options) s.getFreeWatchID (s.newWatch args) copyInProgress
          args.maxEntryCount) inputs ∧
      ∀ w, execM step (activate (.ofOptions args.options) s.getFreeWatchID (s.newWatch args)
        copyInProgress args.maxEntryCount) inputs = some w → w.InBlock := by
  have hinitial := inv_activate (t := .ofOptions args.options) s.getFreeWatchID (s.newWatch args)
    copyInProgress hfits
  refine ⟨hrun.imp (fun w i hw hi => hw.step i hi) hinitial, fun w hw => ?_⟩
  exact (execM_preserves_along (fun w i w' hI hi hs => (hI.step i hi).2 w' hs) hinitial hrun hw).inBlock

/-- A CPU that comes to the watch from this place. -/
def writingCpu (rip : UInt64) : Cpu where
  control := .vmcs
    { linearAddress := 0x7FF600001000, physicalAddress := 0x1000, cr3 := 0x1AB000, fsBase := 0
      gsBase := 0x2FE000, rflags := ⟨false, true, false, 0x2⟩, rsp := 0x14F000, rip := rip
      dr7 := 0x400, selectors := ⟨0x33, 0x2B, 0x2B, 0x2B, 0x53, 0x2B⟩, csDpl := 3
      interruptabilityState := 0, monitorTrapFlag := true, interruptWindow := true
      interruptPending := false }
  registers := ⟨0, 0, 0, 0, 0, 0, 0, 0, 0x14F100, 0, 0, 0, 0, 0, 7⟩
  fxsave := Vector.replicate 512 0
  dr0 := 0
  dr1 := 0
  dr2 := 0
  dr3 := 0
  dr6 := 0xFFFF0FF0
  gsBaseKernel := 0
  cr8 := 0
  previousTFState := false
  reasons := []

/-- A write from this place, with memory for a log that grows. -/
def writeFrom (t : EntryType) (rip : UInt64) : LogInput t :=
  .event
    { cpu := writingCpu rip
      violation := .ept false true false true false true
      physicalAddress := 0x1000
      guest := ⟨fun _ => 0, fun _ => false⟩
      used := fun _ => false
      hasMemory := true
      fresh := fun _ => ⟨fillPageEventBasic (writingCpu 0), Vector.replicate _ 0, Vector.replicate _ 0⟩ }

/-- A watch with a log for one entry that may grow. -/
def growingWatch : WatchArguments := ⟨0x1000, 8, .write, 0x20, 1, 0, 0⟩

def noWatch : WatchState Unit := .initial fun _ page => .ept page true true true

def sameWrites : List (LogInput (.ofOptions growingWatch.options)) :=
  [writeFrom _ 0x7FF600001000, writeFrom _ 0x7FF600001000]

theorem keeps_sameWrites : AlongM step Keeps
    (activate (.ofOptions growingWatch.options) noWatch.getFreeWatchID (noWatch.newWatch growingWatch)
      false growingWatch.maxEntryCount) sameWrites := by
  decide

theorem log_kept_sameWrites :
    AlongM step Orderly
        (activate (.ofOptions growingWatch.options) noWatch.getFreeWatchID
          (noWatch.newWatch growingWatch) false growingWatch.maxEntryCount) sameWrites ∧
      ∀ w, execM step (activate (.ofOptions growingWatch.options) noWatch.getFreeWatchID
        (noWatch.newWatch growingWatch) false growingWatch.maxEntryCount) sameWrites = some w →
          w.InBlock :=
  log_kept noWatch growingWatch false sameWrites (by decide) keeps_sameWrites

/-- A second place: the log grows, and the new entry is written behind its block. -/
theorem not_log_kept : ¬ ∀ (s : WatchState Unit) (args : WatchArguments) (copyInProgress : Bool)
    (inputs : List (LogInput (.ofOptions args.options))), 1 ≤ args.maxEntryCount →
    args.options &&& (eptoInterrupt ||| eptoDbvmbp) = 0 →
    (EntryType.ofOptions args.options).entrySize * args.maxEntryCount < 2 ^ 31 →
    AlongM step Orderly
      (activate (.ofOptions args.options) s.getFreeWatchID (s.newWatch args) copyInProgress
        args.maxEntryCount) inputs := by
  intro hall
  have hrun := hall noWatch growingWatch false
    [writeFrom _ 0x7FF600001000, writeFrom _ 0x7FF600001004] (by decide) (by decide) (by decide)
  have hfirst : ∃ w, step (activate (.ofOptions growingWatch.options) noWatch.getFreeWatchID
      (noWatch.newWatch growingWatch) false growingWatch.maxEntryCount)
        (writeFrom _ 0x7FF600001000) = some w ∧ step w (writeFrom _ 0x7FF600001004) = none := by
    exact ⟨_, rfl, by decide⟩
  obtain ⟨w, hw, hnone⟩ := hfirst
  obtain ⟨⟨w', hw', -⟩, -⟩ := hrun.2 w hw
  exact absurd (hnone.symm.trans hw') (by simp)

end LoggedWatch

end CheatEngine.Dbvm
