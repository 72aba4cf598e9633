/-
  CheatEngine.PointerScan.Conversation

  What a child and its parent say to each other (`HandleChildMessage`, `UpdateStatus`,
  `sendPathsToParent`, `UploadResults` and the functions they call, in
  pointerscancontroller.pas).  The child starts every exchange, one at a time; the
  parent takes a command byte and handles it.  What else the two nodes do decides
  which exchanges there are, and which of the replies the parent gives.
-/
import CheatEngine.Lib.Dialogue
import CheatEngine.PointerScan.NewScan
import CheatEngine.PointerScan.PathStream

namespace CheatEngine.PointerScan

open CheatEngine.Lib

/-- Paths of `BuildPathListForTransmission`, which never gives more. -/
structure PathList where
  paths : List PathQueueElement
  length_le : paths.length ≤ 65535

/-- `TPSUpdateStatusMsg` without `currentscanid`. -/
structure Status where
  isidle : Bool
  potentialthreadcount : Int32
  actualthreadcount : Int32
  pathsevaluated : UInt64
  localpathqueuecount : UInt32
  totalpathQueueCount : UInt32
  queuesize : UInt32

/-- The record as it is in memory, with the bytes between its fields. -/
def Status.write (currentscanid : UInt32) (st : Status) : List UInt8 :=
  u32 currentscanid ++ Controller.writeFlag st.isidle ++ [0, 0, 0] ++
    u32 st.potentialthreadcount.toUInt32 ++ u32 st.actualthreadcount.toUInt32 ++
    u64 st.pathsevaluated ++ u32 st.localpathqueuecount ++ u32 st.totalpathQueueCount ++
    u32 st.queuesize ++ [0, 0, 0, 0]

def Status.read : Reader (UInt32 × Status) := do
  let currentscanid ← Reader.dword
  let isidle ← Controller.readFlag
  let _ ← Reader.bytes 3
  let potentialthreadcount ← Reader.dword
  let actualthreadcount ← Reader.dword
  let pathsevaluated ← Reader.qword
  let localpathqueuecount ← Reader.dword
  let totalpathQueueCount ← Reader.dword
  let queuesize ← Reader.dword
  let _ ← Reader.bytes 4
  pure (currentscanid, ⟨isidle, potentialthreadcount.toInt32, actualthreadcount.toInt32,
    pathsevaluated, localpathqueuecount, totalpathQueueCount, queuesize⟩)

/-- The number of paths is received, and then that many elements. -/
def readElements {α : Type} (s : Settings) (next : Talk α) : Talk α :=
  .read Reader.dword fun count =>
    if 65536 < count then .close
    else .read (Reader.bytes (getPathQueueElementSize s * count.toNat)) fun _ => next

/-- The other side has to answer 0. -/
def readOk {α : Type} (next : Talk α) : Talk α :=
  .read Reader.byte fun b => if b = 0 then next else .close

structure ChildState where
  currentscanid : UInt32
  node : ChildController

def ChildState.settings (s : ChildState) : Settings := s.node.controller.settings

/-- What a child starts.  After `quit` the child is terminated when it has read that
    much of a new scan; `paths` of a status update are there if the parent asks for
    them. -/
inductive ChildExchange
  | queueMessage (queuepos queuesize : UInt32)
  | updateStatus (st : Status) (paths : PathList) (quit : Option Nat)
  | sendPaths (paths : PathList)
  | canUploadResults
  | uploadResults (decompressedsize : UInt32) (stream : List UInt8) (h : stream.length < 2 ^ 32)
  | prepareForMyTermination
  | goodbye (canreconnect : Bool)

namespace ChildState

/-- `HandleUpdateStatusReply_DoNewScan`; a child that is terminated leaves the rest
    of the files, and does not answer. -/
def doNewScan (s : ChildState) : Option Nat → Talk ChildState
  | some n => .read (Reader.bytes n) fun _ => .ret s
  | none => .read s.node.doNewScan fun (_, newcurrentscanid, node) =>
    .send (u8 0) (.ret ⟨newcurrentscanid, node⟩)

def handleUpdateStatusReply (s : ChildState) (paths : PathList) (quit : Option Nat) :
    Talk ChildState :=
  .read Reader.byte fun replycommand =>
    if replycommand = 0 then s.doNewScan quit
    else if replycommand = 1 then
      .read Reader.dword fun _ => .send (writePaths s.settings paths.paths) (.ret s)
    else if replycommand = 2 then readElements s.settings (.send (u8 0) (.ret s))
    else if replycommand = 3 then .read Reader.byte fun _ => .send (u8 0) (.ret s)
    else if replycommand = 4 then .send (u8 0) (.ret s)
    else .close

def program (s : ChildState) : ChildExchange → Talk ChildState
  -- a parent that is still queued is not waited for
  | .queueMessage queuepos queuesize => .send (u8 1 ++ u32 queuepos ++ u32 queuesize) (.ret s)
  | .updateStatus st paths quit =>
    .send (u8 2 ++ st.write s.currentscanid) (s.handleUpdateStatusReply paths quit)
  -- a refusal is no error
  | .sendPaths paths =>
    .send (u8 4 ++ writePaths s.settings paths.paths) (.read Reader.byte fun _ => .ret s)
  | .canUploadResults => .send (u8 5) (.read Reader.byte fun _ => .ret s)
  | .uploadResults decompressedsize stream _ =>
    .send (u8 6 ++ u32 s.currentscanid ++ u32 (UInt32.ofNat stream.length) ++
      u32 decompressedsize ++ stream) (readOk (.ret s))
  | .prepareForMyTermination => .send (u8 7) (readOk (.ret s))
  | .goodbye canreconnect => .send (u8 8 ++ Controller.writeFlag canreconnect) .close

end ChildState

/-! ## The parent -/

/-- What the parent keeps about the child. -/
structure ParentState where
  trusted : Bool
  terminating : Bool

/-- What the parent goes by when it handles a command.  `scanDone` is
    `initializer and (isidle or terminated)`; `uploadEnd` is how much of a new scan
    is sent before the uploader gives up, if it does. -/
structure ParentView where
  currentscanid : UInt32
  currentscanhasended : Bool
  savestate : Bool
  terminated : Bool
  scanDone : Bool
  overflowsize : Nat
  localpathcount : Nat
  localscannercount : Nat
  takePathsAndDisconnect : Bool
  downloading : Bool
  childid : UInt32
  paths : PathList
  uploadEnd : Option Nat

/-- The replies to a status update. -/
inductive Reply
  | doNewScan
  | giveMeYourPaths (count : Int)
  | hereAreSomePaths
  | currentScanHasEnded (saveresults : Bool)
  | everythingOK

/-- `MAXQUEUESIZE`. -/
def maxPathQueue : Nat := 64

/-- What `HandleUpdateStatusMessage` replies. -/
def ParentView.reply (v : ParentView) (t : ParentState) (scanid : UInt32) (st : Status) : Reply :=
  let savestate := v.savestate || (v.scanDone && !v.terminated)
  let hasEnded := v.currentscanhasended || v.scanDone
  let count := st.localpathqueuecount.toNat
  if hasEnded ∨ (¬ st.isidle ∧ scanid ≠ v.currentscanid) then
    .currentScanHasEnded (hasEnded && !(v.terminated && !savestate))
  else if scanid ≠ v.currentscanid then .doNewScan
  else if v.currentscanid = 0 then .everythingOK
  else if t.terminating then .giveMeYourPaths (min 1000 count)
  else if ¬ (0 < st.potentialthreadcount.toInt ∨ 0 < count) then .everythingOK
  else if ¬ t.trusted then
    -- paths only for an untrusted child that has nothing to do
    if st.isidle then .hereAreSomePaths else .everythingOK
  else if st.potentialthreadcount = 0 ∧ 0 < count then .giveMeYourPaths count
  else if v.localscannercount = 0 ∧ 0 < v.localpathcount then .hereAreSomePaths
  else if 0 < v.overflowsize ∧ count < maxPathQueue then .hereAreSomePaths
  else if count < maxPathQueue / 2 ∧ maxPathQueue / 2 < v.localpathcount then .hereAreSomePaths
  else if maxPathQueue / 2 < count ∧ v.localpathcount < maxPathQueue / 2 then
    .giveMeYourPaths (1 + (count - v.localpathcount : Int) / 2)
  else if v.localpathcount = 0 ∧ 0 < v.localscannercount then
    .giveMeYourPaths (1 + st.totalpathQueueCount.toNat / 2)
  else .everythingOK

/-- `HandleSendPathsMessage` takes the paths. -/
def ParentView.accepts (v : ParentView) (t : ParentState) : Bool :=
  (v.currentscanhasended && v.savestate) || t.trusted || t.terminating

namespace ParentState

-- the scans of the network: an id is a random number, taken to stand for one scan
variable (scans : UInt32 → Controller)

section

variable (t : ParentState) (v : ParentView)

/-- `TScanDataUploader.execute`. -/
def doNewScan : Talk ParentState :=
  let message := u8 0 ++ (scans v.currentscanid).writeNewScan v.childid v.currentscanid
  match v.uploadEnd with
  | some n => .send (message.take n) .close
  | none => .send message (readOk (.ret t))

def handleUpdateStatusMessage : Talk ParentState :=
  .read Status.read fun (scanid, st) =>
    match v.reply t scanid st with
    | .currentScanHasEnded saveresults =>
      .send (u8 3 ++ Controller.writeFlag saveresults) (readOk (.ret t))
    | .doNewScan => t.doNewScan scans v
    | .giveMeYourPaths count =>
      .send (u8 1 ++ u32 (Int32.ofInt count).toUInt32)
        (readElements (scans v.currentscanid).settings
          (if v.takePathsAndDisconnect ∧ st.localpathqueuecount = 0 then .close else .ret t))
    | .hereAreSomePaths =>
      .send (u8 2 ++ writePaths (scans v.currentscanid).settings v.paths.paths) (readOk (.ret t))
    | .everythingOK => .send (u8 4) (readOk (.ret t))

def handleSendPathsMessage : Talk ParentState :=
  if v.accepts t then readElements (scans v.currentscanid).settings (.send (u8 0) (.ret t))
  else .read Reader.dword fun _ => .send (u8 1) (.ret t)

/-- `HandleUploadResultsMessage` and `TScanResultDownloader.execute`. -/
def handleUploadResultsMessage : Talk ParentState :=
  if v.downloading then .close
  else .read Reader.dword fun scanid =>
    if scanid ≠ v.currentscanid then .close
    else .read Reader.dword fun streamsize =>
      .read (Reader.bytes (4 + streamsize.toNat)) fun _ => .send (u8 0) (.ret t)

def program : Talk ParentState :=
  .read Reader.byte fun command =>
    if command = 1 then .read (Reader.bytes 8) fun _ => .send (u8 0) (.ret t)
    else if command = 2 then t.handleUpdateStatusMessage scans v
    else if command = 3 then .send (Controller.writeFlag t.trusted) (.ret t)
    else if command = 4 then t.handleSendPathsMessage scans v
    else if command = 5 then .send (Controller.writeFlag !v.downloading) (.ret t)
    else if command = 6 then t.handleUploadResultsMessage v
    else if command = 7 then .send (u8 0) (.ret { t with terminating := true })
    else if command = 8 then .read Reader.byte fun _ => .close
    else .close

end

end ParentState

section Conversation

variable (scans : UInt32 → Controller)

/-- The states after an exchange in which the two stay in step; `none` when the
    connection was closed. -/
def afterExchange (v : ParentView) (s : ChildState) (t : ParentState) :
    ChildExchange → Option (ChildState × ParentState)
  | .updateStatus st _ _ =>
    match v.reply t s.currentscanid st with
    | .doNewScan =>
      match v.uploadEnd with
      | some _ => none
      | none => some (⟨v.currentscanid, ⟨(scans v.currentscanid).received, rfl, rfl⟩⟩, t)
    | .giveMeYourPaths _ =>
      if v.takePathsAndDisconnect ∧ st.localpathqueuecount = 0 then none else some (s, t)
    | _ => some (s, t)
  | .uploadResults .. =>
    if v.downloading ∨ s.currentscanid ≠ v.currentscanid then none else some (s, t)
  | .prepareForMyTermination => some (s, { t with terminating := true })
  | .goodbye _ => none
  | _ => some (s, t)

/-- What an exchange needs to stay in step: a parent that is not queued, a new scan
    that can be sent and is read to its end, and paths that the parent takes and that
    have the size it reads. -/
def Meets (v : ParentView) (s : ChildState) (t : ParentState) : ChildExchange → Prop
  | .queueMessage .. => False
  | .updateStatus st _ quit =>
    v.reply t s.currentscanid st = .doNewScan →
      quit = none ∧ (scans v.currentscanid).Sendable
  | .sendPaths _ => v.accepts t = true ∧
      getPathQueueElementSize s.settings = getPathQueueElementSize (scans v.currentscanid).settings
  | _ => True

/-- The states before an exchange, from those at the start. -/
def statesBefore (e : Nat → ChildExchange) (v : Nat → ParentView) (s : ChildState)
    (t : ParentState) : Nat → Option (ChildState × ParentState)
  | 0 => some (s, t)
  | n + 1 => (statesBefore e v s t n).bind fun st => afterExchange scans (v n) st.1 st.2 (e n)

/-- The elements of a child are of the size that those of its scan have. -/
def SameScan (s : ChildState) : Prop :=
  s.currentscanid ≠ 0 → getPathQueueElementSize s.settings =
    getPathQueueElementSize (scans s.currentscanid).settings

/-- The connection after some steps of the two nodes, in this order. -/
def converse (e : Nat → ChildExchange) (v : Nat → ParentView) (s : ChildState) (t : ParentState)
    (schedule : List Bool) : Connection ChildState ParentState :=
  exec (Connection.step (fun n s => s.program (e n)) (fun n t => t.program scans (v n)))
    (Connection.start (fun n s => s.program (e n)) (fun n t => t.program scans (v n)) s t) schedule

end Conversation

/-! ## One exchange -/

section Exchange

variable {α : Type} {me : Bool} {next : Talk α} {D : Script} {x : Option α}

theorem follows_readOk (h : Follows me next D x) :
    Follows me (readOk next) (said (!me) (u8 0) ++ D) x :=
  .read (Reader.Reads.byte 0) h

theorem follows_readElements {s s' : Settings} (l : PathList)
    (hsize : getPathQueueElementSize s' = getPathQueueElementSize s) (h : Follows me next D x) :
    Follows me (readElements s next) (said (!me) (writePaths s' l.paths) ++ D) x := by
  have hle := l.length_le
  have hlength : (UInt32.ofNat l.paths.length).toNat = l.paths.length :=
    UInt32.toNat_ofNat_of_lt' (Nat.lt_of_le_of_lt hle (by decide))
  have hcount : ¬ 65536 < UInt32.ofNat l.paths.length := by
    rw [UInt32.lt_iff_toNat_lt, hlength]
    exact Nat.not_lt.2 (Nat.le_succ_of_le hle)
  have hbytes := Reader.Reads.bytes (l.paths.flatMap (writePathQueueElementToStream s'))
  rw [writePaths_elements_length, hsize] at hbytes
  rw [writePaths, said_append, List.append_assoc]
  apply Follows.read (Reader.Reads.dword _)
  rw [if_neg hcount, hlength]
  exact Follows.read hbytes h

theorem reads_status (currentscanid : UInt32) (st : Status) :
    Reader.Reads Status.read (st.write currentscanid) (currentscanid, st) := by
  unfold Status.write Status.read
  simp only [List.append_assoc]
  apply (Reader.Reads.dword _).bind
  apply (Controller.reads_flag _).bind
  apply (Reader.Reads.bytes [0, 0, 0]).bind
  apply (Reader.Reads.dword _).bind
  apply (Reader.Reads.dword _).bind
  apply (Reader.Reads.qword _).bind
  apply (Reader.Reads.dword _).bind
  apply (Reader.Reads.dword _).bind
  apply (Reader.Reads.dword _).bind
  exact (Reader.Reads.bytes [0, 0, 0, 0]).bind_pure

variable {scans : UInt32 → Controller} {v : ParentView} {s : ChildState} {t : ParentState}

/-- There is a script that both follow in the exchange, and the states after it are
    the expected ones. -/
def OneScript (scans : UInt32 → Controller) (v : ParentView) (s : ChildState) (t : ParentState)
    (e : ChildExchange) : Prop :=
  ∃ D x y, Follows true (s.program e) D x ∧ Follows false (t.program scans v) D y ∧
    ∀ s' t', x = some s' → y = some t' → afterExchange scans v s t e = some (s', t')

theorem oneScript_canUploadResults : OneScript scans v s t .canUploadResults :=
  ⟨_, _, _, .send (u8 5) (.read (Reader.Reads.byte _) (.ret s)),
    .read (Reader.Reads.byte 5) (.send _ (.ret t)), fun _ _ hs ht => by
      cases hs
      cases ht
      rfl⟩

theorem oneScript_prepareForMyTermination : OneScript scans v s t .prepareForMyTermination :=
  ⟨_, _, _, .send (u8 7) (follows_readOk (.ret s)),
    .read (Reader.Reads.byte 7) (.send _ (.ret { t with terminating := true })),
    fun _ _ hs ht => by
      cases hs
      cases ht
      rfl⟩

theorem oneScript_goodbye (canreconnect : Bool) : OneScript scans v s t (.goodbye canreconnect) := by
  refine ⟨_, _, none, .send _ (.close []), ?_, fun _ _ hs => nomatch hs⟩
  rw [said_append, List.append_assoc]
  apply Follows.read (Reader.Reads.byte 8)
  change Follows false (.read Reader.byte fun _ => .close) _ _
  exact .read (Reader.Reads.byte _) (.close _)

variable {paths : PathList}

theorem oneScript_sendPaths (haccepts : v.accepts t = true)
    (hsize : getPathQueueElementSize s.settings =
      getPathQueueElementSize (scans v.currentscanid).settings) :
    OneScript scans v s t (.sendPaths paths) := by
  have hparent : t.handleSendPathsMessage scans v =
      readElements (scans v.currentscanid).settings (.send (u8 0) (.ret t)) := if_pos haccepts
  refine ⟨_, some s, some t, .send _ (.read (Reader.Reads.byte 0) (.ret s)), ?_, ?_⟩
  · rw [said_append, List.append_assoc]
    apply Follows.read (Reader.Reads.byte 4)
    change Follows false (t.handleSendPathsMessage scans v) _ _
    rw [hparent]
    exact follows_readElements paths hsize (.send (u8 0) (.ret t))
  · intro s' t' hs ht
    cases hs
    cases ht
    rfl

theorem oneScript_uploadResults (decompressedsize : UInt32) (stream : List UInt8)
    (h : stream.length < 2 ^ 32) :
    OneScript scans v s t (.uploadResults decompressedsize stream h) := by
  have hchild : Follows true (s.program (.uploadResults decompressedsize stream h))
      (said true (u8 6) ++ (said true (u32 s.currentscanid) ++
        (said true (u32 (UInt32.ofNat stream.length)) ++
          (said true (u32 decompressedsize ++ stream) ++ (said false (u8 0) ++ []))))) (some s) := by
    have hret : Follows true (readOk (.ret s)) (said false (u8 0) ++ []) (some s) :=
      follows_readOk (.ret s)
    have hsend := Follows.send (u8 6 ++ u32 s.currentscanid ++ u32 (UInt32.ofNat stream.length) ++
      u32 decompressedsize ++ stream) hret
    simp only [said_append, List.append_assoc] at hsend ⊢
    exact hsend
  by_cases hbusy : v.downloading = true ∨ s.currentscanid ≠ v.currentscanid
  · refine ⟨_, _, none, hchild, ?_, fun _ _ _ ht => nomatch ht⟩
    apply Follows.read (Reader.Reads.byte 6)
    change Follows false (t.handleUploadResultsMessage v) _ _
    unfold ParentState.handleUploadResultsMessage
    split
    · exact .close _
    · rename_i hdownloading
      apply Follows.read (Reader.Reads.dword _)
      rw [if_pos (hbusy.resolve_left hdownloading)]
      exact .close _
  · obtain ⟨hdownloading, hscan⟩ := not_or.1 hbusy
    refine ⟨_, _, some t, hchild, ?_, ?_⟩
    · apply Follows.read (Reader.Reads.byte 6)
      change Follows false (t.handleUploadResultsMessage v) _ _
      rw [ParentState.handleUploadResultsMessage, if_neg hdownloading]
      apply Follows.read (Reader.Reads.dword _)
      rw [if_neg hscan]
      apply Follows.read (Reader.Reads.dword _)
      have hsize : (UInt32.ofNat stream.length).toNat = stream.length :=
        UInt32.toNat_ofNat_of_lt' h
      have hbytes := Reader.Reads.bytes (u32 decompressedsize ++ stream)
      rw [List.length_append, u32_length] at hbytes
      rw [hsize]
      exact .read hbytes (.send _ (.ret t))
    · intro s' t' hs ht
      cases hs
      cases ht
      exact if_neg hbusy

variable {st : Status}

theorem oneScript_updateStatus {quit : Option Nat} {D : Script}
    {x : Option ChildState} {y : Option ParentState}
    (hchild : Follows true (s.handleUpdateStatusReply paths quit) D x)
    (hparent : Follows false
      (match v.reply t s.currentscanid st with
      | .currentScanHasEnded saveresults =>
        .send (u8 3 ++ Controller.writeFlag saveresults) (readOk (.ret t))
      | .doNewScan => t.doNewScan scans v
      | .giveMeYourPaths count =>
        .send (u8 1 ++ u32 (Int32.ofInt count).toUInt32)
          (readElements (scans v.currentscanid).settings
            (if v.takePathsAndDisconnect ∧ st.localpathqueuecount = 0 then .close else .ret t))
      | .hereAreSomePaths =>
        .send (u8 2 ++ writePaths (scans v.currentscanid).settings v.paths.paths)
          (readOk (.ret t))
      | .everythingOK => .send (u8 4) (readOk (.ret t))) D y)
    (hafter : ∀ s' t', x = some s' → y = some t' →
      afterExchange scans v s t (.updateStatus st paths quit) = some (s', t')) :
    OneScript scans v s t (.updateStatus st paths quit) := by
  refine ⟨_, x, y, .send _ hchild, ?_, hafter⟩
  rw [said_append, List.append_assoc]
  apply Follows.read (Reader.Reads.byte 2)
  change Follows false (t.handleUpdateStatusMessage scans v) _ _
  exact .read (reads_status _ _) hparent

theorem size_received (c : Controller) :
    getPathQueueElementSize c.received.settings = getPathQueueElementSize c.settings := rfl

theorem reply_of_ne (t : ParentState) (st : Status) (hne : s.currentscanid ≠ v.currentscanid) :
    v.reply t s.currentscanid st = .doNewScan ∨
      ∃ save, v.reply t s.currentscanid st = .currentScanHasEnded save := by
  by_cases hended : (v.currentscanhasended || v.scanDone) = true ∨
      (¬ st.isidle = true ∧ s.currentscanid ≠ v.currentscanid)
  · exact .inr ⟨_, if_pos hended⟩
  · exact .inl ((if_neg hended).trans (if_pos hne))

theorem reply_of_zero (t : ParentState) (st : Status) (hsame : s.currentscanid = v.currentscanid)
    (hzero : v.currentscanid = 0) :
    v.reply t s.currentscanid st = .everythingOK ∨
      ∃ save, v.reply t s.currentscanid st = .currentScanHasEnded save := by
  by_cases hended : (v.currentscanhasended || v.scanDone) = true ∨
      (¬ st.isidle = true ∧ s.currentscanid ≠ v.currentscanid)
  · exact .inr ⟨_, if_pos hended⟩
  · exact .inl ((if_neg hended).trans ((if_neg (not_not.2 hsame)).trans (if_pos hzero)))

theorem sameSize_of_reply (hscan : SameScan scans s)
    (hpaths : v.reply t s.currentscanid st = .hereAreSomePaths ∨
      ∃ count, v.reply t s.currentscanid st = .giveMeYourPaths count) :
    getPathQueueElementSize s.settings =
      getPathQueueElementSize (scans v.currentscanid).settings := by
  have hsame : s.currentscanid = v.currentscanid := by
    by_contra hne
    rcases reply_of_ne t st hne with hreply | ⟨save, hreply⟩
    · simp [hreply] at hpaths
    · simp [hreply] at hpaths
  have hzero : v.currentscanid ≠ 0 := by
    intro hzero
    rcases reply_of_zero t st hsame hzero with hreply | ⟨save, hreply⟩
    · simp [hreply] at hpaths
    · simp [hreply] at hpaths
  rw [← hsame] at hzero ⊢
  exact hscan hzero

theorem oneScript_of_reply {quit : Option Nat} (hscan : SameScan scans s)
    (hmeets : v.reply t s.currentscanid st = .doNewScan →
      quit = none ∧ (scans v.currentscanid).Sendable) :
    OneScript scans v s t (.updateStatus st paths quit) := by
  cases hreply : v.reply t s.currentscanid st with
  | currentScanHasEnded saveresults =>
    apply oneScript_updateStatus (x := some s) (y := some t)
      (D := said false (u8 3) ++ (said false (Controller.writeFlag saveresults) ++
        (said true (u8 0) ++ [])))
    · apply Follows.read (Reader.Reads.byte 3)
      change Follows true (.read Reader.byte fun _ => .send (u8 0) (.ret s)) _ _
      exact .read (Reader.Reads.byte _) (.send _ (.ret s))
    · rw [hreply, ← List.append_assoc, ← said_append]
      exact .send _ (follows_readOk (.ret t))
    · intro s' t' hs ht
      cases hs
      cases ht
      simp only [afterExchange, hreply]
  | everythingOK =>
    apply oneScript_updateStatus (x := some s) (y := some t)
      (D := said false (u8 4) ++ (said true (u8 0) ++ []))
    · exact .read (Reader.Reads.byte 4) (.send _ (.ret s))
    · rw [hreply]
      exact .send _ (follows_readOk (.ret t))
    · intro s' t' hs ht
      cases hs
      cases ht
      simp only [afterExchange, hreply]
  | hereAreSomePaths =>
    have hsize := sameSize_of_reply hscan (.inl hreply)
    apply oneScript_updateStatus (x := some s) (y := some t)
      (D := said false (u8 2) ++
        (said false (writePaths (scans v.currentscanid).settings v.paths.paths) ++
          (said true (u8 0) ++ [])))
    · exact .read (Reader.Reads.byte 2)
        (follows_readElements v.paths hsize.symm (.send _ (.ret s)))
    · rw [hreply, ← List.append_assoc, ← said_append]
      exact .send _ (follows_readOk (.ret t))
    · intro s' t' hs ht
      cases hs
      cases ht
      simp only [afterExchange, hreply]
  | giveMeYourPaths count =>
    have hsize := sameSize_of_reply hscan (.inr ⟨count, hreply⟩)
    have hchild : Follows true (s.handleUpdateStatusReply paths quit)
        (said false (u8 1) ++ (said false (u32 (Int32.ofInt count).toUInt32) ++
          (said true (writePaths s.settings paths.paths) ++ []))) (some s) := by
      apply Follows.read (Reader.Reads.byte 1)
      change Follows true (.read Reader.dword fun _ =>
        .send (writePaths s.settings paths.paths) (.ret s)) _ _
      exact .read (Reader.Reads.dword _) (.send _ (.ret s))
    rw [← List.append_assoc, ← said_append] at hchild
    by_cases hdisconnect : v.takePathsAndDisconnect ∧ st.localpathqueuecount = 0
    · -- the parent has what it wanted, and closes the connection
      apply oneScript_updateStatus (y := none) hchild
      · simp only [hreply, if_pos hdisconnect]
        exact .send _ (follows_readElements paths hsize (.close _))
      · exact fun _ _ _ ht => nomatch ht
    · apply oneScript_updateStatus (y := some t) hchild
      · simp only [hreply, if_neg hdisconnect]
        exact .send _ (follows_readElements paths hsize (.ret t))
      · intro s' t' hs ht
        cases hs
        cases ht
        simp only [afterExchange, hreply, if_neg hdisconnect]
  | doNewScan =>
    obtain ⟨hquit, hsend⟩ := hmeets hreply
    subst hquit
    obtain ⟨⟨controller, hnegative, hheap⟩, hcontroller, hreads⟩ :=
      Controller.reads_newScan hsend s.node v.childid v.currentscanid
    dsimp only at hcontroller
    subst hcontroller
    have hchild : Follows true (s.handleUpdateStatusReply paths none)
        (said false (u8 0) ++
          (said false ((scans v.currentscanid).writeNewScan v.childid v.currentscanid) ++
            (said true (u8 0) ++ [])))
        (some ⟨v.currentscanid, ⟨(scans v.currentscanid).received, hnegative, hheap⟩⟩) := by
      apply Follows.read (Reader.Reads.byte 0)
      change Follows true (s.doNewScan none) _ _
      rw [ChildState.doNewScan]
      apply Follows.read hreads
      exact .send _ (.ret _)
    rw [← List.append_assoc, ← said_append] at hchild
    cases hend : v.uploadEnd with
    | none =>
      apply oneScript_updateStatus (y := some t) hchild
      · simp only [hreply, ParentState.doNewScan, hend]
        exact .send _ (follows_readOk (.ret t))
      · intro s' t' hs ht
        cases hs
        cases ht
        simp only [afterExchange, hreply, hend]
    | some n =>
      -- the uploader gave up on the way
      apply oneScript_updateStatus (y := none) hchild
      · simp only [hreply, ParentState.doNewScan, hend]
        rw [← List.take_append_drop n (u8 0 ++ (scans v.currentscanid).writeNewScan v.childid
          v.currentscanid), said_append, List.append_assoc, List.take_append_drop]
        exact .send _ (.close _)
      · exact fun _ _ _ ht => nomatch ht

theorem oneScript_of_meets (hscan : SameScan scans s) {e : ChildExchange}
    (hmeets : Meets scans v s t e) : OneScript scans v s t e := by
  cases e with
  | queueMessage queuepos queuesize => exact hmeets.elim
  | updateStatus st paths quit => exact oneScript_of_reply hscan hmeets
  | sendPaths paths => exact oneScript_sendPaths hmeets.1 hmeets.2
  | canUploadResults => exact oneScript_canUploadResults
  | uploadResults decompressedsize stream h => exact oneScript_uploadResults _ _ h
  | prepareForMyTermination => exact oneScript_prepareForMyTermination
  | goodbye canreconnect => exact oneScript_goodbye canreconnect

theorem sameScan_afterExchange (hscan : SameScan scans s) {e : ChildExchange} {s' : ChildState}
    {t' : ParentState} (h : afterExchange scans v s t e = some (s', t')) : SameScan scans s' := by
  have hsame : ∀ {t'' : ParentState}, some (s, t'') = some (s', t') → SameScan scans s' := by
    intro t'' heq
    cases heq
    exact hscan
  cases e with
  | updateStatus st paths quit =>
    simp only [afterExchange] at h
    split at h
    · split at h
      · cases h
      · cases h
        exact fun _ => size_received _
    · split at h
      · cases h
      · exact hsame h
    · exact hsame h
  | uploadResults decompressedsize stream hlength =>
    simp only [afterExchange] at h
    split at h
    · cases h
    · exact hsame h
  | queueMessage queuepos queuesize => exact hsame h
  | sendPaths paths => exact hsame h
  | canUploadResults => exact hsame h
  | prepareForMyTermination => exact hsame h
  | goodbye canreconnect => cases h

end Exchange

/-- Child and parent stay in step, in every order of exchanges that meet the
    condition, and in every order of the steps of the two nodes. -/
theorem inStep_of_meets (scans : UInt32 → Controller) (e : Nat → ChildExchange)
    (v : Nat → ParentView) (s : ChildState) (t : ParentState) (hscan : SameScan scans s)
    (hmeets : ∀ n s' t', statesBefore scans e v s t n = some (s', t') →
      Meets scans (v n) s' t' (e n))
    (schedule : List Bool) : (converse scans e v s t schedule).InStep := by
  -- the states before an exchange are those of `statesBefore`, and the child has its scan
  apply Connection.inStep_exec (fun n s' t' =>
    statesBefore scans e v s t n = some (s', t') ∧ SameScan scans s')
  · rintro n s' t' ⟨hstates, hscan'⟩
    obtain ⟨D, x, y, hchild, hparent, hafter⟩ :=
      oneScript_of_meets hscan' (hmeets n s' t' hstates)
    refine ⟨D, x, y, hchild, hparent, fun s'' t'' hx hy => ?_⟩
    have hnext := hafter s'' t'' hx hy
    refine ⟨?_, sameScan_afterExchange hscan' hnext⟩
    rw [statesBefore, hstates]
    exact hnext
  · exact ⟨rfl, hscan⟩

namespace Conversation

def newChild : ChildState where
  currentscanid := 0
  node := ⟨{ Controller.defaultScan with maxlevel := 0, loadedPointermap := [] }, rfl, rfl⟩

def view : ParentView where
  currentscanid := 1
  currentscanhasended := false
  savestate := false
  terminated := false
  scanDone := false
  overflowsize := 0
  localpathcount := 0
  localscannercount := 0
  takePathsAndDisconnect := false
  downloading := false
  childid := 7
  paths := ⟨[], by decide⟩
  uploadEnd := none

/-- The child has nothing to do. -/
def idle : Status := ⟨true, 1, 0, 0, 0, 0, 0⟩

/-- The child reports, gets the scan, and then asks again and again whether it can
    upload results. -/
def reports : Nat → ChildExchange
  | 0 => .updateStatus idle ⟨[], by decide⟩ none
  | _ + 1 => .canUploadResults

/-- While it gets a scan from a parent that trusts it, the two are in step. -/
theorem inStep_of_meets_reports :
    (converse (fun _ => Controller.defaultScan) reports (fun _ => view) newChild ⟨true, false⟩
      [true, false, false, true, false, true, true, true, false, true, false]).InStep := by
  apply inStep_of_meets
  · exact fun h => absurd rfl h
  · intro n s' t' hstates
    cases n with
    | zero => exact fun _ => ⟨rfl, Controller.sendable_defaultScan⟩
    | succ n => exact trivial

/-- A queued parent is told its position, becomes the parent, and gets the status. -/
def queued : Nat → ChildExchange
  | 0 => .queueMessage 0 2
  | _ + 1 => .updateStatus idle ⟨[], by decide⟩ none

/-- The parent's answer to the notice is taken for the reply to the status. -/
theorem not_inStep_queued :
    ¬ (converse (fun _ => Controller.defaultScan) queued (fun _ => view) newChild ⟨true, false⟩
      [true, true, false, false, false, true, true]).InStep := by
  intro h
  have hstrays : (converse (fun _ => Controller.defaultScan) queued (fun _ => view) newChild
      ⟨true, false⟩ [true, true, false, false, false, true, true]).strays = 1 := by
    decide
  exact absurd (hstrays.symm.trans h.strays) (by decide)

end Conversation

end CheatEngine.PointerScan
