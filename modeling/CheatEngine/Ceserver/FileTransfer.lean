/-
  CheatEngine.Ceserver.FileTransfer

  A file that goes to the server with `CMD_PUTFILE` and comes back with
  `CMD_GETFILE`.  The upload writes with as many `write` calls as the system
  asks for; it reports success when they took every byte.

  What the calls do to the file is assumed of the system (`FileView`).  That
  the file ends up with the bytes that were sent, and that these are the bytes
  the download returns, is proved of the handlers and the client.
-/
import CheatEngine.Ceserver.Framing

namespace CheatEngine.Ceserver

open CheatEngine.Lib CheatEngine.Client

/-- The file of one path, and what the calls of the two handlers do to it. -/
structure FileView {σ : Type} (o : Outcomes σ) (path : Option (List UInt8)) where
  /-- The bytes of the file; `none` where there is no file. -/
  content : σ → Option (List UInt8)
  /-- The descriptor is open on the file and writes at its end. -/
  writes : σ → Int32 → Prop
  /-- The descriptor is open on the file and reads at its start. -/
  reads : σ → Int32 → Prop
  /-- `creat` truncates the file. -/
  creat : ∀ {a f}, (o (.creat path 0o777) a).1 = some f →
    content (o (.creat path 0o777) a).2 = some [] ∧ writes (o (.creat path 0o777) a).2 f
  /-- `write` appends the bytes that it reports. -/
  write : ∀ {a f data written stored}, writes a f → content a = some stored →
    (o (.writeFile f data) a).1 = some written →
      content (o (.writeFile f data) a).2 = some (stored ++ data.take written.val) ∧
        writes (o (.writeFile f data) a).2 f
  close : ∀ {a f}, content (o (.closeFile f) a).2 = content a
  opened : ∀ {a f}, (o (.openFile path) a).1 = some f →
    content (o (.openFile path) a).2 = content a ∧ reads (o (.openFile path) a).2 f
  /-- `lseek` to the end gives the length, and the handler goes back to the start. -/
  size : ∀ {a f stored}, reads a f → content a = some stored →
    (o (.fileSize f) a).1 = UInt32.ofNat stored.length ∧
      content (o (.fileSize f) a).2 = some stored ∧ reads (o (.fileSize f) a).2 f
  /-- `read` gives a leading part of the file. -/
  read : ∀ {a f n contents stored}, reads a f → content a = some stored →
    (o (.readFile f n) a).1 = some contents →
      contents.val = stored.take contents.val.length

/-- The file can be opened, and `read` gives as many bytes as it is asked for. -/
def ReadsWhole {σ : Type} (o : Outcomes σ) (path : Option (List UInt8)) (a : σ) : Prop :=
  ∃ f, (o (.openFile path) a).1 = some f ∧
    ((o (.fileSize f) (o (.openFile path) a).2).1 ≠ 0 →
      ∃ contents, (o (.readFile f (o (.fileSize f) (o (.openFile path) a).2).1)
          (o (.fileSize f) (o (.openFile path) a).2).2).1 = some contents ∧
        contents.val.length = (o (.fileSize f) (o (.openFile path) a).2).1.toNat)

/-- The bytes that a `write` call took. -/
def Taken : Prog.Event CeApi → List UInt8
  | ⟨.writeFile _ contents, some (some written)⟩ => contents.take written.val
  | _ => []

/-- The bytes that the `write` calls of a log took, in order. -/
def writtenBytes (log : List (Prog.Event CeApi)) : List UInt8 := log.flatMap Taken

section Paths

variable {α : Type} {c : UInt8} {path : List UInt8} {f : List UInt8 → ClientM α}

theorem stringPacket_bind (hpath : Text16 path) :
    stringPacket c path >>= f = f (c :: Request.string16 path) := by
  have hfield : writeString16 path = .ok (Request.string16 path) := by
    rw [writeString16, if_neg (Nat.not_lt.2 hpath.1), if_neg hpath.2]
    rfl
  rw [stringPacket, hfield]
  rfl

theorem stringPacket_bind_error (hpath : ¬ Text16 path) :
    ∃ e, stringPacket c path >>= f = throw e := by
  have hfield : ∃ e, writeString16 path = .error e := by
    by_cases hlen : 65535 < path.length
    · rw [writeString16, if_pos hlen]
      exact ⟨_, rfl⟩
    · have hnul : (0 : UInt8) ∈ path := by
        by_contra hnul
        exact hpath ⟨Nat.le_of_not_lt hlen, hnul⟩
      rw [writeString16, if_neg hlen, if_pos hnul]
      exact ⟨_, rfl⟩
  obtain ⟨e, he⟩ := hfield
  rw [stringPacket, he]
  exact ⟨e, rfl⟩

end Paths

section Upload

variable {σ : Type} (o : Outcomes σ)

theorem drive_writeAll (f : Int32) (fuel : Nat) (contents : List UInt8) (inp out : List UInt8)
    (a : σ) (log : List (Prog.Event CeApi)) (hfuel : contents.length ≤ fuel) :
    ∃ r a' events, drive o.env (writeAll f fuel contents).run ⟨inp, out, a, log⟩ =
        (pure (some r), ⟨inp, out, a', log ++ events⟩) ∧
      (r = true → writtenBytes events = contents ∧
        ∀ {path} (view : FileView o path) {stored}, view.writes a f → view.content a = some stored →
          view.content a' = some (stored ++ contents)) := by
  induction fuel generalizing contents a log with
  | zero =>
    obtain rfl : contents = [] := List.length_eq_zero_iff.1 (Nat.le_zero.1 hfuel)
    exact ⟨true, a, [], by rw [List.append_nil]; rfl, fun _ => ⟨rfl, fun view _ _ h => by simpa using h⟩⟩
  | succ fuel ih =>
    by_cases hempty : contents = []
    · subst hempty
      exact ⟨true, a, [], by rw [List.append_nil]; rfl,
        fun _ => ⟨rfl, fun view _ _ h => by simpa using h⟩⟩
    · rw [writeAll, if_neg hempty, drive_outcome]
      cases hwrite : (o (.writeFile f contents) a).1 with
      | none => exact ⟨false, _, _, rfl, fun h => absurd h (by decide)⟩
      | some written =>
        -- at least one byte is gone, so the rest is shorter than the fuel
        have hpos := written.property.1
        have hrest : (contents.drop written.val).length ≤ fuel := by
          rw [List.length_drop]
          omega
        obtain ⟨r, a', events, hdrive, hr⟩ := ih (contents.drop written.val)
          (o (.writeFile f contents) a).2
          (log ++ [⟨.writeFile f contents, some (some written)⟩]) hrest
        refine ⟨r, a', ⟨.writeFile f contents, some (some written)⟩ :: events, ?_, fun h => ?_⟩
        · rw [hdrive, List.append_assoc]
          rfl
        · obtain ⟨hbytes, hview⟩ := hr h
          refine ⟨?_, fun view stored hopen hstored => ?_⟩
          · rw [writtenBytes, List.flatMap_cons, ← writtenBytes, hbytes]
            exact List.take_append_drop _ _
          · have hstep := view.write hopen hstored hwrite
            rw [hview view hstep.2 hstep.1, List.append_assoc, List.take_append_drop]

theorem drive_onPutFile (path : Option (List UInt8)) (contents : List UInt8) (a : σ)
    (log : List (Prog.Event CeApi)) :
    ∃ r a' events, drive o.env (onPutFile path contents).run ⟨[], [], a, log⟩ =
        (pure (some ()), ⟨[], flagByte r, a', log ++ events⟩) ∧
      (r = true → writtenBytes events = contents ∧
        ∀ view : FileView o path, view.content a' = some contents) := by
  rw [onPutFile, drive_outcome]
  cases hcreat : (o (.creat path 0o777) a).1 with
  | none => exact ⟨false, _, _, rfl, fun h => absurd h (by decide)⟩
  | some f =>
    obtain ⟨r, a', events, hdrive, hr⟩ := drive_writeAll o f contents.length contents [] []
      (o (.creat path 0o777) a).2 (log ++ [⟨.creat path 0o777, some (some f)⟩]) (Nat.le_refl _)
    refine ⟨r, (o (.closeFile f) a').2, [⟨.creat path 0o777, some (some f)⟩] ++ events ++
      [⟨.closeFile f, some ()⟩], ?_, fun h => ?_⟩
    · rw [drive_run_bind o.env hdrive, drive_outcome, ← List.append_assoc, ← List.append_assoc]
      rfl
    · obtain ⟨hbytes, hview⟩ := hr h
      -- neither `creat` nor `close` writes
      have hlog : writtenBytes ([⟨.creat path 0o777, some (some f)⟩] ++ events ++
          [⟨.closeFile f, some ()⟩]) = writtenBytes events := by
        simp [writtenBytes, Taken]
      refine ⟨by rw [hlog, hbytes], fun view => ?_⟩
      have hnew := view.creat hcreat
      rw [view.close, hview view hnew.2 hnew.1, List.nil_append]

theorem run_putRemoteFile {b : Build} {path content : List UInt8} (hpath : Text16 path)
    (hlen : content.length ≤ maximumRemoteFileSize) (s : Connection) (a : σ)
    (log : List (Prog.Event CeApi)) (d : Bool) (ctx : List (Option String)) :
    ∃ r a' events, Link.run (ceserver b) o.env (putRemoteFile path content)
        (.ready s a log [] d ctx) = some (.ok r, .ready s a' (log ++ events) [] d ctx) ∧
      (r = true → writtenBytes events = content ∧
        ∀ view : FileView o (pathArg path), view.content a' = some content) := by
  have hmax : maximumRemoteFileSize = 268435456 := rfl
  obtain ⟨r, a', events, hdrive, hr⟩ := drive_onPutFile o (pathArg path) content a log
  have hpacket : commandPutFile :: Request.string16 path ++ u32 (UInt32.ofNat content.length) ++
      content = Request.packet (.putFile path content) := by
    simp [Request.packet, Request.command, Request.body]
  refine ⟨r, a', events, ?_, hr⟩
  rw [putRemoteFile, if_neg (by omega), stringPacket_bind hpath, remoteBooleanOperation,
    run_request (.putFile path content) hpacket ⟨hpath, by omega⟩ id rfl hdrive, flagByte,
    run_read (yields_readU8 _)]
  cases r <;> rfl

end Upload

section Download

variable {σ : Type} (o : Outcomes σ)

theorem drive_onGetFile {path : Option (List UInt8)} (view : FileView o path) {stored : List UInt8}
    {a : σ} (hstored : view.content a = some stored) (hlen : stored.length < 2 ^ 32)
    (hwhole : ReadsWhole o path a) (log : List (Prog.Event CeApi)) :
    ∃ a' log', drive o.env (onGetFile path).run ⟨[], [], a, log⟩ =
      (pure (some ()), ⟨[], u32 (UInt32.ofNat stored.length) ++ stored, a', log'⟩) := by
  obtain ⟨f, hopen, hread⟩ := hwhole
  obtain ⟨hkept, hreads⟩ := view.opened hopen
  obtain ⟨hsize, hkept', hreads'⟩ := view.size hreads (hkept.trans hstored)
  rw [hsize] at hread
  rw [onGetFile, drive_outcome, hopen, drive_outcome, hsize]
  by_cases hempty : UInt32.ofNat stored.length = 0
  · -- the empty file has a branch of its own
    have hnil : stored = [] := by
      have hzero := toNat_ofNat_length hlen
      rw [hempty] at hzero
      exact List.length_eq_zero_iff.1 hzero.symm
    subst hnil
    rw [if_neg (not_not.2 hempty)]
    exact ⟨_, _, rfl⟩
  · obtain ⟨contents, hresult, hall⟩ := hread hempty
    have hcontents : contents.val = stored := by
      have htake := view.read hreads' hkept' hresult
      have hlength : contents.val.length = stored.length := hall.trans (toNat_ofNat_length hlen)
      exact htake.trans (List.take_of_length_le (Nat.le_of_eq hlength.symm))
    have hsent : u32 (UInt32.ofNat contents.val.length) ++ contents.val =
        u32 (UInt32.ofNat stored.length) ++ stored := by rw [hcontents]
    rw [if_pos hempty, drive_outcome, hresult, ← hsent]
    exact ⟨_, _, rfl⟩

theorem run_getRemoteFile {b : Build} {path : List UInt8} (hpath : Text16 path)
    (view : FileView o (pathArg path)) {stored : List UInt8} {a : σ}
    (hstored : view.content a = some stored) (hlen : stored.length ≤ maximumRemoteFileSize)
    (hwhole : ReadsWhole o (pathArg path) a) (s : Connection) (log : List (Prog.Event CeApi))
    (d : Bool) (ctx : List (Option String)) :
    ∃ a' log', Link.run (ceserver b) o.env (getRemoteFile path) (.ready s a log [] d ctx) =
      some (.ok stored, .ready s a' log' [] d ctx) := by
  have hmax : maximumRemoteFileSize = 268435456 := rfl
  obtain ⟨a', log', hdrive⟩ := drive_onGetFile o view hstored (by omega) hwhole log
  have hnat : (UInt32.ofNat stored.length).toNat = stored.length := toNat_ofNat_length (by omega)
  -- no length up to the limit is the value for a failure
  have hvalid : UInt32.ofNat stored.length ≠ 0xFFFFFFFF := by
    intro h
    have hfail : (0xFFFFFFFF : UInt32).toNat = 4294967295 := rfl
    rw [h] at hnat
    omega
  have hread : Client.Yields (ceserver b) o.env (u32 (UInt32.ofNat stored.length) ++ (stored ++ []))
      (readU32 "get remote file" >>= fun size =>
        if size = 0xFFFFFFFF then
          throw (.protocol "get remote file"
            ⟨"path %q was not found or could not be read", [.str path]⟩)
        else if maximumRemoteFileSize < size.toNat then
          throw (.protocol "get remote file" ⟨"remote file size %d exceeds client limit %d",
            [.int size.toNat, .int maximumRemoteFileSize]⟩)
        else readFull "get remote file content" size.toNat) stored := by
    refine Client.Yields.bind (yields_readU32 _) ?_
    rw [if_neg hvalid, if_neg (by omega), List.append_nil]
    exact yields_readFull stored hnat.symm
  have hpacket : commandGetFile :: Request.string16 path = Request.packet (.getFile path) := rfl
  refine ⟨a', log', ?_⟩
  rw [getRemoteFile, stringPacket_bind hpath, run_request (.getFile path) hpacket hpath id rfl hdrive]
  have hrun := hread s a' log' [] d ctx
  rwa [List.append_nil, List.append_nil] at hrun

end Download

section RoundTrip

variable {σ : Type} {o : Outcomes σ}

end RoundTrip

/-- One file, and a descriptor that every call may use. `write` takes two bytes
    at a time. -/
def oneFile : Outcomes (Option (List UInt8))
  | .creat _ _, _ => (some 3, some [])
  | .writeFile _ contents, stored =>
    if h : contents = [] then (none, stored)
    else
      have hpos : 0 < contents.length := List.length_pos_iff.2 h
      (some ⟨min 2 contents.length, by omega⟩, stored.map (· ++ contents.take 2))
  | .closeFile _, stored => ((), stored)
  | .openFile _, stored => (stored.map fun _ => 3, stored)
  | .fileSize _, stored => (UInt32.ofNat (stored.getD []).length, stored)
  | .readFile _ size, stored =>
    if h : ((stored.getD []).take size.toNat).length < 2 ^ 31 then
      (some ⟨(stored.getD []).take size.toNat, List.length_take_le _ _, h⟩, stored)
    else (none, stored)
  | c, stored => (refusal c, stored)

def oneFileView (path : Option (List UInt8)) : FileView oneFile path where
  content stored := stored
  writes _ _ := True
  reads stored _ := stored.isSome
  creat _ := ⟨rfl, trivial⟩
  write := by
    intro a f data written stored _ hstored hwrite
    refine ⟨?_, trivial⟩
    by_cases h : data = []
    · rw [oneFile, dif_pos h] at hwrite
      cases hwrite
    · rw [oneFile, dif_neg h] at hwrite
      injection hwrite with hwrite
      rw [oneFile, dif_neg h, ← hwrite]
      simp only [hstored, Option.map_some, Option.some.injEq, List.append_cancel_left_eq]
      exact List.take_eq_take_min ..
  close := rfl
  opened := by
    intro a f h
    refine ⟨rfl, ?_⟩
    cases a with
    | none => cases h
    | some stored => rfl
  size := by
    intro a f stored hreads hstored
    subst hstored
    exact ⟨rfl, rfl, hreads⟩
  read := by
    intro a f n contents stored _ hstored hread
    subst hstored
    rw [oneFile] at hread
    split at hread
    · injection hread with hread
      rw [← hread]
      show stored.take n.toNat = stored.take (stored.take n.toNat).length
      rw [List.length_take]
      exact List.take_eq_take_min ..
    · cases hread

end CheatEngine.Ceserver
