/-
  CheatEngine.Ceserver.Framing

  Reply framing: for every client operation and every outcome that can be
  framed, ceserver sends exactly the bytes that the client method reads.
  `Framed` says which outcomes those are, for each operation.
-/
import CheatEngine.Lib.Run
import CheatEngine.Client.Exchange
import CheatEngine.Ceserver.Effects

namespace CheatEngine.Ceserver

open CheatEngine.Lib CheatEngine.Client

/-! ## Outcomes whose reply can be framed -/

section Outcomes

variable {σ : Type} (o : Outcomes σ)

/-- `VirtualQueryExFull` succeeds, with at most as many regions as the client
    accepts. -/
def FramedRegions (flags : UInt8) : Prop :=
  ∀ h a, ∃ rinfo, (o (.virtualQueryExFull h flags.toUInt32) a).1 = some rinfo ∧
    rinfo.val.length ≤ maximumCollectionEntries

/-- `ReadProcessMemory` does not return a negative count. -/
def FramedReads : Prop :=
  ∀ h address size a, ∃ data fits, (o (.readProcessMemory h address size) a).1 = .stored data fits

/-- Fewer modules than the client collects. -/
def FramedModules : Prop := ∀ h a, (o (.moduleList h) a).1.length < maximumCollectionEntries

/-- At most as many threads as the client accepts. -/
def FramedThreads : Prop := ∀ h a, (o (.threadList h) a).1.val.length ≤ maximumCollectionEntries

/-- Fewer directory entries than the client collects. -/
def FramedEntries (path : List UInt8) : Prop :=
  ∀ a d, (o (.readDirectory (pathArg path)) a).1 = some d →
    (namedEntries d).length < maximumCollectionEntries

/-- A file no larger than the client accepts. -/
def FramedFiles : Prop :=
  ∀ f size a contents, (o (.readFile f size) a).1 = some contents →
    contents.val.length ≤ maximumRemoteFileSize

/-- A symbol list no larger than the client accepts. -/
def FramedSymbols (path : List UInt8) (offset : UInt32) : Prop :=
  ∀ a output, (o (.getSymbolListFromFile path offset) a).1 = some output →
    output.compressed.length + 12 ≤ maximumRemoteFileSize ∧
      output.decompressedSize.toNat ≤ maximumRemoteFileSize

/-- The outcomes of the calls that an operation makes have a reply that the
    client reads to its end. -/
def Framed : ClientOp → Prop
  | .regions _ flags => FramedRegions o flags
  | .readMemory _ _ _ => FramedReads o
  | .scanMemory _ _ _ _ _ _ _ _ => FramedRegions o 0 ∧ FramedReads o
  | .listModules _ => FramedModules o
  | .listThreads _ => FramedThreads o
  | .processInfo _ => FramedModules o ∧ FramedThreads o
  | .listRemoteFiles path => FramedEntries o path
  | .getRemoteFile _ => FramedFiles o
  | .symbols _ path offset => FramedSymbols o path offset
  | _ => True

end Outcomes

section Replies

variable {σ : Type} {o : Outcomes σ} {b : Build}

theorem replies_request {req : Request} (ho : NeedsMemory req → Allocates o.env)
    (hreq : WellFormed req) {R : List UInt8 → List (Prog.Event CeApi) → Prop}
    (hhandle : ∀ s, Ends o (handle b s req) fun x sent events => x ≠ none ∧ R sent events) :
    Replies (ceserver b) o.env req.command req.body R := by
  intro s a log
  obtain ⟨x, sent, a', events, hdrive, hx, hr⟩ := hhandle s [] [] a log
  have hbody : drive o.env (dispatchCommand b req.command s).run ⟨req.body, [], a, log⟩ =
      drive o.env (handle b s req).run ⟨[], [], a, log⟩ := by
    rw [← drive_dispatchCommand req ho hreq, List.append_nil]
  cases x with
  | none => exact absurd rfl hx
  | some s' => exact ⟨s', sent, a', events, hbody.trans hdrive, hr⟩

variable {c : Command CeApi Unit}

theorem ends_keep {s : Connection} {R : List UInt8 → Prop}
    (hc : Answers o c R) : Ends o (keep c s) fun x sent _ => x ≠ none ∧ R sent := by
  refine Ends.bind hc (fun _ _ h => nomatch h.1) fun _ sent _ h => ?_
  exact Ends.pure ⟨Option.some_ne_none _, by simpa using h.2⟩

theorem settles_request {α : Type} (ho : Allocates o.env) (req : Request)
    (hreq : WellFormed req) (hc : ∀ s, handle b s req = keep c s)
    {R : List UInt8 → Prop} (hanswers : Answers o c R) {f : Unit → ClientM α}
    (hread : ∀ reply, R reply → Settles (ceserver b) o.env reply (f ())) :
    Settles (ceserver b) o.env [] (writePacket req.packet >>= f) := by
  refine Settles.request (replies_request (fun _ => ho) hreq fun s => ?_) hread
  rw [hc s]
  exact ends_keep hanswers

theorem settles_noReply (ho : Allocates o.env) (req : Request) (hreq : WellFormed req)
    (hc : ∀ s, handle b s req = keep c s) (hanswers : Answers o c fun sent => sent = []) :
    Settles (ceserver b) o.env [] (writePacket req.packet) := by
  have h : Settles (ceserver b) o.env [] (writePacket req.packet >>= pure) :=
    settles_request ho req hreq hc hanswers (by rintro _ rfl; exact Settles.pure ())
  rwa [bind_pure] at h

end Replies

section Single

variable {σ : Type} {o : Outcomes σ} {b : Build} {α : Type}

/-- A reply of one `int32`, or of one `uint32` sent as such. -/
def OneI32 (reply : List UInt8) : Prop := ∃ v, reply = i32 v

def OneU32 (reply : List UInt8) : Prop := ∃ v, reply = u32 v

def OneU64 (reply : List UInt8) : Prop := ∃ v, reply = u64 v

def OneU8 (reply : List UInt8) : Prop := ∃ v, reply = u8 v

theorem OneI32.oneU32 {reply : List UInt8} (h : OneI32 reply) : OneU32 reply := by
  obtain ⟨v, rfl⟩ := h
  exact ⟨v.toUInt32, rfl⟩

variable {svc : Service CeApi Connection} {env : Env CeApi σ} {reply : List UInt8}
  {operation : String}

theorem settles_i32 (hr : OneI32 reply) {f : Int32 → ClientM α}
    (hf : ∀ v, Settles svc env [] (f v)) : Settles svc env reply (readI32 operation >>= f) := by
  obtain ⟨v, rfl⟩ := hr
  exact Settles.readLast (yields_readI32 v) (hf v)

theorem settles_u32 (hr : OneU32 reply) {f : UInt32 → ClientM α}
    (hf : ∀ v, Settles svc env [] (f v)) : Settles svc env reply (readU32 operation >>= f) := by
  obtain ⟨v, rfl⟩ := hr
  exact Settles.readLast (yields_readU32 v) (hf v)

theorem settles_u64 (hr : OneU64 reply) {f : UInt64 → ClientM α}
    (hf : ∀ v, Settles svc env [] (f v)) : Settles svc env reply (readU64 operation >>= f) := by
  obtain ⟨v, rfl⟩ := hr
  exact Settles.readLast (yields_readU64 v) (hf v)

theorem settles_u8 (hr : OneU8 reply) {f : UInt8 → ClientM α}
    (hf : ∀ v, Settles svc env [] (f v)) : Settles svc env reply (readU8 operation >>= f) := by
  obtain ⟨v, rfl⟩ := hr
  exact Settles.readLast (yields_readU8 v) (hf v)

theorem settles_checked {p : Prop} [Decidable p] {e : ClientError} {x : α} :
    Settles svc env [] (if p then throw e else pure x : ClientM α) :=
  Settles.ite (fun _ => Settles.throw e) fun _ => Settles.pure x

end Single

section Handles

variable {σ : Type} {o : Outcomes σ} {b : Build}

theorem settles_openProcess (ho : Allocates o.env) (pid : Int32) :
    Settles (ceserver b) o.env [] (openProcess pid) := by
  refine settles_request ho (.openProcess pid) trivial (fun _ => rfl)
    (Answers.api fun _ => Answers.reply (R := OneU32) ⟨_, rfl⟩) fun reply hr => ?_
  exact settles_u32 hr fun _ => settles_checked

theorem settles_closeHandle (ho : Allocates o.env) (handle : UInt32) :
    Settles (ceserver b) o.env [] (closeHandle handle) := by
  refine settles_request ho (.closeHandle handle) trivial (fun _ => rfl)
    (Answers.api fun _ => Answers.reply (R := OneI32) ⟨_, rfl⟩) fun reply hr => ?_
  exact settles_i32 hr fun _ => Settles.pure _

theorem settles_createSnapshot (ho : Allocates o.env) (flags pid : UInt32) :
    Settles (ceserver b) o.env [] (createSnapshot flags pid) := by
  refine settles_request ho (.createSnapshot flags pid) trivial (fun _ => rfl)
    (Answers.api fun _ => Answers.reply (R := OneU32) ⟨_, rfl⟩) fun reply hr => ?_
  exact settles_u32 hr fun _ => settles_checked

theorem settles_onProcess {α : Type} (ho : Allocates o.env) {pid : Int32}
    {body : UInt32 → ClientM α} (hbody : ∀ handle, Settles (ceserver b) o.env [] (body handle)) :
    Settles (ceserver b) o.env []
      (openProcess pid >>= fun handle => deferClose handle (body handle)) :=
  (settles_openProcess ho pid).bind fun handle =>
    (hbody handle).deferClose (settles_closeHandle ho handle)

end Handles

/-! ## Server and settings -/

section Server

variable {σ : Type} {o : Outcomes σ} {b : Build}

theorem settles_version (ho : Allocates o.env) : Settles (ceserver b) o.env [] version := by
  refine settles_request ho .getVersion trivial (fun _ => rfl)
    (R := fun sent => sent = i32 6 ++ u8 (UInt8.ofNat versionstring.length) ++ versionstring)
    (Answers.reply rfl) ?_
  rintro _ rfl
  refine Settles.read (yields_readFull _ rfl) ?_
  exact Settles.readLast (yields_readFull versionstring (by decide)) (Settles.pure _)

theorem settles_abi (ho : Allocates o.env) : Settles (ceserver b) o.env [] abi := by
  refine settles_request ho .getABI trivial (fun _ => rfl) (R := OneU8)
    (Answers.reply ⟨_, rfl⟩) ?_
  rintro _ ⟨v, rfl⟩
  exact (yields_readU8 v).settles

def OneString (reply : List UInt8) : Prop :=
  ∃ value : List UInt8, value.length < 2 ^ 16 ∧ reply = string16 value

theorem settles_readString16 {svc : Service CeApi Connection} {env : Env CeApi σ}
    {reply : List UInt8} {operation : String} (hr : OneString reply) :
    Settles svc env reply (readString16 operation) := by
  obtain ⟨value, hlen, rfl⟩ := hr
  exact (yields_readString16 value hlen).settles

theorem oneString_of_cString {n : Nat} (c : CString n) (hn : n < 2 ^ 16) :
    OneString (string16 c.bytes) :=
  ⟨c.bytes, lt_of_le_of_lt c.length_le hn, rfl⟩

theorem settles_serverPath (ho : Allocates o.env) : Settles (ceserver b) o.env [] serverPath :=
  settles_request ho .getServerPath trivial (fun _ => rfl)
    (Answers.reply (oneString_of_cString b.ceserverPath (by decide)))
    fun _ hr => settles_readString16 hr

theorem settles_isAndroid (ho : Allocates o.env) : Settles (ceserver b) o.env [] isAndroid :=
  settles_request ho .isAndroid trivial (fun _ => rfl) (R := OneU8) (Answers.reply ⟨_, rfl⟩)
    fun _ hr => settles_u8 hr fun _ => Settles.pure _

theorem settles_currentPath (ho : Allocates o.env) : Settles (ceserver b) o.env [] currentPath := by
  refine settles_request ho .getCurrentPath trivial (fun _ => rfl) (R := OneString)
    (Answers.api fun a => ?_) fun _ hr => settles_readString16 hr
  cases (o .getcwd a).1 with
  | none => exact Answers.reply ⟨[], by decide, rfl⟩
  | some p => exact Answers.reply (oneString_of_cString p (by decide))

theorem settles_pathInfo (ho : Allocates o.env) : Settles (ceserver b) o.env [] pathInfo :=
  (settles_serverPath ho).bind fun _ => (settles_currentPath ho).bind fun _ =>
    (settles_isAndroid ho).bind fun _ => Settles.pure _

theorem settles_writeString16 {α : Type} {svc : Service CeApi Connection} {env : Env CeApi σ}
    {value : List UInt8} {f : List UInt8 → ClientM α}
    (hf : Text16 value → Settles svc env [] (f (Request.string16 value))) :
    Settles svc env [] (ExceptT.mk (pure (writeString16 value)) >>= f) := by
  by_cases hlen : 65535 < value.length
  · rw [writeString16, if_pos hlen]
    exact Settles.throw _
  by_cases hnul : (0 : UInt8) ∈ value
  · rw [writeString16, if_neg hlen, if_pos hnul]
    exact Settles.throw _
  · rw [writeString16, if_neg hlen, if_neg hnul]
    exact hf ⟨by omega, hnul⟩

theorem settles_stringPacket {α : Type} {svc : Service CeApi Connection} {env : Env CeApi σ}
    {c : UInt8} {value : List UInt8} {f : List UInt8 → ClientM α}
    (hf : Text16 value → Settles svc env [] (f (c :: Request.string16 value))) :
    Settles svc env [] (stringPacket c value >>= f) := by
  have hrun : stringPacket c value >>= f =
      ExceptT.mk (pure (writeString16 value)) >>= fun field => f (c :: field) := by
    simp only [stringPacket, bind_assoc, pure_bind]
  rw [hrun]
  exact settles_writeString16 hf

def ServerOption.decode (opt : ServerOption) : Client.ServerOption :=
  ⟨opt.optname.bytes, opt.parent.bytes, opt.description.bytes, opt.acceptablevalues.bytes,
    opt.currentValue.bytes, opt.type, optionTypeName opt.type⟩

theorem yields_readOption {svc : Service CeApi Connection} {env : Env CeApi σ}
    (opt : ServerOption) : Client.Yields svc env opt.encode readOption opt.decode := by
  have hstring : ∀ c : CString 255, Client.Yields svc env (string16 c.bytes)
      (readString16 "get server options") c.bytes := fun c =>
    yields_readString16 c.bytes (lt_of_le_of_lt c.length_le (by decide))
  refine (hstring _).bind ((hstring _).bind ((hstring _).bind ((hstring _).bind
    ((hstring _).bind ?_))))
  rw [← List.append_nil (i32 opt.type)]
  exact (yields_readI32 opt.type).bind (Client.Yields.pure _)

theorem settles_options (ho : Allocates o.env) : Settles (ceserver b) o.env [] options := by
  refine settles_request ho .getOptions trivial (fun _ => rfl)
    (R := fun sent => ∃ opts : List ServerOption, opts.length ≤ 4 ∧
      sent = u16 (UInt16.ofNat opts.length) ++ (opts.map ServerOption.encode).flatten) ?_ ?_
  · refine Answers.api fun a => Answers.reply_bind ((answers_sendOptions _).imp ?_)
    rintro _ rfl
    exact ⟨_, (o .getOptions a).1.property, rfl⟩
  · rintro _ ⟨opts, hlen, rfl⟩
    have hcount : (UInt16.ofNat opts.length).toNat = opts.length := by
      rw [UInt16.toNat_ofNat']
      exact Nat.mod_eq_of_lt (by omega)
    refine Settles.read (yields_readU16 _) (Settles.ite (fun h => ?_) fun _ => ?_)
    · omega
    · exact (yields_readMany _ ServerOption.decode yields_readOption opts hcount).settles

theorem settles_optionValue (ho : Allocates o.env) {name : List UInt8} (hname : name ≠ []) :
    Settles (ceserver b) o.env [] (optionValue name) := by
  refine settles_stringPacket fun htext => ?_
  refine settles_request ho (.getOption name) htext (c := onGetOption (some name))
    (fun s => by rw [handle, pathArg, if_neg hname]) (R := OneString) (Answers.api fun a => ?_)
    fun _ hr => settles_readString16 hr
  cases (o (.getOption name) a).1 with
  | none => exact Answers.reply ⟨[], by decide, rfl⟩
  | some value => exact Answers.reply (oneString_of_cString value (by decide))

theorem answers_onSetOption (optname newvalue : Option (List UInt8)) :
    Answers o (onSetOption optname newvalue) fun sent => sent = [] := by
  cases optname with
  | none => exact Answers.pure rfl
  | some optname =>
    cases newvalue with
    | none => exact Answers.pure rfl
    | some newvalue => exact Answers.last (Answers.api fun _ => Answers.pure rfl)

theorem settles_setOption (ho : Allocates o.env) (name value : List UInt8) :
    Settles (ceserver b) o.env [] (setOption name value) :=
  settles_stringPacket fun hname => settles_writeString16 fun hvalue =>
    settles_noReply ho (.setOption name value) ⟨hname, hvalue⟩ (fun _ => rfl)
      (answers_onSetOption _ _)

theorem settles_setCurrentPath (ho : Allocates o.env) (path : List UInt8) :
    Settles (ceserver b) o.env [] (setCurrentPath path) :=
  settles_stringPacket fun hpath =>
    settles_request ho (.setCurrentPath path) hpath (fun _ => rfl) (R := OneU8)
      (Answers.api fun _ => Answers.reply ⟨_, rfl⟩)
      fun _ hr => settles_u8 hr fun _ => Settles.pure _

end Server

/-! ## Remote files -/

section Files

variable {σ : Type} {o : Outcomes σ} {b : Build}

theorem settles_listRemoteFilesLoop {svc : Service CeApi Connection} {env : Env CeApi σ}
    (entries : List DirEntry) (hnamed : ∀ dc ∈ entries, dc.name.bytes ≠ []) (fuel : Nat)
    (hfuel : entries.length < fuel) (files : List RemoteFile) :
    Settles svc env ((entries.map DirEntry.encode).flatten ++ string16 [])
      (listRemoteFilesLoop fuel files) := by
  induction entries generalizing fuel files with
  | nil =>
    obtain ⟨fuel, rfl⟩ : ∃ n, fuel = n + 1 := ⟨fuel - 1, by simp at hfuel; omega⟩
    refine Settles.readLast (yields_readString16 [] (by decide)) ?_
    exact Settles.pure _
  | cons dc rest ih =>
    obtain ⟨fuel, rfl⟩ : ∃ n, fuel = n + 1 := ⟨fuel - 1, by simp at hfuel; omega⟩
    have hlen : dc.name.bytes.length < 2 ^ 16 := lt_of_le_of_lt dc.name.length_le (by decide)
    have hne : dc.name.bytes ≠ [] := hnamed dc List.mem_cons_self
    have hbytes : ((dc :: rest).map DirEntry.encode).flatten ++ string16 [] =
        string16 dc.name.bytes ++ (u8 dc.type ++
          ((rest.map DirEntry.encode).flatten ++ string16 [])) := by
      simp [DirEntry.encode]
    rw [hbytes]
    refine Settles.read (yields_readString16 dc.name.bytes hlen) ?_
    rw [if_neg hne]
    refine Settles.read (yields_readU8 dc.type) ?_
    exact ih (fun dc' hdc => hnamed dc' (List.mem_cons_of_mem dc hdc)) fuel
      (by simpa using hfuel) _

theorem settles_listRemoteFiles (ho : Allocates o.env) {path : List UInt8}
    (hf : FramedEntries o path) :
    Settles (ceserver b) o.env [] (listRemoteFiles path) := by
  refine settles_stringPacket fun hpath => ?_
  refine settles_request ho (.enumerateFiles path) hpath (fun _ => rfl)
    (R := fun sent => ∃ d : List DirEntry, (namedEntries d).length < maximumCollectionEntries ∧
      sent = ((namedEntries d).map DirEntry.encode).flatten ++ string16 [])
    (Answers.api fun a => ?_) ?_
  · have hlen := hf a
    cases h : (o (.readDirectory (pathArg path)) a).1 with
    | none => exact Answers.reply ⟨[], by decide, rfl⟩
    | some d =>
      refine (answers_sendEntries d).bind ?_
      rintro _ rfl
      exact Answers.reply ⟨d, hlen d h, rfl⟩
  · rintro _ ⟨d, hlen, rfl⟩
    refine settles_listRemoteFilesLoop (namedEntries d) (fun dc hdc => ?_) _ hlen []
    simpa using (List.mem_filter.1 hdc).2

theorem settles_remoteFilePermissions (ho : Allocates o.env) (path : List UInt8) :
    Settles (ceserver b) o.env [] (remoteFilePermissions path) := by
  refine settles_stringPacket fun hpath => ?_
  refine settles_request ho (.getFilePermissions path) hpath (fun _ => rfl)
    (R := fun sent => sent = u8 0 ∨ ∃ mode, sent = u8 1 ++ u32 mode) (Answers.api fun a => ?_) ?_
  · cases (o (.lstat (pathArg path)) a).1 with
    | none => exact Answers.reply (.inl rfl)
    | some mode => exact Answers.reply (.inr ⟨_, rfl⟩)
  · rintro _ (rfl | ⟨mode, rfl⟩)
    · exact Settles.readLast (yields_readU8 0) (Settles.throw _)
    · exact Settles.read (yields_readU8 1) (yields_readU32 mode).settles

theorem settles_boolean (ho : Allocates o.env) {operation : String} (req : Request)
    (hreq : WellFormed req) {c : Command CeApi Unit} (hc : ∀ s, handle b s req = keep c s)
    (hanswers : Answers o c OneU8) {bytes : List UInt8} (hb : bytes = req.packet) :
    Settles (ceserver b) o.env [] (remoteBooleanOperation operation bytes) := by
  subst hb
  exact settles_request ho req hreq hc hanswers fun _ hr => settles_u8 hr fun _ => Settles.pure _

theorem settles_getRemoteFile (ho : Allocates o.env) (hf : FramedFiles o) (path : List UInt8) :
    Settles (ceserver b) o.env [] (getRemoteFile path) := by
  refine settles_stringPacket fun hpath => ?_
  refine settles_request ho (.getFile path) hpath (fun _ => rfl)
    (R := fun sent => sent = u32 0xFFFFFFFF ∨ ∃ contents : List UInt8,
      contents.length ≤ maximumRemoteFileSize ∧
        sent = u32 (UInt32.ofNat contents.length) ++ contents)
    (Answers.api fun a => ?_) ?_
  · cases (o (.openFile (pathArg path)) a).1 with
    | none => exact Answers.reply (.inl rfl)
    | some f =>
      have hclose : ∀ R : List UInt8 → Prop, R [] → Answers o (api (.closeFile f)) R :=
        fun R hr => Answers.last (Answers.api fun _ => Answers.pure hr)
      refine Answers.api fun a => Answers.ite (fun _ => Answers.api fun a' => ?_) fun _ => ?_
      · have hlen := hf f (o (.fileSize f) a).1 a'
        cases h : (o (.readFile f (o (.fileSize f) a).1) a').1 with
        | none => exact Answers.reply_bind (hclose _ (.inl (List.append_nil _)))
        | some contents =>
          exact Answers.reply_bind (hclose _
            (.inr ⟨contents.val, hlen contents h, List.append_nil _⟩))
      · exact Answers.reply_bind (hclose _ (.inr ⟨[], by decide, rfl⟩))
  · have hmax : maximumRemoteFileSize = 268435456 := rfl
    rintro _ (rfl | ⟨contents, hlen, rfl⟩)
    · exact Settles.readLast (yields_readU32 _) (Settles.throw _)
    · have hnat : (UInt32.ofNat contents.length).toNat = contents.length :=
        toNat_ofNat_length (by omega)
      have hne : UInt32.ofNat contents.length ≠ 0xFFFFFFFF := by
        intro h
        rw [h] at hnat
        have : (0xFFFFFFFF : UInt32).toNat = 4294967295 := rfl
        omega
      refine Settles.read (yields_readU32 _) ?_
      rw [if_neg hne, if_neg (by omega)]
      exact (yields_readFull contents hnat.symm).settles

theorem answers_onPutFile (path : Option (List UInt8)) (content : List UInt8) :
    Answers o (onPutFile path content) OneU8 := by
  refine Answers.api fun a => ?_
  cases (o (.creat path 0o777) a).1 with
  | none => exact Answers.reply ⟨_, rfl⟩
  | some f =>
    refine Ends.bind (total_writeAll f content.length content) (fun _ _ h => absurd rfl h.1) ?_
    rintro r _ _ ⟨-, rfl⟩
    exact Answers.api fun _ => Answers.reply ⟨_, rfl⟩

theorem settles_putRemoteFile (ho : Allocates o.env) (path content : List UInt8) :
    Settles (ceserver b) o.env [] (putRemoteFile path content) := by
  have hmax : maximumRemoteFileSize = 268435456 := rfl
  refine Settles.guard fun hlen => settles_stringPacket fun hpath => ?_
  refine settles_boolean ho (.putFile path content) ⟨hpath, by omega⟩ (fun _ => rfl)
    (answers_onPutFile _ _) ?_
  simp [Request.packet, Request.command, Request.body]

theorem settles_deleteRemotePath (ho : Allocates o.env) (path : List UInt8) :
    Settles (ceserver b) o.env [] (deleteRemotePath path) := by
  refine settles_stringPacket fun hpath => ?_
  refine settles_boolean ho (.deleteFile path) hpath (fun _ => rfl) (Answers.api fun a => ?_) rfl
  cases (o (.unlink (pathArg path)) a).1 with
  | done => exact Answers.reply ⟨_, rfl⟩
  | isDirectory => exact Answers.api fun _ => Answers.reply ⟨_, rfl⟩
  | failed => exact Answers.reply ⟨_, rfl⟩

end Files

/-! ## Pipes and symbols -/

section Pipes

variable {σ : Type} {o : Outcomes σ} {b : Build}

theorem settles_openPipe (ho : Allocates o.env) (name : List UInt8) (timeout : UInt32) :
    Settles (ceserver b) o.env [] (openPipe name timeout) := by
  refine settles_stringPacket fun hname => ?_
  refine settles_request ho (.openPipe name timeout) hname (fun _ => rfl) (R := OneU32) ?_
    fun _ hr => settles_u32 hr fun _ => settles_checked
  cases pathArg name with
  | none => exact Answers.reply ⟨_, rfl⟩
  | some pipename => exact Answers.api fun _ => Answers.reply ⟨_, rfl⟩

theorem settles_counted {svc : Service CeApi Connection} {env : Env CeApi σ} {size : UInt32}
    {data : List UInt8} (hfit : data.length ≤ size.toInt32.toInt.toNat) {operation contents : String}
    {e : Int32 → ClientError} :
    Settles svc env (i32 (Int32.ofNat data.length) ++ data)
      (readI32 operation >>= fun bytesRead =>
        if bytesRead.toInt < 0 ∨ size < bytesRead.toUInt32 then throw (e bytesRead)
        else readFull contents bytesRead.toInt.toNat) := by
  have hmax : size.toInt32.toInt < 2 ^ 31 := Int32.toInt_lt _
  have hlt : data.length < 2 ^ 31 := by omega
  have hint : (Int32.ofNat data.length).toInt = data.length := Int32.toInt_ofNat_of_lt hlt
  have hle : ¬ size < (Int32.ofNat data.length).toUInt32 := by
    have hnat : ((Int32.ofNat data.length).toUInt32).toNat = data.length := by
      show (UInt32.ofNat data.length).toNat = data.length
      exact toNat_ofNat_length (by omega)
    have hsize : size.toInt32.toInt.toNat ≤ size.toNat := by
      by_cases hs : size.toNat < 2 ^ 31
      · have hval := toInt_toInt32 hs
        omega
      · omega
    rw [UInt32.lt_iff_toNat_lt, hnat]
    omega
  have hok : ¬ ((Int32.ofNat data.length).toInt < 0 ∨
      size < (Int32.ofNat data.length).toUInt32) := by
    rintro (h | h)
    · omega
    · exact hle h
  refine Settles.read (yields_readI32 _) ?_
  rw [if_neg hok]
  exact (yields_readFull data (by rw [hint]; simp)).settles

theorem settles_readPipe (ho : Allocates o.env) (handle size timeout : UInt32) :
    Settles (ceserver b) o.env [] (readPipe handle size timeout) := by
  refine settles_request ho (.readPipe handle size timeout) trivial (fun _ => rfl)
    (R := fun sent => (∃ data : List UInt8, data.length ≤ size.toInt32.toInt.toNat ∧
      sent = i32 (Int32.ofNat data.length) ++ data) ∨
      ∃ count : Int32, count.toInt < 0 ∧ sent = i32 count)
    (Answers.ite (fun _ => Answers.api fun a => ?_) fun _ => ?_) ?_
  · cases (o (.readPipe handle size.toInt32 timeout.toInt32) a).1 with
    | stored data fits => exact Answers.reply (.inl ⟨data, fits, rfl⟩)
    | failed count negative => exact Answers.reply (.inr ⟨count, negative, List.append_nil _⟩)
  · exact Answers.reply (.inl ⟨[], Nat.zero_le _, rfl⟩)
  · rintro _ (⟨data, hfit, rfl⟩ | ⟨count, hneg, rfl⟩)
    · exact settles_counted hfit
    · refine Settles.readLast (yields_readI32 count) ?_
      rw [if_pos (.inl hneg)]
      exact Settles.throw _

theorem settles_writePipe (ho : Allocates o.env) (handle : UInt32) {data : List UInt8}
    (hlen : data.length < 2 ^ 32) (timeout : UInt32) :
    Settles (ceserver b) o.env [] (writePipe handle data timeout) := by
  refine settles_request ho (.writePipe handle data timeout) hlen (fun _ => rfl) (R := OneI32)
    (Answers.ite (fun _ => ?_) fun _ => Answers.reply ⟨_, rfl⟩) ?_
  · exact Answers.api fun _ => Answers.api fun _ => Answers.reply ⟨_, rfl⟩
  · rintro _ ⟨v, rfl⟩
    exact (yields_readI32 v).settles

/-- The replies to a symbol request: none found, or an output buffer. -/
def SymbolReply (sent : List UInt8) : Prop :=
  sent = u64 0 ∨ ∃ output : SymbolOutput, output.compressed.length + 12 ≤ maximumRemoteFileSize ∧
    output.decompressedSize.toNat ≤ maximumRemoteFileSize ∧ sent = output.encode

theorem settles_symbols (ho : Allocates o.env) (inflate : Inflate) {path : List UInt8}
    (hnul : (0 : UInt8) ∉ path) {fileOffset : UInt32} (hf : FramedSymbols o path fileOffset) :
    Settles (ceserver b) o.env [] (symbols inflate path fileOffset) := by
  have hstr : maximumProtocolStringLength = 1048576 := rfl
  refine Settles.guard fun hlen => ?_
  have hne : path.length ≠ 0 := fun h0 => hlen (.inl h0)
  have hpath : Path32 path := ⟨fun h0 => hne (by simp [h0]), by omega, hnul⟩
  refine settles_request ho (.getSymbols fileOffset path) hpath (fun _ => rfl)
    (R := SymbolReply) ?_ ?_
  · rw [onGetSymbolListFromFile, if_neg hne, cString_eq hnul]
    refine Answers.ite (fun _ => Answers.reply (.inl rfl)) fun _ => Answers.api fun a => ?_
    have hsize := hf a
    cases h : (o (.getSymbolListFromFile path fileOffset) a).1 with
    | none => exact Answers.reply (.inl rfl)
    | some output => exact Answers.reply (.inr ⟨output, (hsize output h).1, (hsize output h).2, rfl⟩)
  · have hmax : maximumRemoteFileSize = 268435456 := rfl
    rintro _ (rfl | ⟨output, htotal, hdecompressed, rfl⟩)
    · have hzero : u64 0 = u32 0 ++ u32 0 := rfl
      rw [hzero]
      exact Settles.read (yields_readU32 0) (Settles.readLast (yields_readU32 0) (Settles.throw _))
    · have hnat : (UInt32.ofNat (output.compressed.length + 12)).toNat =
          output.compressed.length + 12 := by
        rw [UInt32.toNat_ofNat']
        exact Nat.mod_eq_of_lt (by omega)
      have hpos : UInt32.ofNat (output.compressed.length + 12) ≠ 0 := by
        intro h
        rw [h] at hnat
        have : (0 : UInt32).toNat = 0 := rfl
        omega
      rw [SymbolOutput.encode, List.append_assoc, List.append_assoc]
      refine Settles.read (yields_readU32 _) (Settles.read (yields_readU32 _) ?_)
      rw [if_neg hpos, if_neg (by omega)]
      refine Settles.read (yields_readU32 _) ?_
      rw [if_neg (by omega)]
      refine Settles.readLast (yields_readFull output.compressed (by omega)) ?_
      -- the stream is empty: what is left only looks at the bytes
      split
      · exact Settles.throw _
      · refine Settles.guard fun _ => ?_
        exact (Settles.result _).bind fun _ => Settles.pure _

end Pipes

/-! ## Processes -/

section Processes

variable {σ : Type} {o : Outcomes σ} {b : Build}

theorem settles_listProcessesLoop (ho : Allocates o.env) (handle : UInt32) (fuel : Nat)
    (first : Bool) (processes : List Process) :
    Settles (ceserver b) o.env [] (listProcessesLoop handle fuel
      (if first then commandProcess32First else commandProcess32Next) processes) := by
  induction fuel generalizing first processes with
  | zero => exact Settles.pure _
  | succ fuel ih =>
    have hread : ∀ reply, (∃ pe, reply = encodeProcess pe) →
        Settles (ceserver b) o.env reply (do
          let result ← readI32 "list processes"
          let pid ← readI32 "list processes"
          let nameLength ← readI32 "list processes"
          if result = 0 then return processes
          else
            let name ← readString "read process name" nameLength.toInt
            listProcessesLoop handle fuel commandProcess32Next (processes ++ [⟨pid, name⟩])) := by
      rintro _ ⟨pe, rfl⟩
      cases pe with
      | none =>
        rw [encodeProcess, List.append_assoc]
        refine Settles.read (yields_readI32 0) (Settles.read (yields_readI32 0)
          (Settles.readLast (yields_readI32 0) ?_))
        exact Settles.pure _
      | some pe =>
        have hlen := pe.processName.length_le
        have hmax : maximumProtocolStringLength = 1048576 := rfl
        have hint : (Int32.ofNat pe.processName.bytes.length).toInt =
            pe.processName.bytes.length := Int32.toInt_ofNat_of_lt (by omega)
        rw [encodeProcess, List.append_assoc, List.append_assoc]
        refine Settles.read (yields_readI32 1) (Settles.read (yields_readI32 pe.pid)
          (Settles.read (yields_readI32 _) ?_))
        exact Settles.readLast (yields_readString _ hint (by omega)) (ih false _)
    cases first with
    | true =>
      exact settles_request ho (.process32First handle) trivial (fun _ => rfl)
        (Answers.api fun _ => Answers.reply ⟨_, rfl⟩) hread
    | false =>
      exact settles_request ho (.process32Next handle) trivial (fun _ => rfl)
        (Answers.api fun _ => Answers.reply ⟨_, rfl⟩) hread

theorem settles_listProcesses (ho : Allocates o.env) :
    Settles (ceserver b) o.env [] listProcesses :=
  (settles_createSnapshot ho _ _).bind fun handle =>
    (settles_listProcessesLoop ho handle _ true []).deferClose (settles_closeHandle ho handle)

theorem settles_listModulesLoop {svc : Service CeApi Connection} {env : Env CeApi σ}
    (modules : List ModuleListEntry) (garbage : List UInt8) (hgarbage : garbage.length = 20)
    (fuel : Nat) (hfuel : modules.length < fuel) (found : List Module) :
    Settles svc env ((modules.map ModuleListEntry.encode).flatten ++ endOfModules garbage)
      (listModulesLoop fuel found) := by
  induction modules generalizing fuel found with
  | nil =>
    obtain ⟨fuel, rfl⟩ : ∃ n, fuel = n + 1 := ⟨fuel - 1, by simp at hfuel; omega⟩
    have hlen : (endOfModules garbage).length = 28 := by simp [endOfModules, hgarbage]
    refine Settles.readLast (yields_readFull (endOfModules garbage) hlen) ?_
    have hend : i32At (endOfModules garbage) 0 = 0 := by simp [endOfModules]
    rw [if_pos hend]
    exact Settles.pure _
  | cons me rest ih =>
    obtain ⟨fuel, rfl⟩ : ∃ n, fuel = n + 1 := ⟨fuel - 1, by simp at hfuel; omega⟩
    have hname := me.moduleName.length_le
    have hmax : maximumProtocolStringLength = 1048576 := rfl
    have hint : (Int32.ofNat me.moduleName.bytes.length).toInt = me.moduleName.bytes.length :=
      Int32.toInt_ofNat_of_lt (by omega)
    have hbytes : ((me :: rest).map ModuleListEntry.encode).flatten ++ endOfModules garbage =
        (i32 1 ++ u64 me.baseAddress ++ i32 me.part ++ i32 me.moduleSize ++ u32 me.fileOffset ++
          i32 (Int32.ofNat me.moduleName.bytes.length)) ++ (me.moduleName.bytes ++
          ((rest.map ModuleListEntry.encode).flatten ++ endOfModules garbage)) := by
      simp [ModuleListEntry.encode]
    rw [hbytes]
    refine Settles.read (yields_readFull _ (by simp)) ?_
    simp only [List.append_assoc, i32At_i32, i32At_skip_i32, i32At_skip_u64, i32At_skip_u32,
      i32At_i32_last]
    refine Settles.read (yields_readString _ hint (by omega)) ?_
    exact ih fuel (by simpa using hfuel) _

theorem settles_listModules (ho : Allocates o.env) (hf : FramedModules o) (pid : Int32) :
    Settles (ceserver b) o.env [] (listModules pid) := by
  refine settles_request ho (.createSnapshotEx toolhelpSnapshotModule pid.toUInt32) trivial
    (fun _ => rfl) (R := fun sent => ∃ (modules : List ModuleListEntry) (garbage : List UInt8),
      modules.length < maximumCollectionEntries ∧ garbage.length = 20 ∧
        sent = (modules.map ModuleListEntry.encode).flatten ++ endOfModules garbage)
    (Answers.api fun a => ?_) ?_
  · generalize (o (.createToolhelp32Snapshot toolhelpSnapshotModule pid.toUInt32) a).1 = r
    refine Answers.ite (fun h => absurd h (by decide)) fun _ => Answers.ite (fun _ => ?_)
      fun h => absurd (by decide) h
    refine Answers.ite (fun _ => Answers.api fun a => ?_) fun _ => Answers.api fun a => ?_
    · refine (answers_sendModules _ _).bind ?_
      rintro _ rfl
      refine Answers.api fun a' => Answers.reply_bind ?_
      refine Answers.last (Answers.api fun _ => Answers.pure ?_)
      exact ⟨_, _, hf r a, (o (.uninitialized 20) a').1.property, by simp⟩
    · exact Answers.reply ⟨[], _, by decide, (o (.uninitialized 20) a).1.property, rfl⟩
  · rintro _ ⟨modules, garbage, hlen, hgarbage, rfl⟩
    exact settles_listModulesLoop modules garbage hgarbage _ hlen []

theorem settles_listThreads (ho : Allocates o.env) (hf : FramedThreads o) (pid : Int32) :
    Settles (ceserver b) o.env [] (listThreads pid) := by
  refine settles_request ho (.createSnapshotEx toolhelpSnapshotThread pid.toUInt32) trivial
    (fun _ => rfl) (R := fun sent => ∃ tids : List Int32, tids.length ≤ maximumCollectionEntries ∧
      sent = i32 (Int32.ofNat tids.length) ++ (tids.map i32).flatten)
    (Answers.api fun a => ?_) ?_
  · generalize (o (.createToolhelp32Snapshot toolhelpSnapshotThread pid.toUInt32) a).1 = r
    refine Answers.ite (fun _ => ?_) fun h => absurd (by decide) h
    refine Answers.ite (fun _ => Answers.api fun a => Answers.reply_bind ?_)
      fun _ => Answers.reply ⟨[], by decide, rfl⟩
    refine Answers.last (Answers.api fun _ => Answers.pure ?_)
    exact ⟨_, hf r a, by simp⟩
  · rintro _ ⟨tids, hlen, rfl⟩
    have hmax : maximumCollectionEntries = 5000000 := rfl
    have hint : (Int32.ofNat tids.length).toInt = tids.length :=
      Int32.toInt_ofNat_of_lt (by omega)
    refine Settles.read (yields_readI32 _) ?_
    rw [if_neg (by rw [hint]; omega)]
    exact (yields_readMany i32 id (fun v => yields_readI32 v) tids (by rw [hint]; simp)).settles

theorem settles_architecture (ho : Allocates o.env) (handle : UInt32) :
    Settles (ceserver b) o.env [] (architecture handle) := by
  refine settles_request ho (.getArchitecture handle) trivial (fun _ => rfl) (R := OneU8)
    (Answers.api fun _ => Answers.api fun _ => Answers.reply ⟨_, rfl⟩) ?_
  rintro _ ⟨v, rfl⟩
  exact (yields_readU8 v).settles

theorem settles_processInfo (ho : Allocates o.env) (hmodules : FramedModules o)
    (hthreads : FramedThreads o) (pid : Int32) :
    Settles (ceserver b) o.env [] (processInfo pid) :=
  settles_onProcess ho fun handle => (settles_architecture ho handle).bind fun _ =>
    (settles_listModules ho hmodules pid).bind fun _ => (settles_listThreads ho hthreads pid).bind fun _ =>
      Settles.pure _

end Processes

/-! ## Memory -/

section Memory

variable {σ : Type} {o : Outcomes σ} {b : Build}

theorem settles_readMemoryWithHandle (ho : Allocates o.env) (hf : FramedReads o) (handle : UInt32)
    (address : UInt64) (size : UInt32) : Settles (ceserver b) o.env [] (readMemoryWithHandle handle address size) := by
  refine settles_request ho (.readProcessMemory handle address size) trivial (fun _ => rfl)
    (R := fun sent => ∃ data : List UInt8, data.length ≤ size.toInt32.toInt.toNat ∧
      sent = i32 (Int32.ofNat data.length) ++ data) (Answers.api fun a => ?_) ?_
  · obtain ⟨data, fits, hread⟩ := hf handle (b.pointer address) size.toInt32 a
    rw [hread]
    exact Answers.reply ⟨data, fits, rfl⟩
  · rintro _ ⟨data, hfit, rfl⟩
    exact settles_counted hfit

theorem settles_writeMemory (ho : Allocates o.env) (pid : Int32) (address : UInt64)
    {data : List UInt8} (hlen : data.length < 2 ^ 31) :
    Settles (ceserver b) o.env [] (writeMemory pid address data) := by
  refine settles_onProcess ho fun handle => ?_
  have hread : ∀ reply, OneI32 reply →
      Settles (ceserver b) o.env reply (readI32 "write memory") := by
    rintro _ ⟨v, rfl⟩
    exact (yields_readI32 v).settles
  by_cases h0 : data = []
  · subst h0
    exact settles_request ho (.writeProcessMemory handle address []) hlen (fun _ => rfl)
      (Answers.reply ⟨_, rfl⟩) hread
  · exact settles_request ho (.writeProcessMemory handle address data) hlen
      (c := onWriteProcessMemory b handle address data (Int32.ofNat data.length))
      (fun s => by rw [Ceserver.handle, if_pos h0])
      (Answers.api fun _ => Answers.reply ⟨_, rfl⟩) hread

def RegionInfo.decode (r : RegionInfo) : Region :=
  mkRegion r.baseaddress r.size r.protection r.type

theorem yields_readRegion {svc : Service CeApi Connection} {env : Env CeApi σ} (r : RegionInfo) :
    Client.Yields svc env r.encode readRegion r.decode := by
  rw [← List.append_nil r.encode]
  refine (yields_readFull r.encode (by simp [RegionInfo.encode])).bind ?_
  simp only [RegionInfo.encode, List.append_assoc, u64At_u64, u64At_skip_u64, u32At_skip_u64,
    u32At_u32, u32At_skip_u32, u32At_u32_last]
  exact Client.Yields.pure _

section

variable (ho : Allocates o.env)
include ho

theorem settles_regionsWithHandle {flags : UInt8} (hf : FramedRegions o flags) (handle : UInt32) :
    Settles (ceserver b) o.env [] (regionsWithHandle handle flags) := by
  refine settles_request ho (.virtualQueryExFull handle flags) trivial (fun _ => rfl)
    (R := fun sent => ∃ list : List RegionInfo, list.length ≤ maximumCollectionEntries ∧
      sent = u32 (UInt32.ofNat list.length) ++ (list.map RegionInfo.encode).flatten)
    (Answers.api fun a => ?_) ?_
  · obtain ⟨rinfo, hquery, hlen⟩ := hf handle a
    rw [hquery]
    exact Answers.reply ⟨rinfo.val, hlen, rfl⟩
  · rintro _ ⟨list, hlen, rfl⟩
    have hmax : maximumCollectionEntries = 5000000 := rfl
    have hnat : (UInt32.ofNat list.length).toNat = list.length := by
      rw [UInt32.toNat_ofNat']
      exact Nat.mod_eq_of_lt (by omega)
    refine Settles.read (yields_readU32 _) ?_
    rw [if_neg (by omega)]
    exact (yields_readMany _ RegionInfo.decode yields_readRegion list hnat).settles

theorem settles_regionInfo (pid : Int32) (address : UInt64)
    (hlow : b.pointer32 = true → address ≤ 0xFFFFFFFF) :
    Settles (ceserver b) o.env [] (regionInfo pid address) := by
  have hhigh : ¬ (b.pointer32 = true ∧ 0xFFFFFFFF < address) := fun h =>
    UInt64.not_le.2 h.2 (hlow h.1)
  refine settles_onProcess ho fun handle => ?_
  refine settles_request ho (.getRegionInfo handle address) trivial (fun _ => rfl)
    (R := fun sent => ∃ (result : UInt8) (r : RegionInfo) (line : CString 199),
      sent = encodeQuery result r ++ (u8 (UInt8.ofNat line.bytes.length) ++ line.bytes)) ?_ ?_
  · rw [onVirtualQueryEx, if_neg hhigh]
    refine Answers.api fun a => Answers.reply ?_
    exact ⟨_, _, _, List.append_assoc ..⟩
  · rintro _ ⟨result, r, line, rfl⟩
    have hline := line.length_le
    have hmax : maximumProtocolStringLength = 1048576 := rfl
    have hnat : ((UInt8.ofNat line.bytes.length).toNat : Int) = line.bytes.length := by
      rw [UInt8.toNat_ofNat']
      omega
    refine Settles.read (yields_readFull _ (by simp [encodeQuery])) ?_
    refine Settles.read (yields_readU8 _) ?_
    exact Settles.readLast (yields_readString _ hnat (by omega)) settles_checked

theorem settles_process32 {α : Type} (pid : Int32)
    (req : UInt32 → Request) (hreq : ∀ h, WellFormed (req h)) {c : UInt32 → Command CeApi Unit}
    (hc : ∀ h s, handle b s (req h) = keep (c h) s) (hanswers : ∀ h, Answers o (c h) OneU32)
    {operation : String} {f : UInt32 → ClientM α} (hf : ∀ v, Settles (ceserver b) o.env [] (f v)) :
    Settles (ceserver b) o.env [] (openProcess pid >>= fun h => deferClose h
      (writePacket (req h).packet >>= fun _ => readU32 operation >>= f)) :=
  settles_onProcess ho fun h => settles_request ho (req h) (hreq h) (hc h) (hanswers h)
    fun _ hr => settles_u32 hr hf

theorem settles_processI32 {α : Type} (pid : Int32)
    (req : UInt32 → Request) (hreq : ∀ h, WellFormed (req h)) {c : UInt32 → Command CeApi Unit}
    (hc : ∀ h s, handle b s (req h) = keep (c h) s) (hanswers : ∀ h, Answers o (c h) OneI32)
    {operation : String} {f : Int32 → ClientM α} (hf : ∀ v, Settles (ceserver b) o.env [] (f v)) :
    Settles (ceserver b) o.env [] (openProcess pid >>= fun h => deferClose h
      (writePacket (req h).packet >>= fun _ => readI32 operation >>= f)) :=
  settles_onProcess ho fun h => settles_request ho (req h) (hreq h) (hc h) (hanswers h)
    fun _ hr => settles_i32 hr hf

theorem settles_nonzero64 (req : Request) (hreq : WellFormed req)
    {c : Command CeApi Unit} (hc : ∀ s, handle b s req = keep c s) (hanswers : Answers o c OneU64)
    {operation : String} {e : ClientError} :
    Settles (ceserver b) o.env [] (writePacket req.packet >>= fun _ => do
      let address ← readU64 operation
      if address = 0 then throw e else return address) :=
  settles_request ho req hreq hc hanswers fun _ hr => settles_u64 hr fun _ => settles_checked

theorem settles_scanRegionLoop (hf : FramedReads o) (q : ScanQuery) (handle : UInt32)
    (regionEnd : UInt64) (fuel : Nat) (address nextCandidate : UInt64) (tail : List UInt8)
    (found : List UInt64) : Settles (ceserver b) o.env []
      (scanRegionLoop q handle regionEnd fuel address nextCandidate tail found) := by
  induction fuel generalizing address nextCandidate tail found with
  | zero => exact Settles.pure _
  | succ fuel ih =>
    refine Settles.ite (fun _ => Settles.pure _) fun _ => Settles.checkContext.bind fun _ => ?_
    refine (settles_readMemoryWithHandle ho hf handle address _).attempt.bind fun r => ?_
    cases r with
    | error e => exact Settles.pure _
    | ok data =>
      refine Settles.ite (fun _ => Settles.pure _) fun _ => ?_
      refine Settles.ite (fun _ => Settles.pure _) fun _ => ?_
      exact Settles.ite (fun _ => Settles.pure _) fun _ => ih _ _ _ _

theorem settles_scanRegions (hf : FramedReads o) (q : ScanQuery) (handle : UInt32)
    (list : List Region) (found : List UInt64) :
    Settles (ceserver b) o.env [] (scanRegions q handle list found) := by
  induction list generalizing found with
  | nil => exact Settles.pure _
  | cons region rest ih =>
    refine Settles.checkContext.bind fun _ => Settles.ite (fun _ => ih _) fun _ => ?_
    refine Settles.ite (fun _ => ih _) fun _ => ?_
    refine (settles_scanRegionLoop ho hf q handle _ _ _ _ _ _).bind fun r => ?_
    exact Settles.ite (fun _ => Settles.pure _) fun _ => ih _

theorem settles_scanMemory (hregions : FramedRegions o 0)
    (hreads : FramedReads o) (pid : Int32) (pattern mask : List UInt8)
    (start stop : UInt64) (alignment : Int64) (protection : UInt32) (maximumMatches : Int64) :
    Settles (ceserver b) o.env []
      (scanMemory pid pattern mask start stop alignment protection maximumMatches) := by
  refine Settles.guard fun _ => ?_
  refine Settles.guard fun _ => ?_
  refine Settles.guard fun _ => ?_
  refine Settles.guard fun _ => ?_
  refine settles_onProcess ho fun handle => ?_
  exact (settles_regionsWithHandle ho hregions handle).bind fun list =>
    settles_scanRegions ho hreads _ handle list []

theorem settles_changeMemoryProtection (pid : Int32) (address : UInt64) (size protection : UInt32) :
    Settles (ceserver b) o.env [] (changeMemoryProtection pid address size protection) := by
  refine settles_onProcess ho fun handle => ?_
  refine settles_request ho (.changeMemoryProtection handle address size protection) trivial
    (fun _ => rfl) (R := fun sent => ∃ result old, sent = i32 result ++ u32 old)
    (Answers.api fun a => ?_) ?_
  · refine Answers.ite (fun _ => Answers.api fun _ => Answers.reply ⟨_, _, rfl⟩) fun _ => ?_
    exact Answers.reply ⟨_, _, rfl⟩
  · rintro _ ⟨result, old, rfl⟩
    refine Settles.read (yields_readU32 result.toUInt32) ?_
    exact Settles.readLast (yields_readU32 old) settles_checked

theorem settles_serverAOBScan (pid : Int32) (pattern mask : List UInt8)
    (start stop : UInt64) (alignment : Int64) (protection : UInt32) :
    Settles (ceserver b) o.env []
      (serverAOBScan pid pattern mask start stop alignment protection) := by
  refine Settles.guard fun hpattern => ?_
  refine Settles.guard fun hmax => ?_
  refine Settles.guard fun _ => ?_
  refine Settles.guard fun _ => ?_
  refine Settles.guard fun _ => ?_
  have hne : pattern ≠ [] := fun h0 => hpattern (.inl (by simp [h0]))
  have hmask : pattern.length = mask.length := by
    by_contra hlen
    exact hpattern (.inr hlen)
  have hwell : ∀ h, WellFormed
      (.aobScan h pattern mask start stop alignment.toInt32 protection) :=
    fun _ => ⟨hne, hmask, Nat.le_of_not_lt hmax⟩
  refine settles_onProcess ho fun handle => ?_
  refine settles_request ho (.aobScan handle pattern mask start stop alignment.toInt32 protection)
    (hwell handle) (fun _ => rfl) (R := fun sent => ∃ hits : List UInt64,
      hits.length ≤ maximumCollectionEntries ∧
        sent = i32 (Int32.ofNat hits.length) ++ (hits.map u64).flatten)
    (Answers.api fun _ => Answers.ite (fun _ => Answers.api fun a => ?_) fun _ => ?_) ?_
  · exact Answers.reply ⟨_, (o (.aobScan handle pattern mask _ start stop _ _) a).1.property, rfl⟩
  · exact Answers.reply ⟨[], by decide, rfl⟩
  · rintro _ ⟨hits, hlen, rfl⟩
    have hcount : maximumCollectionEntries = 5000000 := rfl
    have hint : (Int32.ofNat hits.length).toInt = hits.length :=
      Int32.toInt_ofNat_of_lt (by omega)
    refine Settles.read (yields_readI32 _) ?_
    rw [if_neg (by rw [hint]; omega)]
    exact (yields_readMany u64 id (fun v => yields_readU64 v) hits (by rw [hint]; simp)).settles

end

end Memory

section Answered

variable {α σ : Type} {o : Outcomes σ} {b : Build} {s : Connection} {a a' : σ}
  {log log' : List (Prog.Event CeApi)} {d : Bool} {ctx : List (Option String)}

theorem run_request {packet : List UInt8} (req : Request) (hpacket : packet = req.packet)
    (hreq : WellFormed req) (hmemory : ¬ NeedsMemory req) {c : Command CeApi Unit}
    (hc : handle b s req = keep c s) {reply : List UInt8} {f : Unit → ClientM α}
    (hdrive : drive o.env c.run ⟨[], [], a, log⟩ = (pure (some ()), ⟨[], reply, a', log'⟩)) :
    Link.run (ceserver b) o.env (writePacket packet >>= f) (.ready s a log [] d ctx) =
      Link.run (ceserver b) o.env (f ()) (.ready s a' log' reply d ctx) := by
  have hbody : drive o.env (dispatchCommand b req.command s).run ⟨req.body ++ [], [], a, log⟩ =
      drive o.env (handle b s req).run ⟨[], [], a, log⟩ :=
    drive_dispatchCommand req (fun h => absurd h hmemory) hreq
  rw [List.append_nil, hc, keep, drive_run_bind o.env hdrive] at hbody
  rw [hpacket]
  exact run_bind_ok (run_writePacket hbody)

theorem run_read {bytes : List UInt8} {m : ClientM α} {x : α}
    (h : Client.Yields (ceserver b) o.env bytes m x) {β : Type} (f : α → ClientM β) :
    Link.run (ceserver b) o.env (m >>= f) (.ready s a log bytes d ctx) =
      Link.run (ceserver b) o.env (f x) (.ready s a log [] d ctx) := by
  have hread := h s a log [] d ctx
  rw [List.append_nil] at hread
  exact run_bind_ok hread

end Answered

end CheatEngine.Ceserver
