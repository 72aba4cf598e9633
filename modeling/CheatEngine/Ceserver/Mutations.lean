/-
  CheatEngine.Ceserver.Mutations

  What the mutations of a client (internal/ceserver/mutation.go) do in the target:
  complete runs of a method against ceserver, down to the calls that the extension
  makes in the process.

  A result goes through four layers, the extension, the function of ceserver, the
  dispatcher and the client.  Each of them reads it by its own convention of what
  failure looks like.
-/
import CheatEngine.Ceserver.ExtensionCalls
import CheatEngine.Ceserver.Framing

namespace CheatEngine.Ceserver

open CheatEngine.Lib CheatEngine.Client

/-! ## Methods on an open process -/

section Process

variable {α σ : Type} {o : Outcomes σ} {b : Build} {s : Connection} {a a' : σ}
  {log log' : List (Prog.Event CeApi)} {d : Bool} {ctx : List (Option String)} {handle : UInt32}

theorem run_openProcess (pid : Int32) (hopen : (o (.openProcess pid.toUInt32) a).1 = handle) :
    Link.run (ceserver b) o.env (openProcess pid) (.ready s a log [] d ctx) =
      some (if handle = 0 then .error (.protocol "open process"
          ⟨"server denied or could not open PID %d", [.int pid.toInt]⟩) else .ok handle,
        .ready s (o (.openProcess pid.toUInt32) a).2
          (log ++ [⟨.openProcess pid.toUInt32, some handle⟩]) [] d ctx) := by
  subst hopen
  have hpacket : commandOpenProcess :: i32 pid = Request.packet (.openProcess pid) := rfl
  rw [openProcess, run_request _ hpacket trivial id rfl (drive_outcome o [] [] a log _ _)]
  refine (run_read (yields_readU32 _) _).trans ?_
  split <;> rfl

theorem run_closeHandle (handle : UInt32) :
    Link.run (ceserver b) o.env (closeHandle handle) (.ready s a log [] d ctx) =
      some (.ok (), .ready s (o (.closeHandle handle) a).2
        (log ++ [⟨.closeHandle handle, some (o (.closeHandle handle) a).1⟩]) [] d ctx) := by
  have hpacket : commandCloseHandle :: u32 handle = Request.packet (.closeHandle handle) := rfl
  rw [closeHandle, run_request _ hpacket trivial id rfl (drive_outcome o [] [] a log _ _)]
  exact run_read (yields_readI32 1) _

variable {pid : Int32}

theorem run_onProcess_denied {body : UInt32 → ClientM α}
    (hopen : (o (.openProcess pid.toUInt32) a).1 = 0) :
    ∃ e, Link.run (ceserver b) o.env
        (openProcess pid >>= fun handle => deferClose handle (body handle))
        (.ready s a log [] d ctx) =
      some (.error e, .ready s (o (.openProcess pid.toUInt32) a).2
        (log ++ [⟨.openProcess pid.toUInt32, some 0⟩]) [] d ctx) := by
  exact ⟨_, run_bind_error (run_openProcess pid hopen)⟩

theorem run_onProcess {body : UInt32 → ClientM α}
    (hopen : (o (.openProcess pid.toUInt32) a).1 = handle) (hne : handle ≠ 0)
    {r : Except ClientError α}
    (hbody : Link.run (ceserver b) o.env (body handle)
      (.ready s (o (.openProcess pid.toUInt32) a).2
        (log ++ [⟨.openProcess pid.toUInt32, some handle⟩]) [] d ctx) =
      some (r, .ready s a' log' [] d ctx)) :
    Link.run (ceserver b) o.env
        (openProcess pid >>= fun handle => deferClose handle (body handle))
        (.ready s a log [] d ctx) =
      some (r, .ready s (o (.closeHandle handle) a').2
        (log' ++ [⟨.closeHandle handle, some (o (.closeHandle handle) a').1⟩]) [] d ctx) := by
  have hrun : Link.run (ceserver b) o.env (openProcess pid) (.ready s a log [] d ctx) =
      some (.ok handle, .ready s (o (.openProcess pid.toUInt32) a).2
        (log ++ [⟨.openProcess pid.toUInt32, some handle⟩]) [] d ctx) := by
    rw [run_openProcess pid hopen, if_neg hne]
  rw [run_bind_ok hrun]
  exact run_deferClose hbody (run_closeHandle handle)

theorem run_addressReply (operation message : String) (v : UInt64) :
    Link.run (ceserver b) o.env (do
        let address ← readU64 operation
        if address = 0 then throw (.protocol operation (text message)) else return address)
        (.ready s a log (u64 v) d ctx) =
      some (if v = 0 then .error (.protocol operation (text message)) else .ok v,
        .ready s a log [] d ctx) := by
  refine (run_read (yields_readU64 v) _).trans ?_
  split <;> rfl

theorem run_addressMethod (hopen : (o (.openProcess pid.toUInt32) a).1 = handle) (hne : handle ≠ 0)
    {packet : List UInt8} (req : Request) (hpacket : packet = req.packet) (hreq : WellFormed req)
    (hmemory : ¬ NeedsMemory req) {c : Command CeApi Unit} (hc : Ceserver.handle b s req = keep c s)
    {v : UInt64}
    (hdrive : ∀ log, ∃ log', drive o.env c.run ⟨[], [], (o (.openProcess pid.toUInt32) a).2, log⟩ =
      (pure (some ()), ⟨[], u64 v, a', log'⟩))
    {body : UInt32 → ClientM UInt64} (operation message : String)
    (hbody : body handle = writePacket packet >>= fun _ => do
      let address ← readU64 operation
      if address = 0 then throw (.protocol operation (text message)) else return address) :
    ∃ log', Link.run (ceserver b) o.env
        (openProcess pid >>= fun handle => deferClose handle (body handle))
        (.ready s a log [] d ctx) =
      some (if v = 0 then .error (.protocol operation (text message)) else .ok v,
        .ready s (o (.closeHandle handle) a').2 log' [] d ctx) := by
  obtain ⟨log₁, hserved⟩ := hdrive (log ++ [⟨.openProcess pid.toUInt32, some handle⟩])
  have hrequest : Link.run (ceserver b) o.env (body handle)
      (.ready s (o (.openProcess pid.toUInt32) a).2
        (log ++ [⟨.openProcess pid.toUInt32, some handle⟩]) [] d ctx) =
      some (if v = 0 then .error (.protocol operation (text message)) else .ok v,
        .ready s a' log₁ [] d ctx) := by
    rw [hbody]
    exact (run_request req hpacket hreq hmemory hc hserved).trans
      (run_addressReply operation message v)
  exact ⟨_, run_onProcess hopen hne hrequest⟩

end Process

/-- The rights that a protection names, as `PROT_READ`, `PROT_WRITE` and `PROT_EXEC`: a page
    that is copied when it is written can be written. -/
def namedRights (protection : UInt32) : Option UInt32 :=
  if protection = 1 then some 0
  else if protection = 2 then some 1
  else if protection = 4 then some 3
  else if protection = 8 then some 3
  else if protection = 16 then some 4
  else if protection = 32 then some 5
  else if protection = 64 then some 7
  else none

/-- `windowsProtectionToLinux` as the word that goes to the extension. -/
def linuxProtection (protection : UInt32) : UInt32 := (windowsProtectionToLinux protection).toUInt32

theorem protection_cases {P : UInt32 → Prop} (h1 : P 1) (h2 : P 2) (h4 : P 4) (h8 : P 8)
    (h16 : P 16) (h32 : P 32) (h64 : P 64)
    (hother : ∀ p, namedRights p = none → linuxProtection p = 0 →
      p ∉ ([1, 2, 4, 8, 16, 32, 64] : List UInt32) → P p) (protection : UInt32) : P protection := by
  by_cases hmem : protection ∈ ([1, 2, 4, 8, 16, 32, 64] : List UInt32)
  · simp only [List.mem_cons, List.not_mem_nil, or_false] at hmem
    obtain rfl | rfl | rfl | rfl | rfl | rfl | rfl := hmem
    · exact h1
    · exact h2
    · exact h4
    · exact h8
    · exact h16
    · exact h32
    · exact h64
  · have hne := hmem
    simp only [List.mem_cons, List.not_mem_nil, or_false, not_or] at hne
    obtain ⟨n1, n2, n4, n8, n16, n32, n64⟩ := hne
    refine hother protection ?_ ?_ hmem
    · simp only [namedRights, n1, n2, n4, n8, n16, n32, n64, ↓reduceIte]
    · simp only [linuxProtection, windowsProtectionToLinux, n2, n4, n16, n32, n64, ↓reduceIte]
      rfl

theorem namedRights_linux_iff (protection : UInt32) :
    namedRights protection = some (linuxProtection protection) ↔
      protection ∈ ([1, 2, 4, 16, 32, 64] : List UInt32) := by
  induction protection using protection_cases with
  | hother p hnone _ hmem =>
    rw [hnone]
    refine iff_of_false (fun h => nomatch h) fun h => hmem ?_
    simp only [List.mem_cons, List.not_mem_nil, or_false] at h ⊢
    tauto
  | _ => decide

/-- What the extension maps: 0 with all rights. -/
def mappedProtection (protection : UInt32) : UInt32 :=
  if linuxProtection protection = 0 then 7 else linuxProtection protection

theorem namedRights_mapped_iff (protection : UInt32) :
    namedRights protection = some (mappedProtection protection) ↔
      protection ∈ ([2, 4, 16, 32, 64] : List UInt32) := by
  induction protection using protection_cases with
  | hother p hnone _ hmem =>
    rw [hnone]
    refine iff_of_false (fun h => nomatch h) fun h => hmem ?_
    simp only [List.mem_cons, List.not_mem_nil, or_false] at h ⊢
    tauto
  | _ => decide

theorem signExtended_iff (size : UInt32) :
    size.toInt32.toInt64.toUInt64 = size.toUInt64 ↔ size.toNat < 2 ^ 31 := by
  have hsigned : (size.toInt32.toInt64.toUInt64).toBitVec = size.toBitVec.signExtend 64 := rfl
  have hsize : (size.toUInt64.toBitVec).toNat = size.toBitVec.toNat := UInt32.toNat_toUInt64 size
  have hn : size.toNat = size.toBitVec.toNat := rfl
  have hlt : size.toBitVec.toNat < 2 ^ 32 := size.toBitVec.isLt
  rw [← UInt64.toBitVec_inj, hsigned, ← BitVec.toNat_inj, BitVec.toNat_signExtend,
    BitVec.msb_eq_decide, hsize, hn, BitVec.toNat_setWidth]
  by_cases h : 2 ^ 31 ≤ size.toBitVec.toNat
  · simp only [Nat.add_one_sub_one, h, decide_true, ↓reduceIte]
    omega
  · simp only [Nat.add_one_sub_one, h, decide_false, Bool.false_eq_true, ↓reduceIte]
    omega

/-! ## ChangeMemoryProtection -/

section ChangeProtection

variable {σ τ : Type} {pointerSize : Nat} {env : Env ExtApi τ}

/-- The extension executed `mprotect` on the range, with the rights that the protection
    names, and it returned 0. -/
def ProtectionExecuted (before after : Option (TargetProcess τ)) (address : UInt64)
    (size protection : UInt32) : Prop :=
  ∃ p p' prot, before = some p ∧ after = some p' ∧ namedRights protection = some prot ∧
    p'.calls = p.calls ++ [⟨.mprotect address size.toUInt64 prot, true⟩]

/-- The extension serves the request; a failure of `mprotect` comes back, and a success
    is one for the range and the rights that were asked for. -/
def ProtectionServed (env : Env ExtApi τ) (p : Option (TargetProcess τ)) (address : UInt64)
    (size protection : UInt32) : Prop :=
  ∃ received q, GetsRequest p received q ∧
    if (env (.mprotect address size.toInt32.toInt64.toUInt64 (linuxProtection protection)) q.target).1
        = true then
      size.toNat < 2 ^ 31 ∧ protection ∈ ([1, 2, 4, 16, 32, 64] : List UInt32)
    else 0 < received

/-- Two entries of the list of calls that are one. -/
theorem mprotect_event_inj {address address' length length' : UInt64} {prot prot' : UInt32}
    {r r' : Bool}
    (h : (⟨.mprotect address length prot, r⟩ : Prog.Event ExtApi) =
      ⟨.mprotect address' length' prot', r'⟩) :
    length = length' ∧ prot = prot' ∧ r = r' := by
  obtain ⟨hcall, hr⟩ := Sigma.mk.inj h
  obtain ⟨rfl, rfl, rfl⟩ := ExtCall.mprotect.inj hcall
  exact ⟨rfl, rfl, eq_of_heq hr⟩

theorem getsRequest_unique {p : Option (TargetProcess τ)} {received received' : Nat}
    {q q' : TargetProcess τ} (h : GetsRequest p received q) (h' : GetsRequest p received' q') :
    received = received' ∧ q = q' := by
  obtain ⟨hq, -, hfate⟩ := h
  obtain ⟨hq', -, hfate'⟩ := h'
  obtain rfl := Option.some.inj (hq.symm.trans hq')
  rw [hfate] at hfate'
  cases hfate'
  exact ⟨rfl, rfl⟩

/-- An `int` result of which only some bytes arrived is 0 when these are. -/
theorem i32At_overZeros_eq_zero (v : UInt32) (received : Nat) :
    i32At (overZeros 4 ((u32 v).take received)) 0 = 0 ↔ v.toNat % 256 ^ received = 0 := by
  rw [← u32At_overZeros v received]
  constructor
  · intro h
    have hword : (i32At (overZeros 4 ((u32 v).take received)) 0).toUInt32 = 0 := by rw [h]; rfl
    rw [i32At, UInt32.toUInt32_toInt32] at hword
    rw [hword]
    rfl
  · intro h
    have hword : u32At (overZeros 4 ((u32 v).take received)) 0 = 0 := UInt32.toNat_inj.mp h
    rw [i32At, hword]
    rfl

theorem minusOne_arrives (received : Nat) :
    (0xFFFFFFFF : UInt32).toNat % 256 ^ received = 0 ↔ received = 0 := by
  have hvalue : (0xFFFFFFFF : UInt32).toNat = 256 ^ 4 - 1 := rfl
  rw [hvalue]
  constructor
  · intro h
    by_contra hne
    -- the lowest byte is 255
    have hdvd : 256 ∣ 256 ^ received := dvd_pow_self 256 hne
    have hlow : 256 ∣ 256 ^ 4 - 1 := hdvd.trans (Nat.dvd_of_mod_eq_zero h)
    exact absurd hlow (by decide)
  · rintro rfl
    rfl

theorem ext_changememoryprotection_iff (p : Option (TargetProcess τ)) (address : UInt64)
    (size protection : UInt32) :
    ((ext_changememoryprotection pointerSize env p address size (linuxProtection protection)).1 = 0 →
        ProtectionExecuted p
          (ext_changememoryprotection pointerSize env p address size (linuxProtection protection)).2
          address size protection) ↔
      ProtectionServed env p address size protection := by
  by_cases hget : ∃ received q, GetsRequest p received q
  · obtain ⟨received, q, hget⟩ := hget
    have hspec := ext_changememoryprotection_served pointerSize env hget
      address size (linuxProtection protection)
    obtain ⟨p₀, rfl, hq⟩ := Option.bind_eq_some_iff.mp hget.1
    obtain ⟨hcalls, -⟩ := withExtension_calls hq
    have hserved : ProtectionServed env (some p₀) address size protection ↔
        if (env (.mprotect address size.toInt32.toInt64.toUInt64 (linuxProtection protection))
            q.target).1 = true then
          size.toNat < 2 ^ 31 ∧ protection ∈ ([1, 2, 4, 16, 32, 64] : List UInt32)
        else 0 < received := by
      constructor
      · rintro ⟨received', q', hget', h⟩
        obtain ⟨rfl, rfl⟩ := getsRequest_unique hget hget'
        exact h
      · exact fun h => ⟨received, q, hget, h⟩
    rw [hserved, hspec]
    cases hchanged : (env (.mprotect address size.toInt32.toInt64.toUInt64
        (linuxProtection protection)) q.target).1 with
    | true =>
      -- the reply is 0, whatever of it arrives
      have hzero : i32At (overZeros 4 ((u32 0).take received)) 0 = 0 :=
        (i32At_overZeros_eq_zero 0 received).mpr (Nat.zero_mod _)
      simp only [↓reduceIte, hzero, true_imp_iff]
      constructor
      · rintro ⟨p, p', prot, hp, hp', hnamed, hexecuted⟩
        cases hp
        cases hp'
        rw [hcalls] at hexecuted
        have hevent := (List.cons.inj (List.append_cancel_left hexecuted)).1
        obtain ⟨hsize, hprot, -⟩ := mprotect_event_inj hevent
        exact ⟨(signExtended_iff size).mp hsize, (namedRights_linux_iff protection).mp (hprot ▸ hnamed)⟩
      · rintro ⟨hsize, hnamed⟩
        refine ⟨p₀, _, _, rfl, rfl, (namedRights_linux_iff protection).mpr hnamed, ?_⟩
        rw [hcalls, (signExtended_iff size).mpr hsize]
    | false =>
      have hzero := (i32At_overZeros_eq_zero 0xFFFFFFFF received).trans (minusOne_arrives received)
      simp only [Bool.false_eq_true, ↓reduceIte, hzero]
      constructor
      · intro h
        by_contra hlost
        obtain ⟨p, p', prot, hp, hp', -, hexecuted⟩ := h (by omega)
        cases hp
        cases hp'
        rw [hcalls] at hexecuted
        have hevent := (List.cons.inj (List.append_cancel_left hexecuted)).1
        obtain ⟨-, -, hfailed⟩ := mprotect_event_inj hevent
        cases hfailed
      · intro hpos h
        omega
  · have hnone : ∀ received q, ¬ GetsRequest p received q := fun received q h => hget ⟨received, q, h⟩
    obtain ⟨hresult, hcalls⟩ := ext_changememoryprotection_unserved pointerSize env hnone address
      size (linuxProtection protection)
    refine iff_of_false (fun h => ?_) fun ⟨received, q, h, _⟩ => hnone received q h
    obtain ⟨p₀, p', prot, rfl, hp', -, hexecuted⟩ := h hresult
    have hlist : p'.calls = p₀.calls := by
      rw [hp'] at hcalls
      exact Option.some.inj hcalls
    have hlength := congrArg List.length (hlist.symm.trans hexecuted)
    rw [List.length_append] at hlength
    exact absurd hlength (Nat.ne_of_lt (Nat.lt_succ_self _))

section Run

variable (o : Outcomes σ) (b : Build) (s : Connection) (a : σ) (log : List (Prog.Event CeApi))
  (d : Bool) (ctx : List (Option String))

/-- The outcome of `CMD_CHANGEMEMORYPROTECTION`: 1 when the region is not found. -/
def protectionOutcome (o : Outcomes σ) (b : Build) (handle : UInt32) (address : UInt64)
    (size protection : UInt32) (a : σ) : Int32 × σ :=
  let q := o (.virtualQueryEx handle (b.pointer address) false) a
  if q.1.1 = true then
    o (.ext_changememoryprotection handle address size (linuxProtection protection)) q.2
  else (1, q.2)

theorem drive_onChangeMemoryProtection (handle : UInt32) (address : UInt64)
    (size protection : UInt32) :
    ∃ old log', drive o.env (onChangeMemoryProtection b handle address size protection).run
        ⟨[], [], a, log⟩ =
      (pure (some ()), ⟨[], i32 (protectionOutcome o b handle address size protection a).1 ++
        u32 old, (protectionOutcome o b handle address size protection a).2, log'⟩) := by
  rw [onChangeMemoryProtection, drive_outcome]
  cases hfound : (o (.virtualQueryEx handle (b.pointer address) false) a).1.1 with
  | true =>
    simp only [protectionOutcome, hfound, ↓reduceIte]
    exact ⟨_, _, rfl⟩
  | false =>
    simp only [protectionOutcome, hfound, Bool.false_eq_true, ↓reduceIte]
    exact ⟨1, _, rfl⟩

theorem toUInt32_eq_zero (v : Int32) : v.toUInt32 = 0 ↔ v = 0 := by
  constructor
  · intro h
    have hback := congrArg UInt32.toInt32 h
    rwa [Int32.toInt32_toUInt32] at hback
  · rintro rfl
    rfl

theorem run_protectionReply (v : Int32) (old : UInt32) (address : UInt64)
    (size protection : UInt32) :
    ∃ x, Link.run (ceserver b) o.env (do
        let result ← readU32 "change memory protection"
        let oldProtection ← readU32 "change memory protection"
        if result ≠ 0 then
          throw (.protocol "change memory protection"
            ⟨"server returned failure code %d", [.int result.toNat]⟩)
        else
          return (⟨address, size, oldProtection, protectionString oldProtection, protection,
            protectionString protection⟩ : ProtectionChange))
        (.ready s a log (i32 v ++ u32 old) d ctx) = some (x, .ready s a log [] d ctx) ∧
      ((∃ change, x = .ok change) ↔ v = 0) := by
  have hresult : Link.run (ceserver b) o.env (readU32 "change memory protection")
      (.ready s a log (i32 v ++ u32 old) d ctx) =
      some (.ok v.toUInt32, .ready s a log (u32 old) d ctx) := run_readU32 v.toUInt32
  by_cases hzero : v = 0
  · have hok : ¬ v.toUInt32 ≠ 0 := not_not.mpr ((toUInt32_eq_zero v).mpr hzero)
    refine ⟨.ok ⟨address, size, old, protectionString old, protection, protectionString protection⟩,
      ?_, iff_of_true ⟨_, rfl⟩ hzero⟩
    refine (run_bind_ok hresult).trans ((run_read (yields_readU32 old) _).trans ?_)
    rw [if_neg hok]
    rfl
  · have hfailed : v.toUInt32 ≠ 0 := fun h => hzero ((toUInt32_eq_zero v).mp h)
    refine ⟨.error (.protocol "change memory protection"
      ⟨"server returned failure code %d", [.int v.toUInt32.toNat]⟩),
      ?_, iff_of_false (fun h => nomatch h) hzero⟩
    refine (run_bind_ok hresult).trans ((run_read (yields_readU32 old) _).trans ?_)
    rw [if_pos hfailed]
    rfl

theorem run_changeMemoryProtection (pid : Int32) (handle : UInt32)
    (hopen : (o (.openProcess pid.toUInt32) a).1 = handle) (hne : handle ≠ 0) (address : UInt64)
    (size protection : UInt32) :
    let r := protectionOutcome o b handle address size protection (o (.openProcess pid.toUInt32) a).2
    ∃ x log', Link.run (ceserver b) o.env (changeMemoryProtection pid address size protection)
        (.ready s a log [] d ctx) =
      some (x, .ready s (o (.closeHandle handle) r.2).2 log' [] d ctx) ∧
      ((∃ change, x = .ok change) ↔ r.1 = 0) := by
  intro r
  obtain ⟨old, log₁, hdrive⟩ := drive_onChangeMemoryProtection o b
    (o (.openProcess pid.toUInt32) a).2 (log ++ [⟨.openProcess pid.toUInt32, some handle⟩]) handle
    address size protection
  have hpacket : commandChangeMemoryProtection ::
      (u32 handle ++ u64 address ++ u32 size ++ u32 protection) =
      Request.packet (.changeMemoryProtection handle address size protection) := rfl
  obtain ⟨x, hreply, hx⟩ := run_protectionReply o b s r.2 log₁ d ctx r.1 old address size protection
  exact ⟨x, _, run_onProcess hopen hne
    (Eq.trans (run_request _ hpacket trivial id rfl hdrive) hreply), hx⟩

end Run

theorem protectionOutcome_extension (pointerSize : Nat) (env : Env ExtApi τ) (o : Outcomes σ) (b : Build) (handle : UInt32)
    (address : UInt64) (size protection : UInt32) (a : σ) (ps : Processes τ) :
    protectionOutcome (extOutcomes pointerSize env o) b handle address size protection (a, ps) =
      let q := o (.virtualQueryEx handle (b.pointer address) false) a
      let r := ext_changememoryprotection pointerSize env (ps handle) address size
        (linuxProtection protection)
      if q.1.1 = true then (r.1, (q.2, Function.update ps handle r.2)) else (1, (q.2, ps)) := rfl

end ChangeProtection

/-- A ceserver that opens a process and finds its regions. -/
def openingServer : Outcomes Unit
  | .openProcess _, a => (1, a)
  | .virtualQueryEx _ _ _, a => ((true, ⟨0x1000, 0x1000, 4, 0⟩, CString.empty _), a)
  | c, a => (refusal c, a)

/-- A process in which every call fails. -/
def refusingTarget : Env ExtApi Unit
  | .stack, a => (fun _ => 0, a)
  | .mmap _ _ _, a => (none, a)
  | .munmap _ _, a => (false, a)
  | .mprotect _ _ _, a => (false, a)
  | .pthread_create _ _, a => (0, a)
  | .dlopen _ _, a => (0, a)
  | .speedhack_initializeSpeed _, a => (0, a)

def unloadable : TargetProcess Unit := ⟨false, false, false, .refused, [], (), []⟩

section Allocate

variable {σ τ : Type} {pointerSize : Nat} {env : Env ExtApi τ}

/-- The extension executed `mmap` with success at the address, for the size and with the
    rights that the protection names, and has the allocation in its list. -/
def Allocated (before after : Option (TargetProcess τ)) (address preferredAddress : UInt64)
    (size protection : UInt32) : Prop :=
  ∃ p p' prot mapped, before = some p ∧ after = some p' ∧ namedRights protection = some prot ∧
    mapped.val = address ∧
    p'.calls = p.calls ++ [⟨.mmap preferredAddress size.toUInt64 prot, some mapped⟩] ∧
    ⟨address, size⟩ ∈ p'.allocList

/-- An `mmap` that fails adds nothing to the list. -/
def NothingAdded (before after : Option (TargetProcess τ)) : Prop :=
  ∀ p p' address size prot, before = some p → after = some p' →
    p'.calls = p.calls ++ [⟨.mmap address size prot, none⟩] → p'.allocList = p.allocList

/-- If the extension serves the request, `mmap` succeeds, and of its address nothing but
    zeros arrives, or all that is not zero, with a protection other than none and copy on
    write. -/
def AllocationServed (env : Env ExtApi τ) (p : Option (TargetProcess τ)) (preferredAddress : UInt64)
    (size protection : UInt32) : Prop :=
  ∀ received q, GetsRequest p received q →
    ∃ mapped, (env (.mmap preferredAddress size.toUInt64 (mappedProtection protection)) q.target).1 =
        some mapped ∧
      (mapped.val.toNat % 256 ^ received = 0 ∨
        mapped.val.toNat % 256 ^ received = mapped.val.toNat ∧
          protection ∈ ([2, 4, 16, 32, 64] : List UInt32))

theorem nothingAdded_refl (p : Option (TargetProcess τ)) : NothingAdded p p := by
  intro q q' address size prot hq hq' _
  rw [Option.some.inj (hq.symm.trans hq')]

theorem mmap_event_inj {address address' length length' : UInt64} {prot prot' : UInt32}
    {r r' : Option { address : UInt64 // address ≠ MAP_FAILED }}
    (h : (⟨.mmap address length prot, r⟩ : Prog.Event ExtApi) = ⟨.mmap address' length' prot', r'⟩) :
    prot = prot' ∧ r = r' := by
  obtain ⟨hcall, hr⟩ := Sigma.mk.inj h
  obtain ⟨rfl, rfl, rfl⟩ := ExtCall.mmap.inj hcall
  exact ⟨rfl, eq_of_heq hr⟩

/-- A success of `ext_alloc` is one of `mmap`, and a failure of `mmap` leaves the list
    alone, exactly when the request is served as it was meant. -/
theorem ext_alloc_iff (pointerSize : Nat) (p : Option (TargetProcess τ)) (preferredAddress : UInt64)
    (size protection : UInt32) :
    let r := ext_alloc pointerSize env p preferredAddress size.toInt32
      (windowsProtectionToLinux protection)
    ((r.1 ≠ 0 → Allocated p r.2 r.1 preferredAddress size protection) ∧ NothingAdded p r.2) ↔
      AllocationServed env p preferredAddress size protection := by
  intro r
  by_cases hget : ∃ received q, GetsRequest p received q
  · obtain ⟨received, q, hget⟩ := hget
    obtain ⟨mapped, t, hmapped⟩ : ∃ mapped t, env (.mmap preferredAddress size.toUInt64
        (mappedProtection protection)) q.target = (mapped, t) := ⟨_, _, rfl⟩
    have hspec := ext_alloc_served pointerSize env hget hmapped
    obtain ⟨p₀, rfl, hq⟩ := Option.bind_eq_some_iff.mp hget.1
    obtain ⟨hcalls, hlist, -⟩ := withExtension_calls hq
    have hserved : AllocationServed env (some p₀) preferredAddress size protection ↔
        ∃ address, mapped = some address ∧ (address.val.toNat % 256 ^ received = 0 ∨
          address.val.toNat % 256 ^ received = address.val.toNat ∧
            protection ∈ ([2, 4, 16, 32, 64] : List UInt32)) := by
      constructor
      · intro h
        obtain ⟨address, hsome, haddress⟩ := h received q hget
        rw [hmapped] at hsome
        exact ⟨address, hsome, haddress⟩
      · rintro ⟨address, hsome, haddress⟩ received' q' hget'
        obtain ⟨rfl, rfl⟩ := getsRequest_unique hget hget'
        exact ⟨address, by rw [hmapped]; exact hsome, haddress⟩
    have hr : r = _ := hspec
    rw [hr, hserved]
    cases mapped with
    | none =>
      -- `MAP_FAILED` is added
      refine iff_of_false ?_ fun ⟨_, h, _⟩ => nomatch h
      rintro ⟨-, hnothing⟩
      have hkept := hnothing p₀ _ preferredAddress size.toUInt64 (mappedProtection protection) rfl rfl
        (by rw [hcalls]; rfl)
      have hlength := congrArg List.length (hkept.trans hlist.symm)
      have hfailed : mmapResult none ≠ 0 := by decide
      simp only [hfailed, ne_eq, not_false_eq_true, ↓reduceIte, allocListAdd, List.length_append,
        List.length_cons, List.length_nil] at hlength
      omega
    | some address =>
      have hresult := u64At_overZeros address.val received
      have hzero : u64At (overZeros 8 ((u64 address.val).take received)) 0 = 0 ↔
          address.val.toNat % 256 ^ received = 0 := by
        rw [← hresult, ← UInt64.toNat_inj]
        rfl
      constructor
      · rintro ⟨hallocated, -⟩
        refine ⟨address, rfl, ?_⟩
        by_cases hz : address.val.toNat % 256 ^ received = 0
        · exact .inl hz
        obtain ⟨p, p', prot, mapped, hp, hp', hnamed, hvalue, hexecuted, -⟩ :=
          hallocated fun h => hz (hzero.mp h)
        cases hp
        cases hp'
        rw [hcalls] at hexecuted
        obtain ⟨hprot, hsome⟩ :=
          mmap_event_inj (List.cons.inj (List.append_cancel_left hexecuted)).1
        obtain rfl := Option.some.inj hsome
        have hmapped : prot = mappedProtection protection := hprot.symm
        refine .inr ⟨?_, (namedRights_mapped_iff protection).mp (hmapped ▸ hnamed)⟩
        rw [← hresult]
        exact (congrArg UInt64.toNat hvalue).symm
      · rintro ⟨_, ⟨⟩, harrives⟩
        constructor
        · intro hne
          obtain hz | ⟨hwhole, hprotection⟩ := harrives
          · exact absurd (hzero.mpr hz) hne
          have hvalue : address.val = u64At (overZeros 8 ((u64 address.val).take received)) 0 := by
            rw [← UInt64.toNat_inj, hresult, hwhole]
          have hadded : address.val ≠ 0 := fun h => hne (hvalue.symm.trans h)
          refine ⟨p₀, _, _, address, rfl, rfl, (namedRights_mapped_iff protection).mpr hprotection,
            hvalue, by rw [hcalls]; rfl, ?_⟩
          show (⟨u64At (overZeros 8 ((u64 address.val).take received)) 0, size⟩ : AllocEntry) ∈
            if address.val ≠ 0 then allocListAdd q.allocList address.val size else q.allocList
          rw [if_pos hadded, ← hvalue]
          exact List.mem_append_right _ List.mem_cons_self
        · intro p p' base length prot hp hp' hexecuted
          cases hp
          cases hp'
          rw [hcalls] at hexecuted
          obtain ⟨-, hsome⟩ :=
            mmap_event_inj (List.cons.inj (List.append_cancel_left hexecuted)).1
          cases hsome
  · have hnone : ∀ received q, ¬ GetsRequest p received q := fun received q h => hget ⟨received, q, h⟩
    obtain ⟨hresult, hcalls, hlist⟩ := ext_alloc_unserved pointerSize env hnone preferredAddress
      size.toInt32 (windowsProtectionToLinux protection)
    refine iff_of_true ⟨fun h => absurd hresult h, ?_⟩ fun received q h => absurd h (hnone received q)
    intro p₀ p' address size prot hp hp' _
    have hsame : r.2.map TargetProcess.allocList = p.map TargetProcess.allocList := hlist
    rw [hp, hp'] at hsame
    exact Option.some.inj hsame

section RunAllocate

variable (o : Outcomes σ) (b : Build) (s : Connection) (a : σ) (log : List (Prog.Event CeApi))
  (d : Bool) (ctx : List (Option String))

def allocationOutcome (o : Outcomes σ) (b : Build) (handle : UInt32) (preferredAddress : UInt64)
    (size protection : UInt32) (a : σ) : UInt64 × σ :=
  let w := o .readAllocWithoutExtension a
  if w.1 = true then
    o (.allocWithoutExtension handle (b.pointer preferredAddress) size
      (windowsProtectionToLinux protection)) w.2
  else
    o (.ext_alloc handle preferredAddress size.toInt32 (windowsProtectionToLinux protection)) w.2

theorem drive_onAlloc (handle : UInt32) (preferredAddress : UInt64) (size protection : UInt32) :
    ∃ log', drive o.env (onAlloc b handle preferredAddress size protection).run ⟨[], [], a, log⟩ =
      (pure (some ()), ⟨[], u64 (allocationOutcome o b handle preferredAddress size protection a).1,
        (allocationOutcome o b handle preferredAddress size protection a).2, log'⟩) := by
  rw [onAlloc, drive_outcome]
  cases hwithout : (o .readAllocWithoutExtension a).1 with
  | true =>
    simp only [allocationOutcome, hwithout, ↓reduceIte]
    exact ⟨_, rfl⟩
  | false =>
    simp only [allocationOutcome, hwithout, Bool.false_eq_true, ↓reduceIte]
    exact ⟨_, rfl⟩

theorem run_allocateMemory (pid : Int32) (handle : UInt32)
    (hopen : (o (.openProcess pid.toUInt32) a).1 = handle) (hne : handle ≠ 0)
    (preferredAddress : UInt64) (size protection : UInt32) :
    let r := allocationOutcome o b handle preferredAddress size protection
      (o (.openProcess pid.toUInt32) a).2
    ∃ e log', Link.run (ceserver b) o.env (allocateMemory pid preferredAddress size protection)
        (.ready s a log [] d ctx) =
      some (if r.1 = 0 then .error e else .ok r.1,
        .ready s (o (.closeHandle handle) r.2).2 log' [] d ctx) := by
  intro r
  exact ⟨_, run_addressMethod hopen hne (.allocateMemory handle preferredAddress size protection)
    rfl trivial id rfl
    (fun log => drive_onAlloc o b _ log handle preferredAddress size protection) "allocate memory"
    "server could not allocate the requested region" rfl⟩

end RunAllocate

theorem allocationOutcome_extension (pointerSize : Nat) (env : Env ExtApi τ) (o : Outcomes σ) (b : Build) (handle : UInt32)
    (preferredAddress : UInt64) (size protection : UInt32) (a : σ) (ps : Processes τ)
    (hwith : (o .readAllocWithoutExtension a).1 = false) :
    allocationOutcome (extOutcomes pointerSize env o) b handle preferredAddress size protection
        (a, ps) =
      let r := ext_alloc pointerSize env (ps handle) preferredAddress size.toInt32
        (windowsProtectionToLinux protection)
      (r.1, ((o .readAllocWithoutExtension a).2, Function.update ps handle r.2)) :=
  if_neg (Bool.eq_false_iff.mp hwith)

end Allocate

/-- A process whose extension serves every request. -/
def serving : TargetProcess Unit := ⟨true, true, true, .served 8, [], (), []⟩

/-- A process that maps every request at one address. -/
def mappingTarget : Env ExtApi Unit
  | .mmap _ _ _, a => (some ⟨0x7000, by decide⟩, a)
  | c, a => refusingTarget c a

theorem serving_getsRequest : GetsRequest (some serving) 8 serving := ⟨rfl, rfl, rfl⟩

/-- The process after an `mmap` that failed in it. -/
def afterFailedMmap : TargetProcess Unit :=
  { serving with
    allocList := [⟨MAP_FAILED, 0x1000⟩]
    calls := [⟨.mmap 0 0x1000 3, none⟩] }

theorem ext_alloc_mmap_failed :
    ext_alloc 8 refusingTarget (some serving) 0 (0x1000 : UInt32).toInt32 (windowsProtectionToLinux 4) =
      (MAP_FAILED, some afterFailedMmap) := by
  have hreply : u64At (overZeros 8 ((u64 MAP_FAILED).take 8)) 0 = MAP_FAILED := by decide
  have hserved : ext_alloc 8 refusingTarget (some serving) 0 (0x1000 : UInt32).toInt32
      (windowsProtectionToLinux 4) = _ := ext_alloc_served 8 refusingTarget serving_getsRequest rfl
  rw [hserved]
  exact Prod.ext hreply rfl

end CheatEngine.Ceserver
