/-
  CheatEngine.Client.Line

  A client method on a connection whose replies may come late.  The server answers
  every request in order; a read of the client takes the next bytes, or it misses its
  deadline, and then the rest of the reply stays in flight.  Every byte in flight
  carries the number of the request that it answers, so that one can see which reply a
  byte is taken for.
-/
import CheatEngine.Client.Matches

namespace CheatEngine.Client

open CheatEngine.Lib

/-- One entry of the reply to `VirtualQueryExFull`. -/
structure RegionEntry where
  baseAddress : UInt64
  size : UInt64
  protection : UInt32
  type : UInt32

namespace RegionEntry

def encode (e : RegionEntry) : List UInt8 :=
  u64 e.baseAddress ++ (u64 e.size ++ (u32 e.protection ++ u32 e.type))

def region (e : RegionEntry) : Region := mkRegion e.baseAddress e.size e.protection e.type

@[simp] theorem encode_length (e : RegionEntry) : e.encode.length = 24 := by simp [encode]

end RegionEntry

/-- A server with one process: its memory, its regions, its handle, and how many bytes
    each read request gets, by the number of the request. -/
structure MemoryServer where
  mem : TargetMemory
  regions : List RegionEntry
  handle : UInt32
  prefixOf : Nat → Nat
  regions_lt : regions.length < 2 ^ 32

def isReadRequest (packet : List UInt8) : Bool := packet.head? == some commandReadProcessMemory

namespace MemoryServer

variable (srv : MemoryServer)

/-- The length of the `k`-th answer to a read request. -/
def answered (k size : Nat) : Nat := min (srv.prefixOf k) size

/-- The reply to a request, after `k` read requests. -/
def answerTo (k : Nat) : List UInt8 → List UInt8
  | [] => []
  | c :: body =>
    if c = commandReadProcessMemory then
      let n := srv.answered k (u32At body 12).toNat
      i32 (Int32.ofNat n) ++ memBytes srv.mem (u64At body 4) n
    else if c = commandVirtualQueryExFull then
      u32 (UInt32.ofNat srv.regions.length) ++ (srv.regions.map RegionEntry.encode).flatten
    else if c = commandOpenProcess then u32 srv.handle
    -- CloseHandle
    else i32 1

end MemoryServer

/-! ## The line -/

/-- The client's end of the connection. -/
structure Line where
  /-- Bytes that are not read yet, each with the request it answers. -/
  inFlight : List (Nat × UInt8)
  requests : Nat
  reads : Nat
  /-- The last request asked for memory. -/
  reading : Bool
  /-- A read missed its deadline. -/
  missed : Bool
  /-- A read missed its deadline, a write failed, or the context was cancelled. -/
  disturbed : Bool
  /-- A byte was read as the answer to a read request that it does not answer. -/
  crossed : Bool

namespace Line

/-- A new connection. -/
def fresh : Line := ⟨[], 0, 0, false, false, false, false⟩

def send (l : Line) (packet reply : List UInt8) : Line :=
  { l with
    inFlight := l.inFlight ++ reply.map (Prod.mk (l.requests + 1))
    requests := l.requests + 1
    reads := if isReadRequest packet then l.reads + 1 else l.reads
    reading := isReadRequest packet }

def receive (l : Line) (n : Nat) : Line :=
  { l with
    inFlight := l.inFlight.drop n
    crossed := l.crossed || (l.reading && (l.inFlight.take n).any fun b => b.1 != l.requests) }

/-- A deadline passes after `k` bytes. -/
def late (l : Line) (k : Nat) : Line :=
  { l with inFlight := l.inFlight.drop k, missed := true, disturbed := true }

def disturb (l : Line) : Line := { l with disturbed := true }

end Line

/-- What the connection may answer to an operation of the client.  On a `rough` line any
    write may fail, any read miss its deadline, and the context be cancelled. -/
def LineStep (srv : MemoryServer) (rough : Prop) : (o : NetOp) → Line → NetSig.Res o → Line → Prop
  | .write packet, l, r, l' =>
    r = .ok () ∧ l' = l.send packet (srv.answerTo l.reads packet) ∨
      rough ∧ (∃ f, r = .error f) ∧ l' = l.disturb
  | .read n, l, r, l' =>
    (n ≤ l.inFlight.length ∧ r = .ok ((l.inFlight.take n).map Prod.snd) ∧ l' = l.receive n) ∨
      (rough ∨ l.inFlight.length < n) ∧ ∃ e k, k < n ∧ r = .error e ∧ l' = l.late k
  | .ctxErr, l, r, l' => r = none ∧ l' = l ∨ rough ∧ (∃ e, r = some e) ∧ l' = l.disturb
  | .connected, l, _, l' => l' = l
  | .close, l, _, l' => l' = l
  | .debugActive, l, _, l' => l' = l
  | .setDebugActive _, l, _, l' => l' = l

/-- No read request follows a missed deadline. -/
def Prompt (l : Line) : NetOp → Prop
  | .write packet => isReadRequest packet = true → l.missed = false
  | _ => True

/-- A step of a run in which, on a rough line, no read request follows a missed deadline. -/
def PromptStep (srv : MemoryServer) (rough : Prop) (o : NetOp) (l : Line) (r : NetSig.Res o)
    (l' : Line) : Prop :=
  LineStep srv rough o l r l' ∧ (rough → Prompt l o)

/-- The steps of a line that is not rough: every answer is in time. -/
def MemoryServer.serve (srv : MemoryServer) : (o : NetOp) → Line → Option (NetSig.Res o × Line)
  | .write packet, l => some (.ok (), l.send packet (srv.answerTo l.reads packet))
  | .read n, l =>
    if n ≤ l.inFlight.length then some (.ok ((l.inFlight.take n).map Prod.snd), l.receive n)
    else some (.error "i/o timeout", l.late 0)
  | .ctxErr, l => some (none, l)
  | .connected, l => some (true, l)
  | .close, l => some (.ok (), l)
  | .debugActive, l => some (false, l)
  | .setDebugActive _, l => some ((), l)

theorem lineStep_of_serve {srv : MemoryServer} {rough : Prop} (o : NetOp) (l : Line)
    (r : NetSig.Res o) (l' : Line) (h : srv.serve o l = some (r, l')) :
    LineStep srv rough o l r l' := by
  cases o with
  | write packet => cases h; exact Or.inl ⟨rfl, rfl⟩
  | read n =>
    simp only [MemoryServer.serve] at h
    split at h
    · next hn => cases h; exact Or.inl ⟨hn, rfl, rfl⟩
    · next hn =>
      cases h
      exact Or.inr ⟨Or.inr (by omega), "i/o timeout", 0, by omega, rfl, rfl⟩
  | ctxErr => cases h; exact Or.inl ⟨rfl, rfl⟩
  | connected => cases h; rfl
  | close => cases h; rfl
  | debugActive => cases h; rfl
  | setDebugActive active => cases h; rfl

theorem promptStep_of_serve {srv : MemoryServer} (o : NetOp) (l : Line) (r : NetSig.Res o)
    (l' : Line) (h : srv.serve o l = some (r, l')) : PromptStep srv False o l r l' :=
  ⟨lineStep_of_serve o l r l' h, False.elim⟩

theorem exists_serve (srv : MemoryServer) (o : NetOp) (l : Line) : ∃ p, srv.serve o l = some p := by
  cases o with
  | read n =>
    simp only [MemoryServer.serve]
    split <;> exact ⟨_, rfl⟩
  | _ => exact ⟨_, rfl⟩

def Ends (srv : MemoryServer) (rough : Prop) {α : Type} (m : ClientM α) (l : Line)
    (Q : Except ClientError α → Line → Prop) : Prop :=
  Prog.Always (PromptStep srv rough) Q m.run l

section Rules

variable {srv : MemoryServer} {rough : Prop} {α β : Type} {l : Line} {Q : Except ClientError α → Line → Prop}

theorem Ends.imp {m : ClientM α} {Q' : Except ClientError α → Line → Prop} (h : Ends srv rough m l Q)
    (himp : ∀ r l', Q r l' → Q' r l') : Ends srv rough m l Q' :=
  Prog.Always.imp h himp

theorem ends_pure {x : α} (h : Q (.ok x) l) : Ends srv rough (pure x) l Q := h

theorem ends_throw {e : ClientError} (h : Q (.error e) l) : Ends srv rough (throw e : ClientM α) l Q := h

/-- What has to hold after the first of two methods. -/
def AndThen (srv : MemoryServer) (rough : Prop) (f : β → ClientM α) (Q : Except ClientError α → Line → Prop) :
    Except ClientError β → Line → Prop
  | .ok x, l => Ends srv rough (f x) l Q
  | .error e, l => Q (.error e) l

theorem Ends.bind {m : ClientM β} {f : β → ClientM α} (h : Ends srv rough m l (AndThen srv rough f Q)) :
    Ends srv rough (m >>= f) l Q := by
  unfold Ends
  rw [ExceptT.run_bind]
  refine Prog.Always.bind (Prog.Always.imp h fun r l' hr => ?_)
  cases r with
  | ok x => exact hr
  | error e => exact hr

theorem ends_ask {o : NetOp} {Q : Except ClientError (NetSig.Res o) → Line → Prop}
    (h : ∀ r l', PromptStep srv rough o l r l' → Q (.ok r) l') : Ends srv rough (ask o) l Q := h

theorem Ends.attempt_bind {m : ClientM β} {f : Except ClientError β → ClientM α}
    (h : Ends srv rough m l fun r l' => Ends srv rough (f r) l' Q) : Ends srv rough (attempt m >>= f) l Q := by
  have hrun : (attempt m >>= f).run = m.run >>= fun r => (f r).run := by
    have hattempt : (attempt m).run = m.run >>= fun r => pure (.ok r) := rfl
    rw [ExceptT.run_bind, hattempt, bind_assoc]
    rfl
  rw [Ends, hrun]
  exact Prog.Always.bind h

theorem Ends.exists_interp {m : ClientM α} (h : Ends srv False m l Q) :
    ∃ r l', Prog.interp srv.serve m.run l = some (r, l') ∧ Q r l' := by
  obtain ⟨⟨r, l'⟩, hrun⟩ := Prog.exists_interp (exists_serve srv) m.run l
  exact ⟨r, l', hrun, Prog.Always.of_interp promptStep_of_serve h hrun⟩

theorem ends_deferClose {handle : UInt32} {body : ClientM α}
    (h : Ends srv rough body l fun r l' => Ends srv rough (closeHandle handle) l' fun _ l'' => Q r l'') :
    Ends srv rough (deferClose handle body) l Q := by
  refine Ends.attempt_bind (Ends.imp h fun r l' hr => ?_)
  exact Ends.attempt_bind (Ends.imp hr fun _ l'' hq => hq)

end Rules

/-! ## Packets and replies -/

/-- The line is in step: what is in flight is the rest of the reply to the last
    request. -/
structure Replying (rough : Prop) (l : Line) (rest : List UInt8) : Prop where
  crossed : l.crossed = false
  missed : l.missed = false
  rough : l.disturbed = true → rough
  rest : l.inFlight = rest.map (Prod.mk l.requests)

/-- The line is in step with nothing in flight, or a deadline was missed. -/
structure Settled (rough : Prop) (l : Line) : Prop where
  crossed : l.crossed = false
  empty : l.missed = false → l.inFlight = []
  missed : l.missed = true → l.disturbed = true
  rough : l.disturbed = true → rough

section Methods

variable {srv : MemoryServer} {rough : Prop} {α : Type} {l : Line}

theorem Replying.settled (h : Replying rough l []) : Settled rough l :=
  ⟨h.crossed, fun _ => by simpa using h.rest, fun hm => by simp [h.missed] at hm, h.rough⟩

theorem replying_send (h : Settled rough l) (hm : l.missed = false) (packet reply : List UInt8) :
    Replying rough (l.send packet reply) reply :=
  ⟨h.crossed, hm, h.rough, by simp [Line.send, h.empty hm]⟩

theorem Settled.disturb (h : Settled rough l) (hrough : rough) : Settled rough l.disturb :=
  ⟨h.crossed, h.empty, fun _ => rfl, fun _ => hrough⟩

/-- The same number of read requests, and as much disturbed as before. -/
structure Calm (l l' : Line) : Prop where
  reads : l'.reads = l.reads
  disturbed : l'.disturbed = l.disturbed

theorem Calm.refl (l : Line) : Calm l l := ⟨rfl, rfl⟩

theorem Calm.trans {l' l'' : Line} (h : Calm l l') (h' : Calm l' l'') : Calm l l'' :=
  ⟨h'.reads.trans h.reads, h'.disturbed.trans h.disturbed⟩

theorem ends_writePacket {packet : List UInt8} {Q : Except ClientError Unit → Line → Prop}
    (hok : (rough → isReadRequest packet = true → l.missed = false) →
      Q (.ok ()) (l.send packet (srv.answerTo l.reads packet)))
    (herr : ∀ e, rough → Q (.error e) l.disturb) : Ends srv rough (writePacket packet) l Q := by
  refine Ends.bind (ends_ask ?_)
  rintro r l' ⟨hstep, hprompt⟩
  rcases hstep with ⟨rfl, rfl⟩ | ⟨hrough, ⟨f, rfl⟩, rfl⟩
  · exact ends_pure (hok hprompt)
  · cases f with
    | deadline e => exact ends_throw (herr _ hrough)
    | send e => exact ends_throw (herr _ hrough)

variable {operation : String} {rest : List UInt8}

theorem ends_readFull {n : Nat} {front : List UInt8}
    {Q : Except ClientError (List UInt8) → Line → Prop} (h : Replying rough l (front ++ rest))
    (hn : front.length = n) (hok : ∀ l', Replying rough l' rest → Calm l l' → Q (.ok front) l')
    (herr : ∀ e l', Settled rough l' → l'.disturbed = true → Q (.error e) l') :
    Ends srv rough (readFull operation n) l Q := by
  unfold readFull
  by_cases h0 : n = 0
  · rw [if_pos h0]
    obtain rfl : front = [] := List.length_eq_zero_iff.1 (hn.trans h0)
    exact ends_pure (hok l h (Calm.refl l))
  · rw [if_neg h0]
    refine Ends.bind (ends_ask ?_)
    rintro r l' ⟨hstep, -⟩
    have htake : l.inFlight.take n = front.map (Prod.mk l.requests) := by
      rw [h.rest, List.map_append, List.take_left' (by simpa using hn)]
    have hdrop : l.inFlight.drop n = rest.map (Prod.mk l.requests) := by
      rw [h.rest, List.map_append, List.drop_left' (by simpa using hn)]
    rcases hstep with ⟨-, rfl, rfl⟩ | ⟨hcause, e, k, hk, rfl, rfl⟩
    · -- all these bytes answer the last request
      have hbytes : (l.inFlight.take n).map Prod.snd = front := by
        rw [htake, List.map_map]
        exact List.map_id front
      have hown : (l.inFlight.take n).any (fun b => b.1 != l.requests) = false := by
        rw [htake]
        simp
      rw [hbytes]
      refine ends_pure (hok _ ⟨?_, h.missed, h.rough, hdrop⟩ ⟨rfl, rfl⟩)
      simp [Line.receive, h.crossed, hown]
    · -- there are enough bytes
      have henough : ¬ l.inFlight.length < n := by
        rw [h.rest, List.length_map, List.length_append]
        omega
      have hrough : rough := hcause.resolve_right henough
      have hlate : (l.late k).missed = true := rfl
      refine ends_throw (herr _ _ ⟨h.crossed, fun hm => ?_, fun _ => rfl, fun _ => hrough⟩ rfl)
      rw [hlate] at hm
      cases hm

theorem ends_readValue (decode : List UInt8 → α) {n : Nat}
    {front : List UInt8} {Q : Except ClientError α → Line → Prop}
    (h : Replying rough l (front ++ rest)) (hn : front.length = n)
    (hok : ∀ l', Replying rough l' rest → Calm l l' → Q (.ok (decode front)) l')
    (herr : ∀ e l', Settled rough l' → l'.disturbed = true → Q (.error e) l') :
    Ends srv rough (do return decode (← readFull operation n)) l Q := by
  refine Ends.bind (ends_readFull h hn (fun l' hr hc => ?_) fun e l' hs hd => herr e l' hs hd)
  exact ends_pure (hok l' hr hc)

theorem ends_readU32 {v : UInt32}
    {Q : Except ClientError UInt32 → Line → Prop} (h : Replying rough l (u32 v ++ rest))
    (hok : ∀ l', Replying rough l' rest → Calm l l' → Q (.ok v) l')
    (herr : ∀ e l', Settled rough l' → l'.disturbed = true → Q (.error e) l') :
    Ends srv rough (readU32 operation) l Q := by
  refine ends_readValue (fun bytes => u32At bytes 0) h (u32_length v) ?_ herr
  rw [u32At_u32_last]
  exact hok

theorem ends_readI32 {v : Int32}
    {Q : Except ClientError Int32 → Line → Prop} (h : Replying rough l (i32 v ++ rest))
    (hok : ∀ l', Replying rough l' rest → Calm l l' → Q (.ok v) l')
    (herr : ∀ e l', Settled rough l' → l'.disturbed = true → Q (.error e) l') :
    Ends srv rough (readI32 operation) l Q := by
  refine ends_readValue (fun bytes => i32At bytes 0) h (i32_length v) ?_ herr
  rw [i32At_i32_last]
  exact hok

/-! ## Methods -/

theorem ends_readMany {ε : Type} {read : ClientM α} {encode : ε → List UInt8} {decode : ε → α}
    (hread : ∀ (e : ε) (l : Line) (rest : List UInt8) (Q : Except ClientError α → Line → Prop),
      Replying rough l (encode e ++ rest) →
      (∀ l', Replying rough l' rest → Calm l l' → Q (.ok (decode e)) l') →
      (∀ err l', Settled rough l' → l'.disturbed = true → Q (.error err) l') → Ends srv rough read l Q)
    (es : List ε) {Q : Except ClientError (List α) → Line → Prop}
    (h : Replying rough l ((es.map encode).flatten ++ rest))
    (hok : ∀ l', Replying rough l' rest → Calm l l' → Q (.ok (es.map decode)) l')
    (herr : ∀ err l', Settled rough l' → l'.disturbed = true → Q (.error err) l') :
    Ends srv rough (readMany read es.length) l Q := by
  induction es generalizing l Q with
  | nil => exact ends_pure (hok l h (Calm.refl l))
  | cons e es ih =>
    rw [List.map_cons, List.flatten_cons, List.append_assoc] at h
    refine Ends.bind (hread e l _ _ h (fun l₁ h₁ hc₁ => ?_) herr)
    refine Ends.bind (ih h₁ (fun l₂ h₂ hc₂ => ?_) herr)
    exact ends_pure (hok l₂ h₂ (hc₁.trans hc₂))

theorem ends_request {packet : List UInt8} {Q : Except ClientError Unit → Line → Prop}
    (h : Settled rough l) (hm : l.missed = false) (hread : isReadRequest packet = false)
    (hok : ∀ l', Replying rough l' (srv.answerTo l.reads packet) → Calm l l' → Q (.ok ()) l')
    (herr : ∀ e l', Settled rough l' → l'.disturbed = true → Q (.error e) l') :
    Ends srv rough (writePacket packet) l Q := by
  refine ends_writePacket (fun _ => ?_) fun e hrough => herr e _ (h.disturb hrough) rfl
  refine hok _ (replying_send h hm _ _) ⟨?_, rfl⟩
  simp [Line.send, hread]

theorem ends_openProcess {pid : Int32} {Q : Except ClientError UInt32 → Line → Prop}
    (h : Settled rough l) (hm : l.missed = false)
    (hok : ∀ l', Settled rough l' → l'.missed = false → Calm l l' → srv.handle ≠ 0 →
      Q (.ok srv.handle) l')
    (herr : ∀ e l', Settled rough l' → (l'.disturbed = true ∨ srv.handle = 0) → Q (.error e) l') :
    Ends srv rough (openProcess pid) l Q := by
  have hlate : ∀ (e : ClientError) (l' : Line), Settled rough l' → l'.disturbed = true →
      Q (.error e) l' := fun e l' hs hd => herr e l' hs (Or.inl hd)
  refine Ends.bind (ends_request h hm rfl (fun l₁ h₁ hc₁ => ?_) hlate)
  have hreply : Replying rough l₁ (u32 srv.handle ++ []) := by
    rw [List.append_nil]
    exact h₁
  refine Ends.bind (ends_readU32 hreply (fun l₂ h₂ hc₂ => ?_) hlate)
  show Ends srv rough (if srv.handle = 0 then _ else _) l₂ Q
  split
  · next hzero => exact ends_throw (herr _ l₂ h₂.settled (Or.inr hzero))
  · next hne => exact ends_pure (hok l₂ h₂.settled h₂.missed (hc₁.trans hc₂) hne)

theorem ends_readRegion (e : RegionEntry) (l : Line) (rest : List UInt8)
    (Q : Except ClientError Region → Line → Prop) (h : Replying rough l (e.encode ++ rest))
    (hok : ∀ l', Replying rough l' rest → Calm l l' → Q (.ok e.region) l')
    (herr : ∀ err l', Settled rough l' → l'.disturbed = true → Q (.error err) l') :
    Ends srv rough readRegion l Q := by
  refine Ends.bind (ends_readFull h e.encode_length (fun l' h' hc => ?_) herr)
  have hregion : mkRegion (u64At e.encode 0) (u64At e.encode 8) (u32At e.encode 16)
      (u32At e.encode 20) = e.region := by
    simp [RegionEntry.encode, RegionEntry.region]
  refine ends_pure ?_
  rw [hregion]
  exact hok l' h' hc

variable {handle : UInt32}

theorem ends_regionsWithHandle {flags : UInt8}
    {Q : Except ClientError (List Region) → Line → Prop} (h : Settled rough l) (hm : l.missed = false)
    (hok : ∀ l', Settled rough l' → l'.missed = false → Calm l l' →
      Q (.ok (srv.regions.map RegionEntry.region)) l')
    (herr : ∀ e l', l'.crossed = false →
      (rough ∨ maximumCollectionEntries < srv.regions.length) → Q (.error e) l') :
    Ends srv rough (regionsWithHandle handle flags) l Q := by
  have hlate : ∀ (e : ClientError) (l' : Line), Settled rough l' → l'.disturbed = true →
      Q (.error e) l' := fun e l' hs hd => herr e l' hs.crossed (Or.inl (hs.rough hd))
  have hcount : (UInt32.ofNat srv.regions.length).toNat = srv.regions.length :=
    UInt32.toNat_ofNat_of_lt' srv.regions_lt
  refine Ends.bind (ends_request h hm rfl (fun l₁ h₁ hc₁ => ?_) hlate)
  refine Ends.bind (ends_readU32 h₁ (fun l₂ h₂ hc₂ => ?_) hlate)
  show Ends srv rough (if maximumCollectionEntries < (UInt32.ofNat srv.regions.length).toNat then _
    else _) l₂ Q
  rw [hcount]
  split
  · next hmany => exact ends_throw (herr _ l₂ h₂.crossed (Or.inr hmany))
  · rw [← List.append_nil (List.flatten _)] at h₂
    refine ends_readMany ends_readRegion srv.regions h₂ (fun l₃ h₃ hc₃ => ?_) hlate
    exact hok l₃ h₃.settled h₃.missed (hc₁.trans (hc₂.trans hc₃))

theorem ends_readMemoryWithHandle {address : UInt64} {size : UInt32}
    {Q : Except ClientError (List UInt8) → Line → Prop} (h : Settled rough l) (hsize : size.toNat < 2 ^ 31)
    (hok : ∀ l', Settled rough l' → l'.reads = l.reads + 1 → l'.disturbed = l.disturbed →
      Q (.ok (memBytes srv.mem address (srv.answered l.reads size.toNat))) l')
    (herr : ∀ e l', Settled rough l' → l'.disturbed = true → Q (.error e) l') :
    Ends srv rough (readMemoryWithHandle handle address size) l Q := by
  have hle : srv.answered l.reads size.toNat ≤ size.toNat := Nat.min_le_right _ _
  generalize hn : srv.answered l.reads size.toNat = n at *
  have hvalue : (Int32.ofNat n).toInt = n := Int32.toInt_ofNat_of_lt (by omega)
  refine Ends.bind (ends_writePacket (fun hprompt => ?_) fun e hrough =>
    herr e _ (h.disturb hrough) rfl)
  have hmissed : l.missed = false := by
    cases hm : l.missed with
    | false => rfl
    | true => exact hm.symm.trans (hprompt (h.rough (h.missed hm)) rfl)
  have hreply := replying_send h hmissed
    (commandReadProcessMemory :: (u32 handle ++ u64 address ++ u32 size ++ u8 0))
    (i32 (Int32.ofNat n) ++ memBytes srv.mem address n)
  have hanswer : srv.answerTo l.reads (commandReadProcessMemory ::
      (u32 handle ++ u64 address ++ u32 size ++ u8 0)) =
      i32 (Int32.ofNat n) ++ memBytes srv.mem address n := by
    simp only [MemoryServer.answerTo, if_true, List.append_assoc, u32At_skip_u32, u32At_skip_u64,
      u32At_u32, u64At_skip_u32, u64At_u64, hn]
  rw [hanswer]
  refine Ends.bind (ends_readI32 hreply (fun l₂ h₂ hc₂ => ?_) herr)
  have hfits : ¬ ((Int32.ofNat n).toInt < 0 ∨ size < (Int32.ofNat n).toUInt32) := by
    have hlt : n < 2 ^ 32 := by omega
    have hunsigned : (Int32.ofNat n).toUInt32.toNat = n := by
      rw [Int32.toUInt32_ofNat']
      exact UInt32.toNat_ofNat_of_lt' hlt
    rw [hvalue, UInt32.lt_iff_toNat_lt, hunsigned]
    omega
  show Ends srv rough (if (Int32.ofNat n).toInt < 0 ∨ size < (Int32.ofNat n).toUInt32 then _ else _) l₂ Q
  rw [if_neg hfits, hvalue]
  rw [← List.append_nil (memBytes srv.mem address n)] at h₂
  refine ends_readFull h₂ (by simp) (fun l₃ h₃ hc₃ => ?_) herr
  refine hok l₃ h₃.settled ?_ ?_
  · rw [hc₃.reads, hc₂.reads]
    rfl
  · rw [hc₃.disturbed, hc₂.disturbed]
    rfl

theorem ends_closeHandle {Q : Except ClientError Unit → Line → Prop} (h : l.crossed = false)
    (hq : ∀ r l', l'.crossed = false → (l.disturbed = true → l'.disturbed = true) → Q r l') :
    Ends srv rough (closeHandle handle) l Q := by
  refine Ends.bind (ends_writePacket (fun _ => ?_) fun e _ => hq _ _ h fun _ => rfl)
  refine Ends.bind (Ends.bind (Ends.bind (ends_ask ?_)))
  rintro r l' ⟨hstep, -⟩
  rcases hstep with ⟨-, rfl, rfl⟩ | ⟨-, e, k, hk, rfl, rfl⟩
  · refine ends_pure (ends_pure (ends_pure (hq _ _ ?_ id)))
    simp [Line.receive, Line.send, h, isReadRequest, commandCloseHandle, commandReadProcessMemory]
  · exact ends_throw (hq _ _ h fun _ => rfl)

end Methods

end CheatEngine.Client
