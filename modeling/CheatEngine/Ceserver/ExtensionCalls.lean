/-
  CheatEngine.Ceserver.ExtensionCalls

  The functions of ceserver that use the extension of a process
  (extensionfunctions.c), and the server whose calls of these functions are served
  by an extension.

  Each function makes one exchange on the socket of the process: the request is
  sent, and the reply is received into a result that is 0 before.
-/
import CheatEngine.Ceserver.Api
import CheatEngine.Ceserver.Extension

namespace CheatEngine.Ceserver

open CheatEngine.Lib

variable {σ τ : Type}

/-! ## A process and its extension -/

/-- What becomes of an exchange on the socket.  A request that does not get there as a
    whole leaves the extension waiting for the rest. -/
inductive SocketFate
  /-- `sendall` fails. -/
  | refused
  /-- The request is sent, but the extension ends before it has taken it. -/
  | lost
  /-- The request is served, and of the reply so many bytes are received. -/
  | served (received : Nat)

/-- The process behind a handle, with its extension. -/
structure TargetProcess (τ : Type) where
  hasLoadedExtension : Bool
  /-- What `loadCEServerExtension` will return. -/
  loads : Bool
  /-- The socket is open and nothing is on its way. -/
  connected : Bool
  /-- What becomes of the next exchange. -/
  fate : SocketFate
  allocList : List AllocEntry
  /-- The process itself. -/
  target : τ
  /-- The calls that the extension made in it, oldest first. -/
  calls : List (Prog.Event ExtApi)

section Exchange

variable (pointerSize : Nat) (env : Env ExtApi τ) (p : TargetProcess τ)

/-- `sendall` of a request, and `recvall` of a result of `n` bytes: the bytes received. -/
def exchange (request : List UInt8) (n : Nat) : List UInt8 × TargetProcess τ :=
  if p.connected then
    match p.fate with
    | .refused | .lost => ([], { p with connected := false })
    | .served received =>
      match (extension pointerSize).serve env (.idle p.allocList, ⟨request, [], p.target, p.calls⟩) with
      | (.idle allocList, wire) =>
        ((wire.out.take n).take received,
          { p with
            -- in step again only when both streams were taken to the end
            connected := wire.inp.length = 0 ∧ wire.out.length = n ∧ n ≤ received
            allocList
            target := wire.api
            calls := wire.log })
      | (_, wire) =>
        ([], { p with connected := false, target := wire.api, calls := wire.log })
  else ([], p)

/-- The process once its extension is loaded, if it is or can be. -/
def TargetProcess.withExtension : Option (TargetProcess τ) :=
  if p.hasLoadedExtension then some p
  else if p.loads then some { p with hasLoadedExtension := true, connected := true }
  else none

def overZeros (n : Nat) (bytes : List UInt8) : List UInt8 :=
  bytes ++ List.replicate (n - bytes.length) 0

/-- What the functions share; the process is that of the handle, if it is one of a
    process. -/
def extFunction (p : Option (TargetProcess τ)) (request : List UInt8) (n : Nat) :
    List UInt8 × Option (TargetProcess τ) :=
  match p with
  | none => (overZeros n [], none)
  | some p =>
    match p.withExtension with
    | none => (overZeros n [], some p)
    | some p =>
      let (bytes, p) := exchange pointerSize env p request n
      (overZeros n bytes, some p)

end Exchange

theorem length_overZeros {n : Nat} {bytes : List UInt8} (h : bytes.length ≤ n) :
    (overZeros n bytes).length = n := by
  rw [overZeros, List.length_append, List.length_replicate]
  omega

theorem leNat_overZeros_take (n v k m : Nat) (hv : v < 256 ^ n) :
    leNat (overZeros m ((leBytes n v).take k)) = v % 256 ^ k := by
  rw [overZeros, leNat_zeros, take_leBytes, leNat_leBytes]
  by_cases h : k ≤ n
  · rw [Nat.min_eq_left h]
  · have hle : 256 ^ n ≤ 256 ^ k := Nat.pow_le_pow_right (by decide) (by omega)
    rw [Nat.min_eq_right (by omega), Nat.mod_eq_of_lt hv, Nat.mod_eq_of_lt (by omega)]

theorem u64At_overZeros (v : UInt64) (k : Nat) :
    (u64At (overZeros 8 ((u64 v).take k)) 0).toNat = v.toNat % 256 ^ k := by
  have hv : v.toNat < 256 ^ 8 := v.toNat_lt
  have hlen : (overZeros 8 ((u64 v).take k)).length = 8 :=
    length_overZeros (by rw [List.length_take, u64_length]; exact Nat.min_le_right _ _)
  rw [u64At, List.drop_zero, List.take_of_length_le (Nat.le_of_eq hlen), u64,
    leNat_overZeros_take _ _ _ _ hv, UInt64.toNat_ofNat']
  exact Nat.mod_eq_of_lt (Nat.lt_of_le_of_lt (Nat.mod_le _ _) hv)

theorem u32At_overZeros (v : UInt32) (k : Nat) :
    (u32At (overZeros 4 ((u32 v).take k)) 0).toNat = v.toNat % 256 ^ k := by
  have hv : v.toNat < 256 ^ 4 := v.toNat_lt
  have hlen : (overZeros 4 ((u32 v).take k)).length = 4 :=
    length_overZeros (by rw [List.length_take, u32_length]; exact Nat.min_le_right _ _)
  rw [u32At, List.drop_zero, List.take_of_length_le (Nat.le_of_eq hlen), u32,
    leNat_overZeros_take _ _ _ _ hv, UInt32.toNat_ofNat']
  exact Nat.mod_eq_of_lt (Nat.lt_of_le_of_lt (Nat.mod_le _ _) hv)

/-- The extension of the process is loaded or can be, its socket is in step, and it is
    going to serve the request; `q` is the process then, and `received` counts the bytes
    of the reply that arrive. -/
def GetsRequest (p : Option (TargetProcess τ)) (received : Nat) (q : TargetProcess τ) : Prop :=
  (p.bind TargetProcess.withExtension) = some q ∧ q.connected = true ∧ q.fate = .served received

section Served

variable {pointerSize : Nat} {env : Env ExtApi τ} {p : Option (TargetProcess τ)}
  {q : TargetProcess τ} {received n : Nat}

theorem withExtension_calls {p q : TargetProcess τ} (h : p.withExtension = some q) :
    q.calls = p.calls ∧ q.allocList = p.allocList ∧ q.target = p.target ∧ q.fate = p.fate := by
  unfold TargetProcess.withExtension at h
  split at h
  · cases h
    exact ⟨rfl, rfl, rfl, rfl⟩
  · split at h
    · cases h
      exact ⟨rfl, rfl, rfl, rfl⟩
    · cases h

theorem extFunction_served (h : GetsRequest p received q) {command : UInt8}
    {body reply : List UInt8} {allocList : List AllocEntry} {t : τ}
    {calls : List (Prog.Event ExtApi)}
    (hdrive : drive env (extDispatchCommand pointerSize command q.allocList).run
      ⟨body, [], q.target, q.calls⟩ = (pure (some allocList), ⟨[], reply, t, calls⟩))
    (hreply : reply.length = n) :
    extFunction pointerSize env p (command :: body) n =
      (overZeros n (reply.take received),
        some { q with connected := decide (n ≤ received), allocList, target := t, calls }) := by
  obtain ⟨hq, hconnected, hfate⟩ := h
  have hserve : (extension pointerSize).serve env
      (.idle q.allocList, ⟨command :: body, [], q.target, q.calls⟩) =
      (.idle allocList, ⟨[], reply, t, calls⟩) := (extension pointerSize).serve_request env hdrive
  have hexchange : exchange pointerSize env q (command :: body) n =
      (reply.take received,
        { q with connected := decide (n ≤ received), allocList, target := t, calls }) := by
    simp only [exchange, hconnected, ↓reduceIte, hfate, hserve, ← hreply, List.take_length,
      List.length_nil, true_and]
  cases p with
  | none => cases hq
  | some p =>
    have hp : p.withExtension = some q := hq
    simp only [extFunction, hp, hexchange]

variable (pointerSize env) in
/-- Without an extension that serves it, a request leaves no trace, and the result is 0. -/
theorem extFunction_unserved (h : ∀ received q, ¬ GetsRequest p received q)
    (request : List UInt8) (n : Nat) :
    (extFunction pointerSize env p request n).1 = overZeros n [] ∧
      (extFunction pointerSize env p request n).2.map TargetProcess.calls =
        p.map TargetProcess.calls ∧
      (extFunction pointerSize env p request n).2.map TargetProcess.allocList =
        p.map TargetProcess.allocList := by
  cases p with
  | none => exact ⟨rfl, rfl, rfl⟩
  | some p =>
    cases hq : p.withExtension with
    | none =>
      simp only [extFunction, hq, Option.map_some, and_self]
    | some q =>
      obtain ⟨hcalls, hlist, -, -⟩ := withExtension_calls hq
      have hexchange : (exchange pointerSize env q request n).1 = [] ∧
          (exchange pointerSize env q request n).2.calls = q.calls ∧
          (exchange pointerSize env q request n).2.allocList = q.allocList := by
        cases hconnected : q.connected with
        | false =>
          simp only [exchange, hconnected, Bool.false_eq_true, ↓reduceIte, and_self]
        | true =>
          cases hfate : q.fate with
          | refused => simp only [exchange, hconnected, ↓reduceIte, hfate, and_self]
          | lost => simp only [exchange, hconnected, ↓reduceIte, hfate, and_self]
          | served received => exact absurd ⟨hq, hconnected, hfate⟩ (h received q)
      simp only [extFunction, hq, Option.map_some, hexchange, hcalls, hlist, and_self]

end Served

/-! ## The functions -/

section Functions

variable (pointerSize : Nat) (env : Env ExtApi τ) (p : Option (TargetProcess τ))

def ext_alloc (preferedBase : UInt64) (size prot : Int32) : UInt64 × Option (TargetProcess τ) :=
  let r := extFunction pointerSize env p
    (0 :: (u64 preferedBase ++ u32 size.toUInt32 ++ u32 prot.toUInt32)) 8
  (u64At r.1 0, r.2)

def ext_free (address : UInt64) (size : Int32) : Int32 × Option (TargetProcess τ) :=
  let r := extFunction pointerSize env p (1 :: (u64 address ++ u32 size.toUInt32)) 4
  (i32At r.1 0, r.2)

def ext_createThread (startaddress parameter : UInt64) : UInt64 × Option (TargetProcess τ) :=
  let r := extFunction pointerSize env p (2 :: (u64 startaddress ++ u64 parameter)) 8
  (u64At r.1 0, r.2)

/-- `ext_loadModule`: the terminator is sent with the path. -/
def ext_loadModule (modulepath : List UInt8) : UInt64 × Option (TargetProcess τ) :=
  let r := extFunction pointerSize env p
    (3 :: (u32 (UInt32.ofNat (modulepath.length + 1)) ++ (modulepath ++ [0]))) 8
  (u64At r.1 0, r.2)

def ext_speedhack_setSpeed (speed : UInt32) : Int32 × Option (TargetProcess τ) :=
  let r := extFunction pointerSize env p (4 :: u32 speed) 4
  (i32At r.1 0, r.2)

def ext_changememoryprotection (address : UInt64) (size protection : UInt32) :
    Int32 × Option (TargetProcess τ) :=
  let r := extFunction pointerSize env p
    (5 :: (u64 address ++ u32 size ++ u32 protection)) 4
  (i32At r.1 0, r.2)

/-- `ext_loadModuleEx`: the path is sent without a terminator.  For an empty path the
    second `sendall` returns 0, and no result is received. -/
def ext_loadModuleEx (dlopenaddress : UInt64) (modulepath : List UInt8) :
    UInt64 × Option (TargetProcess τ) :=
  let r := extFunction pointerSize env p
    (6 :: (u64 dlopenaddress ++ u32 (UInt32.ofNat modulepath.length) ++ modulepath))
    (if modulepath = [] then 0 else 8)
  (u64At (overZeros 8 r.1) 0, r.2)

end Functions

section Specs

variable (pointerSize : Nat) (env : Env ExtApi τ) {p : Option (TargetProcess τ)}
  {q : TargetProcess τ} {received : Nat}

theorem ext_changememoryprotection_served (h : GetsRequest p received q) (address : UInt64)
    (size protection : UInt32) :
    let c : ExtCall := .mprotect address size.toInt32.toInt64.toUInt64 protection
    let result : UInt32 := if (env c q.target).1 = true then 0 else 0xFFFFFFFF
    ext_changememoryprotection pointerSize env p address size protection =
      (i32At (overZeros 4 ((u32 result).take received)) 0,
        some { q with
          connected := decide (4 ≤ received)
          target := (env c q.target).2
          calls := q.calls ++ [⟨c, (env c q.target).1⟩] }) := by
  intro c result
  rw [ext_changememoryprotection, extFunction_served h
    (drive_extChangeMemoryProtection address size protection) (u32_length _)]

theorem ext_changememoryprotection_unserved (h : ∀ received q, ¬ GetsRequest p received q)
    (address : UInt64) (size protection : UInt32) :
    (ext_changememoryprotection pointerSize env p address size protection).1 = 0 ∧
      (ext_changememoryprotection pointerSize env p address size protection).2.map
        TargetProcess.calls = p.map TargetProcess.calls := by
  obtain ⟨hresult, hcalls, -⟩ := extFunction_unserved pointerSize env h
    (5 :: (u64 address ++ u32 size ++ u32 protection)) 4
  rw [ext_changememoryprotection]
  refine ⟨?_, hcalls⟩
  rw [hresult]
  rfl

theorem ext_alloc_served (h : GetsRequest p received q) {preferedBase : UInt64} {size : UInt32}
    {prot : Int32} {mapped : Option { address : UInt64 // address ≠ MAP_FAILED }} {t : τ}
    (hmapped : env (.mmap preferedBase size.toUInt64
      (if prot.toUInt32 = 0 then 7 else prot.toUInt32)) q.target = (mapped, t)) :
    ext_alloc pointerSize env p preferedBase size.toInt32 prot =
      (u64At (overZeros 8 ((u64 (mmapResult mapped)).take received)) 0,
        some { q with
          connected := decide (8 ≤ received)
          allocList := if mmapResult mapped ≠ 0 then
            allocListAdd q.allocList (mmapResult mapped) size else q.allocList
          target := t
          calls := q.calls ++ [⟨.mmap preferedBase size.toUInt64
            (if prot.toUInt32 = 0 then 7 else prot.toUInt32), mapped⟩] }) := by
  have hsize : size.toInt32.toUInt32 = size := UInt32.toUInt32_toInt32 size
  rw [ext_alloc, hsize, extFunction_served h (drive_extAlloc preferedBase size prot.toUInt32)
    (u64_length _), hmapped]

theorem ext_alloc_unserved (h : ∀ received q, ¬ GetsRequest p received q) (preferedBase : UInt64)
    (size prot : Int32) :
    (ext_alloc pointerSize env p preferedBase size prot).1 = 0 ∧
      (ext_alloc pointerSize env p preferedBase size prot).2.map TargetProcess.calls =
        p.map TargetProcess.calls ∧
      (ext_alloc pointerSize env p preferedBase size prot).2.map TargetProcess.allocList =
        p.map TargetProcess.allocList := by
  obtain ⟨hresult, hkept⟩ := extFunction_unserved pointerSize env h
    (0 :: (u64 preferedBase ++ u32 size.toUInt32 ++ u32 prot.toUInt32)) 8
  rw [ext_alloc]
  refine ⟨?_, hkept⟩
  rw [hresult]
  rfl

end Specs

/-- The processes behind the handles of a server. -/
abbrev Processes (τ : Type) : Type := UInt32 → Option (TargetProcess τ)

/-- Outcomes of the calls of a server, those of the functions above by the extension of
    the process.  No other function uses the socket of an extension. -/
def extOutcomes (pointerSize : Nat) (env : Env ExtApi τ) (o : Outcomes σ) :
    Outcomes (σ × Processes τ)
  | .ext_alloc h preferedBase size prot, a =>
    let (r, p) := ext_alloc pointerSize env (a.2 h) preferedBase size prot
    (r, (a.1, Function.update a.2 h p))
  | .ext_free h address size, a =>
    let (r, p) := ext_free pointerSize env (a.2 h) address size
    (r, (a.1, Function.update a.2 h p))
  | .ext_createThread h startaddress parameter, a =>
    let (r, p) := ext_createThread pointerSize env (a.2 h) startaddress parameter
    (r, (a.1, Function.update a.2 h p))
  | .ext_loadModule h modulepath, a =>
    let (r, p) := ext_loadModule pointerSize env (a.2 h) modulepath
    (r, (a.1, Function.update a.2 h p))
  | .ext_speedhack_setSpeed h speed, a =>
    let (r, p) := ext_speedhack_setSpeed pointerSize env (a.2 h) speed
    (r, (a.1, Function.update a.2 h p))
  | .ext_changememoryprotection h address size protection, a =>
    let (r, p) := ext_changememoryprotection pointerSize env (a.2 h) address size protection
    (r, (a.1, Function.update a.2 h p))
  | .ext_loadModuleEx h dlopenaddress modulepath, a =>
    let (r, p) := ext_loadModuleEx pointerSize env (a.2 h) dlopenaddress modulepath
    (r, (a.1, Function.update a.2 h p))
  | c, a =>
    let (r, s) := o c a.1
    (r, (s, a.2))

end CheatEngine.Ceserver
