/-
  CheatEngine.Ceserver.Extension

  The extension that ceserver loads into a process (extension/server.c): a service
  on a socket, whose commands call the C library inside the process.

  What these calls answer is left to an environment.  A pointer that is passed to
  `dlopen` is given by the memory from there on, since the string that `dlopen` sees
  may go on behind the bytes that were received.
-/
import CheatEngine.Lib.Bytes
import CheatEngine.Lib.Service

namespace CheatEngine.Ceserver

open CheatEngine.Lib

/-- What the extension calls, with its arguments. -/
inductive ExtCall
  /-- What the stack holds from the place of a buffer on, before it is written. -/
  | stack
  | mmap (addr length : UInt64) (prot : UInt32)
  | munmap (addr length : UInt64)
  | mprotect (addr length : UInt64) (prot : UInt32)
  | pthread_create (startaddress parameter : UInt64)
  | dlopen (function : Option UInt64) (filename : Nat → UInt8)
  /-- The speed by the bits of the `float`. -/
  | speedhack_initializeSpeed (speed : UInt32)

def MAP_FAILED : UInt64 := 0xFFFFFFFFFFFFFFFF

/-- The calls with their outcomes: `mmap` gives an address or fails, `munmap` and
    `mprotect` succeed or fail. -/
abbrev ExtApi : Sig where
  Op := ExtCall
  Res
    | .stack => Nat → UInt8
    | .mmap _ _ _ => Option { address : UInt64 // address ≠ MAP_FAILED }
    | .munmap _ _ => Bool
    | .mprotect _ _ _ => Bool
    | .pthread_create _ _ => UInt64
    | .dlopen _ _ => UInt64
    | .speedhack_initializeSpeed _ => UInt32

def inProcess (c : ExtCall) : Command ExtApi (ExtApi.Res c) := OptionT.lift (@Lib.call ExtApi c)

structure AllocEntry where
  address : UInt64
  size : UInt32

section

variable (allocList : List AllocEntry) (address : UInt64)

def allocListAdd (size : UInt32) : List AllocEntry :=
  allocList ++ [⟨address, size⟩]

/-- `allocListRemove`: the first entry of the address goes. -/
def allocListRemove : List AllocEntry :=
  allocList.eraseP (·.address = address)

def allocListFind : UInt32 :=
  match allocList.find? (·.address = address) with
  | some entry => entry.size
  | none => 0

end

/-! ## Commands -/

/-- A buffer on the stack after bytes were received into it. -/
def overStack (stack : Nat → UInt8) (bytes : List UInt8) (i : Nat) : UInt8 :=
  if h : i < bytes.length then bytes.get ⟨i, h⟩ else stack i

/-- The result of `mmap` as a word: `MAP_FAILED` is an address like any other. -/
def mmapResult (mapped : Option { address : UInt64 // address ≠ MAP_FAILED }) : UInt64 :=
  match mapped with
  | some address => address.val
  | none => MAP_FAILED

/-- `EXTCMD_ALLOC` with its parameters: a protection of 0 stands for all rights. -/
def onExtAlloc (allocList : List AllocEntry) (preferedAddress : UInt64) (size prot : UInt32) :
    Command ExtApi (List AllocEntry) := do
  let prot := if prot = 0 then 7 else prot
  let mapped ← inProcess (.mmap preferedAddress size.toUInt64 prot)
  let address := mmapResult mapped
  reply (u64 address)
  return if address ≠ 0 then allocListAdd allocList address size else allocList

def extAlloc (allocList : List AllocEntry) : Command ExtApi (List AllocEntry) := do
  let params ← receive 16
  onExtAlloc allocList (u64At params 0) (u32At params 8) (u32At params 12)

def extFree (allocList : List AllocEntry) : Command ExtApi (List AllocEntry) := do
  let params ← receive 12
  let address := u64At params 0
  let size := if u32At params 8 = 0 then allocListFind allocList address else u32At params 8
  if size ≠ 0 then
    let unmapped ← inProcess (.munmap address size.toUInt64)
    reply (u32 (if unmapped then 1 else 0))
    return allocListRemove allocList address
  else
    reply (u32 0)
    return allocListRemove allocList address

/-- `EXTCMD_CREATETHREAD` -/
def extCreateThread : Command ExtApi Unit := do
  let params ← receive 16
  let threadhandle ← inProcess (.pthread_create (u64At params 0) (u64At params 8))
  reply (u64 threadhandle)

/-- `EXTCMD_LOADMODULE` with its path.  The terminators are written to elements of an
    array of pointers, as far behind the path as these are wide. -/
def onExtLoadModule (pointerSize : Nat) (modulepath : List UInt8) : Command ExtApi Unit := do
  if modulepath.length = 0 then return ()
  else
    let stack ← inProcess .stack
    let terminated := fun i =>
      if pointerSize * modulepath.length ≤ i ∧ i < pointerSize * (modulepath.length + 4) then 0
      else overStack stack modulepath i
    let result ← inProcess (.dlopen none terminated)
    reply (u64 result)

/-- `EXTCMD_LOADMODULE` -/
def extLoadModule (pointerSize : Nat) : Command ExtApi Unit := do
  let modulepathlength ← receive 4
  let modulepath ← receive (u32At modulepathlength 0).toNat
  onExtLoadModule pointerSize modulepath

/-- `EXTCMD_LOADMODULEEX` with its parameters.  Nothing is written behind the path. -/
def onExtLoadModuleEx (dlopenaddress : UInt64) (modulepath : List UInt8) : Command ExtApi Unit := do
  if modulepath.length = 0 then return ()
  else
    let stack ← inProcess .stack
    let result ← inProcess (.dlopen (some dlopenaddress) (overStack stack modulepath))
    reply (u64 result)

/-- `EXTCMD_LOADMODULEEX` -/
def extLoadModuleEx : Command ExtApi Unit := do
  let params ← receive 12
  let modulepath ← receive (u32At params 8).toNat
  onExtLoadModuleEx (u64At params 0) modulepath

/-- `EXTCMD_SPEEDHACK_SETSPEED` -/
def extSetSpeed : Command ExtApi Unit := do
  let params ← receive 4
  let result ← inProcess (.speedhack_initializeSpeed (u32At params 0))
  reply (u32 result)

/-- `EXTCMD_CHANGEMEMORYPROTECTION` with its parameters.  The size is an `int` here,
    which `mprotect` takes as a `size_t`. -/
def onExtChangeMemoryProtection (address : UInt64) (size : Int32) (newprotection : UInt32) :
    Command ExtApi Unit := do
  let changed ← inProcess (.mprotect address size.toInt64.toUInt64 newprotection)
  reply (u32 (if changed then 0 else 0xFFFFFFFF))

/-- `EXTCMD_CHANGEMEMORYPROTECTION` -/
def extChangeMemoryProtection : Command ExtApi Unit := do
  let params ← receive 16
  onExtChangeMemoryProtection (u64At params 0) (i32At params 8) (u32At params 12)

/-- A command that leaves the list of allocations alone. -/
def keepList (c : Command ExtApi Unit) (allocList : List AllocEntry) :
    Command ExtApi (List AllocEntry) := do
  c
  return allocList

def extDispatchCommand (pointerSize : Nat) (command : UInt8) (allocList : List AllocEntry) :
    Command ExtApi (List AllocEntry) :=
  match command with
  | 0 => extAlloc allocList
  | 1 => extFree allocList
  | 2 => keepList extCreateThread allocList
  | 3 => keepList (extLoadModule pointerSize) allocList
  | 4 => keepList extSetSpeed allocList
  | 5 => keepList extChangeMemoryProtection allocList
  | 6 => keepList extLoadModuleEx allocList
  | _ => return allocList

/-- The service of the extension; a pointer of the process is `pointerSize` bytes. -/
def extension (pointerSize : Nat) : Service ExtApi (List AllocEntry) := ⟨extDispatchCommand pointerSize⟩

section Drive

variable {τ : Type} {env : Env ExtApi τ} {pointerSize : Nat} {allocList : List AllocEntry}
  {inp out : List UInt8} {t : τ} {calls : List (Prog.Event ExtApi)}

theorem drive_keepList {c : Command ExtApi Unit} {w w' : Wire ExtApi τ}
    (h : drive env c.run w = (pure (some ()), w')) :
    drive env (keepList c allocList).run w = (pure (some allocList), w') := by
  rw [keepList, drive_run_bind env h]
  rfl

theorem drive_extAlloc (preferedBase : UInt64) (size prot : UInt32) :
    let c : ExtCall := .mmap preferedBase size.toUInt64 (if prot = 0 then 7 else prot)
    let address := mmapResult (env c t).1
    drive env (extDispatchCommand pointerSize 0 allocList).run
        ⟨u64 preferedBase ++ u32 size ++ u32 prot, [], t, calls⟩ =
      (pure (some (if address ≠ 0 then allocListAdd allocList address size else allocList)),
        ⟨[], u64 address, (env c t).2, calls ++ [⟨c, (env c t).1⟩]⟩) := by
  intro c address
  show drive env (extAlloc allocList).run _ = _
  rw [extAlloc, drive_receive_all env [] t calls _ _ (by simp)]
  simp only [List.append_assoc, u32At_skip_u64, u32At_skip_u32, u32At_u32_last, u32At_u32, u64At_u64]
  rfl

theorem drive_extChangeMemoryProtection (address : UInt64) (size protection : UInt32) :
    let c : ExtCall := .mprotect address size.toInt32.toInt64.toUInt64 protection
    drive env (extDispatchCommand pointerSize 5 allocList).run
        ⟨u64 address ++ u32 size ++ u32 protection, [], t, calls⟩ =
      (pure (some allocList), ⟨[], u32 (if (env c t).1 = true then 0 else 0xFFFFFFFF), (env c t).2,
        calls ++ [⟨c, (env c t).1⟩]⟩) := by
  intro c
  apply drive_keepList
  rw [extChangeMemoryProtection, drive_receive_all env [] t calls _ _ (by simp)]
  simp only [List.append_assoc, u32At_skip_u64, u32At_skip_u32, u32At_u32_last, i32At_skip_u64,
    i32At_u32, u64At_u64]
  rfl

theorem drive_extLoadModule {path : List UInt8} {length : UInt32} (hne : path ≠ [])
    (hlength : path.length = length.toNat) :
    let stack := (env .stack t).1
    let c : ExtCall := .dlopen none fun i =>
      if pointerSize * path.length ≤ i ∧ i < pointerSize * (path.length + 4) then 0
      else overStack stack path i
    drive env (extDispatchCommand pointerSize 3 allocList).run
        ⟨u32 length ++ path, [], t, calls⟩ =
      (pure (some allocList), ⟨[], u64 (env c (env .stack t).2).1, (env c (env .stack t).2).2,
        calls ++ [⟨.stack, stack⟩] ++ [⟨c, (env c (env .stack t).2).1⟩]⟩) := by
  intro stack c
  apply drive_keepList
  rw [extLoadModule, drive_receive env path [] t calls (u32 length) _ (u32_length _),
    u32At_u32_last, drive_receive_all env [] t calls path _ hlength, onExtLoadModule,
    if_neg fun h => hne (List.length_eq_zero_iff.1 h)]
  rfl

theorem drive_extLoadModuleEx (dlopenaddress : UInt64) {path : List UInt8} {length : UInt32}
    (hne : path ≠ []) (hlength : path.length = length.toNat) :
    let stack := (env .stack t).1
    let c : ExtCall := .dlopen (some dlopenaddress) (overStack stack path)
    drive env (extDispatchCommand pointerSize 6 allocList).run
        ⟨u64 dlopenaddress ++ u32 length ++ path, [], t, calls⟩ =
      (pure (some allocList), ⟨[], u64 (env c (env .stack t).2).1, (env c (env .stack t).2).2,
        calls ++ [⟨.stack, stack⟩] ++ [⟨c, (env c (env .stack t).2).1⟩]⟩) := by
  intro stack c
  apply drive_keepList
  rw [extLoadModuleEx, drive_receive env path [] t calls
    (u64 dlopenaddress ++ u32 length) _ (by simp), u32At_skip_u64, u32At_u32_last, u64At_u64,
    drive_receive_all env [] t calls path _ hlength, onExtLoadModuleEx,
    if_neg fun h => hne (List.length_eq_zero_iff.1 h)]
  rfl

end Drive

end CheatEngine.Ceserver
