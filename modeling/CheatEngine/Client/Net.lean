/-
  CheatEngine.Client.Net

  The Go client's view of its connection (internal/ceserver/client.go): a
  client method is a program over `NetSig` that writes whole packets, reads an
  exact number of bytes, and may fail.  The environment decides what a read
  returns, so one method definition serves against every peer.

  Go strings and byte slices are byte lists.  Error texts are kept as the
  format string with its arguments (`Message`), not as rendered text.
-/
import CheatEngine.Lib.Bytes
import CheatEngine.Lib.Program

namespace CheatEngine.Client

open CheatEngine.Lib

/-- An argument of a format string. -/
inductive FmtArg
  | int (v : Int)
  | str (bytes : List UInt8)
  deriving DecidableEq, Repr

/-- A message: a format string and its arguments. -/
structure Message where
  format : String
  /-- Its arguments. -/
  args : List FmtArg
  deriving DecidableEq, Repr

def text (s : String) : Message := ⟨s, []⟩

/-- An error of a client method: a `ProtocolError` with its operation, or a
    plain error. -/
inductive ClientError
  | protocol (operation : String) (message : Message)
  | plain (message : Message)
  deriving DecidableEq, Repr

/-- Why a packet was not written: the deadline could not be set, or the write
    failed. -/
inductive WriteFailure
  | deadline (err : String)
  | send (err : String)

/-- What a client method does to its connection and to the `Client` record. -/
inductive NetOp
  | write (packet : List UInt8)
  /-- Set the deadline and `io.ReadFull` exactly `n` bytes. -/
  | read (n : Nat)
  /-- `client.connection != nil`. -/
  | connected
  /-- `client.connection = nil` and `connection.Close()`. -/
  | close
  /-- The flag `client.debugActive`. -/
  | debugActive
  /-- Assign `client.debugActive`. -/
  | setDebugActive (active : Bool)
  | ctxErr
  deriving DecidableEq, Repr

/-- The signature of client methods. -/
abbrev NetSig : Sig where
  Op := NetOp
  Res
    | .write _ => Except WriteFailure Unit
    | .read _ => Except String (List UInt8)
    | .connected => Bool
    | .close => Except String Unit
    | .debugActive => Bool
    | .setDebugActive _ => Unit
    | .ctxErr => Option String

/-- A client method: it returns a value or an error. -/
abbrev ClientM (α : Type) : Type := ExceptT ClientError (Prog NetSig) α

/-- Perform an operation that cannot fail by itself. -/
def ask (o : NetOp) : ClientM (NetSig.Res o) :=
  ExceptT.lift (Prog.perform (S := NetSig) o)

def writePacket (packet : List UInt8) : ClientM Unit := do
  match ← ask (.write packet) with
  | .ok () => return ()
  | .error (.deadline e) => throw (.protocol "set deadline" (text e))
  | .error (.send e) => throw (.protocol "send request" (text e))

section

variable (operation : String)

/-- `readFull` into a buffer of `n` bytes, a failure wrapped by
    `protocolError(operation, err)` as every caller does. -/
def readFull (n : Nat) : ClientM (List UInt8) :=
  if n = 0 then return []
  else do
    match ← ask (.read n) with
    | .ok bytes => return bytes
    | .error e => throw (.protocol operation (text e))

def readU8 : ClientM UInt8 := do
  return u8At (← readFull operation 1) 0

def readU16 : ClientM UInt16 := do
  return u16At (← readFull operation 2) 0

def readU32 : ClientM UInt32 := do
  return u32At (← readFull operation 4) 0

def readI32 : ClientM Int32 := do
  return i32At (← readFull operation 4) 0

def readU64 : ClientM UInt64 := do
  return u64At (← readFull operation 8) 0

end

def maximumProtocolStringLength : Nat := 2 ^ 20

def maximumCollectionEntries : Nat := 5000000

def maximumRemoteFileSize : Nat := 256 * 2 ^ 20

def maximumThreadContextSize : Nat := 2 ^ 20

def maximumServerAOBPatternSize : Nat := 2 ^ 20

def readString (operation : String) (length : Int) : ClientM (List UInt8) :=
  if length < 0 ∨ maximumProtocolStringLength < length then
    throw (.protocol operation ⟨"invalid string length %d", [.int length]⟩)
  else readFull operation length.toNat

def readString16 (operation : String) : ClientM (List UInt8) := do
  let length ← readU16 operation
  readString operation length.toNat

/-- `writeString16`: the bytes appended to the packet. -/
def writeString16 (value : List UInt8) : Except ClientError (List UInt8) :=
  if 65535 < value.length then
    .error (.plain ⟨"string exceeds %d bytes", [.int 65535]⟩)
  else if (0 : UInt8) ∈ value then
    .error (.plain (text "string contains a NUL byte"))
  else .ok (u16 (UInt16.ofNat value.length) ++ value)

def checkContext : ClientM Unit := do
  match ← ask .ctxErr with
  | none => return ()
  | some e => throw (.plain (text e))

end CheatEngine.Client
