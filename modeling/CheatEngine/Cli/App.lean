/-
  CheatEngine.Cli.App

  What a command does (the `app` of internal/cli): it dials, calls methods of the
  client and reads or writes local files, and it returns data or an error.

  A command is a program over `CliSig`.  A method of the client runs on the
  connection that was dialled, with its own operations among those of the command.
-/
import CheatEngine.Client.Runs
import CheatEngine.Cli.Output
import CheatEngine.Lib.Fallible

namespace CheatEngine.Cli

open CheatEngine.Lib CheatEngine.Lib.Go
open CheatEngine.Client (Message ClientError ClientM NetOp NetSig text)

/-! ## Operations -/

/-- Why a connection was not made. -/
inductive DialError
  | canceled
  | deadlineExceeded
  | failed (message : Message)

/-- What `os.Stat` tells about a file. -/
structure FileInfo where
  isDir : Bool
  isRegular : Bool
  size : Nat

/-- Why `os.Stat` failed. -/
inductive StatError
  | notExist
  | other (message : Message)

/-- What a command does outside of itself. -/
inductive CliOp
  /-- An operation of the client's connection. -/
  | net (o : NetOp)
  /-- `application.context.Err()` -/
  | contextErr
  /-- `localbridge.NewSystemBackend` with its server behind a pipe. -/
  | newSystemBackend
  /-- `ceserver.Dial` -/
  | dial (endpoint : List UInt8) (timeout : Int)
  | stat (path : List UInt8)
  | readFile (path : List UInt8)
  | writeFile (path content : List UInt8)

/-- The signature of commands. -/
abbrev CliSig : Sig where
  Op := CliOp
  Res
    | .net o => NetSig.Res o
    | .contextErr => Option DialError
    | .newSystemBackend => Except Message Unit
    | .dial _ _ => Except DialError Unit
    | .stat _ => Except StatError FileInfo
    | .readFile _ => Except Message (List UInt8)
    | .writeFile _ _ => Except Message Unit

/-- A command: it returns a value or an error. -/
abbrev CliM (α : Type) : Type := ExceptT GoError (Prog CliSig) α

/-- Perform an operation that cannot fail by itself. -/
def perform (o : CliOp) : CliM (CliSig.Res o) := ExceptT.lift (Prog.perform (S := CliSig) o)

/-- A result that was computed. -/
def check {α : Type} : Except CommandError α → CliM α
  | .ok a => return a
  | .error e => throw (.command e)

def call {α : Type} (m : ClientM α) : CliM α :=
  ExceptT.mk do
    match ← m.run.handle fun o => Prog.perform (S := CliSig) (.net o) with
    | .ok a => return .ok a
    | .error e => return .error (.client e)

/-- `defer client.Close()` around the rest of a command. -/
def deferClose {α : Type} (body : CliM α) : CliM α :=
  ExceptT.mk do
    let result ← body.run
    let _ ← (call Client.close).run
    return result

def DialError.toGoError : DialError → GoError
  | .canceled => .canceled
  | .deadlineExceeded => .deadlineExceeded
  | .failed message => .network message

/-- The connection, to the server of this process or to another. -/
def connect (options : GlobalOptions) : CliM Unit := do
  if options.native then
    match ← perform .contextErr with
    | some e => throw e.toGoError
    | none => pure ()
    match ← perform .newSystemBackend with
    | .ok () => return ()
    | .error message => throw (.other message)
  else
    match ← perform (.dial options.endpoint options.timeout) with
    | .ok () => return ()
    | .error e => throw e.toGoError

def dial (options : GlobalOptions) : CliM Unit := do
  connect options
  if options.connectionName ≠ [] then
    ExceptT.mk do
      match ← (call (Client.setConnectionName options.connectionName)).run with
      | .ok () => return .ok ()
      | .error e =>
        let _ ← (call Client.close).run
        return .error e

def flagErrorText : FlagError → Message
  | .badSyntax argument => ⟨"bad flag syntax: %s", [.str argument]⟩
  | .notDefined name => ⟨"flag provided but not defined: -%s", [.str name]⟩
  | .help => text "flag: help requested"
  | .needsArgument name => ⟨"flag needs an argument: -%s", [.str name]⟩
  | .invalidBool value name =>
    ⟨"invalid boolean value %q for -%s: %v", [.str value, .str name, .str (ascii "parse error")]⟩
  | .invalidValue value name .invalid =>
    ⟨"invalid value %q for flag -%s: %v", [.str value, .str name, .str (ascii "parse error")]⟩
  | .invalidValue value name .outOfRange =>
    ⟨"invalid value %q for flag -%s: %v", [.str value, .str name, .str (ascii "value out of range")]⟩

/-- `parseFlags`: nothing is left behind the flags. -/
def parseFlags (env : Environment) (formal : FlagSet) (arguments : List (List UInt8)) :
    Except CommandError Flags :=
  match formal.parse env.floats.float64 arguments with
  | .error e => .error (usageError (flagErrorText e) "Run 'cecli help' for command usage.")
  | .ok flags =>
    if flags.args = [] then .ok flags
    else
      .error (usageError ⟨"unexpected arguments: %s", [.str ((ascii " ").intercalate flags.args)]⟩
        "Remove positional arguments not shown in the command usage.")

def boolFlag (name : String) : Flag := ⟨ascii name, .bool false⟩

def intFlag (name : String) (value : Int) : Flag := ⟨ascii name, .int value⟩

def uintFlag (name : String) (value : Nat) : Flag := ⟨ascii name, .uint value⟩

def stringFlag (name value : String) : Flag := ⟨ascii name, .string (ascii value)⟩

/-! ## Checks that several commands make -/

def parsePositiveInt32 (value : Int) (flagName : String) : Except CommandError Int32 :=
  if value ≤ 0 ∨ 2147483647 < value then
    .error (usageError ⟨"%s must be a positive 32-bit integer", [.str (ascii flagName)]⟩
      "Provide a PID reported by 'cecli process list'.")
  else .ok (Int32.ofInt value)

def requireYes (confirmed : Bool) (operation : String) (details : List (Name × Json Number)) :
    Except CommandError Unit :=
  if confirmed then .ok ()
  else
    .error ⟨.confirmationRequired, ⟨"%s refused without --yes", [.str (ascii operation)]⟩,
      "Inspect the command with --dry-run, then repeat with --yes only when the target and mutation are authorized.",
      2, details⟩

def operationRejected (operation : String) (details : List (Name × Json Number)) : CommandError :=
  ⟨.operationRejected, ⟨"ceserver rejected the %s", [.str (ascii operation)]⟩,
    "Verify target permissions, extension availability, path/address validity, and current server state.",
    30, details⟩

def validateRemotePath (path : List UInt8) : Except CommandError Unit :=
  if trimSpace path = [] then
    .error (missingRequired "remote path" "Provide a non-empty target path.")
  else if (0 : UInt8) ∈ path then
    .error (usageError (text "remote path contains a NUL byte") "Use a normal filesystem path.")
  else if 65535 < path.length then
    .error (usageError (text "remote path exceeds 65535 bytes") "Use a shorter target path.")
  else .ok ()

def parseHandle (value : List UInt8) : Except CommandError UInt32 :=
  if trimSpace value = [] then
    .error (missingRequired "--handle" "Provide the numeric handle returned by cecli.")
  else
    match parseUint (trimSpace value) 32 with
    | .ok parsed =>
      if parsed = 0 then
        .error (usageError (text "invalid --handle")
          "Use a positive decimal or 0x-prefixed 32-bit handle.")
      else .ok (UInt32.ofNat parsed)
    | .error _ =>
      .error (usageError (text "invalid --handle")
        "Use a positive decimal or 0x-prefixed 32-bit handle.")

/-- `memory.ParseAddress` with the suggestion of a command. -/
def parseTarget (value : List UInt8) (suggestion : String) : Except CommandError UInt64 :=
  match parseAddress value with
  | .ok address => .ok (UInt64.ofNat address)
  | .error e => .error (usageError e suggestion)

def upperHex (n : Nat) : List UInt8 :=
  (Nat.toDigits 16 n).map fun c => if c.isLower then c.toUInt8 - 32 else c.toUInt8

def hexText (n : Nat) : List UInt8 := ascii "0x" ++ upperHex n

def octalText (n : Nat) : List UInt8 :=
  let digits := (Nat.toDigits 8 n).map Char.toUInt8
  List.replicate (4 - digits.length) 48 ++ digits

def usage {α : Type} (message : Message) (suggestion : String) : CliM α :=
  throw (.command (usageError message suggestion))

/-- A command on a connection of its own. -/
def session {α : Type} (options : GlobalOptions) (body : CliM α) : CliM α := do
  dial options
  deferClose body

/-- The preview with `--dry-run`; otherwise the rest, with `--yes` only. -/
def mutation (options : GlobalOptions) (confirmed : Bool) (operation : String)
    (preview : List (Name × Json Number)) (rest : CliM CommandResult) : CliM CommandResult := do
  if options.dryRun then return { data := .object preview }
  else
    check (requireYes confirmed operation preview)
    rest

def dryRunMember (options : GlobalOptions) : Name × Json Number :=
  (ascii "dry_run", jsonBool options.dryRun)

/-- A preview after the operation was done; what is assigned later stands first. -/
def finished (added preview : List (Name × Json Number)) : CommandResult :=
  { data := .object (added ++ (ascii "dry_run", jsonBool false) :: preview) }

section Runs

variable {α β σ : Type} {H : (o : CliOp) → σ → Option (CliSig.Res o × σ)} {options : GlobalOptions}
  {s s₁ s' : σ}

@[simp] theorem check_ok (a : α) : check (.ok a) = (pure a : CliM α) := rfl

@[simp] theorem check_error (e : CommandError) : check (.error e) = (throw (.command e) : CliM α) :=
  rfl

variable {body : CliM α}

theorem gives_deferClose {r : Except GoError α} :
    Gives H (deferClose body) s r s' ↔
      ∃ s₁ closed, Gives H body s r s₁ ∧ Gives H (call Client.close) s₁ closed s' := by
  have hrun : (deferClose body).run =
      body.run >>= fun result => (call Client.close).run >>= fun _ => pure result := rfl
  rw [Gives, hrun, Prog.interp_bind, Option.bind_eq_some_iff]
  constructor
  · rintro ⟨⟨result, s₁⟩, hbody, hrest⟩
    rw [Prog.interp_bind, Option.bind_eq_some_iff] at hrest
    obtain ⟨⟨closed, s₂⟩, hclose, hrest⟩ := hrest
    obtain ⟨rfl, rfl⟩ := Prod.mk.inj (Option.some.inj hrest)
    exact ⟨s₁, closed, hbody, hclose⟩
  · rintro ⟨s₁, closed, hbody, hclose⟩
    refine ⟨(r, s₁), hbody, ?_⟩
    rw [Prog.interp_bind, Option.bind_eq_some_iff]
    exact ⟨(closed, s'), hclose, rfl⟩

/-- A command whose connection was made. -/
theorem gives_session {r : Except GoError α} (hdial : Gives H (dial options) s (.ok ()) s₁) :
    Gives H (session options body) s r s' ↔
      ∃ s₂ closed, Gives H body s₁ r s₂ ∧ Gives H (call Client.close) s₂ closed s' :=
  hdial.bind_iff.trans gives_deferClose

/-- A value of a command comes from a connection that was made. -/
theorem gives_session_ok {a : α} :
    Gives H (session options body) s (.ok a) s' ↔
      ∃ s₁ s₂ closed, Gives H (dial options) s (.ok ()) s₁ ∧ Gives H body s₁ (.ok a) s₂ ∧
        Gives H (call Client.close) s₂ closed s' := by
  rw [session, gives_bind_ok]
  constructor
  · rintro ⟨⟨⟩, s₁, hdial, hrest⟩
    obtain ⟨s₂, closed, hbody, hclose⟩ := gives_deferClose.1 hrest
    exact ⟨s₁, s₂, closed, hdial, hbody, hclose⟩
  · rintro ⟨s₁, s₂, closed, hdial, hbody, hclose⟩
    exact ⟨(), s₁, hdial, gives_deferClose.2 ⟨s₂, closed, hbody, hclose⟩⟩

end Runs

end CheatEngine.Cli
