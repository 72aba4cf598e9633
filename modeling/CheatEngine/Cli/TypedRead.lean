/-
  CheatEngine.Cli.TypedRead

  `memory read --format typed` in JSON mode.  The value that `Decode` returns goes into
  the data as it is, and the encoder has no text for an infinity and for NaN: a read
  whose bytes are one of these fails after the bytes have come.
-/
import CheatEngine.Cli.Execute

namespace CheatEngine.Cli

open CheatEngine.Lib CheatEngine.Lib.Go
open CheatEngine.Client (Message text)

namespace ValueType

/-- The size requirement of a type. -/
def Accepts (ty : ValueType) (data : List UInt8) : Prop :=
  match ty with
  | .u8 | .i8 => 1 ≤ data.length
  | .u16 | .i16 => 2 ≤ data.length
  | .u32 | .i32 | .f32 => 4 ≤ data.length
  | .u64 | .i64 | .f64 => 8 ≤ data.length
  | .utf16le => data.length % 2 = 0
  | .utf8 | .hex => True

/-- The bytes are no infinity and no NaN of the type: the exponent has a bit that is not
    set. -/
def Printable (ty : ValueType) (data : List UInt8) : Prop :=
  match ty with
  | .f32 => (u32At data 0).toNat / 2 ^ 23 % 2 ^ 8 ≠ 2 ^ 8 - 1
  | .f64 => (u64At data 0).toNat / 2 ^ 52 % 2 ^ 11 ≠ 2 ^ 11 - 1
  | _ => True

end ValueType

/-- A value has a text in JSON. -/
def Value.finite : Value → Bool
  | .float32 bits => (Number.float32 bits).finite
  | .float64 bits => (Number.float64 bits).finite
  | _ => true

theorem numbers_toJson (v : Value) : v.toJson.numbers.all Number.finite = v.finite := by
  cases v with
  | int v => exact finite_jsonInt v
  | float32 bits => exact Bool.and_true _
  | float64 bits => exact Bool.and_true _
  | string s => rfl

theorem magnitude_isSome (F : FloatFormat) (exponentBits bits : ℕ) :
    (F.magnitude exponentBits bits).isSome = true ↔
      bits / 2 ^ F.fractionBits % 2 ^ exponentBits ≠ 2 ^ exponentBits - 1 := by
  rw [FloatFormat.magnitude]
  split
  · next h => simp [h]
  · next h => split <;> simp [h]

theorem decode_accepts {ty : ValueType} {t data : List UInt8}
    (htype : typeNamed (toLower (trimSpace t)) = some ty) (hsize : ty.Accepts data) :
    ∃ v, decode t data = .ok v ∧ (v.finite = true ↔ ty.Printable data) := by
  have hint : ∀ k : IntKind, k.bytes ≤ data.length →
      ∃ v, IntKind.decode k data = .ok v ∧ (v.finite = true ↔ True) := by
    intro k hk
    refine ⟨.int (k.ofNat (leNat (data.take k.bytes))), ?_, iff_of_true rfl trivial⟩
    rw [IntKind.decode, requireSize, if_neg (Nat.not_lt.2 hk)]
    rfl
  rw [decode, htype]
  cases ty with
  | u8 => exact hint ⟨false, 1⟩ hsize
  | i8 => exact hint ⟨true, 1⟩ hsize
  | u16 => exact hint ⟨false, 2⟩ hsize
  | i16 => exact hint ⟨true, 2⟩ hsize
  | u32 => exact hint ⟨false, 4⟩ hsize
  | i32 => exact hint ⟨true, 4⟩ hsize
  | u64 => exact hint ⟨false, 8⟩ hsize
  | i64 => exact hint ⟨true, 8⟩ hsize
  | f32 =>
    refine ⟨.float32 (u32At data 0), ?_, magnitude_isSome binary32 8 _⟩
    have hrequire : requireSize data 4 = .ok () := if_neg (Nat.not_lt.2 hsize)
    show (requireSize data 4 >>= fun _ => pure (Value.float32 (u32At data 0))) = _
    rw [hrequire]
    rfl
  | f64 =>
    refine ⟨.float64 (u64At data 0), ?_, magnitude_isSome binary64 11 _⟩
    have hrequire : requireSize data 8 = .ok () := if_neg (Nat.not_lt.2 hsize)
    show (requireSize data 8 >>= fun _ => pure (Value.float64 (u64At data 0))) = _
    rw [hrequire]
    rfl
  | utf8 => exact ⟨.string data, rfl, iff_of_true rfl trivial⟩
  | utf16le =>
    have heven : ¬ data.length % 2 ≠ 0 := not_not.2 hsize
    exact ⟨_, if_neg heven, iff_of_true rfl trivial⟩
  | hex => exact ⟨_, rfl, iff_of_true rfl trivial⟩

/-! ## The result -/

theorem finite_readMembers (request : ReadRequest) (data : List UInt8) :
    (memberNumbers (readMembers request data)).all Number.finite = true := by
  rw [readMembers, finite_int_cons, memberNumbers_string_cons, finite_int_cons, finite_int_cons,
    memberNumbers_string_cons]
  rfl

theorem readResult_typed (request : ReadRequest) (ty : ValueType) (data : List UInt8)
    (hformat : request.format = ascii "typed")
    (htype : typeNamed (toLower (trimSpace request.type)) = some ty) (hsize : ty.Accepts data) :
    ∃ members, readResult request data = .ok { data := .object members } ∧
      ((memberNumbers members).all Number.finite = true ↔ ty.Printable data) := by
  obtain ⟨v, hdecode, hfinite⟩ := decode_accepts htype hsize
  refine ⟨readMembers request data ++
    [(ascii "type", jsonString (toLower request.type)), (ascii "data", v.toJson)], ?_, ?_⟩
  · have hhex : ¬ ascii "typed" = ascii "hex" := by decide
    have hbase64 : ¬ ascii "typed" = ascii "base64" := by decide
    rw [readResult, hformat, if_neg hhex, if_neg hbase64, hdecode]
  · rw [memberNumbers_append, List.all_append, finite_readMembers, Bool.true_and, ← hfinite,
      ← numbers_toJson]
    show ([] ++ (v.toJson.numbers ++ [])).all Number.finite = true ↔ _
    rw [List.nil_append, List.append_nil]

/-- Options under which a command writes a JSON document. -/
structure JsonMode (options : GlobalOptions) : Prop where
  quiet : options.quiet = false
  human : options.human = false
  version : options.version = false
  brief : options.brief = false
  help : options.help = false

section Runs

variable {σ : Type} {H : (o : CliOp) → σ → Option (CliSig.Res o × σ)} {env : Environment}
  {arguments rest : List (List UInt8)} {options : GlobalOptions} {request : ReadRequest}
  {data : List UInt8} {s s₁ s₂ s₃ : σ} {closed : Except GoError Unit}

theorem run_memoryRead
    (hparse : parseGlobalOptions env arguments =
      (options, .ok (ascii "memory" :: ascii "read" :: rest)))
    (hmode : JsonMode options) (hrequest : parseMemoryRead env rest = .ok request)
    (hdial : Gives H (dial options) s (.ok ()) s₁)
    (hread : Gives H (call (Client.readMemory request.pid request.address request.size)) s₁
      (.ok data) s₂)
    (hclose : Gives H (call Client.close) s₂ closed s₃) :
    ∃ command, Prog.interp H (run env arguments) s =
      some (report env options command ((readResult request data).mapError .command), s₃) := by
  refine ⟨commandName (ascii "memory" :: ascii "read" :: rest), ?_⟩
  rw [interp_run_iff hparse]
  refine ⟨_, ?_, rfl⟩
  have hexecute : execute env options (ascii "memory" :: ascii "read" :: rest) =
      memoryRead env options rest := by
    rw [execute_memory hmode.version hmode.brief hmode.help]
    rfl
  have hbody : Gives H (check (readResult request data)) s₂
      ((readResult request data).mapError .command) s₂ := by
    cases readResult request data <;> rfl
  rw [hexecute, memoryRead, hrequest]
  exact (gives_session hdial).2 ⟨s₂, closed, hread.bind_iff.2 hbody, hclose⟩

end Runs

/-- A typed read of bytes that meet the size requirement of the type ends with one JSON
    document and exit code 0 just when the bytes are no infinity and no NaN. -/
theorem typedReads {σ : Type} (H : (o : CliOp) → σ → Option (CliSig.Res o × σ))
    (env : Environment) (arguments rest : List (List UInt8)) (options : GlobalOptions)
    (request : ReadRequest) (ty : ValueType) (data : List UInt8) (s s₁ s₂ s₃ : σ)
    (closed : Except GoError Unit)
    (hparse : parseGlobalOptions env arguments =
      (options, .ok (ascii "memory" :: ascii "read" :: rest)))
    (hmode : JsonMode options) (hrequest : parseMemoryRead env rest = .ok request)
    (hformat : request.format = ascii "typed")
    (htype : typeNamed (toLower (trimSpace request.type)) = some ty) (hsize : ty.Accepts data)
    (hdial : Gives H (dial options) s (.ok ()) s₁)
    (hread : Gives H (call (Client.readMemory request.pid request.address request.size)) s₁
      (.ok data) s₂)
    (hclose : Gives H (call Client.close) s₂ closed s₃) :
    (∃ document, Prog.interp H (run env arguments) s =
      some (⟨0, .document document, none⟩, s₃)) ↔ ty.Printable data := by
  obtain ⟨command, hrun⟩ := run_memoryRead hparse hmode hrequest hdial hread hclose
  obtain ⟨members, hresult, hfinite⟩ := readResult_typed request ty data hformat htype hsize
  have hok : (Except.ok { data := .object members } : Except CommandError CommandResult).mapError
      GoError.command = .ok { data := .object members } := rfl
  rw [hrun, hresult, hok]
  constructor
  · rintro ⟨document, hdocument⟩
    rw [← hfinite]
    by_contra hnot
    rw [Bool.not_eq_true] at hnot
    -- the encoder refuses the data, and the report is an error
    obtain ⟨message, hwrite⟩ := writeSuccess_not_finite env options command
      { data := .object members } hmode.quiet hmode.human hnot
    rw [report_error hwrite] at hdocument
    cases (Prod.mk.inj (Option.some.inj hdocument)).1
  · intro hprintable
    obtain ⟨output, hwrite⟩ := exists_output env options command
      { data := .object members } rfl (hfinite.2 hprintable) rfl
    -- neither quiet nor for a human reader, the output is a document
    have hdocument : ∃ document, output = .document document := by
      rw [writeSuccess, hmode.quiet, hmode.human] at hwrite
      simp only [Bool.false_eq_true, if_false] at hwrite
      split at hwrite
      · cases hwrite
      · split at hwrite
        · cases hwrite
        · exact ⟨_, (Except.ok.inj hwrite).symm⟩
    obtain ⟨document, rfl⟩ := hdocument
    exact ⟨document, by rw [report_ok hwrite]⟩

/-- `cecli memory read --pid 1 --address 4096 --format typed --type f32` -/
def typedArguments : List (List UInt8) :=
  ["memory", "read", "--pid", "1", "--address", "4096", "--format", "typed", "--type", "f32"].map ascii

def typedOptions : GlobalOptions := { endpoint := defaultEndpoint, timeout := 30000000000 }

def typedRequest : ReadRequest := ⟨1, 4096, 4, ascii "typed", ascii "f32"⟩

theorem parse_typedArguments : parseGlobalOptions emptyEnvironment typedArguments =
    (typedOptions, .ok (ascii "memory" :: ascii "read" :: typedArguments.drop 2)) := rfl

theorem parseMemoryRead_typedArguments :
    parseMemoryRead emptyEnvironment (typedArguments.drop 2) = .ok typedRequest := rfl

theorem jsonMode_typedOptions : JsonMode typedOptions := ⟨rfl, rfl, rfl, rfl, rfl⟩

/-- The number 1. -/
theorem typedReads_one :
    (∃ document, Prog.interp (servedBy [0, 0, 0x80, 0x3F] 0) (run emptyEnvironment typedArguments) [] =
      some (⟨0, .document document, none⟩, [])) ↔ ValueType.f32.Printable [0, 0, 0x80, 0x3F] :=
  typedReads (servedBy [0, 0, 0x80, 0x3F] 0) emptyEnvironment typedArguments
    (typedArguments.drop 2) typedOptions typedRequest .f32 [0, 0, 0x80, 0x3F] [] [] [] [] (.ok ())
    parse_typedArguments jsonMode_typedOptions parseMemoryRead_typedArguments rfl rfl
    (Nat.le_refl 4) rfl rfl rfl

/-- NaN: the run fails, and nothing goes to standard output. -/
theorem typedReads_nan :
    ¬ ∃ document, Prog.interp (servedBy [0, 0, 0xC0, 0x7F] 0)
      (run emptyEnvironment typedArguments) [] = some (⟨0, .document document, none⟩, []) := by
  rintro ⟨document, hdocument⟩
  have hdial : Gives (servedBy [0, 0, 0xC0, 0x7F] 0) (dial typedOptions) [] (.ok ()) [] := rfl
  have hread : Gives (servedBy [0, 0, 0xC0, 0x7F] 0) (call (Client.readMemory typedRequest.pid
      typedRequest.address typedRequest.size)) [] (.ok [0, 0, 0xC0, 0x7F]) [] := rfl
  have hclose : Gives (servedBy [0, 0, 0xC0, 0x7F] 0) (call Client.close) [] (.ok ()) [] := rfl
  obtain ⟨command, hrun⟩ := run_memoryRead parse_typedArguments jsonMode_typedOptions
    parseMemoryRead_typedArguments hdial hread hclose
  obtain ⟨members, hresult, hfinite⟩ := readResult_typed typedRequest .f32
    [0, 0, 0xC0, 0x7F] rfl rfl (Nat.le_refl 4)
  have hnot : (memberNumbers members).all Number.finite = false := by
    rw [← Bool.not_eq_true, hfinite]
    exact fun h => h rfl
  obtain ⟨message, hwrite⟩ := writeSuccess_not_finite emptyEnvironment typedOptions
    command { data := .object members } rfl rfl hnot
  rw [hrun, hresult] at hdocument
  have hreport := (Prod.mk.inj (Option.some.inj hdocument)).1
  rw [show (Except.ok { data := .object members } : Except CommandError CommandResult).mapError
    GoError.command = .ok { data := .object members } from rfl, report_error hwrite] at hreport
  cases hreport

end CheatEngine.Cli
