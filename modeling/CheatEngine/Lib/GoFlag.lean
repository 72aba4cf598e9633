/-
  CheatEngine.Lib.GoFlag

  Go's package flag, as far as a command line of subcommands uses it: a set of flags
  with their defaults, and `FlagSet.Parse` under `ContinueOnError`.

  The default of a flag fixes its type.  The text of a floating-point flag is read by
  a parameter.
-/
import Mathlib.Data.List.Nodup
import CheatEngine.Lib.GoStrconv
import CheatEngine.Lib.GoStrings

namespace CheatEngine.Lib.Go

/-- The value of a flag. A floating-point number is kept as its bits. -/
inductive FlagValue
  | bool (b : Bool)
  | int (v : Int)
  | uint (n : Nat)
  | float64 (bits : UInt64)
  | string (s : List UInt8)
  deriving DecidableEq, Repr

/-- A flag with its default. -/
structure Flag where
  name : List UInt8
  value : FlagValue
  deriving DecidableEq, Repr

abbrev FlagSet := List Flag

/-- Why the arguments were refused. -/
inductive FlagError
  | badSyntax (argument : List UInt8)
  | notDefined (name : List UInt8)
  | help
  | needsArgument (name : List UInt8)
  | invalidBool (value name : List UInt8)
  | invalidValue (value name : List UInt8) (e : NumError)

/-- The values after some arguments, the latest first, the flags that were set, and the
    arguments that are left. -/
structure Flags where
  values : List (List UInt8 × FlagValue)
  actual : List (List UInt8)
  args : List (List UInt8)

namespace Flags

section

variable (flags : Flags) (name : List UInt8)

def get : Option FlagValue := flags.values.lookup name

def bool : Bool :=
  match flags.get name with
  | some (.bool b) => b
  | _ => false

def int : Int :=
  match flags.get name with
  | some (.int v) => v
  | _ => 0

def uint : Nat :=
  match flags.get name with
  | some (.uint n) => n
  | _ => 0

def float64 : UInt64 :=
  match flags.get name with
  | some (.float64 bits) => bits
  | _ => 0

def string : List UInt8 :=
  match flags.get name with
  | some (.string s) => s
  | _ => []

/-- What `Visit` visits. -/
def wasSet : Bool := flags.actual.contains name

def assign (value : FlagValue) : Flags :=
  { flags with values := (name, value) :: flags.values, actual := name :: flags.actual }

end

end Flags

def parseBool (s : List UInt8) : Option Bool :=
  if s ∈ [ascii "1", ascii "t", ascii "T", ascii "true", ascii "TRUE", ascii "True"] then some true
  else if s ∈ [ascii "0", ascii "f", ascii "F", ascii "false", ascii "FALSE", ascii "False"] then
    some false
  else none

/-- `flag.Value.Set` of a flag that takes an argument. -/
def setValue (floats : List UInt8 → Except NumError UInt64) (old : FlagValue) (text : List UInt8) :
    Except NumError FlagValue :=
  match old with
  | .bool _ => .error .invalid
  | .int _ => FlagValue.int <$> parseInt text 64
  | .uint _ => FlagValue.uint <$> parseUint text 64
  | .float64 _ => FlagValue.float64 <$> floats text
  | .string _ => .ok (.string text)

/-- What `parseOne` sees in an argument. -/
inductive FlagToken
  /-- No flag: the arguments from here on are left. -/
  | argument
  | terminator
  | malformed
  /-- A flag, with the text behind `=`. -/
  | flag (name : List UInt8) (value : Option (List UInt8))

/-- A flag's name, and its value from the first `=` on that is not in front. -/
def splitName : List UInt8 → FlagToken
  | [] => .malformed
  | c :: s =>
    if c = 45 ∨ c = 61 then .malformed
    else
      match s.idxOf? 61 with
      | some i => .flag (c :: s.take i) (some (s.drop (i + 1)))
      | none => .flag (c :: s) none

def flagToken : List UInt8 → FlagToken
  | [] => .argument
  | [_] => .argument
  | 45 :: 45 :: [] => .terminator
  | 45 :: 45 :: name => splitName name
  | 45 :: name => splitName name
  | _ => .argument

def FlagSet.parseFrom (floats : List UInt8 → Except NumError UInt64) (formal : FlagSet) :
    List (List UInt8) → Flags → Except FlagError Flags
  | [], flags => .ok { flags with args := [] }
  | s :: rest, flags =>
    match flagToken s with
    | .argument => .ok { flags with args := s :: rest }
    | .terminator => .ok { flags with args := rest }
    | .malformed => .error (.badSyntax s)
    | .flag name value =>
      match formal.find? fun f => f.name = name with
      | none =>
        .error (if name = ascii "help" ∨ name = ascii "h" then .help else .notDefined name)
      | some ⟨_, .bool _⟩ =>
        -- a boolean flag takes no argument of its own
        match value with
        | none => FlagSet.parseFrom floats formal rest (flags.assign name (.bool true))
        | some text =>
          match parseBool text with
          | some b => FlagSet.parseFrom floats formal rest (flags.assign name (.bool b))
          | none => .error (.invalidBool text name)
      | some ⟨_, old⟩ =>
        match value with
        | some text =>
          match setValue floats old text with
          | .ok v => FlagSet.parseFrom floats formal rest (flags.assign name v)
          | .error e => .error (.invalidValue text name e)
        | none =>
          match rest with
          | [] => .error (.needsArgument name)
          | text :: rest' =>
            match setValue floats old text with
            | .ok v => FlagSet.parseFrom floats formal rest' (flags.assign name v)
            | .error e => .error (.invalidValue text name e)

def FlagSet.parse (floats : List UInt8 → Except NumError UInt64) (formal : FlagSet)
    (arguments : List (List UInt8)) : Except FlagError Flags :=
  formal.parseFrom floats arguments ⟨formal.map fun f => (f.name, f.value), [], []⟩

/-! ## What is given comes back -/

/-- Flags whose names can be given, each once. -/
structure FlagSet.Proper (formal : FlagSet) : Prop where
  name : ∀ f ∈ formal, ∃ c s, f.name = c :: s ∧ c ≠ 45 ∧ c ≠ 61 ∧ (61 : UInt8) ∉ s
  nodup : (formal.map Flag.name).Nodup

/-- A flag as it stands among the arguments. -/
inductive Given
  | switch (flag : Flag)
  | value (flag : Flag) (text : List UInt8)

namespace Given

def flag : Given → Flag
  | switch f => f
  | value f _ => f

def arguments : Given → List (List UInt8)
  | switch f => [45 :: 45 :: f.name]
  | value f text => [45 :: 45 :: f.name, text]

/-- Only a boolean flag stands alone. -/
structure Fits (formal : FlagSet) (g : Given) : Prop where
  mem : g.flag ∈ formal
  bool_iff : (∃ b, g.flag.value = .bool b) ↔ g = .switch g.flag

theorem fits_switch {formal : FlagSet} {f : Flag} {b : Bool} (hf : f ∈ formal)
    (hb : f.value = .bool b) : (Given.switch f).Fits formal :=
  ⟨hf, fun _ => rfl, fun _ => ⟨b, hb⟩⟩

theorem fits_value {formal : FlagSet} {f : Flag} {text : List UInt8} (hf : f ∈ formal)
    (hvalue : ∀ b, f.value ≠ .bool b) : (Given.value f text).Fits formal := by
  refine ⟨hf, ?_, ?_⟩
  · rintro ⟨b, hb⟩
    exact absurd hb (hvalue b)
  · rintro ⟨⟩

def assign (floats : List UInt8 → Except NumError UInt64) (flags : Flags) :
    Given → Except FlagError Flags
  | switch f => .ok (flags.assign f.name (.bool true))
  | value f text =>
    match setValue floats f.value text with
    | .ok v => .ok (flags.assign f.name v)
    | .error e => .error (.invalidValue text f.name e)

end Given

section Parse

variable {floats : List UInt8 → Except NumError UInt64} {formal : FlagSet}

theorem FlagSet.Proper.find (h : formal.Proper) {f : Flag} (hf : f ∈ formal) :
    formal.find? (fun g => g.name = f.name) = some f := by
  have hsome : (formal.find? fun g => g.name = f.name).isSome :=
    List.find?_isSome.2 ⟨f, hf, decide_eq_true rfl⟩
  obtain ⟨g, hg⟩ := Option.isSome_iff_exists.1 hsome
  have hname : g.name = f.name := by simpa using List.find?_some hg
  rw [hg, List.inj_on_of_nodup_map h.nodup (List.mem_of_find?_eq_some hg) hf hname]

theorem flagToken_long (c : UInt8) (s : List UInt8) :
    flagToken (45 :: 45 :: c :: s) = splitName (c :: s) := rfl

theorem FlagSet.Proper.token (h : formal.Proper) {f : Flag} (hf : f ∈ formal) :
    flagToken (45 :: 45 :: f.name) = .flag f.name none := by
  obtain ⟨c, s, hname, hdash, heq, hs⟩ := h.name f hf
  have hnone : s.idxOf? 61 = none := List.idxOf?_eq_none_iff.2 hs
  have hbad : ¬ (c = 45 ∨ c = 61) := by
    rintro (hc | hc)
    · exact hdash hc
    · exact heq hc
  rw [hname, flagToken_long, splitName, if_neg hbad, hnone]

theorem parseFrom_given (h : formal.Proper) {g : Given} (hg : g.Fits formal)
    (rest : List (List UInt8)) (flags : Flags) :
    formal.parseFrom floats (g.arguments ++ rest) flags =
      (g.assign floats flags).bind (formal.parseFrom floats rest) := by
  cases g with
  | switch f =>
    obtain ⟨name, value⟩ := f
    obtain ⟨b, rfl : value = .bool b⟩ := hg.bool_iff.2 rfl
    have htoken : flagToken (45 :: 45 :: name) = .flag name none := h.token hg.mem
    have hfind : formal.find? (fun f => f.name = name) = some ⟨name, .bool b⟩ := h.find hg.mem
    show formal.parseFrom floats ((45 :: 45 :: name) :: rest) flags = _
    rw [FlagSet.parseFrom, htoken]
    dsimp only
    rw [hfind]
    rfl
  | value f text =>
    obtain ⟨name, value⟩ := f
    have hvalue : ∀ b, value ≠ .bool b := fun b hb => by cases hg.bool_iff.1 ⟨b, hb⟩
    have htoken : flagToken (45 :: 45 :: name) = .flag name none := h.token hg.mem
    have hfind : formal.find? (fun f => f.name = name) = some ⟨name, value⟩ := h.find hg.mem
    show formal.parseFrom floats ((45 :: 45 :: name) :: text :: rest) flags = _
    rw [FlagSet.parseFrom, htoken]
    dsimp only
    rw [hfind, Given.assign]
    cases value with
    | bool b => exact absurd rfl (hvalue b)
    | int v =>
      dsimp only
      cases setValue floats (.int v) text <;> rfl
    | uint n =>
      dsimp only
      cases setValue floats (.uint n) text <;> rfl
    | float64 bits =>
      dsimp only
      cases setValue floats (.float64 bits) text <;> rfl
    | string s =>
      dsimp only
      cases setValue floats (.string s) text <;> rfl

theorem parseFrom_allGiven (h : formal.Proper) {given : List Given} (hg : ∀ g ∈ given, g.Fits formal)
    {positional : List (List UInt8)}
    (hp : ∀ argument ∈ positional.head?, flagToken argument = .argument) (flags : Flags) :
    formal.parseFrom floats (given.flatMap Given.arguments ++ positional) flags =
      (given.foldlM (Given.assign floats) flags).map fun flags => { flags with args := positional } := by
  induction given generalizing flags with
  | nil =>
    cases positional with
    | nil => rfl
    | cons argument rest =>
      show formal.parseFrom floats (argument :: rest) flags = _
      rw [FlagSet.parseFrom, hp argument rfl]
      rfl
  | cons g given ih =>
    have hrest : ∀ g ∈ given, g.Fits formal := fun g' hg' => hg g' (List.mem_cons_of_mem _ hg')
    rw [List.flatMap_cons, List.append_assoc, parseFrom_given h (hg g List.mem_cons_self),
      List.foldlM_cons]
    cases hassign : g.assign floats flags with
    | error e => rfl
    | ok flags' => exact ih hrest flags'

theorem FlagSet.Proper.parse (h : formal.Proper) {given : List Given}
    (hg : ∀ g ∈ given, g.Fits formal) {positional : List (List UInt8)}
    (hp : ∀ argument ∈ positional.head?, flagToken argument = .argument) :
    formal.parse floats (given.flatMap Given.arguments ++ positional) =
      (given.foldlM (Given.assign floats) ⟨formal.map fun f => (f.name, f.value), [], []⟩).map
        fun flags => { flags with args := positional } :=
  parseFrom_allGiven h hg hp _

end Parse

end CheatEngine.Lib.Go
