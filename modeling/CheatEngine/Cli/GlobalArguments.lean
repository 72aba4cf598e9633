/-
  CheatEngine.Cli.GlobalArguments

  Global options between the arguments of a command.  `parseArguments` takes a global
  option and its value out wherever it stands, before the flags of the command are known.
-/
import CheatEngine.Cli.MemoryCommands

namespace CheatEngine.Cli

open CheatEngine.Lib CheatEngine.Lib.Go

/-- The options without a value. -/
def switchNames : List (List UInt8) :=
  ["--human", "--agent", "--pretty", "--quiet", "-q", "--dry-run", "--native", "--help", "-h",
    "--version", "-v", "--brief"].map ascii

/-- The argument is spelled like a global option. -/
def LooksGlobal (argument : List UInt8) : Prop :=
  argument ∈ switchNames ∨ ∃ o ∈ ValueOption.all, o.name = argument ∨ o.name ++ [61] <+: argument

instance (argument : List UInt8) : Decidable (LooksGlobal argument) :=
  inferInstanceAs (Decidable (_ ∨ ∃ o ∈ ValueOption.all, _))

theorem switchOption_eq_none_iff (argument : List UInt8) (options : GlobalOptions) :
    switchOption argument options = none ↔ argument ∉ switchNames := by
  simp only [switchOption, switchNames, List.map_cons, List.map_nil, List.mem_cons]
  grind

theorem inline_eq_none_iff (argument : List UInt8) :
    ValueOption.inline? argument = none ↔ ∀ o ∈ ValueOption.all, ¬ o.name ++ [61] <+: argument := by
  rw [ValueOption.inline?, Option.map_eq_none_iff, List.find?_eq_none]
  simp only [List.isPrefixOf_iff_prefix]

theorem name_eq_none_iff (argument : List UInt8) :
    (ValueOption.all.find? fun o => o.name = argument) = none ↔
      ∀ o ∈ ValueOption.all, ¬ o.name = argument := by
  rw [List.find?_eq_none]
  simp only [decide_eq_true_eq]

theorem not_looksGlobal_iff (argument : List UInt8) (options : GlobalOptions) :
    ¬ LooksGlobal argument ↔ switchOption argument options = none ∧
      ValueOption.inline? argument = none ∧
      (ValueOption.all.find? fun o => o.name = argument) = none := by
  rw [LooksGlobal, switchOption_eq_none_iff, inline_eq_none_iff, name_eq_none_iff]
  grind

/-! ## A command line -/

/-- A part of a command line: an argument of the command, or a global option. -/
inductive Part
  | command (argument : List UInt8)
  | switch (argument : List UInt8) (h : argument ∈ switchNames)
  | inline (o : ValueOption) (value : List UInt8)
  | separate (o : ValueOption) (value : List UInt8)

namespace Part

def arguments : Part → List (List UInt8)
  | command argument => [argument]
  | switch argument _ => [argument]
  | inline o value => [o.name ++ 61 :: value]
  | separate o value => [o.name, value]

def commandArguments : Part → List (List UInt8)
  | command argument => [argument]
  | switch _ _ => []
  | inline _ _ => []
  | separate _ _ => []

def apply (env : Environment) (options : GlobalOptions) : Part → Except CommandError GlobalOptions
  | command _ => .ok options
  | switch argument _ => .ok ((switchOption argument options).getD options)
  | inline o value => o.set env value options
  | separate o value => o.set env value options

end Part

section Parse

variable {env : Environment} {options options' : GlobalOptions}
  {rest remaining : List (List UInt8)} {argument value : List UInt8}

theorem inline_not_switch (o : ValueOption) (value : List UInt8) :
    o.name ++ 61 :: value ∉ switchNames := by
  have hnone : ∀ name ∈ switchNames, (61 : UInt8) ∉ name := by decide
  intro hmem
  exact hnone _ hmem (List.mem_append_right _ List.mem_cons_self)

theorem name_not_switch (o : ValueOption) : o.name ∉ switchNames := by
  cases o <;> decide

theorem inline_eq (o : ValueOption) (value : List UInt8) :
    ValueOption.inline? (o.name ++ 61 :: value) = some (o, value) := by
  cases o <;> rfl

theorem inline_name (o : ValueOption) : ValueOption.inline? o.name = none := by
  cases o <;> rfl

theorem find_name (o : ValueOption) : (ValueOption.all.find? fun o' => o'.name = o.name) = some o := by
  cases o <;> rfl

theorem parseArguments_command (h : ¬ LooksGlobal argument) :
    parseArguments env (argument :: rest) options remaining =
      parseArguments env rest options (remaining ++ [argument]) := by
  obtain ⟨hswitch, hinline, hname⟩ := (not_looksGlobal_iff argument options).1 h
  rw [parseArguments, hswitch]
  dsimp only
  rw [hinline]
  dsimp only
  rw [hname]

theorem parseArguments_part {part : Part} (h : ∀ a ∈ part.commandArguments, ¬ LooksGlobal a)
    (happly : part.apply env options = .ok options') :
    parseArguments env (part.arguments ++ rest) options remaining =
      parseArguments env rest options' (remaining ++ part.commandArguments) := by
  cases part with
  | command argument =>
    obtain rfl := Except.ok.inj happly
    exact parseArguments_command (h argument (List.mem_singleton_self _))
  | switch argument hmem =>
    have hsome : switchOption argument options ≠ none := fun hnone =>
      (switchOption_eq_none_iff argument options).1 hnone hmem
    obtain ⟨set, hset⟩ := Option.ne_none_iff_exists'.1 hsome
    rw [Part.apply, hset] at happly
    obtain rfl := Except.ok.inj happly
    show parseArguments env (argument :: rest) options remaining = _
    rw [parseArguments, hset, Part.commandArguments, List.append_nil]
    rfl
  | inline o value =>
    have hswitch := (switchOption_eq_none_iff _ options).2 (inline_not_switch o value)
    have hset : o.set env value options = .ok options' := happly
    show parseArguments env ((o.name ++ 61 :: value) :: rest) options remaining = _
    rw [parseArguments, hswitch]
    dsimp only
    rw [inline_eq]
    dsimp only
    rw [hset, Part.commandArguments, List.append_nil]
  | separate o value =>
    have hswitch := (switchOption_eq_none_iff _ options).2 (name_not_switch o)
    have hset : o.set env value options = .ok options' := happly
    show parseArguments env (o.name :: value :: rest) options remaining = _
    rw [parseArguments, hswitch]
    dsimp only
    rw [inline_name]
    dsimp only
    rw [find_name]
    dsimp only
    rw [hset, Part.commandArguments, List.append_nil]

theorem parseArguments_parts {parts : List Part}
    (h : ∀ a ∈ parts.flatMap Part.commandArguments, ¬ LooksGlobal a)
    (happly : parts.foldlM (Part.apply env) options = .ok options') :
    parseArguments env (parts.flatMap Part.arguments) options remaining =
      (options', .ok (remaining ++ parts.flatMap Part.commandArguments)) := by
  induction parts generalizing options remaining with
  | nil =>
    obtain rfl := Except.ok.inj happly
    show parseArguments env [] options remaining = (options, .ok (remaining ++ []))
    rw [List.append_nil]
    rfl
  | cons part parts ih =>
    rw [List.flatMap_cons] at h
    rw [List.foldlM_cons] at happly
    cases hpart : part.apply env options with
    | error e =>
      rw [hpart] at happly
      cases happly
    | ok set =>
      rw [hpart] at happly
      rw [List.flatMap_cons, List.flatMap_cons, ← List.append_assoc]
      rw [parseArguments_part (fun a ha => h a (List.mem_append_left _ ha)) hpart]
      exact ih (fun a ha => h a (List.mem_append_right _ ha)) happly

theorem parseArguments_remaining {arguments result : List (List UInt8)}
    (h : (parseArguments env arguments options remaining).2 = .ok result)
    (hremaining : ∀ a ∈ remaining, ¬ LooksGlobal a) : ∀ a ∈ result, ¬ LooksGlobal a := by
  fun_induction parseArguments env arguments options remaining with
  | case1 options remaining =>
    obtain rfl := Except.ok.inj h
    exact hremaining
  | case2 _ _ _ _ _ _ ih => exact ih h hremaining
  | case3 _ _ _ _ _ _ _ _ _ _ ih => exact ih h hremaining
  | case4 => cases h
  | case5 options remaining _ _ hswitch hinline hname ih =>
    refine ih h fun a ha => ?_
    rcases List.mem_append.1 ha with ha | ha
    · exact hremaining a ha
    · obtain rfl := List.mem_singleton.1 ha
      exact (not_looksGlobal_iff a _).2 ⟨hswitch, hinline, hname⟩
  | case6 => cases h
  | case7 _ _ _ _ _ _ _ _ _ _ _ ih => exact ih h hremaining
  | case8 => cases h

end Parse

section Commands

variable {env : Environment} {options options' : GlobalOptions} {parts : List Part}
  {formal : FlagSet} {path positional : List (List UInt8)} {given : List Given}

/-- The words of a command, its flags with their values, and what stands behind them. -/
def commandLine (path : List (List UInt8)) (given : List Given) (positional : List (List UInt8)) :
    List (List UInt8) :=
  path ++ (given.flatMap Given.arguments ++ positional)

/-- The global options are set, the command gets its own arguments and nothing else, and each
    of its flags has the value that was written behind it. -/
structure Delivered (env : Environment) (parts : List Part) (options' : GlobalOptions)
    (formal : FlagSet) (path : List (List UInt8)) (given : List Given)
    (positional : List (List UInt8)) : Prop where
  remaining : parseGlobalOptions env (parts.flatMap Part.arguments) =
    (options', .ok (commandLine path given positional))
  flags : formal.parse env.floats.float64 ((commandLine path given positional).drop path.length) =
    (given.foldlM (Given.assign env.floats.float64)
      ⟨formal.map fun f => (f.name, f.value), [], []⟩).map
        fun flags => { flags with args := positional }

theorem Delivered.plain (h : Delivered env parts options' formal path given positional) :
    ∀ a ∈ commandLine path given positional, ¬ LooksGlobal a := by
  have hparse := h.remaining
  rw [parseGlobalOptions] at hparse
  split at hparse
  next => cases (Prod.mk.inj hparse).2
  next options henv =>
    split at hparse
    next => cases (Prod.mk.inj hparse).2
    next options₁ result harguments =>
      split at hparse
      next => cases (Prod.mk.inj hparse).2
      next =>
        obtain rfl := Except.ok.inj (Prod.mk.inj hparse).2
        exact parseArguments_remaining (congrArg Prod.snd harguments) (by simp)

/-- For every command line with global options anywhere in it: the command gets its own
    arguments, and its flags their values, if and only if no argument of the command is
    spelled like a global option. -/
theorem command_arguments_iff (hformal : formal.Proper) (hgiven : ∀ g ∈ given, g.Fits formal)
    (hpositional : ∀ argument ∈ positional.head?, flagToken argument = .argument)
    (hcommand : parts.flatMap Part.commandArguments = commandLine path given positional)
    (henv : environmentOptions env = (options, .ok ()))
    (happly : parts.foldlM (Part.apply env) options = .ok options')
    (hcheck : checkOptions options' = .ok ()) :
    Delivered env parts options' formal path given positional ↔
      ∀ a ∈ commandLine path given positional, ¬ LooksGlobal a := by
  refine ⟨Delivered.plain, fun hplain => ⟨?_, ?_⟩⟩
  · rw [← hcommand] at hplain ⊢
    rw [parseGlobalOptions, henv]
    dsimp only
    rw [parseArguments_parts hplain happly]
    dsimp only
    rw [hcheck, List.nil_append]
  · rw [commandLine, List.drop_left]
    exact hformal.parse hgiven hpositional

end Commands

/-- `cecli memory write --pid 1 --address 4096 --type string --value text --yes` -/
def writeText (value : List UInt8) : List Given :=
  [.value (intFlag "pid" 0) (ascii "1"), .value (stringFlag "address" "") (ascii "4096"),
    .value (stringFlag "type" "u32") (ascii "string"), .value (stringFlag "value" "") value,
    .switch (boolFlag "yes")]

def writeWords : List (List UInt8) := [ascii "memory", ascii "write"]

theorem writeFlags_proper : writeFlags.Proper where
  name f hf := by
    have hall : ∀ f ∈ writeFlags, f.name ≠ [] ∧ (45 : UInt8) ∉ f.name ∧ (61 : UInt8) ∉ f.name := by
      decide
    obtain ⟨hne, hdash, heq⟩ := hall f hf
    obtain ⟨c, s, hname⟩ := List.exists_cons_of_ne_nil hne
    rw [hname, List.mem_cons, not_or] at hdash heq
    exact ⟨c, s, hname, fun h => hdash.1 h.symm, fun h => heq.1 h.symm, heq.2⟩
  nodup := by decide

theorem writeText_fits (value : List UInt8) : ∀ g ∈ writeText value, g.Fits writeFlags := by
  have hmem : intFlag "pid" 0 ∈ writeFlags ∧ stringFlag "address" "" ∈ writeFlags ∧
      stringFlag "type" "u32" ∈ writeFlags ∧ stringFlag "value" "" ∈ writeFlags ∧
      boolFlag "yes" ∈ writeFlags := by decide
  have hstring : ∀ (name value : String) (b : Bool), (stringFlag name value).value ≠ .bool b := by
    rintro name value b ⟨⟩
  simp only [writeText, List.forall_mem_cons]
  refine ⟨Given.fits_value hmem.1 ?_, Given.fits_value hmem.2.1 (hstring _ _),
    Given.fits_value hmem.2.2.1 (hstring _ _), Given.fits_value hmem.2.2.2.1 (hstring _ _),
    Given.fits_switch hmem.2.2.2.2 rfl, fun g hg => by cases hg⟩
  rintro b ⟨⟩

theorem environmentOptions_empty : environmentOptions emptyEnvironment =
    ({ endpoint := defaultEndpoint, timeout := 30000000000 }, .ok ()) := rfl

theorem pretty_switch : ascii "--pretty" ∈ switchNames := by decide

/-- The text `--yes` is written, with global options before and between the arguments. -/
theorem command_arguments_iff_yes :
    Delivered emptyEnvironment
      (.switch (ascii "--pretty") pretty_switch :: .command (ascii "memory") ::
        .separate .endpoint (ascii "--human") ::
        ((ascii "write" :: (writeText (ascii "--yes")).flatMap Given.arguments).map Part.command))
      { endpoint := ascii "--human", endpointSet := true, pretty := true, timeout := 30000000000 }
      writeFlags writeWords (writeText (ascii "--yes")) [] ↔
      ∀ a ∈ commandLine writeWords (writeText (ascii "--yes")) [], ¬ LooksGlobal a :=
  command_arguments_iff writeFlags_proper (writeText_fits _) (by simp) rfl environmentOptions_empty
    rfl rfl

/-- The text `--native` is not. -/
theorem not_command_arguments :
    ¬ ∀ (env : Environment) (parts : List Part) (options options' : GlobalOptions)
      (formal : FlagSet) (path positional : List (List UInt8)) (given : List Given),
      formal.Proper → (∀ g ∈ given, g.Fits formal) →
      (∀ argument ∈ positional.head?, flagToken argument = .argument) →
      parts.flatMap Part.commandArguments = commandLine path given positional →
      environmentOptions env = (options, .ok ()) →
      parts.foldlM (Part.apply env) options = .ok options' → checkOptions options' = .ok () →
      Delivered env parts options' formal path given positional := by
  intro hall
  have hdelivered := hall emptyEnvironment
    ((commandLine writeWords (writeText (ascii "--native")) []).map Part.command) _ _ writeFlags
    writeWords [] (writeText (ascii "--native")) writeFlags_proper (writeText_fits _) (by simp) rfl
    environmentOptions_empty rfl rfl
  have hmem : ascii "--native" ∈ commandLine writeWords (writeText (ascii "--native")) [] := by decide
  exact hdelivered.plain _ hmem (by decide)

end CheatEngine.Cli
