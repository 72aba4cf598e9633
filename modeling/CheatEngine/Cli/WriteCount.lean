/-
  CheatEngine.Cli.WriteCount

  What the success of `memory write` says.  The command puts the count of the server into
  its data without looking at it, so that a short count is a success as well; only
  `--verify` reads the bytes back.  `pipe write` compares the count.
-/
import CheatEngine.Cli.Execute

namespace CheatEngine.Cli

open CheatEngine.Lib CheatEngine.Lib.Go
open CheatEngine.Client (Message ClientM text)

/-! ## Exit codes of errors -/

/-- Whatever the environment does, an error of the command line itself has an exit code. -/
def Fails {α : Type} (x : CliM α) : Prop :=
  ∀ (σ : Type) (H : (o : CliOp) → σ → Option (CliSig.Res o × σ)) (s s' : σ) (e : CommandError),
    Gives H x s (.error (.command e)) s' → e.exitCode ≠ 0

namespace Fails

variable {α β : Type}

theorem pure (a : α) : Fails (Pure.pure a) := by
  intro σ H s s' e h
  cases (gives_pure.1 h).1

theorem throw {e : GoError} (he : ∀ e', e = .command e' → e'.exitCode ≠ 0) :
    Fails (MonadExcept.throw e : CliM α) := by
  intro σ H s s' e' h
  exact he e' (Except.error.inj (gives_throw.1 h).1).symm

theorem check {c : Except CommandError α} (hc : ∀ e, c = .error e → e.exitCode ≠ 0) :
    Fails (Cli.check c) := by
  cases hresult : c with
  | ok a => exact pure a
  | error e =>
    refine throw fun e' he => ?_
    obtain rfl := GoError.command.inj he
    exact hc _ hresult

theorem bind {x : CliM α} {f : α → CliM β} (hx : Fails x) (hf : ∀ a, Fails (f a)) :
    Fails (x >>= f) := by
  intro σ H s s' e h
  rcases gives_bind.1 h with ⟨e', hfirst, he⟩ | ⟨a, s₁, -, hrest⟩
  · obtain rfl := Except.error.inj he
    exact hx _ _ _ _ _ hfirst
  · exact hf a _ _ _ _ _ hrest

theorem ite {c : Prop} [Decidable c] {x y : CliM α} (hx : Fails x) (hy : Fails y) :
    Fails (if c then x else y) := by
  split
  · exact hx
  · exact hy

theorem call (m : ClientM α) : Fails (Cli.call m) := by
  intro σ H s s' e h
  change Prog.interp (S := CliSig) H (_ >>= _) s = _ at h
  rw [Prog.interp_bind, Option.bind_eq_some_iff] at h
  obtain ⟨⟨result, s₁⟩, -, hrest⟩ := h
  cases result with
  | ok a => cases (Prod.mk.inj (Option.some.inj hrest)).1
  | error e' => cases (Prod.mk.inj (Option.some.inj hrest)).1

theorem deferClose {body : CliM α} (hbody : Fails body) : Fails (Cli.deferClose body) := by
  intro σ H s s' e h
  obtain ⟨s₁, closed, hrun, -⟩ := gives_deferClose.1 h
  exact hbody _ _ _ _ _ hrun

theorem perform (o : CliOp) : Fails (Cli.perform o) := by
  intro σ H s s' e h
  have hrun : (Cli.perform o).run = Prog.perform (S := CliSig) o >>= fun r => Pure.pure (.ok r) := rfl
  rw [Gives, hrun, Prog.interp_bind, Option.bind_eq_some_iff] at h
  obtain ⟨p, -, hrest⟩ := h
  cases (Prod.mk.inj (Option.some.inj hrest)).1

theorem dialError (e : DialError) : ∀ e', e.toGoError = .command e' → e'.exitCode ≠ 0 := by
  intro e' he
  cases e <;> cases he

theorem throw_bind {e : GoError} {f : α → CliM β} (he : ∀ e', e = .command e' → e'.exitCode ≠ 0) :
    Fails ((MonadExcept.throw e : CliM α) >>= f) := by
  intro σ H s s' e' h
  rcases gives_bind.1 h with ⟨e₀, hthrow, herror⟩ | ⟨a, s₁, hthrow, -⟩
  · obtain rfl := Except.error.inj (gives_throw.1 hthrow).1
    exact he e' (Except.error.inj herror).symm
  · cases (gives_throw.1 hthrow).1

theorem connect (options : GlobalOptions) : Fails (Cli.connect options) := by
  refine ite (bind (perform _) fun refused => ?_) (bind (perform _) fun dialed => ?_)
  · cases refused with
    | some e => exact throw_bind (dialError e)
    | none =>
      refine bind (perform .newSystemBackend) fun backend => ?_
      cases backend with
      | ok _ => exact pure ()
      | error message => exact throw fun e' he => GoError.noConfusion he
  · cases dialed with
    | ok _ => exact pure ()
    | error e => exact throw (dialError e)

theorem dial (options : GlobalOptions) : Fails (Cli.dial options) := by
  refine bind (connect options) fun _ => ?_
  split
  · intro σ H s s' e h
    rw [Gives, ExceptT.run_mk, Prog.interp_bind, Option.bind_eq_some_iff] at h
    obtain ⟨⟨result, s₁⟩, hname, hrest⟩ := h
    cases result with
    | ok _ => cases (Prod.mk.inj (Option.some.inj hrest)).1
    | error e' =>
      -- the error of the first method is what is left after closing
      rw [Prog.interp_bind, Option.bind_eq_some_iff] at hrest
      obtain ⟨⟨closed, s₂⟩, -, hrest⟩ := hrest
      obtain rfl := Except.error.inj (Prod.mk.inj (Option.some.inj hrest)).1
      exact call _ _ _ _ _ _ hname
  · exact pure ()

theorem session {options : GlobalOptions} {body : CliM α} (hbody : Fails body) :
    Fails (Cli.session options body) :=
  bind (dial options) fun _ => deferClose hbody

end Fails

def UsageErrors {α : Type} (c : Except CommandError α) : Prop := ∀ e, c = .error e → e.exitCode = 2

namespace UsageErrors

variable {α β : Type}

theorem ok (a : α) : UsageErrors (.ok a) := by
  intro e h
  cases h

theorem usage (message : Message) (suggestion : String) :
    UsageErrors (.error (usageError message suggestion) : Except CommandError α) := by
  intro e h
  obtain rfl := Except.error.inj h
  rfl

theorem missing (name suggestion : String) :
    UsageErrors (.error (missingRequired name suggestion) : Except CommandError α) := by
  intro e h
  obtain rfl := Except.error.inj h
  rfl

theorem bind {c : Except CommandError α} {f : α → Except CommandError β} (hc : UsageErrors c)
    (hf : ∀ a, UsageErrors (f a)) : UsageErrors (c >>= f) := by
  cases c with
  | ok a => exact hf a
  | error e =>
    intro e' h
    obtain rfl := Except.error.inj h
    exact hc _ rfl

theorem parseFlags (env : Environment) (formal : FlagSet) (arguments : List (List UInt8)) :
    UsageErrors (Cli.parseFlags env formal arguments) := by
  rw [Cli.parseFlags]
  split
  · exact usage _ _
  · split
    · exact ok _
    · exact usage _ _

theorem pidOf (flags : Flags) : UsageErrors (Cli.pidOf flags) := by
  rw [Cli.pidOf, parsePositiveInt32]
  split
  · exact usage _ _
  · exact ok _

theorem addressOf (flags : Flags) (suggestion invalid : String) :
    UsageErrors (Cli.addressOf flags suggestion invalid) := by
  rw [Cli.addressOf]
  split
  · exact missing _ _
  · rw [parseTarget]
    split
    · exact ok _
    · exact usage _ _

theorem parseMemoryWrite (env : Environment) (arguments : List (List UInt8)) :
    UsageErrors (Cli.parseMemoryWrite env arguments) := by
  refine bind (parseFlags _ _ _) fun flags => bind (pidOf flags) fun pid =>
    bind (addressOf _ _ _) fun address => ?_
  dsimp only
  split
  · exact usage _ _
  · split
    · exact usage _ _
    · split
      · exact usage _ _
      · exact ok _

end UsageErrors

theorem fails_memoryWrite (env : Environment) (options : GlobalOptions)
    (arguments : List (List UInt8)) : Fails (memoryWrite env options arguments) := by
  have hnonzero : ∀ {e e' : CommandError} {n : Nat}, e.exitCode = n + 1 →
      GoError.command e = .command e' → e'.exitCode ≠ 0 := by
    intro e e' n hcode he
    obtain rfl := GoError.command.inj he
    exact hcode ▸ Nat.succ_ne_zero n
  refine .bind (.check fun e he => ?_) fun request => .ite (.pure _) (.ite ?_ (.session ?_))
  · exact UsageErrors.parseMemoryWrite env arguments e he ▸ Nat.succ_ne_zero 1
  · exact .throw fun e' => hnonzero rfl
  · refine .bind (.call _) fun written => .ite (.bind (.call _) fun readBack => ?_) (.pure _)
    exact .ite (.pure _) (.throw fun e' => hnonzero rfl)

/-! ## Success and the count -/

section Runs

variable {σ : Type} {H : (o : CliOp) → σ → Option (CliSig.Res o × σ)} {env : Environment}
  {arguments rest : List (List UInt8)} {options : GlobalOptions} {request : WriteRequest}
  {s s₁ s₂ s' : σ}

section

variable (H : (o : CliOp) → σ → Option (CliSig.Res o × σ))

/-- The server is asked to write, and reports a count. -/
def Reports (request : WriteRequest) (s : σ) (written : Int32) (s' : σ) : Prop :=
  Gives H (call (Client.writeMemory request.pid request.address request.encoded)) s (.ok written) s'

/-- The bytes that are read back are those that were to be written. -/
def ReadsBack (request : WriteRequest) (s s' : σ) : Prop :=
  Gives H (call (Client.readMemory request.pid request.address
    (UInt32.ofNat request.encoded.length))) s (.ok request.encoded) s'

/-- The arguments ask for a write, and the server reports that all of it was done. -/
def CompleteWrite (env : Environment)
    (options : GlobalOptions) (rest : List (List UInt8)) (s : σ) : Prop :=
  ∃ request s₁ s₂, parseMemoryWrite env rest = .ok request ∧ request.yes = true ∧
    Gives H (dial options) s (.ok ()) s₁ ∧
    Reports H request s₁ (Int32.ofNat request.encoded.length) s₂

/-- A short count that the server reports is noticed: there is none, or `--verify` was given
    and the bytes do not come back. -/
def ShortCountNoticed (env : Environment)
    (options : GlobalOptions) (rest : List (List UInt8)) (s : σ) : Prop :=
  ∀ request s₁ written s₂, parseMemoryWrite env rest = .ok request → request.yes = true →
    Gives H (dial options) s (.ok ()) s₁ → Reports H request s₁ written s₂ →
    written = Int32.ofNat request.encoded.length ∨
      (request.verify = true ∧ ∀ s₃, ¬ ReadsBack H request s₂ s₃)

end

theorem writeConfirmed_ok {result : CommandResult}
    (h : Gives H (writeConfirmed options request) s (.ok result) s') :
    (∃ written s₁, Reports H request s written s₁ ∧
      (request.verify = true → ReadsBack H request s₁ s')) ∧
    ∃ members, result = { data := .object members } ∧
      (memberNumbers members).all Number.finite = true := by
  have hpreview : (memberNumbers (writePreview options request)).all Number.finite = true := by
    rw [writePreview, finite_int_cons, memberNumbers_string_cons, finite_int_cons,
      memberNumbers_string_cons, memberNumbers_bool_cons, dryRunMember, memberNumbers_bool_cons]
    rfl
  obtain ⟨written, s₁, hwrite, hrest⟩ := gives_bind_ok.1 h
  dsimp only at hrest
  have hmembers : (memberNumbers ((ascii "dry_run", jsonBool false) ::
      (ascii "written", jsonInt written.toInt) :: writePreview options request)).all
        Number.finite = true := by
    rw [memberNumbers_bool_cons, finite_int_cons]
    exact hpreview
  split at hrest
  · obtain ⟨readBack, s₂, hread, hrest⟩ := gives_bind_ok.1 hrest
    split at hrest
    · next hequal =>
      obtain ⟨hresult, rfl⟩ := gives_pure.1 hrest
      rw [hequal] at hread
      refine ⟨⟨written, s₁, hwrite, fun _ => hread⟩, _, Except.ok.inj hresult, ?_⟩
      rw [memberNumbers_bool_cons]
      exact hmembers
    · cases (gives_throw.1 hrest).1
  · next hverify =>
    obtain ⟨hresult, rfl⟩ := gives_pure.1 hrest
    exact ⟨⟨written, s', hwrite, fun h => absurd h hverify⟩, _, Except.ok.inj hresult, hmembers⟩

theorem exists_writeConfirmed (options : GlobalOptions) {written : Int32}
    (hwrite : Reports H request s written s₁)
    (hback : request.verify = true → ReadsBack H request s₁ s₂) :
    ∃ result s', Gives H (writeConfirmed options request) s (.ok result) s' := by
  have hgives : Gives H (call (Client.writeMemory request.pid request.address request.encoded)) s
    (.ok written) s₁ := hwrite
  simp only [writeConfirmed, hgives.bind_iff]
  by_cases hverify : request.verify = true
  · have hread : Gives H (call (Client.readMemory request.pid request.address
        (UInt32.ofNat request.encoded.length))) s₁ (.ok request.encoded) s₂ := hback hverify
    simp only [if_pos hverify, hread.bind_iff, if_true]
    exact ⟨_, s₂, gives_pure.2 ⟨rfl, rfl⟩⟩
  · simp only [if_neg hverify]
    exact ⟨_, s₁, gives_pure.2 ⟨rfl, rfl⟩⟩

theorem run_memoryWrite {outcome : Outcome}
    (hparse : parseGlobalOptions env arguments =
      (options, .ok (ascii "memory" :: ascii "write" :: rest)))
    (hversion : options.version = false) (hbrief : options.brief = false)
    (hhelp : options.help = false)
    (hrun : Prog.interp H (run env arguments) s = some (outcome, s')) :
    ∃ r, Gives H (memoryWrite env options rest) s r s' ∧
      outcome = report env options (commandName (ascii "memory" :: ascii "write" :: rest)) r := by
  obtain ⟨r, hexecute, houtcome⟩ := (interp_run_iff hparse).1 hrun
  refine ⟨r, ?_, houtcome⟩
  rw [execute_memory hversion hbrief hhelp] at hexecute
  exact hexecute

theorem memoryWrite_confirmed (hdry : options.dryRun = false)
    (hrequest : parseMemoryWrite env rest = .ok request) (hyes : request.yes = true) :
    memoryWrite env options rest = session options (writeConfirmed options request) := by
  have hbody : memoryWrite env options rest =
      (if options.dryRun then return { data := .object (writePreview options request) }
      else if !request.yes then throw (.command (writeRefused (writePreview options request)))
      else session options (writeConfirmed options request)) := by
    rw [memoryWrite, hrequest]
    rfl
  rw [hbody, hdry, hyes]
  rfl

theorem memoryWrite_ok {result : CommandResult} (hdry : options.dryRun = false)
    (h : Gives H (memoryWrite env options rest) s (.ok result) s') :
    ∃ request, parseMemoryWrite env rest = .ok request ∧ request.yes = true := by
  rw [memoryWrite] at h
  obtain ⟨request, s₁, hcheck, hrest⟩ := gives_bind_ok.1 h
  refine ⟨request, ?_, ?_⟩
  · cases hparse : parseMemoryWrite env rest with
    | error e =>
      rw [hparse, check_error] at hcheck
      cases (gives_throw.1 hcheck).1
    | ok request' =>
      rw [hparse, check_ok] at hcheck
      exact congrArg Except.ok (Except.ok.inj (gives_pure.1 hcheck).1).symm
  · by_contra hyes
    rw [Bool.not_eq_true] at hyes
    rw [hdry, hyes] at hrest
    cases (gives_throw.1 hrest).1

end Runs

/-- `memory write` with a result: when exit code 0 means that the server reported all bytes. -/
theorem memoryWrite_complete {σ : Type} (H : (o : CliOp) → σ → Option (CliSig.Res o × σ))
    (env : Environment) (arguments rest : List (List UInt8)) (options : GlobalOptions)
    (outcome : Outcome) (s s' : σ)
    (hparse : parseGlobalOptions env arguments =
      (options, .ok (ascii "memory" :: ascii "write" :: rest)))
    (hversion : options.version = false) (hbrief : options.brief = false)
    (hhelp : options.help = false) (hdry : options.dryRun = false)
    (hrun : Prog.interp H (run env arguments) s = some (outcome, s')) :
    (outcome.code = 0 → CompleteWrite H env options rest s) ↔
      ShortCountNoticed H env options rest s := by
  obtain ⟨r, hgives, rfl⟩ := run_memoryWrite hparse hversion hbrief hhelp hrun
  constructor
  · intro hcomplete request s₁ written s₂ hrequest hyes hdial hwrite
    by_contra hnot
    obtain ⟨hshort, hback⟩ := not_or.1 hnot
    -- unless the bytes are read back and differ, the command returns a value
    have hread : ∃ s₃, request.verify = true → ReadsBack H request s₂ s₃ := by
      by_contra hnone
      rw [not_exists] at hnone
      exact hback ⟨(Classical.not_imp.1 (hnone s₂)).1, fun s₃ h => hnone s₃ fun _ => h⟩
    obtain ⟨s₃, hread⟩ := hread
    obtain ⟨result, s₄, hbody⟩ := exists_writeConfirmed options hwrite hread
    rw [memoryWrite_confirmed hdry hrequest hyes, gives_session hdial] at hgives
    obtain ⟨s₅, closed, hbody', -⟩ := hgives
    obtain ⟨rfl, rfl⟩ := hbody'.unique hbody
    obtain ⟨-, members, hdata, hfinite⟩ := writeConfirmed_ok hbody
    obtain ⟨output, hwritten⟩ := exists_output env options
      (commandName (ascii "memory" :: ascii "write" :: rest)) result
      (hdata ▸ rfl) hfinite (hdata ▸ rfl)
    -- and exit code 0 says that the count was right
    obtain ⟨request', s₁', s₂', hrequest', -, hdial', hwrite'⟩ :=
      hcomplete (congrArg Outcome.code (report_ok hwritten))
    obtain rfl := Except.ok.inj (hrequest.symm.trans hrequest')
    obtain rfl := (hdial.unique hdial').2
    exact hshort (Except.ok.inj (Gives.unique hwrite hwrite').1)
  · intro hnoticed hcode
    cases r with
    | error e =>
      have hfails := fails_memoryWrite env options rest
      refine absurd hcode (exitCode_ne_zero fun e' he => ?_)
      exact hfails _ _ _ _ _ (he ▸ hgives)
    | ok result =>
      obtain ⟨request, hrequest, hyes⟩ := memoryWrite_ok hdry hgives
      rw [memoryWrite_confirmed hdry hrequest hyes, gives_session_ok] at hgives
      obtain ⟨s₁, s₂, closed, hdial, hbody, -⟩ := hgives
      obtain ⟨⟨written, s₃, hwrite, hread⟩, -⟩ := writeConfirmed_ok hbody
      rcases hnoticed request s₁ written s₃ hrequest hyes hdial hwrite with rfl | ⟨hverify, hback⟩
      · exact ⟨request, s₁, s₃, hrequest, hyes, hdial, hwrite⟩
      · exact absurd (hread hverify) (hback s₂)

/-- `cecli memory write --pid 1 --address 4096 --hex 2A --yes --quiet` -/
def writeArguments : List (List UInt8) :=
  ["memory", "write", "--pid", "1", "--address", "4096", "--hex", "2A", "--yes", "--quiet"].map ascii

def quietOptions : GlobalOptions :=
  { endpoint := defaultEndpoint, timeout := 30000000000, quiet := true }

/-- What is left of the arguments for the command. -/
def writeRest : List (List UInt8) :=
  ["--pid", "1", "--address", "4096", "--hex", "2A", "--yes"].map ascii

theorem parse_writeArguments : parseGlobalOptions emptyEnvironment writeArguments =
    (quietOptions, .ok (ascii "memory" :: ascii "write" :: writeRest)) := rfl

/-- The server reports one byte. -/
theorem memoryWrite_complete_one :
    ((0 : Nat) = 0 → CompleteWrite (servedBy [] 1) emptyEnvironment quietOptions writeRest []) ↔
      ShortCountNoticed (servedBy [] 1) emptyEnvironment quietOptions writeRest [] :=
  memoryWrite_complete (servedBy [] 1) emptyEnvironment writeArguments writeRest quietOptions
    ⟨0, .nothing, none⟩ [] [] parse_writeArguments rfl rfl rfl rfl rfl

/-- The server reports that nothing was written, and the run succeeds. -/
theorem memoryWrite_complete_none :
    Prog.interp (servedBy [] 0) (run emptyEnvironment writeArguments) [] =
      some (⟨0, .nothing, none⟩, []) ∧
    ¬ CompleteWrite (servedBy [] 0) emptyEnvironment quietOptions writeRest [] := by
  refine ⟨rfl, ?_⟩
  rintro ⟨request, s₁, s₂, hrequest, -, hdial, hwrite⟩
  have hparsed : parseMemoryWrite emptyEnvironment writeRest = .ok ⟨1, 4096, [0x2A], true, false⟩ :=
    rfl
  obtain rfl := Except.ok.inj (hparsed.symm.trans hrequest)
  have hdialed : Gives (servedBy [] 0) (dial quietOptions) [] (.ok ()) [] := rfl
  obtain rfl := (hdialed.unique hdial).2
  have hcount : Reports (servedBy [] 0) ⟨1, 4096, [0x2A], true, false⟩ [] 0 [] := rfl
  cases (Gives.unique hcount hwrite).1

end CheatEngine.Cli
