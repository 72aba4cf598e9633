/-
  CheatEngine.Ceserver.ModulePath

  The way of a module path from the client to `dlopen`.

  The path is framed twice, from the client to ceserver and from ceserver to the
  extension, and each of the two commands has its own convention: `EXTCMD_LOADMODULE`
  carries the terminator and counts it, `EXTCMD_LOADMODULEEX` does not.  What makes the
  path of the second a C string is then the byte that happens to be behind it on the
  stack of the extension.
-/
import CheatEngine.Ceserver.Mutations

namespace CheatEngine.Ceserver

open CheatEngine.Lib CheatEngine.Client

/-- The memory from a pointer on is a C string, which is exactly the path. -/
def IsCString (mem : Nat → UInt8) (path : List UInt8) : Prop :=
  (∀ i (h : i < path.length), mem i = path.get ⟨i, h⟩) ∧ mem path.length = 0 ∧ 0 ∉ path

theorem isCString_overStack {path : List UInt8} (hnul : 0 ∉ path) (stack : Nat → UInt8) :
    IsCString (overStack stack path) path ↔ stack path.length = 0 := by
  have hbehind : overStack stack path path.length = stack path.length :=
    dif_neg (Nat.lt_irrefl _)
  constructor
  · rintro ⟨-, hzero, -⟩
    rwa [hbehind] at hzero
  · intro hzero
    exact ⟨fun i h => dif_pos h, by rw [hbehind, hzero], hnul⟩

theorem isCString_terminated {path : List UInt8} (hnul : 0 ∉ path) (pointerSize : Nat)
    (stack : Nat → UInt8) :
    IsCString (fun i =>
      if pointerSize * (path ++ [0]).length ≤ i ∧ i < pointerSize * ((path ++ [0]).length + 4) then 0
      else overStack stack (path ++ [0]) i) path := by
  have hlength : (path ++ [0]).length = path.length + 1 := List.length_append
  -- the elements that are written start behind the terminator
  have hread : ∀ i, i ≤ path.length →
      (if pointerSize * (path ++ [0]).length ≤ i ∧
          i < pointerSize * ((path ++ [0]).length + 4) then (0 : UInt8)
        else overStack stack (path ++ [0]) i) = overStack stack (path ++ [0]) i := by
    intro i hi
    apply if_neg
    rintro ⟨hlow, hhigh⟩
    cases pointerSize with
    | zero => omega
    | succ n =>
      have hge : path.length + 1 ≤ (n + 1) * (path ++ [0]).length := by
        rw [hlength]
        exact Nat.le_mul_of_pos_left _ (Nat.succ_pos n)
      omega
  refine ⟨fun i h => ?_, ?_, hnul⟩
  · have hin : i < (path ++ [0]).length := by omega
    calc _ = overStack stack (path ++ [0]) i := hread i (Nat.le_of_lt h)
      _ = (path ++ [0])[i] := dif_pos hin
      _ = path[i] := List.getElem_append_left h
  · have hin : path.length < (path ++ [0]).length := by omega
    calc _ = overStack stack (path ++ [0]) path.length := hread _ (Nat.le_refl _)
      _ = (path ++ [0])[path.length] := dif_pos hin
      _ = 0 := List.getElem_concat_length rfl hin

/-! ## What the extension does with the path -/

section Extension

variable {τ : Type} (pointerSize : Nat) (env : Env ExtApi τ) {p : Option (TargetProcess τ)}
  {q : TargetProcess τ} {received : Nat} {path : List UInt8}

/-- The extension called `dlopen` with a C string that is exactly the path, once, and
    nothing is left on its socket in either direction. -/
def PathDelivered (dlopenaddress : Option UInt64) (path : List UInt8)
    (before after : Option (TargetProcess τ)) : Prop :=
  ∃ p p' stack modulepath result, before = some p ∧ after = some p' ∧ p'.connected = true ∧
    p'.calls = p.calls ++ [⟨.stack, stack⟩, ⟨.dlopen dlopenaddress modulepath, result⟩] ∧
    IsCString modulepath path

/-- The extension gets the request, and ceserver all of the reply. -/
def Exchanged (p : Option (TargetProcess τ)) : Prop :=
  ∃ received q, GetsRequest p received q ∧ 8 ≤ received

/-- The byte behind the path on the stack of the extension is 0. -/
def StackTerminates (p : Option (TargetProcess τ)) (path : List UInt8) : Prop :=
  ∀ q, p.bind TargetProcess.withExtension = some q → (env .stack q.target).1 path.length = 0

theorem not_pathDelivered_of_calls {dlopenaddress : Option UInt64} {r : Option (TargetProcess τ)}
    (hcalls : r.map TargetProcess.calls = p.map TargetProcess.calls) :
    ¬ PathDelivered dlopenaddress path p r := by
  rintro ⟨p₀, p', stack, modulepath, result, rfl, rfl, -, hadded, -⟩
  have hsame : p'.calls = p₀.calls := Option.some.inj hcalls
  have hlength := congrArg List.length (hsame.symm.trans hadded)
  rw [List.length_append] at hlength
  have htwo : p₀.calls.length < p₀.calls.length + 2 := Nat.lt_add_of_pos_right (by decide)
  exact absurd hlength (Nat.ne_of_lt htwo)

theorem pathDelivered_served_iff {dlopenaddress : Option UInt64} (h : GetsRequest p received q)
    {p' : TargetProcess τ} {stack modulepath : Nat → UInt8} {result : UInt64}
    (hconnected : p'.connected = decide (8 ≤ received))
    (hcalls : p'.calls =
      q.calls ++ [⟨.stack, stack⟩] ++ [⟨.dlopen dlopenaddress modulepath, result⟩]) :
    PathDelivered dlopenaddress path p (some p') ↔ 8 ≤ received ∧ IsCString modulepath path := by
  obtain ⟨p₀, rfl, hq⟩ := Option.bind_eq_some_iff.mp h.1
  obtain ⟨hkept, -⟩ := withExtension_calls hq
  rw [hkept, List.append_assoc] at hcalls
  constructor
  · rintro ⟨p, p', stack', modulepath', result', hp, hp', hstep, hadded, hstring⟩
    cases hp
    cases hp'
    -- the two calls of the request are the ones that were added
    have hevents := List.append_cancel_left (hcalls.symm.trans hadded)
    have hlast := (List.cons.inj (List.cons.inj hevents).2).1
    obtain ⟨hcall, -⟩ := Sigma.mk.inj hlast
    obtain ⟨-, rfl⟩ := ExtCall.dlopen.inj hcall
    rw [hconnected] at hstep
    exact ⟨of_decide_eq_true hstep, hstring⟩
  · rintro ⟨hall, hstring⟩
    refine ⟨p₀, p', stack, modulepath, result, rfl, rfl, ?_, hcalls, hstring⟩
    rw [hconnected]
    exact decide_eq_true hall

theorem exchanged_iff (h : GetsRequest p received q) : Exchanged p ↔ 8 ≤ received := by
  constructor
  · rintro ⟨received', q', h', hall⟩
    obtain ⟨rfl, -⟩ := getsRequest_unique h h'
    exact hall
  · exact fun hall => ⟨received, q, h, hall⟩

theorem stackTerminates_iff (h : GetsRequest p received q) :
    StackTerminates env p path ↔ (env .stack q.target).1 path.length = 0 := by
  constructor
  · exact fun hstack => hstack q h.1
  · intro hzero q' hq'
    obtain rfl := Option.some.inj (h.1.symm.trans hq')
    exact hzero

theorem ext_loadModule_delivers_iff (hnul : 0 ∉ path) (hlength : path.length + 1 < 2 ^ 32) :
    PathDelivered none path p (ext_loadModule pointerSize env p path).2 ↔ Exchanged p := by
  have hne : path ++ [0] ≠ [] := List.append_ne_nil_of_right_ne_nil _ (List.cons_ne_nil _ _)
  have hcount : (path ++ [0]).length = (UInt32.ofNat (path.length + 1)).toNat := by
    rw [UInt32.toNat_ofNat_of_lt' hlength, List.length_append]
    rfl
  by_cases hget : ∃ received q, GetsRequest p received q
  · obtain ⟨received, q, hget⟩ := hget
    rw [exchanged_iff hget, ext_loadModule,
      extFunction_served hget (drive_extLoadModule hne hcount) (u64_length _)]
    exact (pathDelivered_served_iff hget rfl rfl).trans
      (and_iff_left (isCString_terminated hnul pointerSize (env .stack q.target).1))
  · have hnone : ∀ received q, ¬ GetsRequest p received q := fun received q h => hget ⟨received, q, h⟩
    obtain ⟨-, hcalls, -⟩ := extFunction_unserved pointerSize env hnone
      (3 :: (u32 (UInt32.ofNat (path.length + 1)) ++ (path ++ [0]))) 8
    exact iff_of_false (not_pathDelivered_of_calls hcalls)
      fun ⟨received, q, h, _⟩ => hnone received q h

theorem ext_loadModuleEx_delivers_iff (dlopenaddress : UInt64) (hne : path ≠ []) (hnul : 0 ∉ path)
    (hlength : path.length < 2 ^ 32) :
    PathDelivered (some dlopenaddress) path p
        (ext_loadModuleEx pointerSize env p dlopenaddress path).2 ↔
      Exchanged p ∧ StackTerminates env p path := by
  have hcount : path.length = (UInt32.ofNat path.length).toNat :=
    (UInt32.toNat_ofNat_of_lt' hlength).symm
  by_cases hget : ∃ received q, GetsRequest p received q
  · obtain ⟨received, q, hget⟩ := hget
    rw [exchanged_iff hget, stackTerminates_iff env hget, ext_loadModuleEx, if_neg hne,
      extFunction_served hget (drive_extLoadModuleEx dlopenaddress hne hcount) (u64_length _)]
    exact (pathDelivered_served_iff hget rfl rfl).trans
      (and_congr_right fun _ => isCString_overStack hnul (env .stack q.target).1)
  · have hnone : ∀ received q, ¬ GetsRequest p received q := fun received q h => hget ⟨received, q, h⟩
    obtain ⟨-, hcalls, -⟩ := extFunction_unserved pointerSize env hnone
      (6 :: (u64 dlopenaddress ++ u32 (UInt32.ofNat path.length) ++ path))
      (if path = [] then 0 else 8)
    exact iff_of_false (not_pathDelivered_of_calls hcalls)
      fun ⟨⟨received, q, h, _⟩, _⟩ => hnone received q h

end Extension

/-! ## Complete runs -/

section Run

variable {σ : Type} (o : Outcomes σ) (b : Build) (s : Connection) (a : σ)
  (log : List (Prog.Event CeApi)) (d : Bool) (ctx : List (Option String))

theorem run_onProcess_refused {α : Type} {pid : Int32} {body : UInt32 → ClientM α} {handle : UInt32}
    (hopen : (o (.openProcess pid.toUInt32) a).1 = handle) (hhandle : handle ≠ 0) {e : ClientError}
    (hbody : body handle = throw e) :
    ∃ log', Link.run (ceserver b) o.env
        (openProcess pid >>= fun handle => deferClose handle (body handle))
        (.ready s a log [] d ctx) =
      some (.error e, .ready s (o (.closeHandle handle) (o (.openProcess pid.toUInt32) a).2).2 log'
        [] d ctx) := by
  have hfails : Link.run (ceserver b) o.env (body handle)
      (.ready s (o (.openProcess pid.toUInt32) a).2
        (log ++ [⟨.openProcess pid.toUInt32, some handle⟩]) [] d ctx) =
      some (.error e, .ready s (o (.openProcess pid.toUInt32) a).2
        (log ++ [⟨.openProcess pid.toUInt32, some handle⟩]) [] d ctx) := by
    rw [hbody]
    rfl
  exact ⟨_, run_onProcess hopen hhandle hfails⟩

theorem run_loadModule (pid : Int32) (handle : UInt32)
    (hopen : (o (.openProcess pid.toUInt32) a).1 = handle) (hhandle : handle ≠ 0)
    {path : List UInt8} (hne : path ≠ []) (hnul : 0 ∉ path)
    (hmax : path.length ≤ maximumProtocolStringLength) :
    let r := o (.ext_loadModule handle path) (o (.openProcess pid.toUInt32) a).2
    ∃ e log', Link.run (ceserver b) o.env (loadModule pid path) (.ready s a log [] d ctx) =
      some (if r.1 = 0 then .error e else .ok r.1,
        .ready s (o (.closeHandle handle) r.2).2 log' [] d ctx) := by
  intro r
  have hlimit : maximumProtocolStringLength = 1048576 := rfl
  have hlength : path.length ≠ 0 := fun h => hne (List.length_eq_zero_iff.1 h)
  have hfits : WellFormed (.loadModule handle path) := ⟨hne, by omega, hnul⟩
  have hdrive : ∀ log, ∃ log', drive o.env (onLoadModule handle path).run
      ⟨[], [], (o (.openProcess pid.toUInt32) a).2, log⟩ =
      (pure (some ()), ⟨[], u64 r.1, r.2, log'⟩) := by
    intro log
    rw [onLoadModule, if_neg hlength, cString_eq hnul, drive_outcome]
    exact ⟨_, rfl⟩
  exact ⟨_, run_addressMethod hopen hhandle (.loadModule handle path) rfl hfits id rfl hdrive
    "load module" "server could not load the requested module" (if_neg (by omega))⟩

theorem run_loadModuleEx (pid : Int32) (handle : UInt32)
    (hopen : (o (.openProcess pid.toUInt32) a).1 = handle) (hhandle : handle ≠ 0)
    (dlopenAddress : UInt64) {path : List UInt8} (hne : path ≠ []) (hnul : 0 ∉ path)
    (hmax : path.length ≤ maximumProtocolStringLength) :
    let r := o (.ext_loadModuleEx handle dlopenAddress path) (o (.openProcess pid.toUInt32) a).2
    ∃ e log', Link.run (ceserver b) o.env (loadModuleEx pid dlopenAddress path)
        (.ready s a log [] d ctx) =
      some (if r.1 = 0 then .error e else .ok r.1,
        .ready s (o (.closeHandle handle) r.2).2 log' [] d ctx) := by
  intro r
  have hlimit : maximumProtocolStringLength = 1048576 := rfl
  have hlength : path.length ≠ 0 := fun h => hne (List.length_eq_zero_iff.1 h)
  have hfits : WellFormed (.loadModuleEx handle dlopenAddress path) := ⟨hne, by omega, hnul⟩
  have hdrive : ∀ log, ∃ log', drive o.env (onLoadModuleEx handle dlopenAddress path).run
      ⟨[], [], (o (.openProcess pid.toUInt32) a).2, log⟩ =
      (pure (some ()), ⟨[], u64 r.1, r.2, log'⟩) := by
    intro log
    rw [onLoadModuleEx, if_neg hlength, cString_eq hnul, drive_outcome]
    exact ⟨_, rfl⟩
  exact ⟨_, run_addressMethod hopen hhandle (.loadModuleEx handle dlopenAddress path) rfl hfits id
    rfl hdrive "load module with explicit dlopen" "server could not load the requested module"
    (if_neg (by omega))⟩

end Run

section Delivery

variable {σ τ : Type} (o : Outcomes σ) (pointerSize : Nat) (env : Env ExtApi τ) (b : Build)
  (s : Connection) (a : σ) (ps : Processes τ) (log : List (Prog.Event CeApi)) (d : Bool)
  (ctx : List (Option String)) (pid : Int32) (path : List UInt8)

/-- ceserver gives a handle of a process, the protocol can carry the path, and the exchange
    with the extension of the process is complete. -/
def ModuleServed (o : Outcomes σ) (a : σ) (ps : Processes τ) (pid : Int32) (path : List UInt8) :
    Prop :=
  let handle := (o (.openProcess pid.toUInt32) a).1
  handle ≠ 0 ∧ path.length ≤ maximumProtocolStringLength ∧ Exchanged (ps handle)

theorem loadModule_delivers_iff (hne : path ≠ []) (hnul : 0 ∉ path) :
    let handle := (o (.openProcess pid.toUInt32) a).1
    ∃ x a' ps' log', Link.run (ceserver b) (extOutcomes pointerSize env o).env
        (loadModule pid path) (.ready s (a, ps) log [] d ctx) =
      some (x, .ready s (a', ps') log' [] d ctx) ∧
      (PathDelivered none path (ps handle) (ps' handle) ↔ ModuleServed o a ps pid path) := by
  intro handle
  have hunchanged : ¬ PathDelivered none path (ps handle) (ps handle) :=
    not_pathDelivered_of_calls rfl
  have hlimit : maximumProtocolStringLength = 1048576 := rfl
  by_cases hhandle : handle = 0
  · obtain ⟨e, hrun⟩ : ∃ e, Link.run (ceserver b) (extOutcomes pointerSize env o).env
        (loadModule pid path) (.ready s (a, ps) log [] d ctx) = some (.error e, _) :=
      run_onProcess_denied hhandle
    exact ⟨_, _, _, _, hrun, iff_of_false hunchanged fun h => h.1 hhandle⟩
  by_cases hmax : path.length ≤ maximumProtocolStringLength
  · obtain ⟨e, log', hrun⟩ := run_loadModule (extOutcomes pointerSize env o) b s (a, ps) log d ctx pid
      handle rfl hhandle hne hnul hmax
    have hserved : ModuleServed o a ps pid path ↔ Exchanged (ps handle) :=
      ⟨fun h => h.2.2, fun h => ⟨hhandle, hmax, h⟩⟩
    refine ⟨_, _, _, log', hrun, ?_⟩
    rw [hserved, ← ext_loadModule_delivers_iff pointerSize env hnul (by omega)]
    show PathDelivered none path (ps handle) (Function.update ps handle _ handle) ↔ _
    rw [Function.update_self]
    exact Iff.rfl
  · -- the client does not send a path that is too long
    obtain ⟨log', hrun⟩ : ∃ log', Link.run (ceserver b) (extOutcomes pointerSize env o).env
        (loadModule pid path) (.ready s (a, ps) log [] d ctx) =
          some (.error (.plain (text "module path exceeds protocol limit")), _) :=
      run_onProcess_refused _ b s (a, ps) log d ctx rfl hhandle (if_pos (Nat.lt_of_not_le hmax))
    exact ⟨_, _, _, log', hrun, iff_of_false hunchanged fun h => hmax h.2.1⟩

theorem loadModuleEx_delivers_iff (dlopenAddress : UInt64) (hne : path ≠ []) (hnul : 0 ∉ path) :
    let handle := (o (.openProcess pid.toUInt32) a).1
    ∃ x a' ps' log', Link.run (ceserver b) (extOutcomes pointerSize env o).env
        (loadModuleEx pid dlopenAddress path) (.ready s (a, ps) log [] d ctx) =
      some (x, .ready s (a', ps') log' [] d ctx) ∧
      (PathDelivered (some dlopenAddress) path (ps handle) (ps' handle) ↔
        ModuleServed o a ps pid path ∧ StackTerminates env (ps handle) path) := by
  intro handle
  have hunchanged : ¬ PathDelivered (some dlopenAddress) path (ps handle) (ps handle) :=
    not_pathDelivered_of_calls rfl
  have hlimit : maximumProtocolStringLength = 1048576 := rfl
  by_cases hhandle : handle = 0
  · obtain ⟨e, hrun⟩ : ∃ e, Link.run (ceserver b) (extOutcomes pointerSize env o).env
        (loadModuleEx pid dlopenAddress path) (.ready s (a, ps) log [] d ctx) = some (.error e, _) :=
      run_onProcess_denied hhandle
    exact ⟨_, _, _, _, hrun, iff_of_false hunchanged fun h => h.1.1 hhandle⟩
  by_cases hmax : path.length ≤ maximumProtocolStringLength
  · obtain ⟨e, log', hrun⟩ := run_loadModuleEx (extOutcomes pointerSize env o) b s (a, ps) log d ctx
      pid handle rfl hhandle dlopenAddress hne hnul hmax
    have hserved : ModuleServed o a ps pid path ↔ Exchanged (ps handle) :=
      ⟨fun h => h.2.2, fun h => ⟨hhandle, hmax, h⟩⟩
    refine ⟨_, _, _, log', hrun, ?_⟩
    rw [hserved, ← ext_loadModuleEx_delivers_iff pointerSize env dlopenAddress hne hnul (by omega)]
    show PathDelivered (some dlopenAddress) path (ps handle) (Function.update ps handle _ handle) ↔ _
    rw [Function.update_self]
    exact Iff.rfl
  · -- nor does this method
    have hlong : path.length = 0 ∨ maximumProtocolStringLength < path.length :=
      .inr (Nat.lt_of_not_le hmax)
    obtain ⟨log', hrun⟩ : ∃ log', Link.run (ceserver b) (extOutcomes pointerSize env o).env
        (loadModuleEx pid dlopenAddress path) (.ready s (a, ps) log [] d ctx) =
          some (.error (.plain ⟨"module path must be between 1 and %d bytes",
            [.int maximumProtocolStringLength]⟩), _) :=
      run_onProcess_refused _ b s (a, ps) log d ctx rfl hhandle (if_pos hlong)
    exact ⟨_, _, _, log', hrun, iff_of_false hunchanged fun h => hmax h.1.2.1⟩

end Delivery

/-- Both methods: the client and ceserver are in step at the end, as are ceserver and the
    extension, and `dlopen` got the path, exactly when the request is served, and for
    `LoadModuleEx` when the stack of the extension happens to end the path. -/
theorem modulePath_delivered_iff {σ τ : Type} (o : Outcomes σ) (pointerSize : Nat)
    (env : Env ExtApi τ) (b : Build) (s : Connection) (a : σ) (ps : Processes τ)
    (log : List (Prog.Event CeApi)) (d : Bool) (ctx : List (Option String)) (pid : Int32)
    (dlopenAddress : UInt64) (path : List UInt8) (hne : path ≠ []) (hnul : 0 ∉ path) :
    let handle := (o (.openProcess pid.toUInt32) a).1
    (∃ x a' ps' log', Link.run (ceserver b) (extOutcomes pointerSize env o).env
          (loadModule pid path) (.ready s (a, ps) log [] d ctx) =
        some (x, .ready s (a', ps') log' [] d ctx) ∧
      (PathDelivered none path (ps handle) (ps' handle) ↔ ModuleServed o a ps pid path)) ∧
    ∃ x a' ps' log', Link.run (ceserver b) (extOutcomes pointerSize env o).env
          (loadModuleEx pid dlopenAddress path) (.ready s (a, ps) log [] d ctx) =
        some (x, .ready s (a', ps') log' [] d ctx) ∧
      (PathDelivered (some dlopenAddress) path (ps handle) (ps' handle) ↔
        ModuleServed o a ps pid path ∧ StackTerminates env (ps handle) path) := by
  intro handle
  exact ⟨loadModule_delivers_iff o pointerSize env b s a ps log d ctx pid path hne hnul,
    loadModuleEx_delivers_iff o pointerSize env b s a ps log d ctx pid path dlopenAddress hne hnul⟩

def dirtyTarget : Env ExtApi Unit
  | .stack, a => (fun _ => 0x41, a)
  | .dlopen _ _, a => (0x5000, a)
  | c, a => refusingTarget c a

theorem serving_exchanged : Exchanged (some serving) := ⟨8, serving, serving_getsRequest, by decide⟩

theorem serving_moduleServed {path : List UInt8} (hmax : path.length ≤ maximumProtocolStringLength) :
    ModuleServed openingServer () (fun _ => some serving) 1 path :=
  ⟨by decide, hmax, serving_exchanged⟩

/-- The path `m` is delivered with a stack of zeros. -/
theorem modulePath_delivered :
    (∃ x a' ps' log', Link.run (ceserver .linux64) (extOutcomes 8 refusingTarget openingServer).env
        (loadModule 1 [0x6D]) (.ready .initial ((), fun _ => some serving) [] [] false []) =
      some (x, .ready .initial (a', ps') log' [] false []) ∧
      PathDelivered none [0x6D] (some serving) (ps' 1)) ∧
    ∃ x a' ps' log', Link.run (ceserver .linux64) (extOutcomes 8 refusingTarget openingServer).env
        (loadModuleEx 1 0x5000 [0x6D]) (.ready .initial ((), fun _ => some serving) [] [] false []) =
      some (x, .ready .initial (a', ps') log' [] false []) ∧
      PathDelivered (some 0x5000) [0x6D] (some serving) (ps' 1) := by
  obtain ⟨⟨x, a', ps', log', hrun, hiff⟩, ⟨y, c', qs', log₂, hrun₂, hiff₂⟩⟩ :=
    modulePath_delivered_iff openingServer 8 refusingTarget .linux64 .initial ()
      (fun _ => some serving) [] false [] 1 0x5000 [0x6D] (by decide) (by decide)
  have hserved : ModuleServed openingServer () (fun _ => some serving) 1 [0x6D] :=
    serving_moduleServed (by decide)
  exact ⟨⟨x, a', ps', log', hrun, hiff.mpr hserved⟩,
    ⟨y, c', qs', log₂, hrun₂, hiff₂.mpr ⟨hserved, fun _ _ => rfl⟩⟩⟩

/-- On a stack that holds `A`, `dlopen` does not get the path of `LoadModuleEx`. -/
theorem modulePath_undelivered :
    ∃ x a' ps' log', Link.run (ceserver .linux64) (extOutcomes 8 dirtyTarget openingServer).env
        (loadModuleEx 1 0x5000 [0x6D]) (.ready .initial ((), fun _ => some serving) [] [] false []) =
      some (x, .ready .initial (a', ps') log' [] false []) ∧
      ¬ PathDelivered (some 0x5000) [0x6D] (some serving) (ps' 1) := by
  obtain ⟨x, a', ps', log', hrun, hiff⟩ := loadModuleEx_delivers_iff openingServer 8 dirtyTarget
    .linux64 .initial () (fun _ => some serving) [] false [] 1 [0x6D] 0x5000 (by decide)
    (by decide)
  refine ⟨x, a', ps', log', hrun, fun h => ?_⟩
  -- the byte behind the path is an `A`
  have hzero : (0x41 : UInt8) = 0 := (hiff.mp h).2 serving rfl
  exact absurd hzero (by decide)

end CheatEngine.Ceserver
