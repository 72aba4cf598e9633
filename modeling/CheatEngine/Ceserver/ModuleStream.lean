/-
  CheatEngine.Ceserver.ModuleStream

  The module list of a process on its way from ceserver to the client.  The
  server stages its variable-length records in a buffer of 65536 bytes; the
  client reads a header of fixed size and then a name, again and again.

  What the client returns is the list itself, so where the buffer was flushed
  does not show.
-/
import CheatEngine.Ceserver.Framing

namespace CheatEngine.Ceserver

open CheatEngine.Lib CheatEngine.Client

def ModuleListEntry.toClient (me : ModuleListEntry) : Client.Module :=
  ⟨me.baseAddress, me.moduleSize.toUInt32, me.fileOffset, me.part, me.moduleName.bytes⟩

section Reading

variable {σ : Type} (svc : Service CeApi Connection) (env : Env CeApi σ)

theorem yields_listModulesLoop_record (me : ModuleListEntry) {fuel : Nat} {found : List Client.Module}
    {rest : List UInt8} {x : List Client.Module}
    (hrest : Client.Yields svc env rest (listModulesLoop fuel (found ++ [me.toClient])) x) :
    Client.Yields svc env (me.encode ++ rest) (listModulesLoop (fuel + 1) found) x := by
  have hname := me.moduleName.length_le
  have hmax : maximumProtocolStringLength = 1048576 := rfl
  have hint : (Int32.ofNat me.moduleName.bytes.length).toInt = me.moduleName.bytes.length :=
    Int32.toInt_ofNat_of_lt (by omega)
  have hsplit : me.encode ++ rest =
      (i32 1 ++ (u64 me.baseAddress ++ (i32 me.part ++ (i32 me.moduleSize ++ (u32 me.fileOffset ++
        i32 (Int32.ofNat me.moduleName.bytes.length)))))) ++ (me.moduleName.bytes ++ rest) := by
    simp [ModuleListEntry.encode]
  rw [hsplit]
  refine Client.Yields.bind (yields_readFull _ (by simp)) ?_
  -- the header is read back field by field
  simp only [i32At_i32, i32At_skip_i32, i32At_skip_u64, i32At_skip_u32, i32At_i32_last,
    u64At_skip_i32, u64At_u64, u32At_skip_i32, u32At_skip_u64, u32At_i32, u32At_u32]
  rw [if_neg (by decide)]
  exact Client.Yields.bind (yields_readString _ hint (by omega)) hrest

theorem yields_listModulesLoop_end {garbage : List UInt8} (hgarbage : garbage.length = 20)
    (fuel : Nat) (found : List Client.Module) :
    Client.Yields svc env (endOfModules garbage) (listModulesLoop (fuel + 1) found) found := by
  have hlen : (endOfModules garbage).length = 28 := by simp [endOfModules, hgarbage]
  have hzero : i32At (endOfModules garbage) 0 = 0 := by simp [endOfModules]
  have hread : Client.Yields svc env (endOfModules garbage ++ []) (listModulesLoop (fuel + 1) found) found := by
    refine Client.Yields.bind (yields_readFull (endOfModules garbage) hlen) ?_
    rw [if_pos hzero]
    exact Client.Yields.pure _
  rwa [List.append_nil] at hread

theorem yields_listModulesLoop (modules : List ModuleListEntry) {fuel : Nat}
    {found x : List Client.Module} {rest : List UInt8}
    (hrest : Client.Yields svc env rest (listModulesLoop fuel (found ++ modules.map ModuleListEntry.toClient)) x) :
    Client.Yields svc env ((modules.map ModuleListEntry.encode).flatten ++ rest)
      (listModulesLoop (modules.length + fuel) found) x := by
  induction modules generalizing found with
  | nil => simpa using hrest
  | cons me modules ih =>
    rw [List.map_cons, List.flatten_cons, List.append_assoc, List.length_cons, Nat.succ_add]
    apply yields_listModulesLoop_record
    apply ih
    simpa using hrest

end Reading

section Stream

variable {σ : Type} (o : Outcomes σ)

/-- The handle of the snapshot that `CMD_CREATETOOLHELP32SNAPSHOTEX` takes. -/
def snapshotHandle (pid : Int32) (a : σ) : UInt32 :=
  (o (.createToolhelp32Snapshot toolhelpSnapshotModule pid.toUInt32) a).1

/-- The modules of that snapshot; none when it could not be taken. -/
def snapshotModules (pid : Int32) (a : σ) : List ModuleListEntry :=
  if snapshotHandle o pid a = 0 then []
  else (o (.moduleList (snapshotHandle o pid a))
    (o (.createToolhelp32Snapshot toolhelpSnapshotModule pid.toUInt32) a).2).1

theorem drive_onCreateToolhelp32SnapshotEx (pid : Int32) (a : σ) (log : List (Prog.Event CeApi)) :
    ∃ garbage a' log', garbage.length = 20 ∧
      drive o.env (onCreateToolhelp32SnapshotEx toolhelpSnapshotModule pid.toUInt32).run
        ⟨[], [], a, log⟩ =
      (pure (some ()), ⟨[], ((snapshotModules o pid a).map ModuleListEntry.encode).flatten ++
        endOfModules garbage, a', log'⟩) := by
  have hthread : ¬ toolhelpSnapshotModule &&& snapThread = snapThread := by decide
  have hmodule : toolhelpSnapshotModule &&& snapModule = snapModule := by decide
  have hhandle : (o (.createToolhelp32Snapshot toolhelpSnapshotModule pid.toUInt32) a).1 =
      snapshotHandle o pid a := rfl
  rw [onCreateToolhelp32SnapshotEx, drive_outcome, if_neg hthread, if_pos hmodule, hhandle]
  by_cases hr : snapshotHandle o pid a = 0
  · rw [if_neg (not_not.2 hr), snapshotModules, if_pos hr, drive_outcome]
    exact ⟨_, _, _, (o (.uninitialized 20) _).1.property, rfl⟩
  · rw [if_pos hr, snapshotModules, if_neg hr, drive_outcome]
    obtain ⟨x, sent, a', events, hdrive, rfl, rfl⟩ := answers_sendModules (o := o)
      (o (.moduleList (snapshotHandle o pid a)) _).1 [] [] [] _ _
    rw [drive_run_bind o.env hdrive, drive_outcome]
    exact ⟨_, _, _, (o (.uninitialized 20) _).1.property, rfl⟩

/-- `ListModules` returns the modules of the snapshot in order, with no more than
    the client's limit; below the limit it leaves nothing in the stream. -/
theorem listModules_stream (b : Build) (pid : Int32) (s : Connection) (a : σ)
    (log : List (Prog.Event CeApi)) (d : Bool) (ctx : List (Option String)) :
    ∃ a' log' out, Link.run (ceserver b) o.env (listModules pid) (.ready s a log [] d ctx) =
        some (.ok (((snapshotModules o pid a).map ModuleListEntry.toClient).take
          maximumCollectionEntries), .ready s a' log' out d ctx) ∧
      ((snapshotModules o pid a).length < maximumCollectionEntries → out = []) := by
  obtain ⟨garbage, a', log', hgarbage, hdrive⟩ := drive_onCreateToolhelp32SnapshotEx o pid a log
  have hpacket : commandCreateToolhelp32SnapshotEx :: (u32 toolhelpSnapshotModule ++
      u32 pid.toUInt32) = Request.packet (.createSnapshotEx toolhelpSnapshotModule pid.toUInt32) := rfl
  rw [listModules, run_request (b := b) _ hpacket trivial id rfl hdrive]
  generalize snapshotModules o pid a = modules
  by_cases hlen : modules.length < maximumCollectionEntries
  · -- the whole list is read, and then its end
    obtain ⟨fuel, hfuel⟩ : ∃ fuel, maximumCollectionEntries = modules.length + (fuel + 1) :=
      ⟨maximumCollectionEntries - modules.length - 1, by omega⟩
    have hread := yields_listModulesLoop (ceserver b) o.env modules
      (yields_listModulesLoop_end (ceserver b) o.env hgarbage fuel
        ([] ++ modules.map ModuleListEntry.toClient)) s a' log' [] d ctx
    rw [List.append_nil, ← hfuel] at hread
    refine ⟨a', log', [], ?_, fun _ => rfl⟩
    rw [hread, List.nil_append, List.take_of_length_le (by rw [List.length_map]; omega)]
  · -- the limit is reached first: the rest stays in the stream
    have hsplit := List.take_append_drop maximumCollectionEntries modules
    have hfront : (modules.take maximumCollectionEntries).length = maximumCollectionEntries :=
      List.length_take_of_le (by omega)
    have hrest : Client.Yields (ceserver b) o.env [] (listModulesLoop 0
        ([] ++ (modules.take maximumCollectionEntries).map ModuleListEntry.toClient))
        ([] ++ (modules.take maximumCollectionEntries).map ModuleListEntry.toClient) :=
      Client.Yields.pure _
    have hread := yields_listModulesLoop (ceserver b) o.env (modules.take maximumCollectionEntries)
      hrest s a' log' (((modules.drop maximumCollectionEntries).map ModuleListEntry.encode).flatten ++
        endOfModules garbage) d ctx
    rw [List.append_nil, ← List.append_assoc, ← List.flatten_append, ← List.map_append, hsplit, hfront,
      Nat.add_zero, List.nil_append, List.map_take] at hread
    exact ⟨a', log', _, hread, fun h => absurd h hlen⟩

end Stream

end CheatEngine.Ceserver
