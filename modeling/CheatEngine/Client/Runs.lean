/-
  CheatEngine.Client.Runs

  Complete runs of client methods: `Runs m h r` says that, in some environment,
  the method `m` performs exactly the operations of the history `h` with their
  answers, and then returns `r`.  One inversion lemma for each shape a method is
  built from says what its history can be.
-/
import CheatEngine.Client.Sends

namespace CheatEngine.Client

open CheatEngine.Lib

/-- `h` is the history of a complete run of `m`, and `r` what it returns. -/
def Runs {α : Type} (m : ClientM α) (h : History) (r : Except ClientError α) : Prop :=
  Prog.RunsTo m.run h r

instance : DecidableEq NetSig.Op := inferInstanceAs (DecidableEq NetOp)

namespace Runs

variable {α β : Type} {h : History} {r : Except ClientError α}

theorem pure_inv {a : α} (hrun : Runs (pure a) h r) :
    h = [] ∧ r = .ok a := by
  obtain ⟨hh, hr⟩ := hrun
  exact ⟨hh, hr.symm⟩

theorem throw_inv {e : ClientError}
    (hrun : Runs (throw e : ClientM α) h r) : h = [] ∧ r = .error e := by
  obtain ⟨hh, hr⟩ := hrun
  exact ⟨hh, hr.symm⟩

theorem result_inv {a : Except ClientError α} (hrun : Runs (ExceptT.mk (pure a)) h r) :
    h = [] ∧ r = a := by
  obtain ⟨hh, hr⟩ := hrun
  exact ⟨hh, hr.symm⟩

variable {m : ClientM α}

theorem bind_inv {f : α → ClientM β} {r : Except ClientError β} (hrun : Runs (m >>= f) h r) :
    (∃ e, Runs m h (.error e) ∧ r = .error e) ∨
      ∃ h₁ h₂ a, h = h₁ ++ h₂ ∧ Runs m h₁ (.ok a) ∧ Runs (f a) h₂ r := by
  rw [Runs, ExceptT.run_bind, Prog.runsTo_bind] at hrun
  obtain ⟨h₁, h₂, x, rfl, hm, hf⟩ := hrun
  cases x with
  | error e =>
    obtain ⟨rfl, rfl⟩ := hf
    rw [List.append_nil]
    exact .inl ⟨e, hm, rfl⟩
  | ok a => exact .inr ⟨h₁, h₂, a, rfl, hm, hf⟩

theorem ask_inv {o : NetOp} {r : Except ClientError (NetSig.Res o)} (hrun : Runs (ask o) h r) :
    ∃ v, h = [⟨o, v⟩] ∧ r = .ok v := by
  rw [Runs, ask, ExceptT.run_lift] at hrun
  obtain ⟨v, t, rfl, ht, hr⟩ := hrun
  exact ⟨v, by rw [ht], hr.symm⟩

theorem ask_bind_inv {o : NetOp} {f : NetSig.Res o → ClientM α}
    (hrun : Runs (ask o >>= f) h r) : ∃ v t, h = ⟨o, v⟩ :: t ∧ Runs (f v) t r := by
  rcases bind_inv hrun with ⟨e, ha, -⟩ | ⟨h₁, t, v, rfl, ha, hf⟩
  · obtain ⟨v, -, hv⟩ := ask_inv ha
    cases hv
  · obtain ⟨v', rfl, hv⟩ := ask_inv ha
    cases hv
    exact ⟨v, t, rfl, hf⟩

theorem write_bind_inv {packet : List UInt8} {f : Unit → ClientM α}
    (hrun : Runs (writePacket packet >>= f) h r) :
    (∃ w e, h = [⟨.write packet, .error w⟩] ∧ r = .error e) ∨
      ∃ t, h = ⟨.write packet, .ok ()⟩ :: t ∧ Runs (f ()) t r := by
  rw [writePacket, bind_assoc] at hrun
  obtain ⟨w, t, rfl, hrest⟩ := ask_bind_inv hrun
  rcases w with (e | e) | _
  · obtain ⟨rfl, rfl⟩ := throw_inv hrest
    exact .inl ⟨_, _, rfl, rfl⟩
  · obtain ⟨rfl, rfl⟩ := throw_inv hrest
    exact .inl ⟨_, _, rfl, rfl⟩
  · exact .inr ⟨t, rfl, hrest⟩

variable {n : Nat} {operation : String}

theorem readFull_bind_inv (hn : n ≠ 0) {f : List UInt8 → ClientM α}
    (hrun : Runs (readFull operation n >>= f) h r) :
    (∃ w e, h = [⟨.read n, .error w⟩] ∧ r = .error e) ∨
      ∃ bytes t, h = ⟨.read n, .ok bytes⟩ :: t ∧ Runs (f bytes) t r := by
  rw [readFull, if_neg hn, bind_assoc] at hrun
  obtain ⟨v, t, rfl, hrest⟩ := ask_bind_inv hrun
  cases v with
  | error w =>
    obtain ⟨rfl, rfl⟩ := throw_inv hrest
    exact .inl ⟨w, _, rfl, rfl⟩
  | ok bytes => exact .inr ⟨bytes, t, rfl, hrest⟩

theorem readValue_bind_inv (hn : n ≠ 0) {f : List UInt8 → α}
    {k : α → ClientM β} {r : Except ClientError β}
    (hrun : Runs ((readFull operation n >>= fun bytes => pure (f bytes)) >>= k) h r) :
    (∃ w e, h = [⟨.read n, .error w⟩] ∧ r = .error e) ∨
      ∃ bytes t, h = ⟨.read n, .ok bytes⟩ :: t ∧ Runs (k (f bytes)) t r := by
  rw [bind_assoc] at hrun
  exact readFull_bind_inv hn hrun

/-- A request whose answer is a value of a fixed size: the write fails, the read
    fails, or the rest goes on from the value. -/
theorem request_inv {packet : List UInt8} (hn : n ≠ 0)
    {f : List UInt8 → α} {k : α → ClientM β} {r : Except ClientError β}
    (hrun : Runs (writePacket packet >>= fun _ =>
      (readFull operation n >>= fun bytes => pure (f bytes)) >>= k) h r) :
    (∃ w e, h = [⟨.write packet, .error w⟩] ∧ r = .error e) ∨
      (∃ w e, h = [⟨.write packet, .ok ()⟩, ⟨.read n, .error w⟩] ∧ r = .error e) ∨
      ∃ bytes t, h = ⟨.write packet, .ok ()⟩ :: ⟨.read n, .ok bytes⟩ :: t ∧
        Runs (k (f bytes)) t r := by
  rcases write_bind_inv hrun with ⟨w, e, rfl, rfl⟩ | ⟨t, rfl, hrest⟩
  · exact .inl ⟨w, e, rfl, rfl⟩
  · rcases readValue_bind_inv hn hrest with ⟨w, e, rfl, rfl⟩ | ⟨bytes, t, rfl, hk⟩
    · exact .inr (.inl ⟨w, e, rfl, rfl⟩)
    · exact .inr (.inr ⟨bytes, t, rfl, hk⟩)

theorem attempt_inv {r : Except ClientError (Except ClientError α)}
    (hrun : Runs (attempt m) h r) : ∃ x, r = .ok x ∧ Runs m h x := by
  have hbind : Prog.RunsTo (m.run >>= fun x => pure (.ok x)) h r := hrun
  obtain ⟨h₁, h₂, x, rfl, hm, hrest⟩ := Prog.runsTo_bind.mp hbind
  obtain ⟨rfl, rfl⟩ := hrest
  rw [List.append_nil]
  exact ⟨x, rfl, hm⟩

theorem deferClose_inv {handle : UInt32} {body : ClientM α}
    (hrun : Runs (deferClose handle body) h r) :
    ∃ h₁ h₂ x, h = h₁ ++ h₂ ∧ Runs body h₁ r ∧ Runs (closeHandle handle) h₂ x := by
  rcases bind_inv hrun with ⟨e, ha, -⟩ | ⟨h₁, h₂, y, rfl, ha, hrest⟩
  · obtain ⟨x, hx, -⟩ := attempt_inv ha
    cases hx
  · obtain ⟨_, hx, hbody⟩ := attempt_inv ha
    cases hx
    rcases bind_inv hrest with ⟨e, hc, -⟩ | ⟨h₃, h₄, z, rfl, hc, hres⟩
    · obtain ⟨x, hx, -⟩ := attempt_inv hc
      cases hx
    · obtain ⟨x, -, hclose⟩ := attempt_inv hc
      obtain ⟨rfl, rfl⟩ := result_inv hres
      refine ⟨h₁, h₃, x, ?_, hbody, hclose⟩
      rw [List.append_nil]

theorem of_replay (hreplay : Prog.replay (S := NetSig) m.run h = some r) : Runs m h r :=
  (Prog.runsTo_iff_replay (S := NetSig)).mpr hreplay

end Runs

end CheatEngine.Client
