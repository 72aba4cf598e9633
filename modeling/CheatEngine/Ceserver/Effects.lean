/-
  CheatEngine.Ceserver.Effects

  What a command does once it has received its data.  `Ends o c P`: driven on
  any stream, `c` takes nothing from it, and its result, the bytes it sends
  and the calls it makes satisfy `P`.
-/
import CheatEngine.Ceserver.Requests

namespace CheatEngine.Ceserver

open CheatEngine.Lib

/-! ## Commands that receive nothing -/

/-- Driven on any stream, `c` takes nothing from it and ends with a result,
    bytes sent and events that satisfy `P`. -/
def Ends {σ α : Type} (o : Outcomes σ) (c : Command CeApi α)
    (P : Option α → List UInt8 → List (Prog.Event CeApi) → Prop) : Prop :=
  ∀ inp out a log, ∃ x sent a' events,
    drive o.env c.run ⟨inp, out, a, log⟩ = (pure x, ⟨inp, out ++ sent, a', log ++ events⟩) ∧
      P x sent events

/-- `c` takes nothing from the stream and ends. -/
def Total {σ α : Type} (o : Outcomes σ) (c : Command CeApi α) : Prop :=
  Ends o c fun _ _ _ => True

section Ends

variable {σ α β : Type} {o : Outcomes σ}
  {P Q : Option α → List UInt8 → List (Prog.Event CeApi) → Prop} {c : Command CeApi α}

theorem Ends.imp (hc : Ends o c P)
    (h : ∀ x sent events, P x sent events → Q x sent events) : Ends o c Q := by
  intro inp out a log
  obtain ⟨x, sent, a', events, hdrive, hp⟩ := hc inp out a log
  exact ⟨x, sent, a', events, hdrive, h x sent events hp⟩

theorem Ends.pure {x : α} (hp : P (some x) [] []) : Ends o (Pure.pure x : Command CeApi α) P :=
  fun inp out a log => ⟨some x, [], a, [], by simp, hp⟩

theorem Ends.hangUp (hp : P none [] []) : Ends o (Lib.hangUp : Command CeApi α) P :=
  fun inp out a log => ⟨none, [], a, [], by simp, hp⟩

theorem Ends.bind {R : Option β → List UInt8 → List (Prog.Event CeApi) → Prop}
    {k : α → Command CeApi β} (hc : Ends o c P)
    (hnone : ∀ sent events, P none sent events → R none sent events)
    (hk : ∀ x sent events, P (some x) sent events →
      Ends o (k x) fun y sent' events' => R y (sent ++ sent') (events ++ events')) :
    Ends o (c >>= k) R := by
  intro inp out a log
  obtain ⟨x, sent, a', events, hdrive, hp⟩ := hc inp out a log
  cases x with
  | none => exact ⟨none, sent, a', events, drive_run_bind_none o.env hdrive, hnone sent events hp⟩
  | some x =>
    obtain ⟨y, sent', a'', events', hdrive', hr⟩ :=
      hk x sent events hp inp (out ++ sent) a' (log ++ events)
    refine ⟨y, sent ++ sent', a'', events ++ events', ?_, hr⟩
    rw [drive_run_bind o.env hdrive, hdrive', List.append_assoc, List.append_assoc]

theorem Ends.api {c : ApiCall} {k : ApiResult c → Command CeApi α}
    (hk : ∀ a, Ends o (k (o c a).1) fun x sent events =>
      P x sent (⟨c, some (o c a).1⟩ :: events)) :
    Ends o (Ceserver.api c >>= k) P := by
  intro inp out a log
  obtain ⟨x, sent, a', events, hdrive, hp⟩ :=
    hk a inp out (o c a).2 (log ++ [⟨c, some (o c a).1⟩])
  refine ⟨x, sent, a', _, ?_, hp⟩
  rw [drive_outcome, hdrive, List.append_assoc]
  rfl

variable {bytes : List UInt8}

theorem Ends.reply_bind {k : Unit → Command CeApi α}
    (hk : Ends o (k ()) fun x sent events => P x (bytes ++ sent) events) :
    Ends o (Lib.reply bytes >>= k) P := by
  intro inp out a log
  obtain ⟨x, sent, a', events, hdrive, hp⟩ := hk inp (out ++ bytes) a log
  refine ⟨x, bytes ++ sent, a', events, ?_, hp⟩
  rw [drive_reply, hdrive, List.append_assoc]

theorem Ends.reply {P : Option Unit → List UInt8 → List (Prog.Event CeApi) → Prop}
    (hp : P (some ()) bytes []) : Ends o (Lib.reply bytes) P := by
  have h : Ends o (Lib.reply bytes >>= Pure.pure) P :=
    Ends.reply_bind (Ends.pure (by simpa using hp))
  rwa [bind_pure] at h

theorem Ends.ite {c' : Command CeApi α} {p : Prop} [Decidable p] (hc : p → Ends o c P)
    (hc' : ¬ p → Ends o c' P) : Ends o (if p then c else c') P := by
  split
  · next hp => exact hc hp
  · next hp => exact hc' hp

theorem Total.pure {x : α} : Total o (Pure.pure x : Command CeApi α) := Ends.pure trivial

theorem Total.hangUp : Total o (Lib.hangUp : Command CeApi α) := Ends.hangUp trivial

theorem Total.bind {k : α → Command CeApi β} (hc : Total o c)
    (hk : ∀ x, Total o (k x)) : Total o (c >>= k) :=
  Ends.bind hc (fun _ _ _ => trivial) fun x _ _ _ => hk x

theorem Total.api {c : ApiCall} : Total o (Ceserver.api c) := by
  have h : Total o (Ceserver.api c >>= Pure.pure) := Ends.api fun _ => Ends.pure trivial
  rwa [bind_pure] at h

theorem Total.reply : Total o (Lib.reply bytes : Command CeApi Unit) :=
  Ends.reply trivial

theorem Total.ite {c' : Command CeApi α} {p : Prop} [Decidable p] (hc : Total o c)
    (hc' : Total o c') : Total o (if p then c else c') :=
  Ends.ite (fun _ => hc) fun _ => hc'

theorem Total.keep {c : Command CeApi Unit} {s : Connection} (hc : Total o c) :
    Total o (Ceserver.keep c s) :=
  hc.bind fun _ => Total.pure

end Ends

/-- `c` sends exactly `reply` and goes on. -/
def Answers {σ : Type} (o : Outcomes σ) (c : Command CeApi Unit) (R : List UInt8 → Prop) : Prop :=
  Ends o c fun x sent _ => x = some () ∧ R sent

section Answers

variable {σ : Type} {o : Outcomes σ} {R : List UInt8 → Prop}

theorem Answers.pure (hr : R []) : Answers o (Pure.pure ()) R := Ends.pure ⟨rfl, hr⟩

theorem Answers.reply {bytes : List UInt8} (hr : R bytes) : Answers o (Lib.reply bytes) R :=
  Ends.reply ⟨rfl, hr⟩

theorem Answers.api {c : ApiCall} {k : ApiResult c → Command CeApi Unit}
    (hk : ∀ a, Answers o (k (o c a).1) R) : Answers o (Ceserver.api c >>= k) R :=
  Ends.api hk

variable {c : Command CeApi Unit}

theorem Answers.ite {c' : Command CeApi Unit} {p : Prop} [Decidable p]
    (hc : p → Answers o c R) (hc' : ¬ p → Answers o c' R) :
    Answers o (if p then c else c') R :=
  Ends.ite hc hc'

theorem Answers.bind {k : Unit → Command CeApi Unit} {R' : List UInt8 → Prop} (hc : Answers o c R')
    (hk : ∀ sent, R' sent → Answers o (k ()) fun sent' => R (sent ++ sent')) :
    Answers o (c >>= k) R :=
  Ends.bind hc (fun _ _ h => nomatch h.1) fun _ sent _ h => hk sent h.2

theorem Answers.reply_bind {bytes : List UInt8} {k : Unit → Command CeApi Unit}
    (hk : Answers o (k ()) fun sent => R (bytes ++ sent)) :
    Answers o (Lib.reply bytes >>= k) R :=
  Ends.reply_bind hk

theorem Answers.imp {R' : List UInt8 → Prop} (hc : Answers o c R)
    (h : ∀ sent, R sent → R' sent) : Answers o c R' :=
  Ends.imp hc fun _ _ _ hx => ⟨hx.1, h _ hx.2⟩

theorem Answers.last (hc : Answers o (c >>= Pure.pure) R) :
    Answers o c R := by
  rwa [bind_pure] at hc

theorem Answers.total (hc : Answers o c R) : Total o c :=
  Ends.imp hc fun _ _ _ _ => trivial

end Answers

section Loops

variable {σ : Type} {o : Outcomes σ}

theorem answers_sendModules (modules : List ModuleListEntry) (outputstream : List UInt8) :
    Answers o (sendModules modules outputstream)
      fun sent => sent = outputstream ++ (modules.map ModuleListEntry.encode).flatten := by
  induction modules generalizing outputstream with
  | nil =>
    refine Answers.ite (fun _ => Answers.reply (by simp)) fun h => Answers.pure ?_
    simpa using (not_not.1 h).symm
  | cons me rest ih =>
    refine Answers.ite (fun _ => Answers.reply_bind ((ih _).imp ?_)) fun _ => (ih _).imp ?_
    · rintro _ rfl
      simp
    · rintro _ rfl
      simp

def string16 (value : List UInt8) : List UInt8 := u16 (UInt16.ofNat value.length) ++ value

def ServerOption.encode (opt : ServerOption) : List UInt8 :=
  string16 opt.optname.bytes ++ (string16 opt.parent.bytes ++ (string16 opt.description.bytes ++
    (string16 opt.acceptablevalues.bytes ++ (string16 opt.currentValue.bytes ++ i32 opt.type))))

theorem answers_sendOptions (options : List ServerOption) :
    Answers o (sendOptions options)
      fun sent => sent = (options.map ServerOption.encode).flatten := by
  induction options with
  | nil => exact Answers.pure rfl
  | cons opt rest ih =>
    have hopt : Answers o opt.send fun sent => sent = opt.encode :=
      Answers.reply_bind <| Answers.reply_bind <| Answers.reply_bind <| Answers.reply_bind <|
        Answers.reply_bind <| Answers.reply rfl
    refine hopt.bind ?_
    rintro _ rfl
    refine ih.imp ?_
    rintro _ rfl
    simp

def DirEntry.encode (dc : DirEntry) : List UInt8 := string16 dc.name.bytes ++ u8 dc.type

def namedEntries (entries : List DirEntry) : List DirEntry :=
  entries.filter fun dc => dc.name.bytes ≠ []

theorem answers_sendEntries (entries : List DirEntry) :
    Answers o (sendEntries entries)
      fun sent => sent = ((namedEntries entries).map DirEntry.encode).flatten := by
  induction entries with
  | nil => exact Answers.pure rfl
  | cons dc rest ih =>
    refine Answers.ite (fun h => ?_) fun h => ih.imp ?_
    · refine Answers.reply_bind (Answers.reply_bind (ih.imp ?_))
      rintro _ rfl
      simp [namedEntries, h, DirEntry.encode, string16]
    · rintro _ rfl
      simp [namedEntries, not_not.1 h]

theorem total_writeAll (f : Int32) (fuel : Nat) (contents : List UInt8) :
    Ends o (writeAll f fuel contents) fun x sent _ => x ≠ none ∧ sent = [] := by
  induction fuel generalizing contents with
  | zero => exact Ends.pure ⟨Option.some_ne_none _, rfl⟩
  | succ fuel ih =>
    refine Ends.ite (fun _ => Ends.pure ⟨Option.some_ne_none _, rfl⟩) fun _ => Ends.api fun a => ?_
    rcases (o (.writeFile f contents) a).1 with _ | written
    · exact Ends.pure ⟨Option.some_ne_none _, rfl⟩
    · exact ih _

end Loops

end CheatEngine.Ceserver
