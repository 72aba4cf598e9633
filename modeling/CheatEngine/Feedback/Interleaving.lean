/-
  CheatEngine.Feedback.Interleaving

  Two processes that run `Transition` on the same issue, and one that runs `List`, step by
  step in any order.  Both writers use the same temporary file.
-/
import Mathlib.Logic.Relation
import CheatEngine.Feedback.IssueMap
import CheatEngine.Feedback.Processes

namespace CheatEngine.Feedback

open CheatEngine.Lib CheatEngine.Lib.Go

variable {C : Type}

/-- The directory, two processes that run `Transition`, and one that runs `List`. -/
structure System (C : Type) where
  files : Files
  first : Proc (Except StoreError (Issue C))
  second : Proc (Except StoreError (Issue C))
  reader : Proc (Except StoreError (List (Issue C)))

namespace System

/-- One step of one process.  The calls of the writers may fail; the reader has no faults of
    its own. -/
inductive Step : System C → System C → Prop
  | first {f f' : Files} {p p' q : Proc (Except StoreError (Issue C))}
      {r : Proc (Except StoreError (List (Issue C)))} (h : ProcStep true f p f' p') :
      Step ⟨f, p, q, r⟩ ⟨f', p', q, r⟩
  | second {f f' : Files} {p q q' : Proc (Except StoreError (Issue C))}
      {r : Proc (Except StoreError (List (Issue C)))} (h : ProcStep true f q f' q') :
      Step ⟨f, p, q, r⟩ ⟨f', p, q', r⟩
  | reader {f f' : Files} {p q : Proc (Except StoreError (Issue C))}
      {r r' : Proc (Except StoreError (List (Issue C)))} (h : ProcStep false f r f' r') :
      Step ⟨f, p, q, r⟩ ⟨f', p, q, r'⟩

/-- A step that opens no temporary file which the other writer is replacing. -/
inductive OrderlyStep : System C → System C → Prop
  | first {f f' : Files} {p p' q : Proc (Except StoreError (Issue C))}
      {r : Proc (Except StoreError (List (Issue C)))} (h : ProcStep true f p f' p')
      (ho : p.Opens → ¬ q.Replacing) : OrderlyStep ⟨f, p, q, r⟩ ⟨f', p', q, r⟩
  | second {f f' : Files} {p q q' : Proc (Except StoreError (Issue C))}
      {r : Proc (Except StoreError (List (Issue C)))} (h : ProcStep true f q f' q')
      (ho : q.Opens → ¬ p.Replacing) : OrderlyStep ⟨f, p, q, r⟩ ⟨f', p, q', r⟩
  | reader {f f' : Files} {p q : Proc (Except StoreError (Issue C))}
      {r r' : Proc (Except StoreError (List (Issue C)))} (h : ProcStep false f r f' r') :
      OrderlyStep ⟨f, p, q, r⟩ ⟨f', p, q, r'⟩

def start (codec : Codec C) (sorter : Sorter C) (files : Files)
    (identifier₁ status₁ identifier₂ status₂ : List UInt8) : System C where
  files
  first := .start (transition codec identifier₁ status₁).run
  second := .start (transition codec identifier₂ status₂).run
  reader := .start (list codec sorter).run

/-- What must hold at every moment: the file is one whole issue; after two successes it is
    what one of them wrote; and a reader that ended has not failed. -/
structure Atomic (codec : Codec C) (identifier : List UInt8) (s : System C) : Prop where
  whole : ∃ issue content, issue.id = identifier ∧ codec.encode issue = some content ∧
    s.files.view (identifier ++ jsonSuffix) = some (content ++ [10])
  last : ∀ issue₁ issue₂, s.first.rest = .pure (.ok issue₁) → s.second.rest = .pure (.ok issue₂) →
    ∃ content, (codec.encode issue₁ = some content ∨ codec.encode issue₂ = some content) ∧
      s.files.view (identifier ++ jsonSuffix) = some (content ++ [10])
  reader : ∀ r, s.reader.rest = .pure r → ∃ issues, r = .ok issues

end System

/-- No two names share an inode, and the next inode is new. -/
structure Files.Wf (f : Files) : Prop where
  inj : ∀ a b inode, f.names a = some inode → f.names b = some inode → a = b
  lt : ∀ name inode, f.names name = some inode → inode < f.next

/-- The temporary file of an issue. -/
abbrev tmpName (identifier : List UInt8) : List UInt8 := identifier ++ jsonSuffix ++ tmpSuffix

/-- An inode with a whole issue, which the temporary name does not refer to. -/
structure Sealed (codec : Codec C) (validContext : C → Prop) (identifier : List UInt8) (f : Files)
    (owner : List UInt8) (inode : Nat) : Prop where
  lt : inode < f.next
  ne : f.names (tmpName identifier) ≠ some inode
  whole : ∃ issue content, issue.id = owner ∧ issue.Textual validContext ∧
    codec.encode issue = some content ∧ f.data inode = content ++ [10]

/-- A change of the temporary file and no other. -/
structure Frame (identifier : List UInt8) (f f' : Files) : Prop where
  data : ∀ inode, inode < f.next → f.names (tmpName identifier) ≠ some inode →
    f'.data inode = f.data inode
  next : f.next ≤ f'.next
  tmp : ∀ inode, inode < f.next → f.names (tmpName identifier) ≠ some inode →
    f'.names (tmpName identifier) ≠ some inode

section Frames

variable {codec : Codec C} {validContext : C → Prop} {identifier owner : List UInt8}
  {f f' : Files} {inode : Nat}

theorem Sealed.frame (h : Sealed codec validContext identifier f owner inode)
    (hframe : Frame identifier f f') : Sealed codec validContext identifier f' owner inode where
  lt := h.lt.trans_le hframe.next
  ne := hframe.tmp inode h.lt h.ne
  whole := by
    rw [hframe.data inode h.lt h.ne]
    exact h.whole

theorem Frame.refl (f : Files) : Frame identifier f f := ⟨fun _ _ _ => rfl, Nat.le_refl _, fun _ _ h => h⟩

theorem Frame.setData (h : f.names (tmpName identifier) = some inode) (bytes : List UInt8) :
    Frame identifier f (f.setData inode bytes) where
  data other _ hne := Function.update_of_ne (fun heq => hne (by rw [h, heq])) _ _
  next := Nat.le_refl _
  tmp _ _ hne := hne

theorem Frame.create (f : Files) : Frame identifier f (f.create (tmpName identifier)) where
  data other hlt _ := Function.update_of_ne (Nat.ne_of_lt hlt) _ _
  next := Nat.le_succ _
  tmp other hlt _ := by
    rw [Files.names_create, Function.update_self]
    intro heq
    exact absurd (Option.some.inj heq) (Nat.ne_of_gt hlt)

theorem Frame.rename (f : Files) (inode : Nat) :
    Frame identifier f (f.rename (tmpName identifier) (identifier ++ jsonSuffix) inode) where
  data _ _ _ := rfl
  next := Nat.le_refl _
  tmp other _ _ := by
    rw [Files.names_rename, Function.update_of_ne (fun heq => name_ne_tmp _ _ heq.symm), Function.update_self]
    exact Option.some_ne_none other |>.symm

/-! ### The directory that one sees -/

theorem Files.Wf.setData (h : f.Wf) (inode : Nat) (bytes : List UInt8) :
    (f.setData inode bytes).Wf := ⟨h.inj, h.lt⟩

theorem Files.Wf.create (h : f.Wf) (name : List UInt8) : (f.create name).Wf where
  inj a b inode ha hb := by
    rw [Files.names_create, Function.update_apply] at ha hb
    split at ha <;> split at hb
    next heq heq' => rw [heq, heq']
    next => exact absurd (Option.some.inj ha) (Nat.ne_of_gt (h.lt b inode hb))
    next => exact absurd (Option.some.inj hb) (Nat.ne_of_gt (h.lt a inode ha))
    next => exact h.inj a b inode ha hb
  lt name' inode hname := by
    show inode < f.next + 1
    rw [Files.names_create, Function.update_apply] at hname
    split at hname
    next => exact Option.some.inj hname ▸ Nat.lt_succ_self _
    next => exact (h.lt name' inode hname).trans (Nat.lt_succ_self _)

theorem Files.Wf.rename (h : f.Wf) {oldName : List UInt8} (hold : f.names oldName = some inode)
    (newName : List UInt8) : (f.rename oldName newName inode).Wf where
  inj a b inode' ha hb := by
    -- the old name is gone, so only the new one has its inode
    have hcase : ∀ name, (f.rename oldName newName inode).names name = some inode' →
        (name = newName ∧ inode' = inode) ∨ (inode' ≠ inode ∧ f.names name = some inode') := by
      intro name hname
      rw [Files.names_rename, Function.update_apply] at hname
      split at hname
      next heq => exact .inl ⟨heq, (Option.some.inj hname).symm⟩
      next =>
        rw [Function.update_apply] at hname
        split at hname
        next => cases hname
        next hne => exact .inr ⟨fun heq => hne (h.inj name oldName inode (heq ▸ hname) hold), hname⟩
    rcases hcase a ha with ⟨rfl, rfl⟩ | ⟨hne, ha'⟩
    · rcases hcase b hb with ⟨rfl, -⟩ | ⟨hne, -⟩
      · rfl
      · exact absurd rfl hne
    · rcases hcase b hb with ⟨-, heq⟩ | ⟨-, hb'⟩
      · exact absurd heq hne
      · exact h.inj a b inode' ha' hb'
  lt name inode' hname := by
    rw [Files.names_rename, Function.update_apply] at hname
    split at hname
    next => exact Option.some.inj hname ▸ h.lt oldName inode hold
    next =>
      rw [Function.update_apply] at hname
      split at hname
      next => cases hname
      next => exact h.lt name inode' hname

theorem Files.view_setData (h : f.Wf) {name : List UInt8} (hname : f.names name = some inode)
    (bytes : List UInt8) :
    (f.setData inode bytes).view = Function.update f.view name (some bytes) := by
  funext other
  rw [Function.update_apply]
  split
  next heq => simp [Files.view, Files.setData, heq, hname]
  next hne =>
    cases hother : f.names other with
    | none => simp [Files.view, Files.setData, hother]
    | some inode' =>
      have hinode : inode' ≠ inode := fun heq => hne (h.inj other name inode (heq ▸ hother) hname)
      simp [Files.view, Files.setData, hother, Function.update_of_ne hinode]

theorem Files.view_create (h : f.Wf) (name : List UInt8) :
    (f.create name).view = Function.update f.view name (some []) := by
  funext other
  rw [Function.update_apply]
  split
  next heq => simp [Files.view, Files.create, heq]
  next hne =>
    cases hother : f.names other with
    | none => simp [Files.view, Files.create, Function.update_of_ne hne, hother]
    | some inode' =>
      have hinode : inode' ≠ f.next := Nat.ne_of_lt (h.lt other inode' hother)
      simp [Files.view, Files.create, Function.update_of_ne hne, hother,
        Function.update_of_ne hinode]

theorem Files.view_rename (f : Files) (oldName newName : List UInt8) (inode : Nat) :
    (f.rename oldName newName inode).view =
      Function.update (Function.update f.view oldName none) newName (some (f.data inode)) := by
  funext name
  rw [Function.update_apply, Function.update_apply]
  rw [Files.view, Files.names_rename, Function.update_apply, Function.update_apply]
  split
  next => rfl
  next =>
    split
    next => rfl
    next => rfl

end Frames

/-! ## Where a writer stands -/

section Writer

variable (codec : Codec C)

def afterRename (issue : Issue C) : Except FsError Unit → Prog FsSig (Except StoreError (Issue C))
  | .error _ => .pure (.error .replace)
  | .ok () => .pure (.ok issue)

/-- After the temporary file was written. -/
def afterWrite (issue : Issue C) : Except FsError Unit → Prog FsSig (Except StoreError (Issue C))
  | .error _ => .pure (.error .write)
  | .ok () => .op (.rename (tmpName issue.id) (issue.id ++ jsonSuffix)) (afterRename issue)

def finish (issue : Issue C) : Prog FsSig (Except StoreError (Issue C)) :=
  match codec.encode issue with
  | none => .pure (.error .encode)
  | some content => .op (.writeFile (tmpName issue.id) (content ++ [10])) (afterWrite issue)

def writeBack (issue : Issue C) : Prog FsSig (Except StoreError (Issue C)) :=
  (do write codec issue; return issue : StoreM (Issue C)).run

def shown (identifier : List UInt8) :
    Except FsError (List UInt8) → Except StoreError (Issue C)
  | .error .notExist => .error (.notFound identifier)
  | .error .other => .error (.read identifier)
  | .ok content => (codec.decode content).elim (.error (.decode identifier)) .ok

def afterRead (identifier status : List UInt8) (answer : Except FsError (List UInt8)) :
    Prog FsSig (Except StoreError (Issue C)) :=
  match shown codec identifier answer with
  | .error e => .pure (.error e)
  | .ok issue => .op .now fun now => writeBack codec { issue with status, updatedAt := now }

variable {codec}

theorem writeBack_eq {issue : Issue C} (hid : PlainId issue.id) :
    writeBack codec issue = finish codec issue := by
  rw [writeBack, write, hid.issuePath, finish]
  cases hcontent : codec.encode issue with
  | none => rfl
  | some content =>
    show Prog.op _ _ = Prog.op _ _
    congr 1
    funext answer
    cases answer with
    | error e => rfl
    | ok u =>
      show Prog.op _ _ = Prog.op _ _
      congr 1
      funext answer'
      cases answer' <;> rfl

theorem showIssue_run {identifier : List UInt8} (hid : PlainId (trimSpace identifier)) :
    (showIssue codec identifier).run =
      .op (.readFile (trimSpace identifier ++ jsonSuffix))
        fun answer => .pure (shown codec identifier answer) := by
  rw [showIssue, issuePath_of_plain hid]
  show Prog.op _ _ = Prog.op _ _
  congr 1
  funext answer
  cases answer with
  | error e => cases e <;> rfl
  | ok content =>
    simp only [shown, Prog.bind, Function.comp_apply, ExceptT.bindCont]
    cases codec.decode content <;> rfl

theorem transition_run {identifier status : List UInt8} (hid : PlainId (trimSpace identifier))
    (hstatus : toLower (trimSpace status) ∈ validStatuses) :
    (transition codec identifier status).run =
      .op (.readFile (trimSpace identifier ++ jsonSuffix))
        (afterRead codec identifier (toLower (trimSpace status))) := by
  rw [transition]
  dsimp only
  rw [if_neg (not_not.2 hstatus)]
  show Prog.bind (showIssue codec identifier).run _ = _
  rw [showIssue_run hid]
  show Prog.op _ _ = Prog.op _ _
  congr 1
  funext answer
  dsimp only [afterRead]
  cases shown codec identifier answer <;> rfl

theorem transition_run_invalid {identifier status : List UInt8}
    (hstatus : toLower (trimSpace status) ∉ validStatuses) :
    (transition codec identifier status).run =
      .pure (.error (.invalidStatus (toLower (trimSpace status)))) := by
  rw [transition]
  dsimp only
  rw [if_pos hstatus]
  rfl

end Writer

section Phases

variable {codec : Codec C} {validContext : C → Prop} {identifier argument status : List UInt8}
  {f f' : Files} {m : IssueMap C} {current : Issue C}

/-- An issue that a writer puts into the file. -/
structure Writable (codec : Codec C) (validContext : C → Prop) (identifier : List UInt8)
    (issue : Issue C) (content : List UInt8) : Prop where
  id : issue.id = identifier
  textual : issue.Textual validContext
  encode : codec.encode issue = some content

/-- Where a process that runs `Transition` can stand, and what it has open. -/
inductive Phase (codec : Codec C) (validContext : C → Prop)
    (identifier argument status : List UInt8) (f : Files) :
    Proc (Except StoreError (Issue C)) → Prop
  | reading : Phase codec validContext identifier argument status f
      ⟨.op (.readFile (identifier ++ jsonSuffix)) (afterRead codec argument status), .idle⟩
  | readingAt {inode : Nat} {got : List UInt8}
      (hs : Sealed codec validContext identifier f identifier inode)
      (hgot : got <+: f.data inode) : Phase codec validContext identifier argument status f
      ⟨.op (.readFile (identifier ++ jsonSuffix)) (afterRead codec argument status),
        .reading inode got⟩
  | clock {issue : Issue C} (hid : issue.id = identifier) (htext : issue.Textual validContext) :
      Phase codec validContext identifier argument status f
      ⟨.op .now fun now => writeBack codec { issue with status, updatedAt := now }, .idle⟩
  | opening {issue : Issue C} {content : List UInt8}
      (h : Writable codec validContext identifier issue content) :
      Phase codec validContext identifier argument status f
      ⟨.op (.writeFile (tmpName issue.id) (content ++ [10])) (afterWrite issue), .idle⟩
  | writing {issue : Issue C} {content left : List UInt8} {inode offset : Nat}
      (h : Writable codec validContext identifier issue content)
      (hname : f.names (tmpName identifier) = some inode)
      (hoffset : offset = (f.data inode).length) (hdata : f.data inode ++ left = content ++ [10]) :
      Phase codec validContext identifier argument status f
      ⟨.op (.writeFile (tmpName issue.id) (content ++ [10])) (afterWrite issue),
        .writing inode offset left⟩
  | replacing {issue : Issue C} {content : List UInt8} {inode : Nat}
      (h : Writable codec validContext identifier issue content)
      (hname : f.names (tmpName identifier) = some inode) (hdata : f.data inode = content ++ [10]) :
      Phase codec validContext identifier argument status f
      ⟨.op (.rename (tmpName issue.id) (issue.id ++ jsonSuffix)) (afterRename issue), .idle⟩
  | failed (e : StoreError) : Phase codec validContext identifier argument status f
      ⟨.pure (.error e), .idle⟩
  | done {issue : Issue C} {content : List UInt8}
      (h : Writable codec validContext identifier issue content) :
      Phase codec validContext identifier argument status f ⟨.pure (.ok issue), .idle⟩

/-- The other processes do not disturb one that has no temporary file open. -/
theorem Phase.frame {p : Proc (Except StoreError (Issue C))}
    (h : Phase codec validContext identifier argument status f p)
    (hframe : Frame identifier f f') (hp : f' = f ∨ ¬ p.Replacing) :
    Phase codec validContext identifier argument status f' p := by
  cases h with
  | reading => exact .reading
  | readingAt hs hgot =>
    exact .readingAt (hs.frame hframe) (by rwa [hframe.data _ hs.lt hs.ne])
  | clock hid htext => exact .clock hid htext
  | opening h => exact .opening h
  | writing h hname hoffset hdata =>
    rcases hp with rfl | hp
    · exact .writing h hname hoffset hdata
    · exact absurd (.inl ⟨_, _, _, rfl⟩) hp
  | replacing h hname hdata =>
    rcases hp with rfl | hp
    · exact .replacing h hname hdata
    · exact absurd (.inr ⟨_, _, _, rfl⟩) hp
  | failed e => exact .failed e
  | done h => exact .done h

theorem Phase.finish {issue : Issue C} (hid : issue.id = identifier)
    (htext : issue.Textual validContext) :
    Phase codec validContext identifier argument status f ⟨finish codec issue, .idle⟩ := by
  rw [Feedback.finish]
  cases hcontent : codec.encode issue with
  | none => exact .failed .encode
  | some content => exact .opening ⟨hid, htext, hcontent⟩

theorem Represents.sealed (hrep : Represents codec validContext true f.view m) (hwf : f.Wf)
    {owner : List UInt8} (hm : m owner = some current) {inode : Nat}
    (hname : f.names (owner ++ jsonSuffix) = some inode) :
    Sealed codec validContext identifier f owner inode where
  lt := hwf.lt _ inode hname
  ne h := name_ne_tmp _ _ (hwf.inj _ _ inode hname h)
  whole := by
    obtain ⟨content, hcontent, hview⟩ := hrep.file owner current hm
    rw [Files.view, hname] at hview
    exact ⟨current, content, hrep.id _ current hm, hrep.textual _ current hm, hcontent,
      Option.some.inj hview⟩

structure WriterStep (codec : Codec C) (validContext : C → Prop)
    (identifier argument status : List UInt8) (m : IssueMap C) (current : Issue C) (f : Files)
    (p : Proc (Except StoreError (Issue C))) (f' : Files)
    (p' : Proc (Except StoreError (Issue C))) : Prop where
  wf : f'.Wf
  frame : Frame identifier f f'
  phase : Phase codec validContext identifier argument status f' p'
  files : f' = f ∨ p.Opens ∨ p.Replacing
  replacing : p'.Replacing → p.Opens ∨ p.Replacing
  /-- The file is as it was, or this was the rename. -/
  current : (Represents codec validContext true f'.view
        (Function.update m identifier (some current)) ∧
      ∀ issue, p'.rest ≠ .pure (.ok issue)) ∨
    ∃ issue, Represents codec validContext true f'.view (Function.update m identifier (some issue)) ∧
      p'.rest = .pure (.ok issue)

theorem WriterStep.quiet {p p' : Proc (Except StoreError (Issue C))} (hwf : f.Wf)
    (hrep : Represents codec validContext true f.view
      (Function.update m identifier (some current)))
    (hphase : Phase codec validContext identifier argument status f p')
    (hreplacing : p'.Replacing → p.Opens ∨ p.Replacing)
    (hrest : ∀ issue, p'.rest ≠ .pure (.ok issue)) :
    WriterStep codec validContext identifier argument status m current f p f p' :=
  ⟨hwf, .refl f, hphase, .inl rfl, hreplacing, .inl ⟨hrep, hrest⟩⟩

theorem not_replacing_pure {α : Type} (x : α) : ¬ (⟨.pure x, .idle⟩ : Proc α).Replacing := by
  rintro (⟨_, _, _, h⟩ | ⟨_, _, _, h⟩) <;> cases h

theorem writerStep_of_phase (hcodec : codec.Faithful validContext) (hplain : PlainId identifier)
    (hstatus : status ∈ validStatuses) (hwf : f.Wf)
    (hrep : Represents codec validContext true f.view
      (Function.update m identifier (some current)))
    {p p' : Proc (Except StoreError (Issue C))}
    (hphase : Phase codec validContext identifier argument status f p)
    (hstep : ProcStep true f p f' p') :
    WriterStep codec validContext identifier argument status m current f p f' p' := by
  cases hphase with
  | reading =>
    cases hstep with
    | openRead hname =>
      refine .quiet hwf hrep (.readingAt (hrep.sealed hwf (Function.update_self ..) hname) List.nil_prefix) ?_ ?_
      · rintro (⟨_, _, _, h⟩ | ⟨_, _, _, h⟩) <;> cases h
      · rintro issue ⟨⟩
    | notExist hname =>
      exact .quiet hwf hrep (.failed _) (fun h => absurd h (not_replacing_pure _))
        (by rintro issue ⟨⟩)
    | openReadFails hf e =>
      cases e with
      | notExist =>
        exact .quiet hwf hrep (.failed _) (fun h => absurd h (not_replacing_pure _))
          (by rintro issue ⟨⟩)
      | other =>
        exact .quiet hwf hrep (.failed _) (fun h => absurd h (not_replacing_pure _))
          (by rintro issue ⟨⟩)
  | @readingAt inode got hs hgot =>
    cases hstep with
    | @read _ part _ _ _ _ hpart =>
      refine .quiet hwf hrep (.readingAt hs ?_) ?_ (by rintro issue ⟨⟩)
      · -- what was read so far and the next part are the start of the file
        obtain ⟨tail, htail⟩ := hgot
        rw [← htail, List.drop_left] at hpart
        rw [← htail]
        exact (List.prefix_append_right_inj got).2 hpart
      · rintro (⟨_, _, _, h⟩ | ⟨_, _, _, h⟩) <;> cases h
    | readEnd hend =>
      obtain rfl := hgot.eq_of_length_le hend
      obtain ⟨issue, content, hid, htext, hcontent, hdata⟩ := hs.whole
      rw [hdata]
      have hdecode := hcodec issue content htext hcontent
      have hnext : afterRead codec argument status (.ok (content ++ [10])) =
          .op .now fun now => writeBack codec { issue with status, updatedAt := now } := by
        rw [afterRead, shown, hdecode]
        rfl
      rw [hnext]
      refine .quiet hwf hrep (.clock hid htext) ?_ (by rintro issue ⟨⟩)
      rintro (⟨_, _, _, h⟩ | ⟨_, _, _, h⟩) <;> cases h
    | readFails hf e =>
      cases e with
      | notExist =>
        exact .quiet hwf hrep (.failed _) (fun h => absurd h (not_replacing_pure _))
          (by rintro issue ⟨⟩)
      | other =>
        exact .quiet hwf hrep (.failed _) (fun h => absurd h (not_replacing_pure _))
          (by rintro issue ⟨⟩)
  | @clock issue hid htext =>
    cases hstep with
    | now t =>
      have htext' : Issue.Textual validContext { issue with status, updatedAt := t } :=
        ⟨htext.id, htext.type, validUtf8_of_mem_validStatuses hstatus, htext.message,
          htext.version, htext.context⟩
      have hplain' : PlainId issue.id := hid ▸ hplain
      have hnext : writeBack codec { issue with status, updatedAt := t } =
          Feedback.finish codec { issue with status, updatedAt := t } := writeBack_eq hplain'
      dsimp only
      rw [hnext]
      refine .quiet hwf hrep (.finish hid htext') ?_ ?_
      · rw [Feedback.finish]
        split
        · exact fun h => absurd h (not_replacing_pure _)
        · rintro (⟨_, _, _, h⟩ | ⟨_, _, _, h⟩) <;> cases h
      · intro issue'
        rw [Feedback.finish]
        split <;> rintro ⟨⟩
  | @opening issue content h =>
    obtain rfl := h.id
    have hopens : (⟨.op (.writeFile (tmpName issue.id) (content ++ [10])) (afterWrite issue),
        .idle⟩ : Proc (Except StoreError (Issue C))).Opens := ⟨rfl, _, _, _, rfl⟩
    cases hstep with
    | openWrite hname =>
      refine ⟨hwf.setData _ _, .setData hname _, .writing h hname ?_ ?_, .inr (.inl hopens),
        fun _ => .inl hopens, .inl ⟨?_, by rintro issue' ⟨⟩⟩⟩
      · simp [Files.setData]
      · simp [Files.setData]
      · rw [Files.view_setData hwf hname]
        exact hrep.leftover _ _
    | openCreate hname =>
      refine ⟨hwf.create _, .create f, .writing h (Function.update_self ..) ?_ ?_,
        .inr (.inl hopens), fun _ => .inl hopens, .inl ⟨?_, by rintro issue' ⟨⟩⟩⟩
      · simp [Files.create]
      · simp [Files.create]
      · rw [Files.view_create hwf]
        exact hrep.leftover _ _
    | openWriteFails hf e =>
      exact .quiet hwf hrep (.failed _) (fun h => absurd h (not_replacing_pure _))
        (by rintro issue ⟨⟩)
  | @writing issue content left inode offset h hname hoffset hdata =>
    obtain rfl := h.id
    have hreplacing : (⟨.op (.writeFile (tmpName issue.id) (content ++ [10])) (afterWrite issue),
        .writing inode offset left⟩ : Proc (Except StoreError (Issue C))).Replacing :=
      .inl ⟨_, _, _, rfl⟩
    cases hstep with
    | @write _ _ part left =>
      subst hoffset
      rw [writeAt_length]
      refine ⟨hwf.setData _ _, .setData hname _, .writing h hname ?_ ?_,
        .inr (.inr hreplacing), fun _ => .inr hreplacing, .inl ⟨?_, by rintro issue' ⟨⟩⟩⟩
      · simp [Files.setData]
      · simpa [Files.setData] using hdata
      · rw [Files.view_setData hwf hname]
        exact hrep.leftover _ _
    | close =>
      rw [List.append_nil] at hdata
      exact .quiet hwf hrep (.replacing h hname hdata) (fun _ => .inr hreplacing)
        (by rintro issue ⟨⟩)
    | writeFails hf e =>
      exact .quiet hwf hrep (.failed _) (fun h => absurd h (not_replacing_pure _))
        (by rintro issue ⟨⟩)
  | @replacing issue content inode h hname hdata =>
    obtain rfl := h.id
    have hreplacing : (⟨.op (.rename (tmpName issue.id) (issue.id ++ jsonSuffix))
        (afterRename issue), .idle⟩ : Proc (Except StoreError (Issue C))).Replacing :=
      .inr ⟨_, _, _, rfl⟩
    cases hstep with
    | rename hold =>
      obtain rfl := Option.some.inj (hname.symm.trans hold)
      refine ⟨hwf.rename hname _, .rename f inode, .done h, .inr (.inr hreplacing),
        fun h => absurd h (not_replacing_pure _), .inr ⟨issue, ?_, rfl⟩⟩
      -- the whole new issue is under the name of the old one
      rw [Files.view_rename, hdata]
      have hwrite := hrep.write hplain h.textual h.encode
      rwa [Function.update_idem] at hwrite
    | renameMissing hold => cases hname.symm.trans hold
    | renameFails hf e =>
      exact .quiet hwf hrep (.failed _) (fun h => absurd h (not_replacing_pure _))
        (by rintro issue ⟨⟩)
  | failed e => cases hstep
  | done h => cases hstep

end Phases

/-! ## Where the reader stands -/

/-- A call that changes no file. -/
def FsOp.IsRead : FsOp → Prop
  | .readDir => True
  | .readFile _ => True
  | _ => False

section Reader

/-- What the operating system can answer while the issues that are `live` have whole files. -/
def Answers (codec : Codec C) (live : List UInt8 → Prop) : (o : FsOp) → FsSig.Res o → Prop
  | .readDir, answer => ∃ entries, answer = .ok entries ∧ ∀ entry ∈ entries,
      entry.isDir = false ∧ (jsonSuffix <:+ entry.name →
        ∃ identifier, PlainId identifier ∧ live identifier ∧ entry.name = identifier ++ jsonSuffix)
  | .readFile name, answer => ∀ identifier, live identifier → name = identifier ++ jsonSuffix →
      ∃ content, answer = .ok content ∧ codec.decode content ≠ none
  | .now, _ => True
  | .random, _ => True
  | .writeFile _ _, _ => True
  | .rename _ _, _ => True

variable {codec : Codec C} {validContext : C → Prop} {live : List UInt8 → Prop}
  {identifier : List UInt8} {f f' : Files} {m : IssueMap C}

theorem succeeds_showIssue (hid : PlainId identifier) (hlive : live identifier) :
    (showIssue codec identifier).run.Succeeds FsOp.IsRead (Answers codec live) := by
  have hplain : PlainId (trimSpace identifier) := hid.trimSpace.symm ▸ hid
  rw [showIssue_run hplain, hid.trimSpace]
  refine ⟨trivial, fun answer hanswer => ?_⟩
  obtain ⟨content, rfl, hdecode⟩ := hanswer identifier hlive rfl
  obtain ⟨issue, hissue⟩ := Option.ne_none_iff_exists'.1 hdecode
  exact ⟨issue, by rw [shown, hissue]; rfl⟩

theorem succeeds_showAll {entries : List DirEntry}
    (hentries : ∀ entry ∈ entries, entry.isDir = false ∧ (jsonSuffix <:+ entry.name →
      ∃ identifier, PlainId identifier ∧ live identifier ∧ entry.name = identifier ++ jsonSuffix)) :
    (showAll codec entries).run.Succeeds FsOp.IsRead (Answers codec live) := by
  induction entries with
  | nil => exact ⟨[], rfl⟩
  | cons entry entries ih =>
    have hrest := ih fun entry' he => hentries entry' (List.mem_cons_of_mem _ he)
    rw [showAll]
    split
    next => exact hrest
    next hread =>
      obtain ⟨-, hfile⟩ := hentries entry List.mem_cons_self
      obtain ⟨identifier, hid, hlive, hname⟩ := hfile (not_not.1 (not_or.1 hread).2)
      have hstem : entry.name.take (entry.name.length - jsonSuffix.length) = identifier := by
        rw [hname, List.length_append, Nat.add_sub_cancel, List.take_left]
      rw [hstem]
      exact (succeeds_showIssue hid hlive).bind fun issue =>
        hrest.bind fun issues => ⟨issue :: issues, rfl⟩

theorem succeeds_list (sorter : Sorter C) :
    (list codec sorter).run.Succeeds FsOp.IsRead (Answers codec live) := by
  refine ⟨trivial, ?_⟩
  rintro answer ⟨entries, rfl, hentries⟩
  exact (succeeds_showAll hentries).bind fun issues => ⟨sorter.sort issues, rfl⟩

/-- Where a process that runs `List` can stand. -/
inductive Reads (codec : Codec C) (validContext : C → Prop) (identifier : List UInt8)
    (live : List UInt8 → Prop) (f : Files) : Proc (Except StoreError (List (Issue C))) → Prop
  | idle {rest : Prog FsSig (Except StoreError (List (Issue C)))}
      (h : rest.Succeeds FsOp.IsRead (Answers codec live)) :
      Reads codec validContext identifier live f ⟨rest, .idle⟩
  | reading {name got : List UInt8} {inode : Nat}
      {k : FsSig.Res (.readFile name) → Prog FsSig (Except StoreError (List (Issue C)))}
      (h : (Prog.op (S := FsSig) (.readFile name) k).Succeeds FsOp.IsRead (Answers codec live))
      (hs : ∀ owner, live owner → name = owner ++ jsonSuffix →
        Sealed codec validContext identifier f owner inode)
      (hgot : ∀ owner, live owner → name = owner ++ jsonSuffix → got <+: f.data inode) :
      Reads codec validContext identifier live f ⟨.op (.readFile name) k, .reading inode got⟩

/-- The writers do not disturb a reader. -/
theorem Reads.frame {r : Proc (Except StoreError (List (Issue C)))}
    (h : Reads codec validContext identifier live f r) (hframe : Frame identifier f f') :
    Reads codec validContext identifier live f' r := by
  cases h with
  | idle h => exact .idle h
  | reading h hs hgot =>
    refine .reading h (fun owner hlive hname => (hs owner hlive hname).frame hframe) ?_
    intro owner hlive hname
    have hsealed := hs owner hlive hname
    rw [hframe.data _ hsealed.lt hsealed.ne]
    exact hgot owner hlive hname

theorem Reads.step (hcodec : codec.Faithful validContext) (hwf : f.Wf)
    (hrep : Represents codec validContext true f.view m) (hlive : ∀ owner, live owner ↔ m owner ≠ none)
    {r r' : Proc (Except StoreError (List (Issue C)))}
    (h : Reads codec validContext identifier live f r) (hstep : ProcStep false f r f' r') :
    f' = f ∧ Reads codec validContext identifier live f r' := by
  cases h with
  | idle h =>
    cases hstep with
    | now => cases h.1
    | random => cases h.1
    | randomFails hf => cases hf
    | readDirFails hf => cases hf
    | openReadFails hf => cases hf
    | openWrite => cases h.1
    | openCreate => cases h.1
    | openWriteFails hf => cases hf
    | rename => cases h.1
    | renameMissing => cases h.1
    | renameFails hf => cases hf
    | readDir hlists =>
      refine ⟨rfl, .idle (h.2 _ ⟨_, rfl, fun entry he => ⟨hlists.isFile entry he, ?_⟩⟩)⟩
      intro hsuffix
      have hentry := (hlists.mem_iff _).1 (List.mem_map_of_mem he)
      obtain ⟨owner, issue, hm, hname⟩ := hrep.entry hentry hsuffix
      have hsome : m owner ≠ none := by
        rw [hm]
        exact Option.some_ne_none issue
      exact ⟨owner, hrep.plain owner issue hm, (hlive owner).2 hsome, hname⟩
    | openRead hname =>
      refine ⟨rfl, .reading h ?_ fun owner _ _ => List.nil_prefix⟩
      rintro owner howner rfl
      obtain ⟨issue, hm⟩ := Option.ne_none_iff_exists'.1 ((hlive owner).1 howner)
      exact hrep.sealed hwf hm hname
    | notExist hname =>
      refine ⟨rfl, .idle (h.2 _ ?_)⟩
      rintro owner howner rfl
      -- the file of an issue is there
      obtain ⟨issue, hm⟩ := Option.ne_none_iff_exists'.1 ((hlive owner).1 howner)
      obtain ⟨content, -, hfile⟩ := hrep.file owner issue hm
      rw [Files.view, hname] at hfile
      cases hfile
  | @reading name got inode k h hs hgot =>
    cases hstep with
    | readFails hf => cases hf
    | @read _ part _ _ _ _ hpart =>
      refine ⟨rfl, .reading h hs fun owner howner hname => ?_⟩
      obtain ⟨tail, htail⟩ := hgot owner howner hname
      rw [← htail, List.drop_left] at hpart
      rw [← htail]
      exact (List.prefix_append_right_inj got).2 hpart
    | readEnd hend =>
      refine ⟨rfl, .idle (h.2 _ fun owner howner hname => ⟨got, rfl, ?_⟩)⟩
      obtain rfl := (hgot owner howner hname).eq_of_length_le hend
      obtain ⟨issue, content, -, htext, hcontent, hdata⟩ := (hs owner howner hname).whole
      rw [hdata, hcodec issue content htext hcontent]
      exact Option.some_ne_none issue

end Reader

/-! ## Orderly runs -/

section Orderly

variable {codec : Codec C} {sorter : Sorter C} {validContext : C → Prop}
  {identifier argument₁ argument₂ status₁ status₂ : List UInt8} {files : Files} {m : IssueMap C}
  {s s' : System C} {old : Issue C}

theorem ProcStep.rest_ne {α : Type} {faulty : Bool} {f f' : Files} {p p' : Proc α}
    (h : ProcStep faulty f p f' p') (x : α) : p.rest ≠ .pure x := by
  intro hrest
  cases h <;> cases hrest

/-- What holds in every state of an orderly run. -/
structure System.Inv (codec : Codec C) (validContext : C → Prop)
    (identifier argument₁ argument₂ status₁ status₂ : List UInt8) (m : IssueMap C)
    (s : System C) : Prop where
  wf : s.files.Wf
  first : Phase codec validContext identifier argument₁ status₁ s.files s.first
  second : Phase codec validContext identifier argument₂ status₂ s.files s.second
  reader : Reads codec validContext identifier (fun owner => m owner ≠ none) s.files s.reader
  /-- Only one temporary file is in use. -/
  exclusive : ¬ (s.first.Replacing ∧ s.second.Replacing)
  /-- The file is the old one, or what one of the writers wrote. -/
  current : ∃ current, Represents codec validContext true s.files.view
      (Function.update m identifier (some current)) ∧
    ((∀ issue, s.first.rest ≠ .pure (.ok issue) ∧ s.second.rest ≠ .pure (.ok issue)) ∨
      s.first.rest = .pure (.ok current) ∨ s.second.rest = .pure (.ok current))

theorem live_update (hm : m identifier = some old) (current : Issue C) (owner : List UInt8) :
    m owner ≠ none ↔ Function.update m identifier (some current) owner ≠ none := by
  by_cases heq : owner = identifier
  · subst heq
    simp [hm]
  · rw [Function.update_of_ne heq]

theorem System.Inv.step (hcodec : codec.Faithful validContext) (hplain : PlainId identifier)
    (hstatus₁ : status₁ ∈ validStatuses) (hstatus₂ : status₂ ∈ validStatuses)
    (hm : m identifier = some old)
    (h : s.Inv codec validContext identifier argument₁ argument₂ status₁ status₂ m)
    (hstep : System.OrderlyStep s s') :
    s'.Inv codec validContext identifier argument₁ argument₂ status₁ status₂ m := by
  obtain ⟨hwf, hfirst, hsecond, hreader, hexclusive, current, hrep, hlast⟩ := h
  cases hstep with
  | @first f f' p p' q r h ho =>
    have hw := writerStep_of_phase hcodec hplain hstatus₁ hwf hrep hfirst h
    -- the second writer has no temporary file open, or no file was touched
    have hother : p.Opens ∨ p.Replacing → ¬ q.Replacing := by
      rintro (hopens | hp)
      · exact ho hopens
      · exact fun hq => hexclusive ⟨hp, hq⟩
    refine ⟨hw.wf, hw.phase, hsecond.frame hw.frame (hw.files.imp_right hother),
      hreader.frame hw.frame, fun hboth => hother (hw.replacing hboth.1) hboth.2, ?_⟩
    rcases hw.current with ⟨hrep', hrest⟩ | ⟨issue, hrep', hrest⟩
    · refine ⟨current, hrep', ?_⟩
      rcases hlast with hnone | hdone | hdone
      · exact .inl fun issue => ⟨hrest issue, (hnone issue).2⟩
      · exact absurd hdone (h.rest_ne _)
      · exact .inr (.inr hdone)
    · exact ⟨issue, hrep', .inr (.inl hrest)⟩
  | @second f f' p q q' r h ho =>
    have hw := writerStep_of_phase hcodec hplain hstatus₂ hwf hrep hsecond h
    have hother : q.Opens ∨ q.Replacing → ¬ p.Replacing := by
      rintro (hopens | hq)
      · exact ho hopens
      · exact fun hp => hexclusive ⟨hp, hq⟩
    refine ⟨hw.wf, hfirst.frame hw.frame (hw.files.imp_right hother), hw.phase,
      hreader.frame hw.frame, fun hboth => hother (hw.replacing hboth.2) hboth.1, ?_⟩
    rcases hw.current with ⟨hrep', hrest⟩ | ⟨issue, hrep', hrest⟩
    · refine ⟨current, hrep', ?_⟩
      rcases hlast with hnone | hdone | hdone
      · exact .inl fun issue => ⟨(hnone issue).1, hrest issue⟩
      · exact .inr (.inl hdone)
      · exact absurd hdone (h.rest_ne _)
    · exact ⟨issue, hrep', .inr (.inr hrest)⟩
  | reader h =>
    obtain ⟨rfl, hreader'⟩ := hreader.step hcodec hwf hrep (live_update hm current) h
    exact ⟨hwf, hfirst, hsecond, hreader', hexclusive, current, hrep, hlast⟩

theorem System.Inv.atomic
    (h : s.Inv codec validContext identifier argument₁ argument₂ status₁ status₂ m) :
    s.Atomic codec identifier := by
  obtain ⟨-, -, -, hreader, -, current, hrep, hlast⟩ := h
  have hcurrent : Function.update m identifier (some current) identifier = some current :=
    Function.update_self ..
  obtain ⟨content, hcontent, hfile⟩ := hrep.file identifier current hcurrent
  refine ⟨⟨current, content, hrep.id _ current hcurrent, hcontent, hfile⟩, ?_, ?_⟩
  · intro issue₁ issue₂ hfirst hsecond
    rcases hlast with hnone | hdone | hdone
    · exact absurd hfirst (hnone issue₁).1
    · obtain rfl := Except.ok.inj (Prog.pure.inj (hfirst.symm.trans hdone))
      exact ⟨content, .inl hcontent, hfile⟩
    · obtain rfl := Except.ok.inj (Prog.pure.inj (hsecond.symm.trans hdone))
      exact ⟨content, .inr hcontent, hfile⟩
  · intro r hrest
    generalize hr : s.reader = reader at hreader hrest
    cases hreader with
    | idle h =>
      obtain rfl : _ = Prog.pure r := hrest
      exact h
    | reading h => cases hrest

/-- A writer before its first step. -/
structure Fresh (codec : Codec C) (validContext : C → Prop)
    (identifier argument status : List UInt8) (f : Files)
    (p : Proc (Except StoreError (Issue C))) : Prop where
  valid : status ∈ validStatuses
  phase : Phase codec validContext identifier argument status f p
  notReplacing : ¬ p.Replacing
  rest_ne : ∀ issue, p.rest ≠ .pure (.ok issue)

theorem exists_fresh (codec : Codec C) (validContext : C → Prop) (hplain : PlainId identifier)
    (hid : trimSpace argument₁ = identifier) (status : List UInt8) (f : Files) :
    ∃ status', Fresh codec validContext identifier argument₁ status' f
      (.start (transition codec argument₁ status).run) := by
  by_cases hstatus : toLower (trimSpace status) ∈ validStatuses
  · refine ⟨_, hstatus, ?_, ?_, ?_⟩ <;>
      rw [Proc.start, transition_run (hid.symm ▸ hplain) hstatus, hid]
    · exact .reading
    · rintro (⟨_, _, _, h⟩ | ⟨_, _, _, h⟩) <;> cases h
    · rintro issue ⟨⟩
  · refine ⟨ascii "open", List.mem_cons_self, ?_, ?_, ?_⟩ <;>
      rw [Proc.start, transition_run_invalid hstatus]
    · exact .failed _
    · exact not_replacing_pure _
    · rintro issue ⟨⟩

/-- Two processes transition one issue and a third lists the issues, their steps in any order
    but for one thing: none opens the temporary file while the other is between opening and
    renaming it.  Then the file of the issue is whole at every moment, holds what one of the
    two wrote when both have succeeded, and the listing does not fail. -/
theorem orderly_atomic (hcodec : codec.Faithful validContext) (hwf : files.Wf)
    (hrep : Represents codec validContext true files.view m) (hm : m identifier = some old)
    (hid₁ : trimSpace argument₁ = identifier) (hid₂ : trimSpace argument₂ = identifier)
    (hrun : Relation.ReflTransGen System.OrderlyStep
      (System.start codec sorter files argument₁ status₁ argument₂ status₂) s) :
    s.Atomic codec identifier := by
  have hplain := hrep.plain identifier old hm
  obtain ⟨status₁', hfirst⟩ := exists_fresh codec validContext hplain hid₁ status₁ files
  obtain ⟨status₂', hsecond⟩ := exists_fresh codec validContext hplain hid₂ status₂ files
  have hinv : s.Inv codec validContext identifier argument₁ argument₂ status₁' status₂' m := by
    induction hrun with
    | refl =>
      refine ⟨hwf, hfirst.phase, hsecond.phase, .idle (succeeds_list sorter), ?_, old, ?_, ?_⟩
      · exact fun hboth => hfirst.notReplacing hboth.1
      · rwa [← hm, Function.update_eq_self]
      · exact .inl fun issue => ⟨hfirst.rest_ne issue, hsecond.rest_ne issue⟩
    | tail _ hstep ih => exact ih.step hcodec hplain hfirst.valid hsecond.valid hm hstep
  exact hinv.atomic

end Orderly

/-! ## A disorderly run -/

section Disorderly

abbrev ProcRun {α : Type} : Files × Proc α → Files × Proc α → Prop :=
  Relation.ReflTransGen fun a b => ProcStep true a.1 a.2 b.1 b.2

variable {f f' : Files} {p p' q q' : Proc (Except StoreError (Issue C))}
  {r : Proc (Except StoreError (List (Issue C)))}

theorem ProcRun.first (h : ProcRun (f, p) (f', p')) :
    Relation.ReflTransGen System.Step ⟨f, p, q, r⟩ ⟨f', p', q, r⟩ :=
  h.lift (fun a => (⟨a.1, a.2, q, r⟩ : System C)) fun _ _ hstep => .first hstep

theorem ProcRun.orderly (h : ProcRun (f, p) (f', p')) (hq : ¬ q.Replacing) :
    Relation.ReflTransGen System.OrderlyStep ⟨f, p, q, r⟩ ⟨f', p', q, r⟩ :=
  h.lift (fun a => (⟨a.1, a.2, q, r⟩ : System C)) fun _ _ hstep => .first hstep fun _ => hq

theorem ProcRun.second (h : ProcRun (f, q) (f', q')) :
    Relation.ReflTransGen System.Step ⟨f, p, q, r⟩ ⟨f', p, q', r⟩ :=
  h.lift (fun a => (⟨a.1, p, a.2, r⟩ : System C)) fun _ _ hstep => .second hstep

theorem ProcRun.step {c : Files × Proc (Except StoreError (Issue C))} (h : ProcStep true f p f' p')
    (hrest : ProcRun (f', p') c) : ProcRun (f, p) c := hrest.head h

variable {codec : Codec C} {identifier status status₁ status₂ : List UInt8}
  {old issue : Issue C} {content content₁ content₂ : List UInt8} {inode : Nat}

theorem procRun_opening (hplain : PlainId identifier) (hid : old.id = identifier)
    (hstatus : toLower (trimSpace status) ∈ validStatuses)
    (hname : f.names (identifier ++ jsonSuffix) = some inode)
    (hdecode : codec.decode (f.data inode) = some old) (t : Time)
    (hissue : issue = { old with status := toLower (trimSpace status), updatedAt := t })
    (hencode : codec.encode issue = some content) :
    ProcRun (f, Proc.start (transition codec identifier status).run)
      (f, ⟨.op (.writeFile (tmpName identifier) (content ++ [10])) (afterWrite issue), .idle⟩) := by
  have htrim := hplain.trimSpace
  have hissueId : issue.id = identifier := by rw [hissue, ← hid]
  have hafter : afterRead codec identifier (toLower (trimSpace status)) (.ok (f.data inode)) =
      .op .now fun now =>
        writeBack codec { old with status := toLower (trimSpace status), updatedAt := now } := by
    rw [afterRead, shown, hdecode]
    rfl
  have hwrite : writeBack codec issue =
      .op (.writeFile (tmpName identifier) (content ++ [10])) (afterWrite issue) := by
    rw [writeBack_eq (hissueId ▸ hplain), finish, hencode, hissueId]
  rw [Proc.start, transition_run (htrim.symm ▸ hplain) hstatus, htrim]
  -- open, read all, see the end
  have hall : f.data inode <+: (f.data inode).drop ([] : List UInt8).length := List.prefix_refl _
  have hend : (f.data inode).length ≤ ([] ++ f.data inode).length := Nat.le_refl _
  refine ProcRun.step (.openRead hname) (ProcRun.step (.read hall) (ProcRun.step (.readEnd hend) ?_))
  show ProcRun (f, ⟨afterRead codec identifier _ (.ok (f.data inode)), .idle⟩) _
  rw [hafter, ← hwrite, hissue]
  exact ProcRun.step (.now t) .refl

/-- The files when the temporary file was written and closed. -/
abbrev Files.withTmp (f : Files) (identifier content : List UInt8) : Files :=
  (f.create (tmpName identifier)).setData f.next (content ++ [10])

theorem procRun_closed (hplain : PlainId old.id)
    (hstatus : toLower (trimSpace status) ∈ validStatuses)
    (hname : f.names (old.id ++ jsonSuffix) = some inode) (htmp : f.names (tmpName old.id) = none)
    (hdecode : codec.decode (f.data inode) = some old) (t : Time)
    (hissue : issue = { old with status := toLower (trimSpace status), updatedAt := t })
    (hencode : codec.encode issue = some content) :
    ProcRun (f, Proc.start (transition codec old.id status).run)
      (f.withTmp old.id content,
        ⟨.op (.rename (tmpName old.id) (old.id ++ jsonSuffix)) (afterRename issue), .idle⟩) := by
  have hissueId : issue.id = old.id := by rw [hissue]
  have hempty : writeAt ((f.create (tmpName old.id)).data f.next) 0 (content ++ [10]) =
      content ++ [10] := by
    rw [show (f.create (tmpName old.id)).data f.next = [] from Function.update_self ..]
    exact writeAt_length [] _
  have hall := @ProcStep.write true (Except StoreError (Issue C)) (tmpName old.id)
    (content ++ [10]) (content ++ [10]) [] (afterWrite issue) (f.create (tmpName old.id)) f.next 0
  rw [List.append_nil, hempty] at hall
  have hclose := @ProcStep.close true (Except StoreError (Issue C)) (tmpName old.id)
    (content ++ [10]) (afterWrite issue) (f.withTmp old.id content) f.next
    (0 + (content ++ [10]).length)
  have hafter : afterWrite issue (.ok ()) =
      .op (.rename (tmpName old.id) (old.id ++ jsonSuffix)) (afterRename issue) := by
    rw [afterWrite, hissueId]
  rw [hafter] at hclose
  refine (procRun_opening hplain rfl hstatus hname hdecode t hissue hencode).trans ?_
  exact ProcRun.step (.openCreate htmp) (ProcRun.step hall (ProcRun.step hclose .refl))

theorem exists_empty (sorter : Sorter C) (hplain : PlainId old.id)
    (hstatus₁ : toLower (trimSpace status₁) ∈ validStatuses)
    (hstatus₂ : toLower (trimSpace status₂) ∈ validStatuses) (hwf : f.Wf)
    (hname : f.names (old.id ++ jsonSuffix) = some inode) (htmp : f.names (tmpName old.id) = none)
    (hdecode : codec.decode (f.data inode) = some old) (t₁ t₂ : Time)
    (hencode₁ : codec.encode { old with status := toLower (trimSpace status₁), updatedAt := t₁ } =
      some content₁)
    (hencode₂ : codec.encode { old with status := toLower (trimSpace status₂), updatedAt := t₂ } =
      some content₂) :
    ∃ s : System C, Relation.ReflTransGen System.Step
        (System.start codec sorter f old.id status₁ old.id status₂) s ∧
      s.files.view (old.id ++ jsonSuffix) = some [] := by
  -- the first writer has written and closed the temporary file
  have hwritten := procRun_closed hplain hstatus₁ hname htmp hdecode t₁ rfl hencode₁
  -- the second finds the old issue, and opens the file of the first
  have hne : old.id ++ jsonSuffix ≠ tmpName old.id := name_ne_tmp _ _
  have hinode : inode ≠ f.next := Nat.ne_of_lt (hwf.lt _ inode hname)
  have hname₁ : (f.withTmp old.id content₁).names (old.id ++ jsonSuffix) = some inode := by
    rw [← hname]
    exact Function.update_of_ne hne ..
  have hdata₁ : (f.withTmp old.id content₁).data inode = f.data inode := by
    show Function.update (Function.update f.data f.next []) f.next _ inode = _
    rw [Function.update_of_ne hinode, Function.update_of_ne hinode]
  have hopening := procRun_opening hplain rfl hstatus₂ hname₁ (hdata₁.symm ▸ hdecode) t₂ rfl hencode₂
  have htmp₁ : (f.withTmp old.id content₁).names (tmpName old.id) = some f.next :=
    Function.update_self ..
  -- the first renames what the second has emptied
  refine ⟨_, ((hwritten.first.trans hopening.second).tail (.second (.openWrite htmp₁))).tail
    (.first (.rename htmp₁)), ?_⟩
  rw [Files.view_rename, Function.update_self]
  exact congrArg some (Function.update_self ..)

end Disorderly

/-! ### One issue, resolved and closed -/

/-- The JSON of the issue with another status and time. -/
def issueText (status updatedAt : List UInt8) : List UInt8 :=
  ascii "\x7b\n  \"id\": \"" ++ sampleIssue.id ++
  ascii "\",\n  \"type\": \"bug\",\n  \"status\": \"" ++ status ++
  ascii "\",\n  \"message\": \"lost output\",\n  \"version\": \"0.1.0\",\n" ++
  ascii "  \"created_at\": \"2026-07-26T12:00:00Z\",\n  \"updated_at\": \"" ++ updatedAt ++
  ascii "\"\n\x7d"

theorem length_issueText (status updatedAt : List UInt8) :
    (issueText status updatedAt).length =
      (issueText [] []).length + status.length + updatedAt.length := by
  simp only [issueText, List.length_append, List.length_nil]
  omega

/-- An encoding/json for a few issues. -/
def Codec.table (entries : List (Issue Unit × List UInt8)) : Codec Unit where
  encode issue := (entries.find? fun entry => entry.1 = issue).map Prod.snd
  decode content := (entries.find? fun entry => entry.2 ++ [10] = content).map Prod.fst

theorem Codec.table_encode (issue : Issue Unit) (text : List UInt8)
    (entries : List (Issue Unit × List UInt8)) :
    (Codec.table ((issue, text) :: entries)).encode issue = some text := by
  simp [Codec.table]

theorem Codec.table_encode_of_ne {other issue : Issue Unit} (h : other ≠ issue) (text : List UInt8)
    (entries : List (Issue Unit × List UInt8)) :
    (Codec.table ((other, text) :: entries)).encode issue = (Codec.table entries).encode issue := by
  simp [Codec.table, h]

theorem Codec.table_faithful {entries : List (Issue Unit × List UInt8)}
    (h : entries.Pairwise fun a b => a.2 ≠ b.2) : (Codec.table entries).Faithful fun _ => True := by
  intro issue content _ hcontent
  obtain ⟨entry, hentry, rfl⟩ := Option.map_eq_some_iff.1 hcontent
  have hissue : entry.1 = issue := by simpa using List.find?_some hentry
  have hmem := List.mem_of_find?_eq_some hentry
  clear hentry hcontent
  show (entries.find? fun other => other.2 ++ [10] = entry.2 ++ [10]).map Prod.fst = some issue
  induction h with
  | nil => cases hmem
  | @cons other entries hne _ ih =>
    rcases List.mem_cons.1 hmem with rfl | hmem
    · rw [List.find?_cons_of_pos (by simp), Option.map_some, hissue]
    · have htext : other.2 ≠ entry.2 := hne entry hmem
      rw [List.find?_cons_of_neg (by simpa using htext)]
      exact ih hmem

def sampleFiles : Files where
  names := Function.update (fun _ => none) (sampleIssue.id ++ jsonSuffix) (some 0)
  data _ := issueText (ascii "open") (ascii "2026-07-26T12:00:00Z") ++ [10]
  next := 1

theorem names_sampleFiles : sampleFiles.names =
    Function.update (fun _ => none) (sampleIssue.id ++ jsonSuffix) (some 0) := rfl

def resolvedIssue : Issue Unit :=
  { sampleIssue with
    status := ascii "resolved", updatedAt := ⟨2026, 7, 26, 12, 1, 0, 0⟩ }

def closedIssue : Issue Unit :=
  { sampleIssue with
    status := ascii "closed", updatedAt := ⟨2026, 7, 26, 13, 0, 0, 0⟩ }

/-- encoding/json on the three. -/
def statusCodec : Codec Unit := .table
  [(sampleIssue, issueText (ascii "open") (ascii "2026-07-26T12:00:00Z")),
    (resolvedIssue, issueText (ascii "resolved") (ascii "2026-07-26T12:01:00Z")),
    (closedIssue, issueText (ascii "closed") (ascii "2026-07-26T13:00:00Z"))]

theorem issueText_ne {status updatedAt status' updatedAt' : List UInt8}
    (h : status.length + updatedAt.length ≠ status'.length + updatedAt'.length) :
    issueText status updatedAt ≠ issueText status' updatedAt' := by
  intro heq
  have hlen := congrArg List.length heq
  rw [length_issueText, length_issueText status'] at hlen
  omega

theorem statusCodec_faithful : statusCodec.Faithful fun _ => True := by
  refine Codec.table_faithful (List.Pairwise.cons ?_ (List.pairwise_pair.2 ?_))
  · intro entry hentry
    rcases List.mem_cons.1 hentry with rfl | hentry
    · exact issueText_ne (by decide)
    · obtain rfl := List.mem_singleton.1 hentry
      exact issueText_ne (by decide)
  · exact issueText_ne (by decide)

theorem sampleFiles_wf : sampleFiles.Wf := by
  have hname : ∀ name inode, sampleFiles.names name = some inode →
      name = sampleIssue.id ++ jsonSuffix ∧ inode = 0 := by
    intro name inode h
    rw [names_sampleFiles, Function.update_apply] at h
    split at h
    next heq => exact ⟨heq, (Option.some.inj h).symm⟩
    next => cases h
  refine ⟨fun a b inode ha hb => ?_, fun name inode h => ?_⟩
  · rw [(hname a inode ha).1, (hname b inode hb).1]
  · rw [(hname name inode h).2]
    exact Nat.one_pos

theorem view_sampleFiles : sampleFiles.view = Function.update (fun _ => none)
    (sampleIssue.id ++ jsonSuffix)
    (some (issueText (ascii "open") (ascii "2026-07-26T12:00:00Z") ++ [10])) := by
  funext name
  rw [Files.view, names_sampleFiles, Function.update_apply, Function.update_apply]
  split
  next => rfl
  next => rfl

theorem encode_sampleIssue : statusCodec.encode sampleIssue =
    some (issueText (ascii "open") (ascii "2026-07-26T12:00:00Z")) := Codec.table_encode ..

theorem encode_resolvedIssue : statusCodec.encode resolvedIssue =
    some (issueText (ascii "resolved") (ascii "2026-07-26T12:01:00Z")) := by
  have hne : sampleIssue ≠ resolvedIssue := fun h => absurd (congrArg Issue.status h) (by decide)
  rw [statusCodec, Codec.table_encode_of_ne hne, Codec.table_encode]

theorem encode_closedIssue : statusCodec.encode closedIssue =
    some (issueText (ascii "closed") (ascii "2026-07-26T13:00:00Z")) := by
  have hne : sampleIssue ≠ closedIssue := fun h => absurd (congrArg Issue.status h) (by decide)
  have hne' : resolvedIssue ≠ closedIssue := fun h => absurd (congrArg Issue.status h) (by decide)
  rw [statusCodec, Codec.table_encode_of_ne hne, Codec.table_encode_of_ne hne', Codec.table_encode]

theorem sampleIssue_plainId : PlainId sampleIssue.id := plain_identifierText sampleTime [0, 1, 2, 3]

theorem sampleIssue_textual : sampleIssue.Textual fun _ => True := by
  have hascii : ∀ b ∈ sampleIssue.type ++ sampleIssue.status ++ sampleIssue.message ++
      sampleIssue.version, b.toNat < 128 := by decide +kernel
  exact ⟨sampleIssue_plainId.validUtf8, validUtf8_of_ascii fun b hb => hascii b (by simp [hb]),
    validUtf8_of_ascii fun b hb => hascii b (by simp [hb]),
    validUtf8_of_ascii fun b hb => hascii b (by simp [hb]),
    validUtf8_of_ascii fun b hb => hascii b (by simp [hb]), trivial⟩

theorem sampleFiles_represents : Represents statusCodec (fun _ => True) true sampleFiles.view
    (Function.update (fun _ => none) sampleIssue.id (some sampleIssue)) := by
  have hwrite := Represents.empty.write sampleIssue_plainId sampleIssue_textual encode_sampleIssue
  have hnone : Function.update (fun _ => none : Dir) (sampleIssue.id ++ jsonSuffix ++ tmpSuffix) none =
      fun _ => none := Function.update_eq_self _ (fun _ => none : Dir)
  rw [hnone, ← view_sampleFiles] at hwrite
  exact hwrite.weaken

theorem name_sampleFiles : sampleFiles.names (sampleIssue.id ++ jsonSuffix) = some 0 := by
  rw [names_sampleFiles, Function.update_self]

theorem tmpName_sampleFiles : sampleFiles.names (tmpName sampleIssue.id) = none := by
  rw [names_sampleFiles, Function.update_of_ne fun heq => name_ne_tmp _ _ heq.symm]

theorem decode_sampleFiles : statusCodec.decode (sampleFiles.data 0) = some sampleIssue :=
  statusCodec_faithful sampleIssue _ sampleIssue_textual encode_sampleIssue

theorem resolved_valid : toLower (trimSpace (ascii "resolved")) = ascii "resolved" ∧
    ascii "resolved" ∈ validStatuses := by decide

theorem closed_valid : toLower (trimSpace (ascii "closed")) = ascii "closed" ∧
    ascii "closed" ∈ validStatuses := by decide

/-- One process resolves the issue, before another closes it. -/
theorem orderly_atomic_sample : System.Atomic statusCodec sampleIssue.id
    ⟨sampleFiles.withTmp sampleIssue.id
        (issueText (ascii "resolved") (ascii "2026-07-26T12:01:00Z")),
      ⟨.op (.rename (tmpName sampleIssue.id) (sampleIssue.id ++ jsonSuffix))
        (afterRename resolvedIssue), .idle⟩,
      .start (transition statusCodec sampleIssue.id (ascii "closed")).run,
      .start (list statusCodec mergeSorter).run⟩ := by
  have hvalid : toLower (trimSpace (ascii "resolved")) ∈ validStatuses :=
    resolved_valid.1.symm ▸ resolved_valid.2
  have hissue : resolvedIssue = { sampleIssue with
      status := toLower (trimSpace (ascii "resolved")), updatedAt := ⟨2026, 7, 26, 12, 1, 0, 0⟩ } := by
    rw [resolved_valid.1, resolvedIssue]
  have hrun := procRun_closed sampleIssue_plainId hvalid name_sampleFiles tmpName_sampleFiles
    decode_sampleFiles _ hissue encode_resolvedIssue
  obtain ⟨status, hfresh⟩ := exists_fresh statusCodec (fun _ => True) sampleIssue_plainId
    sampleIssue_plainId.trimSpace (ascii "closed") sampleFiles
  exact orderly_atomic statusCodec_faithful sampleFiles_wf sampleFiles_represents
    (Function.update_self ..) sampleIssue_plainId.trimSpace sampleIssue_plainId.trimSpace
    (hrun.orderly hfresh.notReplacing)

/-- The second process empties what the first renames. -/
theorem not_atomic :
    ¬ ∀ (codec : Codec Unit) (sorter : Sorter Unit) (files : Files) (m : IssueMap Unit)
      (identifier status₁ status₂ : List UInt8) (old : Issue Unit) (s : System Unit),
      codec.Faithful (fun _ => True) → files.Wf →
      Represents codec (fun _ => True) true files.view m → m identifier = some old →
      Relation.ReflTransGen System.Step
        (System.start codec sorter files identifier status₁ identifier status₂) s →
      s.Atomic codec identifier := by
  intro hall
  have hresolve : statusCodec.encode { sampleIssue with
      status := toLower (trimSpace (ascii "resolved")), updatedAt := ⟨2026, 7, 26, 12, 1, 0, 0⟩ } =
      some (issueText (ascii "resolved") (ascii "2026-07-26T12:01:00Z")) := by
    rw [resolved_valid.1]
    exact encode_resolvedIssue
  have hclose : statusCodec.encode { sampleIssue with
      status := toLower (trimSpace (ascii "closed")), updatedAt := ⟨2026, 7, 26, 13, 0, 0, 0⟩ } =
      some (issueText (ascii "closed") (ascii "2026-07-26T13:00:00Z")) := by
    rw [closed_valid.1]
    exact encode_closedIssue
  obtain ⟨s, hrun, hempty⟩ := exists_empty mergeSorter sampleIssue_plainId
    (resolved_valid.1.symm ▸ resolved_valid.2) (closed_valid.1.symm ▸ closed_valid.2)
    sampleFiles_wf name_sampleFiles tmpName_sampleFiles decode_sampleFiles _ _ hresolve hclose
  have hatomic := hall _ _ _ _ _ _ _ _ s statusCodec_faithful sampleFiles_wf sampleFiles_represents
    (Function.update_self ..) hrun
  obtain ⟨issue, content, -, -, hwhole⟩ := hatomic.whole
  have hnil := Option.some.inj (hempty.symm.trans hwhole)
  exact List.append_ne_nil_of_right_ne_nil content (List.cons_ne_nil 10 []) hnil.symm

end CheatEngine.Feedback
