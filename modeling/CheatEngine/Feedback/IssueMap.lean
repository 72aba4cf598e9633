/-
  CheatEngine.Feedback.IssueMap

  What the store is for: a map from identifiers to issues.  `recorded` is that map, made of
  the results of the calls alone; `Represents` relates a directory to it.

  Calls run one after the other.  In a call that is `faulty` every call of the operating
  system may fail, and a write may stop anywhere.  Main result: `store_is_map`.
-/
import CheatEngine.Feedback.Directory

namespace CheatEngine.Feedback

open CheatEngine.Lib CheatEngine.Lib.Go

section Calls

variable {C : Type}

/-- A call of a method, with its arguments. -/
inductive Call (C : Type)
  | create (issueType message version : List UInt8) (context : C) (exitCode : Option Int)
  | list
  | showIssue (identifier : List UInt8)
  | transition (identifier status : List UInt8)

/-- What a call returns when it does not fail. -/
inductive Reply (C : Type)
  | issue (issue : Issue C)
  | issues (issues : List (Issue C))

/-- The method. -/
def Call.run (codec : Codec C) (sorter : Sorter C) : Call C → StoreM (Reply C)
  | .create issueType message version context exitCode => do
    return .issue (← Feedback.create codec issueType message version context exitCode)
  | .list => do return .issues (← Feedback.list codec sorter)
  | .showIssue identifier => do return .issue (← Feedback.showIssue codec identifier)
  | .transition identifier status => do return .issue (← Feedback.transition codec identifier status)

/-- A call that was made: the directory before and after it, and what it returned. -/
structure CallRun (C : Type) where
  call : Call C
  faulty : Bool
  before : Dir
  reply : Except StoreError (Reply C)
  after : Dir

inductive Runs (codec : Codec C) (sorter : Sorter C) : Dir → List (CallRun C) → Dir → Prop
  | nil (dir : Dir) : Runs codec sorter dir [] dir
  | cons (c : CallRun C) {calls : List (CallRun C)} {dir : Dir}
      (h : CanGive (FsStep c.faulty) (c.call.run codec sorter) c.before c.reply c.after)
      (hrest : Runs codec sorter c.after calls dir) : Runs codec sorter c.before (c :: calls) dir

abbrev IssueMap (C : Type) : Type := List UInt8 → Option (Issue C)

def CallRun.written (c : CallRun C) : Option (Issue C) :=
  match c.call, c.reply with
  | .create _ _ _ _ _, .ok (.issue issue) => some issue
  | .transition _ _, .ok (.issue issue) => some issue
  | _, _ => none

def CallRun.created (c : CallRun C) : Option (Issue C) :=
  match c.call, c.reply with
  | .create _ _ _ _ _, .ok (.issue issue) => some issue
  | _, _ => none

def record (m : IssueMap C) (c : CallRun C) : IssueMap C :=
  match c.written with
  | some issue => Function.update m issue.id (some issue)
  | none => m

/-- Each identifier with the issue that `Create` or `Transition` returned last. -/
def recorded (calls : List (CallRun C)) : IssueMap C := calls.foldl record fun _ => none

/-- The texts that a call brings in are valid UTF-8. -/
def Call.Textual (validContext : C → Prop) : Call C → Prop
  | .create _ message version context _ =>
    ValidUtf8 message ∧ ValidUtf8 version ∧ validContext context
  | _ => True

/-- The texts of an issue are valid UTF-8. -/
structure Issue.Textual (validContext : C → Prop) (issue : Issue C) : Prop where
  id : ValidUtf8 issue.id
  type : ValidUtf8 issue.type
  status : ValidUtf8 issue.status
  message : ValidUtf8 issue.message
  version : ValidUtf8 issue.version
  context : validContext issue.context

/-- encoding/json gives an issue back as it was. -/
def Codec.Faithful (codec : Codec C) (validContext : C → Prop) : Prop :=
  ∀ issue content, issue.Textual validContext → codec.encode issue = some content →
    codec.decode (content ++ [10]) = some issue

/-- A directory holds the issues of a map, and nothing else but what a fault left. -/
structure Represents (codec : Codec C) (validContext : C → Prop) (dirty : Bool) (dir : Dir)
    (m : IssueMap C) : Prop where
  id : ∀ identifier issue, m identifier = some issue → issue.id = identifier
  plain : ∀ identifier issue, m identifier = some issue → PlainId identifier
  textual : ∀ identifier issue, m identifier = some issue → issue.Textual validContext
  file : ∀ identifier issue, m identifier = some issue → ∃ content,
    codec.encode issue = some content ∧ dir (identifier ++ jsonSuffix) = some (content ++ [10])
  only : ∀ name content, dir name = some content →
    (∃ identifier issue, m identifier = some issue ∧ name = identifier ++ jsonSuffix) ∨
      (dirty = true ∧ tmpSuffix <:+ name)

/-! ## What the methods do to the map -/

def createdIds (calls : List (CallRun C)) : List (List UInt8) :=
  calls.filterMap fun c => c.created.map Issue.id

section Represents

variable {codec : Codec C} {validContext : C → Prop} {dirty faulty : Bool} {dir dir' : Dir}
  {m : IssueMap C} {issue : Issue C} {identifier : List UInt8}

theorem Represents.empty : Represents codec validContext false (fun _ => none) fun _ => none where
  id _ _ h := by cases h
  plain _ _ h := by cases h
  textual _ _ h := by cases h
  file _ _ h := by cases h
  only _ _ h := by cases h

theorem Represents.weaken (h : Represents codec validContext dirty dir m) :
    Represents codec validContext (dirty || faulty) dir m where
  id := h.id
  plain := h.plain
  textual := h.textual
  file := h.file
  only name content hname := by
    rcases h.only name content hname with hfile | ⟨hdirty, htmp⟩
    · exact .inl hfile
    · exact .inr ⟨by rw [hdirty, Bool.true_or], htmp⟩

/-- The files of two identifiers, and a temporary file, are three. -/
theorem name_ne {a b : List UInt8} (h : a ≠ b) : a ++ jsonSuffix ≠ b ++ jsonSuffix :=
  fun heq => h (List.append_cancel_right heq)

theorem name_ne_tmp (a b : List UInt8) : a ++ jsonSuffix ≠ b ++ jsonSuffix ++ tmpSuffix :=
  fun heq => not_tmpSuffix a (heq ▸ List.suffix_append _ _)

section

variable (h : Represents codec validContext dirty dir m)
include h

theorem Represents.leftover (identifier part : List UInt8) :
    Represents codec validContext true
      (Function.update dir (identifier ++ jsonSuffix ++ tmpSuffix) (some part)) m where
  id := h.id
  plain := h.plain
  textual := h.textual
  file id' issue' hm := by
    obtain ⟨content, hcontent, hfile⟩ := h.file id' issue' hm
    exact ⟨content, hcontent, by rwa [Function.update_of_ne (name_ne_tmp _ _)]⟩
  only name content hname := by
    by_cases heq : name = identifier ++ jsonSuffix ++ tmpSuffix
    · exact .inr ⟨rfl, heq ▸ List.suffix_append _ _⟩
    · rw [Function.update_of_ne heq] at hname
      rcases h.only name content hname with hfile | ⟨-, htmp⟩
      · exact .inl hfile
      · exact .inr ⟨rfl, htmp⟩

theorem Represents.write (hid : PlainId issue.id)
    (htext : issue.Textual validContext) {content : List UInt8}
    (hcontent : codec.encode issue = some content) :
    Represents codec validContext dirty
      (Function.update (Function.update dir (issue.id ++ jsonSuffix ++ tmpSuffix) none)
        (issue.id ++ jsonSuffix) (some (content ++ [10])))
      (Function.update m issue.id (some issue)) := by
  have hcase : ∀ id' issue', Function.update m issue.id (some issue) id' = some issue' →
      (id' = issue.id ∧ issue' = issue) ∨ (id' ≠ issue.id ∧ m id' = some issue') := by
    intro id' issue' hm
    by_cases heq : id' = issue.id
    · subst heq
      rw [Function.update_self] at hm
      exact .inl ⟨rfl, (Option.some.inj hm).symm⟩
    · rw [Function.update_of_ne heq] at hm
      exact .inr ⟨heq, hm⟩
  constructor
  · intro id' issue' hm
    rcases hcase id' issue' hm with ⟨rfl, rfl⟩ | ⟨-, hm⟩
    · rfl
    · exact h.id id' issue' hm
  · intro id' issue' hm
    rcases hcase id' issue' hm with ⟨rfl, -⟩ | ⟨-, hm⟩
    · exact hid
    · exact h.plain id' issue' hm
  · intro id' issue' hm
    rcases hcase id' issue' hm with ⟨-, rfl⟩ | ⟨-, hm⟩
    · exact htext
    · exact h.textual id' issue' hm
  · intro id' issue' hm
    rcases hcase id' issue' hm with ⟨rfl, rfl⟩ | ⟨hne, hm⟩
    · exact ⟨content, hcontent, Function.update_self ..⟩
    · obtain ⟨content', hcontent', hfile⟩ := h.file id' issue' hm
      refine ⟨content', hcontent', ?_⟩
      rwa [Function.update_of_ne (name_ne hne), Function.update_of_ne (name_ne_tmp _ _)]
  · intro name content' hname
    by_cases hpath : name = issue.id ++ jsonSuffix
    · exact .inl ⟨issue.id, issue, Function.update_self .., hpath⟩
    rw [Function.update_of_ne hpath] at hname
    by_cases htmp : name = issue.id ++ jsonSuffix ++ tmpSuffix
    · rw [htmp, Function.update_self] at hname
      cases hname
    rw [Function.update_of_ne htmp] at hname
    rcases h.only name content' hname with ⟨id', issue', hm, rfl⟩ | hleft
    · have hne : id' ≠ issue.id := fun heq => hpath (by rw [heq])
      exact .inl ⟨id', issue', by rwa [Function.update_of_ne hne], rfl⟩
    · exact .inr hleft

theorem Represents.showIssue
    (hcodec : codec.Faithful validContext) {r : Except StoreError (Issue C)}
    (hrun : CanGive (FsStep faulty) (showIssue codec identifier) dir r dir') :
    dir' = dir ∧ (∀ issue, r = .ok issue → m (trimSpace identifier) = some issue) ∧
      (faulty = false → ∀ issue, m (trimSpace identifier) = some issue → r = .ok issue) := by
  -- the file that the map tells of
  have hfile : ∀ issue, m (trimSpace identifier) = some issue → ∃ content,
      dir (trimSpace identifier ++ jsonSuffix) = some content ∧ codec.decode content = some issue := by
    intro issue hm
    obtain ⟨content, hcontent, hname⟩ := h.file _ issue hm
    exact ⟨_, hname, hcodec issue content (h.textual _ issue hm) hcontent⟩
  obtain ⟨rfl, ⟨e, he, rfl⟩ | ⟨path, hpath, hcase⟩⟩ := canGive_showIssue hrun
  · refine ⟨rfl, fun issue hr => (by cases hr), fun _ issue hm => ?_⟩
    cases (issuePath_of_plain (h.plain _ issue hm)).symm.trans he
  obtain rfl := issuePath_eq_ok hpath
  rcases hcase with ⟨content, hcontent, hiff⟩ | ⟨⟨e, rfl⟩, hnone⟩
  · refine ⟨rfl, fun issue hr => ?_, fun _ issue hm => ?_⟩
    · rcases h.only _ content hcontent with ⟨id', issue', hm, heq⟩ | ⟨-, htmp⟩
      · rw [← List.append_cancel_right heq] at hm
        obtain ⟨content', hname, hdecode⟩ := hfile issue' hm
        obtain rfl := Option.some.inj (hcontent.symm.trans hname)
        obtain rfl := Option.some.inj (((hiff issue).1 hr).symm.trans hdecode)
        exact hm
      · exact absurd htmp (not_tmpSuffix _)
    · obtain ⟨content', hname, hdecode⟩ := hfile issue hm
      obtain rfl := Option.some.inj (hcontent.symm.trans hname)
      exact (hiff issue).2 hdecode
  · refine ⟨rfl, fun issue hr => (by cases hr), fun hfaulty issue hm => ?_⟩
    obtain ⟨content', hname, -⟩ := hfile issue hm
    rcases hnone with hnone | hf
    · cases hnone.symm.trans hname
    · cases hfaulty.symm.trans hf

end

end Represents

/-! ### Creating and changing -/

/-- The file of the issue was replaced. -/
def Written (codec : Codec C) (issue : Issue C) (dir dir' : Dir) : Prop :=
  PlainId issue.id ∧ ∃ content, codec.encode issue = some content ∧
    dir' = Function.update (Function.update dir (issue.id ++ jsonSuffix ++ tmpSuffix) none)
      (issue.id ++ jsonSuffix) (some (content ++ [10]))

/-- At most a temporary file was left, and that only by a fault. -/
def Leaves (faulty : Bool) (dir dir' : Dir) : Prop :=
  dir' = dir ∨ faulty = true ∧ ∃ identifier part,
    dir' = Function.update dir (identifier ++ jsonSuffix ++ tmpSuffix) (some part)

section Changes

variable {codec : Codec C} {validContext : C → Prop} {dirty faulty : Bool} {dir dir' : Dir}
  {m : IssueMap C} {issue : Issue C} {identifier : List UInt8}

theorem Represents.written (h : Represents codec validContext dirty dir m)
    (htext : issue.Textual validContext) (hw : Written codec issue dir dir') :
    Represents codec validContext dirty dir' (Function.update m issue.id (some issue)) := by
  obtain ⟨hid, content, hcontent, rfl⟩ := hw
  exact h.write hid htext hcontent

theorem Represents.leaves (h : Represents codec validContext dirty dir m)
    (hl : Leaves faulty dir dir') : Represents codec validContext (dirty || faulty) dir' m := by
  rcases hl with rfl | ⟨rfl, identifier, part, rfl⟩
  · exact h.weaken
  · rw [Bool.or_true]
    exact h.leftover identifier part

theorem validUtf8_of_mem_validTypes {issueType : List UInt8} (h : issueType ∈ validTypes) :
    ValidUtf8 issueType := by
  have hall : ∀ t ∈ validTypes, ∀ b ∈ t, b.toNat < 128 := by decide +kernel
  exact validUtf8_of_ascii (hall issueType h)

theorem validUtf8_of_mem_validStatuses {status : List UInt8} (h : status ∈ validStatuses) :
    ValidUtf8 status := by
  have hall : ∀ t ∈ validStatuses, ∀ b ∈ t, b.toNat < 128 := by decide +kernel
  exact validUtf8_of_ascii (hall status h)

variable {r : Except StoreError (Issue C)}

theorem canGive_write_return (issue : Issue C) (hid : PlainId issue.id)
    (h : CanGive (FsStep faulty) (do write codec issue; return issue) dir r dir') :
    (r = .ok issue ∧ Written codec issue dir dir') ∨
      (∃ e, r = .error e ∧ ¬ e.Invalid) ∧ Leaves faulty dir dir' := by
  have hwrite := canGive_bind.1 h
  obtain ⟨e, herror, rfl⟩ | ⟨⟨⟩, dir₁, hok, hpure⟩ := hwrite
  · rcases canGive_write hid herror with ⟨hr, -⟩ | ⟨⟨e', hr, hinvalid⟩, hleft⟩
    · cases hr
    · obtain rfl := Except.error.inj hr
      refine .inr ⟨⟨e, rfl, hinvalid⟩, ?_⟩
      rcases hleft with rfl | ⟨hf, part, rfl⟩
      · exact .inl rfl
      · exact .inr ⟨hf, _, part, rfl⟩
  · obtain ⟨rfl, rfl⟩ := canGive_pure.1 hpure
    rcases canGive_write hid hok with ⟨-, hw⟩ | ⟨⟨e, hr, -⟩, -⟩
    · exact .inl ⟨rfl, hid, hw⟩
    · cases hr

theorem canGive_create {issueType message version : List UInt8} {context : C}
    {exitCode : Option Int}
    (hmessage : ValidUtf8 message) (hversion : ValidUtf8 version) (hcontext : validContext context)
    (h : CanGive (FsStep faulty) (create codec issueType message version context exitCode) dir r dir') :
    (∃ issue, r = .ok issue ∧ issue.Textual validContext ∧ Written codec issue dir dir') ∨
      (∃ e, r = .error e ∧ (e.Invalid → dir' = dir)) ∧ Leaves faulty dir dir' := by
  have hstop : ∀ e, CanGive (FsStep faulty) (throw e : StoreM (Issue C)) dir r dir' →
      (∃ e, r = .error e ∧ (e.Invalid → dir' = dir)) ∧ Leaves faulty dir dir' := by
    intro e he
    obtain ⟨rfl, rfl⟩ := canGive_throw.1 he
    exact ⟨⟨e, rfl, fun _ => rfl⟩, .inl rfl⟩
  obtain ⟨-, htype⟩ | ⟨htype, h⟩ := canGive_ite.1 h
  · exact .inr (hstop _ htype)
  obtain ⟨-, hempty⟩ | ⟨-, h⟩ := canGive_ite.1 h
  · exact .inr (hstop _ hempty)
  obtain ⟨-, hlong⟩ | ⟨-, h⟩ := canGive_ite.1 h
  · exact .inr (hstop _ hlong)
  obtain ⟨now, dir₁, hnow, h⟩ := canGive_lift_bind.1 h
  cases hnow
  -- the identifier, or no random bytes
  obtain ⟨e, he, rfl⟩ | ⟨identifier, dir₁, hidentifier, h⟩ := canGive_bind.1 h
  · obtain ⟨answer, dir₂, hrandom, hrest⟩ := canGive_lift_bind.1 he
    cases hrandom with
    | random bytes => cases (canGive_pure.1 hrest).1
    | randomFails hf =>
      obtain ⟨hr, rfl⟩ := canGive_throw.1 hrest
      exact .inr ⟨⟨e, rfl, fun _ => rfl⟩, .inl rfl⟩
  obtain ⟨answer, dir₂, hrandom, hrest⟩ := canGive_lift_bind.1 hidentifier
  cases hrandom with
  | randomFails hf => cases (canGive_throw.1 hrest).1
  | random bytes =>
    obtain ⟨hid, rfl⟩ := canGive_pure.1 hrest
    obtain rfl := Except.ok.inj hid
    have hplain := plain_identifierText now bytes.1
    have hopen : ascii "open" ∈ validStatuses := by decide
    rcases canGive_write_return _ hplain h with ⟨rfl, hw⟩ | ⟨⟨e, rfl, hinvalid⟩, hleft⟩
    · refine .inl ⟨_, rfl, ?_, hw⟩
      exact ⟨hplain.validUtf8, validUtf8_of_mem_validTypes (not_not.1 htype),
        validUtf8_of_mem_validStatuses hopen, hmessage.trimSpace, hversion, hcontext⟩
    · exact .inr ⟨⟨e, rfl, fun h => absurd h hinvalid⟩, hleft⟩

theorem Represents.transition (hrep : Represents codec validContext dirty dir m)
    (hcodec : codec.Faithful validContext) {status : List UInt8}
    (h : CanGive (FsStep faulty) (transition codec identifier status) dir r dir') :
    (∃ old now issue, m (trimSpace identifier) = some old ∧
      issue = { old with status := toLower (trimSpace status), updatedAt := now } ∧ r = .ok issue ∧
      issue.Textual validContext ∧ Written codec issue dir dir') ∨
      (∃ e, r = .error e ∧ (e.Invalid → dir' = dir)) ∧ Leaves faulty dir dir' := by
  obtain ⟨-, hstop⟩ | ⟨hstatus, hbody⟩ := canGive_ite.1 h
  · obtain ⟨rfl, rfl⟩ := canGive_throw.1 hstop
    exact .inr ⟨⟨_, rfl, fun _ => rfl⟩, .inl rfl⟩
  obtain ⟨e, he, rfl⟩ | ⟨old, dir₁, hshow, hrest⟩ := canGive_bind.1 hbody
  · obtain ⟨rfl, -⟩ := hrep.showIssue hcodec he
    exact .inr ⟨⟨e, rfl, fun _ => rfl⟩, .inl rfl⟩
  obtain ⟨rfl, hold, -⟩ := hrep.showIssue hcodec hshow
  have hm := hold old rfl
  obtain ⟨now, dir₂, hnow, hwrite⟩ := canGive_lift_bind.1 hrest
  cases hnow
  -- the identifier of the file and the one that was asked for are the same
  have hid : PlainId old.id := by
    rw [hrep.id _ old hm]
    exact hrep.plain _ old hm
  have htext := hrep.textual _ old hm
  rcases canGive_write_return
    { old with status := toLower (trimSpace status), updatedAt := now } hid hwrite with
    ⟨rfl, hw⟩ | ⟨⟨e, rfl, hinvalid⟩, hleft⟩
  · refine .inl ⟨old, now, _, hm, rfl, rfl, ?_, hw⟩
    exact ⟨htext.id, htext.type, validUtf8_of_mem_validStatuses (not_not.1 hstatus), htext.message,
      htext.version, htext.context⟩
  · exact .inr ⟨⟨e, rfl, fun h => absurd h hinvalid⟩, hleft⟩

end Changes

/-! ### Listing -/

/-- What `List` makes of an entry: nothing, or the issue of the identifier in its name. -/
def entryIssue (m : IssueMap C) (entry : DirEntry) : Option (Issue C) :=
  if entry.isDir ∨ ¬ jsonSuffix <:+ entry.name then none
  else m (entry.name.take (entry.name.length - jsonSuffix.length))

theorem entryIssue_of_name (m : IssueMap C) {entry : DirEntry} {identifier : List UInt8}
    (hdir : entry.isDir = false) (hname : entry.name = identifier ++ jsonSuffix) :
    entryIssue m entry = m identifier := by
  have hsuffix : jsonSuffix <:+ identifier ++ jsonSuffix := List.suffix_append _ _
  simp [entryIssue, hdir, hname, hsuffix]

section Listing

variable {codec : Codec C} {validContext : C → Prop} {dirty faulty : Bool} {dir dir' : Dir}
  {m : IssueMap C} {entries : List DirEntry}

theorem Represents.entry (h : Represents codec validContext dirty dir m) {entry : DirEntry}
    (hentry : dir entry.name ≠ none) (hsuffix : jsonSuffix <:+ entry.name) :
    ∃ identifier issue, m identifier = some issue ∧ entry.name = identifier ++ jsonSuffix := by
  obtain ⟨content, hcontent⟩ := Option.ne_none_iff_exists'.1 hentry
  rcases h.only _ content hcontent with hfile | ⟨-, htmp⟩
  · exact hfile
  · obtain ⟨front, hfront⟩ := hsuffix
    exact absurd (hfront ▸ htmp) (not_tmpSuffix front)

theorem Represents.showAll (h : Represents codec validContext dirty dir m)
    (hcodec : codec.Faithful validContext) (hentries : ∀ entry ∈ entries, dir entry.name ≠ none)
    {r : Except StoreError (List (Issue C))}
    (hrun : CanGive (FsStep faulty) (showAll codec entries) dir r dir') :
    dir' = dir ∧ (∀ issues, r = .ok issues → issues = entries.filterMap (entryIssue m)) ∧
      (faulty = false → ∃ issues, r = .ok issues) := by
  induction entries generalizing dir' r with
  | nil =>
    obtain ⟨rfl, rfl⟩ := canGive_pure.1 hrun
    exact ⟨rfl, fun issues hr => (Except.ok.inj hr).symm, fun _ => ⟨[], rfl⟩⟩
  | cons entry entries ih =>
    have hrest : ∀ entry' ∈ entries, dir entry'.name ≠ none :=
      fun entry' he => hentries entry' (by simp [he])
    obtain ⟨hskip, hrun⟩ | ⟨hread, hrun⟩ := canGive_ite.1 hrun
    · have hnone : entryIssue m entry = none := by
        rw [entryIssue, if_pos hskip]
      rw [List.filterMap_cons_none hnone]
      exact ih hrest hrun
    · obtain ⟨hdir, hsuffix⟩ : entry.isDir = false ∧ jsonSuffix <:+ entry.name := by
        simpa [not_or] using hread
      obtain ⟨identifier, issue, hm, hname⟩ := h.entry (hentries entry (by simp)) hsuffix
      have hstem : entry.name.take (entry.name.length - jsonSuffix.length) = identifier := by
        rw [hname, List.length_append, Nat.add_sub_cancel, List.take_left]
      have hentry := entryIssue_of_name m hdir hname
      have htrim := (h.plain _ issue hm).trimSpace
      rw [hstem] at hrun
      obtain ⟨e, he, rfl⟩ | ⟨found, dir₁, hshow, hloop⟩ := canGive_bind.1 hrun
      · obtain ⟨rfl, -, hfound⟩ := h.showIssue hcodec he
        refine ⟨rfl, fun issues hr => (by cases hr), fun hf => ?_⟩
        cases hfound hf issue (by rwa [htrim])
      obtain ⟨rfl, hfound, -⟩ := h.showIssue hcodec hshow
      have hsame : entryIssue m entry = some found := by
        rw [hentry, ← htrim]
        exact hfound found rfl
      rw [List.filterMap_cons_some hsame]
      obtain ⟨e, he, rfl⟩ | ⟨issues, dir₂, hissues, hpure⟩ := canGive_bind.1 hloop
      · obtain ⟨rfl, -, hok⟩ := ih hrest he
        refine ⟨rfl, fun issues hr => (by cases hr), fun hf => ?_⟩
        obtain ⟨issues, hr⟩ := hok hf
        cases hr
      · obtain ⟨rfl, rfl⟩ := canGive_pure.1 hpure
        obtain ⟨rfl, heq, -⟩ := ih hrest hissues
        refine ⟨rfl, fun issues' hr => ?_, fun _ => ⟨_, rfl⟩⟩
        rw [← Except.ok.inj hr, heq issues rfl]

/-- Every issue of the map once, newest first. -/
structure Enumerates (issues : List (Issue C)) (m : IssueMap C) : Prop where
  mem_iff : ∀ issue, issue ∈ issues ↔ m issue.id = some issue
  nodup : (issues.map Issue.id).Nodup
  newestFirst : issues.Pairwise fun a b => ¬ b.createdAt.After a.createdAt

section

variable (h : Represents codec validContext dirty dir m)
include h

theorem Represents.mem_filterMap (hlists : Lists entries dir) (issue : Issue C) :
    issue ∈ entries.filterMap (entryIssue m) ↔ m issue.id = some issue := by
  rw [List.mem_filterMap]
  constructor
  · rintro ⟨entry, hentry, hissue⟩
    rw [entryIssue] at hissue
    split at hissue
    · cases hissue
    · rw [h.id _ issue hissue]
      exact hissue
  · intro hm
    obtain ⟨content, -, hfile⟩ := h.file _ issue hm
    have hmem : issue.id ++ jsonSuffix ∈ entries.map DirEntry.name := by
      rw [hlists.mem_iff, hfile]
      exact Option.some_ne_none _
    obtain ⟨entry, hentry, hname⟩ := List.mem_map.1 hmem
    exact ⟨entry, hentry, by rw [entryIssue_of_name m (hlists.isFile entry hentry) hname, hm]⟩

theorem Represents.nodup_filterMap
    (hlists : Lists entries dir) : ((entries.filterMap (entryIssue m)).map Issue.id).Nodup := by
  have hnames : entries.Pairwise fun a b => a.name ≠ b.name := by
    refine (List.pairwise_map.1 hlists.sorted).imp fun hlt heq => ?_
    rw [heq] at hlt
    exact List.lt_irrefl _ hlt
  -- the identifier of an issue gives the name of its entry
  have hname : ∀ entry ∈ entries, ∀ issue, entryIssue m entry = some issue →
      entry.name = issue.id ++ jsonSuffix := by
    intro entry hentry issue hissue
    rw [entryIssue] at hissue
    split at hissue
    · cases hissue
    · next hread =>
      have hsuffix : jsonSuffix <:+ entry.name := (not_or.1 hread).2 |> not_not.1
      obtain ⟨front, hfront⟩ := hsuffix
      rw [← hfront, List.length_append, Nat.add_sub_cancel, List.take_left] at hissue
      rw [h.id _ issue hissue, hfront]
  rw [List.Nodup, List.pairwise_map, List.pairwise_filterMap]
  refine hnames.imp_of_mem fun ha hb hne issue hissue issue' hissue' heq => hne ?_
  rw [hname _ ha issue hissue, hname _ hb issue' hissue', heq]

theorem Represents.list (hcodec : codec.Faithful validContext) {sorter : Sorter C}
    {r : Except StoreError (List (Issue C))}
    (hrun : CanGive (FsStep faulty) (list codec sorter) dir r dir') :
    dir' = dir ∧ (∀ issues, r = .ok issues → Enumerates issues m) ∧
      (faulty = false → ∃ issues, r = .ok issues) := by
  obtain ⟨answer, dir₁, hread, hrest⟩ := canGive_lift_bind.1 hrun
  cases hread with
  | readDirFails hf =>
    obtain ⟨rfl, rfl⟩ := canGive_throw.1 hrest
    exact ⟨rfl, fun issues hr => (by cases hr), fun hfaulty => (by cases hfaulty.symm.trans hf)⟩
  | @readDir entries _ hlists =>
    have hentries : ∀ entry ∈ entries, dir entry.name ≠ none := fun entry he =>
      (hlists.mem_iff _).1 (List.mem_map_of_mem he)
    obtain ⟨e, he, rfl⟩ | ⟨issues, dir₂, hissues, hpure⟩ := canGive_bind.1 hrest
    · obtain ⟨rfl, -, hok⟩ := h.showAll hcodec hentries he
      refine ⟨rfl, fun issues hr => (by cases hr), fun hf => ?_⟩
      obtain ⟨issues, hr⟩ := hok hf
      cases hr
    · obtain ⟨rfl, rfl⟩ := canGive_pure.1 hpure
      obtain ⟨rfl, heq, -⟩ := h.showAll hcodec hentries hissues
      obtain rfl := heq issues rfl
      refine ⟨rfl, fun sorted hr => ?_, fun _ => ⟨_, rfl⟩⟩
      obtain rfl := Except.ok.inj hr
      have hperm := sorter.perm (entries.filterMap (entryIssue m))
      refine ⟨fun issue => ?_, ?_, sorter.newestFirst _⟩
      · rw [hperm.mem_iff]
        exact h.mem_filterMap hlists issue
      · exact (hperm.map Issue.id).nodup_iff.2 (h.nodup_filterMap hlists)

end

end Listing

/-! ## Whole sequences of calls -/

/-- What a call must do, when `done` are the calls before it. -/
structure CallRun.Respects (done : List (CallRun C)) (c : CallRun C) : Prop where
  /-- An invalid argument changes nothing. -/
  invalid : ∀ e, c.reply = .error e → e.Invalid → c.after = c.before
  /-- Only the file of the issue that is returned is touched. -/
  others : ∀ name, ¬ tmpSuffix <:+ name →
    (∀ issue, c.written = some issue → name ≠ issue.id ++ jsonSuffix) → c.after name = c.before name
  showIssue : ∀ identifier, c.call = .showIssue identifier → c.after = c.before ∧
    (∀ reply, c.reply = .ok reply → ∃ issue, reply = .issue issue ∧
      recorded done (trimSpace identifier) = some issue) ∧
    (c.faulty = false → ∀ issue, recorded done (trimSpace identifier) = some issue →
      c.reply = .ok (.issue issue))
  transition : ∀ identifier status reply, c.call = .transition identifier status →
    c.reply = .ok reply → ∃ old now, recorded done (trimSpace identifier) = some old ∧
      reply = .issue { old with status := toLower (trimSpace status), updatedAt := now }
  /-- `List` returns each issue that was created, once, as it was returned last. -/
  list : c.call = .list → c.after = c.before ∧
    (∀ reply, c.reply = .ok reply → ∃ issues, reply = .issues issues ∧
      (issues.map Issue.id).Perm (createdIds done) ∧
      (∀ issue ∈ issues, recorded done issue.id = some issue) ∧
      issues.Pairwise fun a b => ¬ b.createdAt.After a.createdAt) ∧
    (c.faulty = false → ∃ reply, c.reply = .ok reply)

section Sequences

variable {codec : Codec C} {sorter : Sorter C} {validContext : C → Prop} {dir dir' : Dir}
  {done calls : List (CallRun C)} {c : CallRun C}

/-- The directory after some calls, and the map that they make. -/
structure StoreInv (codec : Codec C) (validContext : C → Prop) (done : List (CallRun C))
    (dir : Dir) : Prop where
  represents : Represents codec validContext (done.any CallRun.faulty) dir (recorded done)
  created : ∀ identifier, recorded done identifier ≠ none ↔ identifier ∈ createdIds done

theorem recorded_concat (done : List (CallRun C)) (c : CallRun C) :
    recorded (done ++ [c]) = record (recorded done) c := by
  rw [recorded, List.foldl_append]
  rfl

theorem createdIds_append (done calls : List (CallRun C)) :
    createdIds (done ++ calls) = createdIds done ++ createdIds calls := List.filterMap_append

theorem createdIds_singleton (c : CallRun C) :
    createdIds [c] = (c.created.map Issue.id).toList := by
  cases h : c.created <;> simp [createdIds, h]

theorem Written.others {issue : Issue C} (h : Written codec issue dir dir') {name : List UInt8}
    (htmp : ¬ tmpSuffix <:+ name) (hname : name ≠ issue.id ++ jsonSuffix) : dir' name = dir name := by
  obtain ⟨-, content, -, rfl⟩ := h
  have hne : name ≠ issue.id ++ jsonSuffix ++ tmpSuffix :=
    fun heq => htmp (heq ▸ List.suffix_append _ _)
  rw [Function.update_of_ne hname, Function.update_of_ne hne]

theorem Leaves.others {faulty : Bool} (h : Leaves faulty dir dir') {name : List UInt8}
    (htmp : ¬ tmpSuffix <:+ name) : dir' name = dir name := by
  rcases h with rfl | ⟨-, identifier, part, rfl⟩
  · rfl
  · have hne : name ≠ identifier ++ jsonSuffix ++ tmpSuffix :=
      fun heq => htmp (heq ▸ List.suffix_append _ _)
    exact Function.update_of_ne hne _ _

/-- A call that wrote nothing. -/
theorem StoreInv.keep (h : StoreInv codec validContext done c.before) (hwritten : c.written = none)
    (hcreated : c.created = none) (hleaves : Leaves c.faulty c.before c.after) :
    StoreInv codec validContext (done ++ [c]) c.after where
  represents := by
    have hsame : record (recorded done) c = recorded done := by rw [record, hwritten]
    rw [recorded_concat, hsame, List.any_append]
    simpa using h.represents.leaves hleaves
  created identifier := by
    have hsame : record (recorded done) c = recorded done := by rw [record, hwritten]
    rw [recorded_concat, hsame, createdIds_append, createdIds_singleton, hcreated, h.created]
    simp

theorem StoreInv.write (h : StoreInv codec validContext done c.before) {issue : Issue C}
    (hwritten : c.written = some issue) (htext : issue.Textual validContext)
    (hw : Written codec issue c.before c.after)
    (hcreated : c.created = some issue ∨ c.created = none ∧ recorded done issue.id ≠ none) :
    StoreInv codec validContext (done ++ [c]) c.after where
  represents := by
    have hmap : record (recorded done) c = Function.update (recorded done) issue.id (some issue) := by
      rw [record, hwritten]
    rw [recorded_concat, hmap, List.any_append]
    simpa using (h.represents.written htext hw).weaken
  created identifier := by
    have hmap : record (recorded done) c = Function.update (recorded done) issue.id (some issue) := by
      rw [record, hwritten]
    rw [recorded_concat, hmap, createdIds_append, createdIds_singleton, List.mem_append,
      ← h.created, Function.update_apply]
    rcases hcreated with hcreated | ⟨hcreated, hold⟩
    · rw [hcreated]
      by_cases heq : identifier = issue.id <;> simp [heq]
    · rw [hcreated]
      by_cases heq : identifier = issue.id <;> simp [heq, hold]

theorem respects_error {e : StoreError} (hreply : c.reply = .error e)
    (hinvalid : e.Invalid → c.after = c.before) (hleaves : Leaves c.faulty c.before c.after)
    (hreads : (∀ identifier, c.call ≠ .showIssue identifier) ∧ c.call ≠ .list) :
    c.Respects done where
  invalid e' he' h := by
    obtain rfl := Except.error.inj (hreply.symm.trans he')
    exact hinvalid h
  others name htmp _ := hleaves.others htmp
  showIssue identifier hcall := absurd hcall (hreads.1 identifier)
  transition identifier status reply _ hok := by cases hreply.symm.trans hok
  list hcall := absurd hcall hreads.2

theorem StoreInv.step (h : StoreInv codec validContext done c.before)
    (hcodec : codec.Faithful validContext) (hdistinct : (createdIds done).Nodup)
    (htext : c.call.Textual validContext)
    (hrun : CanGive (FsStep c.faulty) (c.call.run codec sorter) c.before c.reply c.after) :
    c.Respects done ∧ StoreInv codec validContext (done ++ [c]) c.after := by
  obtain ⟨call, faulty, before, reply, after⟩ := c
  dsimp only at h htext hrun
  cases call with
  | create issueType message version context exitCode =>
    obtain ⟨e, hcreate, rfl⟩ | ⟨issue, dir₁, hcreate, hpure⟩ := canGive_bind.1 hrun
    · rcases canGive_create htext.1 htext.2.1 htext.2.2 hcreate with
        ⟨issue, hr, -⟩ | ⟨⟨e', hr, hinvalid⟩, hleaves⟩
      · cases hr
      obtain rfl := Except.error.inj hr
      exact ⟨respects_error rfl hinvalid hleaves ⟨fun _ => (by simp), by simp⟩,
        h.keep rfl rfl hleaves⟩
    · obtain ⟨rfl, rfl⟩ := canGive_pure.1 hpure
      rcases canGive_create htext.1 htext.2.1 htext.2.2 hcreate with
        ⟨issue', hr, htextual, hw⟩ | ⟨⟨e', hr, -⟩, -⟩
      · obtain rfl := Except.ok.inj hr
        refine ⟨⟨fun e he => (by cases he), fun name htmp hname => ?_, fun _ hcall => (by cases hcall),
          fun _ _ _ hcall => (by cases hcall), fun hcall => (by cases hcall)⟩,
          h.write rfl htextual hw (.inl rfl)⟩
        exact hw.others htmp (hname issue rfl)
      · cases hr
  | list =>
    obtain ⟨e, hlist, rfl⟩ | ⟨issues, dir₁, hlist, hpure⟩ := canGive_bind.1 hrun
    · obtain ⟨rfl, -, hok⟩ := h.represents.list hcodec hlist
      refine ⟨⟨fun _ _ _ => rfl, fun _ _ _ => rfl, fun _ hcall => (by cases hcall),
        fun _ _ _ hcall => (by cases hcall), fun _ => ⟨rfl, fun _ hr => (by cases hr), fun hf => ?_⟩⟩,
        h.keep rfl rfl (.inl rfl)⟩
      obtain ⟨issues, hr⟩ := hok hf
      cases hr
    · obtain ⟨rfl, rfl⟩ := canGive_pure.1 hpure
      obtain ⟨rfl, henum, -⟩ := h.represents.list hcodec hlist
      obtain ⟨hmem, hnodup, hsorted⟩ := henum issues rfl
      refine ⟨⟨fun _ _ _ => rfl, fun _ _ _ => rfl, fun _ hcall => (by cases hcall),
        fun _ _ _ hcall => (by cases hcall), fun _ => ⟨rfl, fun reply hr => ?_, fun _ => ⟨_, rfl⟩⟩⟩,
        h.keep rfl rfl (.inl rfl)⟩
      obtain rfl := Except.ok.inj hr
      refine ⟨issues, rfl, ?_, fun issue hissue => (hmem issue).1 hissue, hsorted⟩
      rw [List.perm_ext_iff_of_nodup hnodup hdistinct]
      intro identifier
      rw [← h.created, List.mem_map]
      constructor
      · rintro ⟨issue, hissue, rfl⟩
        rw [(hmem issue).1 hissue]
        exact Option.some_ne_none _
      · intro hne
        obtain ⟨issue, hissue⟩ := Option.ne_none_iff_exists'.1 hne
        have hid := h.represents.id _ issue hissue
        exact ⟨issue, (hmem issue).2 (by rw [hid]; exact hissue), hid⟩
  | showIssue identifier =>
    obtain ⟨e, hshow, rfl⟩ | ⟨issue, dir₁, hshow, hpure⟩ := canGive_bind.1 hrun
    · obtain ⟨rfl, -, hfound⟩ := h.represents.showIssue hcodec hshow
      refine ⟨⟨fun _ _ _ => rfl, fun _ _ _ => rfl, fun identifier' hcall => ?_,
        fun _ _ _ hcall => (by cases hcall), fun hcall => (by cases hcall)⟩,
        h.keep rfl rfl (.inl rfl)⟩
      obtain rfl := Call.showIssue.inj hcall
      refine ⟨rfl, fun _ hr => (by cases hr), fun hf issue hm => ?_⟩
      cases hfound hf issue hm
    · obtain ⟨rfl, rfl⟩ := canGive_pure.1 hpure
      obtain ⟨rfl, hold, hfound⟩ := h.represents.showIssue hcodec hshow
      refine ⟨⟨fun _ _ _ => rfl, fun _ _ _ => rfl, fun identifier' hcall => ?_,
        fun _ _ _ hcall => (by cases hcall), fun hcall => (by cases hcall)⟩,
        h.keep rfl rfl (.inl rfl)⟩
      obtain rfl := Call.showIssue.inj hcall
      refine ⟨rfl, fun reply hr => ⟨issue, (Except.ok.inj hr).symm, hold issue rfl⟩,
        fun hf issue' hm => ?_⟩
      rw [Except.ok.inj (hfound hf issue' hm)]
  | transition identifier status =>
    obtain ⟨e, hchange, rfl⟩ | ⟨issue, dir₁, hchange, hpure⟩ := canGive_bind.1 hrun
    · rcases h.represents.transition hcodec hchange with
        ⟨_, _, _, -, -, hr, -⟩ | ⟨⟨e', hr, hinvalid⟩, hleaves⟩
      · cases hr
      obtain rfl := Except.error.inj hr
      exact ⟨respects_error rfl hinvalid hleaves ⟨fun _ => (by simp), by simp⟩,
        h.keep rfl rfl hleaves⟩
    · obtain ⟨rfl, rfl⟩ := canGive_pure.1 hpure
      rcases h.represents.transition hcodec hchange with
        ⟨old, now, issue', hm, hissue, hr, htextual, hw⟩ | ⟨⟨e', hr, -⟩, -⟩
      · obtain rfl := Except.ok.inj hr
        have hid : issue.id = trimSpace identifier := by
          rw [hissue]
          exact h.represents.id _ old hm
        refine ⟨⟨fun e he => (by cases he), fun name htmp hname => ?_, fun _ hcall => (by cases hcall),
          fun identifier' status' reply hcall hreply => ?_, fun hcall => (by cases hcall)⟩,
          h.write rfl htextual hw (.inr ⟨rfl, ?_⟩)⟩
        · exact hw.others htmp (hname issue rfl)
        · obtain ⟨rfl, rfl⟩ := Call.transition.inj hcall
          exact ⟨old, now, hm, by rw [← Except.ok.inj hreply, hissue]⟩
        · rw [hid, hm]
          exact Option.some_ne_none _
      · cases hr

theorem Runs.storeInv (h : Runs codec sorter dir calls dir') (hcodec : codec.Faithful validContext)
    (hinv : StoreInv codec validContext done dir) (htext : ∀ c ∈ calls, c.call.Textual validContext)
    (hdistinct : (createdIds (done ++ calls)).Nodup) :
    StoreInv codec validContext (done ++ calls) dir' ∧
      ∀ front c back, calls = front ++ c :: back → c.Respects (done ++ front) := by
  induction h generalizing done with
  | nil dir =>
    refine ⟨by simpa using hinv, fun front c back heq => ?_⟩
    exact absurd heq (by simp)
  | @cons c calls dir hrun hrest ih =>
    have hdone : (createdIds done).Nodup := by
      rw [createdIds_append] at hdistinct
      exact (List.nodup_append.1 hdistinct).1
    obtain ⟨hrespects, hnext⟩ := hinv.step hcodec hdone (htext c (by simp)) hrun
    rw [List.append_cons] at hdistinct ⊢
    obtain ⟨hend, hall⟩ := ih hnext (fun c' hc' => htext c' (by simp [hc'])) hdistinct
    refine ⟨hend, fun front c' back heq => ?_⟩
    cases front with
    | nil =>
      obtain rfl := (List.cons.inj heq).1
      simpa using hrespects
    | cons first front =>
      obtain ⟨rfl, hback⟩ := List.cons.inj heq
      rw [List.append_cons]
      exact hall front c' back hback

end Sequences

end Calls

/-! ### One issue -/

def sampleTime : Time := ⟨2026, 7, 26, 12, 0, 0, 0⟩

/-- What `Create` makes of "bug" and "lost output" at this time. -/
def sampleIssue : Issue Unit where
  id := identifierText sampleTime [0, 1, 2, 3]
  type := ascii "bug"
  status := ascii "open"
  message := ascii "lost output"
  context := ()
  version := ascii "0.1.0"
  exitCode := none
  createdAt := sampleTime
  updatedAt := sampleTime

def sampleText : List UInt8 :=
  ascii "\x7b\n  \"id\": \"" ++ sampleIssue.id ++
  ascii "\",\n  \"type\": \"bug\",\n  \"status\": \"open\",\n  \"message\": \"lost output\",\n" ++
  ascii "  \"version\": \"0.1.0\",\n  \"created_at\": \"2026-07-26T12:00:00Z\",\n" ++
  ascii "  \"updated_at\": \"2026-07-26T12:00:00Z\"\n\x7d"

/-- An encoding/json for one issue. -/
def Codec.only (issue : Issue Unit) (text : List UInt8) : Codec Unit where
  encode issue' := if issue' = issue then some text else none
  decode content := if content = text ++ [10] then some issue else none

theorem Codec.only_encode (issue : Issue Unit) (text : List UInt8) :
    (Codec.only issue text).encode issue = some text := if_pos rfl

theorem Codec.only_decode (issue : Issue Unit) (text : List UInt8) :
    (Codec.only issue text).decode (text ++ [10]) = some issue := if_pos rfl

theorem Codec.only_faithful (issue : Issue Unit) (text : List UInt8) :
    (Codec.only issue text).Faithful fun _ => True := by
  intro issue' content _ hcontent
  have hencode : (if issue' = issue then some text else none) = some content := hcontent
  split at hencode
  next heq =>
    obtain rfl := Option.some.inj hencode
    rw [heq, Codec.only_decode]
  next => cases hencode

def sampleCodec : Codec Unit := .only sampleIssue sampleText

def mergeSorter : Sorter Unit where
  sort issues := issues.mergeSort fun a b => !b.createdAt.After a.createdAt
  perm issues := List.mergeSort_perm issues _
  newestFirst issues := by
    have hle : ∀ a b : Issue Unit, (!decide (b.createdAt.After a.createdAt)) = true ↔
        ¬ b.createdAt.After a.createdAt := by
      intro a b
      rw [Bool.not_eq_true', decide_eq_false_iff_not]
    have hsorted := List.pairwise_mergeSort
      (fun a b c hab hbc => (hle a c).2 (List.not_lt.2
        (List.le_trans (List.not_lt.1 ((hle b c).1 hbc)) (List.not_lt.1 ((hle a b).1 hab)))))
      (fun a b => by
        rw [Bool.or_eq_true, hle, hle]
        exact (List.le_total _ _).imp List.not_lt.2 List.not_lt.2) issues
    exact hsorted.imp fun h => by simpa using h

def sampleDir : Dir :=
  Function.update (Function.update (fun _ => none)
    (sampleIssue.id ++ jsonSuffix ++ tmpSuffix) none) (sampleIssue.id ++ jsonSuffix)
    (some (sampleText ++ [10]))

def sampleCreate : CallRun Unit where
  call := .create (ascii "bug") (ascii "lost output") (ascii "0.1.0") () none
  faulty := false
  before := fun _ => none
  reply := .ok (.issue sampleIssue)
  after := sampleDir

def sampleShow : CallRun Unit where
  call := .showIssue sampleIssue.id
  faulty := false
  before := sampleDir
  reply := .ok (.issue sampleIssue)
  after := sampleDir

theorem canGive_sampleCreate : CanGive (FsStep false) (create sampleCodec (ascii "bug")
    (ascii "lost output") (ascii "0.1.0") () none) (fun _ => none) (.ok sampleIssue) sampleDir := by
  have htype : toLower (trimSpace (ascii "bug")) = ascii "bug" := by decide
  have hmessage : trimSpace (ascii "lost output") = ascii "lost output" := by decide
  have hvalid : ¬ ascii "bug" ∉ validTypes := by decide
  have hne : ¬ ascii "lost output" = [] := by decide
  have hshort : ¬ 16384 < (ascii "lost output").length := by decide
  have hpath : issuePath sampleIssue.id = .ok (sampleIssue.id ++ jsonSuffix) :=
    (plain_identifierText sampleTime [0, 1, 2, 3]).issuePath
  have hwrite : CanGive (FsStep false) (write sampleCodec sampleIssue) (fun _ => none) (.ok ())
      sampleDir := by
    rw [write, hpath, sampleCodec, Codec.only_encode]
    refine canGive_result_bind.2 (.inr ⟨_, rfl, ?_⟩)
    refine canGive_lift_bind.2 ⟨_, _, .writeFile .., ?_⟩
    refine canGive_lift_bind.2 ⟨_, _, .rename (Function.update_self ..), ?_⟩
    exact canGive_pure.2 ⟨rfl, by rw [sampleDir, Function.update_idem]⟩
  rw [create, htype, hmessage, if_neg hvalid, if_neg hne, if_neg hshort]
  refine canGive_lift_bind.2 ⟨sampleTime, _, .now .., ?_⟩
  refine canGive_bind.2 (.inr ⟨sampleIssue.id, fun _ => none, ?_, ?_⟩)
  · exact canGive_lift_bind.2 ⟨.ok ⟨[0, 1, 2, 3], rfl⟩, _, .random .., canGive_pure.2 ⟨rfl, rfl⟩⟩
  · exact canGive_bind.2 (.inr ⟨(), _, hwrite, canGive_pure.2 ⟨rfl, rfl⟩⟩)

theorem canGive_sampleShow :
    CanGive (FsStep false) (showIssue sampleCodec sampleIssue.id) sampleDir (.ok sampleIssue)
      sampleDir := by
  have hpath : issuePath sampleIssue.id = .ok (sampleIssue.id ++ jsonSuffix) :=
    (plain_identifierText sampleTime [0, 1, 2, 3]).issuePath
  have hfile : sampleDir (sampleIssue.id ++ jsonSuffix) = some (sampleText ++ [10]) := by
    rw [sampleDir, Function.update_self]
  rw [showIssue, hpath]
  refine canGive_result_bind.2 (.inr ⟨_, rfl, ?_⟩)
  refine canGive_lift_bind.2 ⟨_, _, .readFile hfile, ?_⟩
  dsimp only
  rw [sampleCodec, Codec.only_decode]
  exact canGive_pure.2 ⟨rfl, rfl⟩

end CheatEngine.Feedback
