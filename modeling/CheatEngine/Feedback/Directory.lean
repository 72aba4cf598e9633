/-
  CheatEngine.Feedback.Directory

  The store on a directory of its own: each call of the operating system is one step, which
  may fail where it is `faulty`.
-/
import Mathlib.Logic.Function.Basic
import CheatEngine.Feedback.Store

namespace CheatEngine.Feedback

open CheatEngine.Lib CheatEngine.Lib.Go

/-- A directory of files: the content of each name. -/
abbrev Dir : Type := List UInt8 → Option (List UInt8)

/-- `os.ReadDir`: every name once, in order. -/
structure Lists (entries : List DirEntry) (dir : Dir) : Prop where
  isFile : ∀ entry ∈ entries, entry.isDir = false
  mem_iff : ∀ name, name ∈ entries.map DirEntry.name ↔ dir name ≠ none
  sorted : (entries.map DirEntry.name).Pairwise (· < ·)

/-- One call of the operating system.  Only a faulty one fails without a reason. -/
inductive FsStep (faulty : Bool) : (o : FsOp) → Dir → FsSig.Res o → Dir → Prop
  | now (t : Time) (dir : Dir) : FsStep faulty .now dir t dir
  | random (bytes : { bytes : List UInt8 // bytes.length = 4 }) (dir : Dir) :
      FsStep faulty .random dir (.ok bytes) dir
  | randomFails (hf : faulty = true) (dir : Dir) : FsStep faulty .random dir (.error .other) dir
  | readDir {entries : List DirEntry} {dir : Dir} (h : Lists entries dir) :
      FsStep faulty .readDir dir (.ok entries) dir
  | readDirFails (hf : faulty = true) (e : FsError) (dir : Dir) :
      FsStep faulty .readDir dir (.error e) dir
  | readFile {name content : List UInt8} {dir : Dir} (h : dir name = some content) :
      FsStep faulty (.readFile name) dir (.ok content) dir
  | notExist {name : List UInt8} {dir : Dir} (h : dir name = none) :
      FsStep faulty (.readFile name) dir (.error .notExist) dir
  | readFileFails (hf : faulty = true) (name : List UInt8) (e : FsError) (dir : Dir) :
      FsStep faulty (.readFile name) dir (.error e) dir
  | writeFile (name content : List UInt8) (dir : Dir) :
      FsStep faulty (.writeFile name content) dir (.ok ()) (Function.update dir name (some content))
  | openFails (hf : faulty = true) (name content : List UInt8) (e : FsError) (dir : Dir) :
      FsStep faulty (.writeFile name content) dir (.error e) dir
  | writeFails (hf : faulty = true) (name : List UInt8) {content written : List UInt8}
      (h : written <+: content) (e : FsError) (dir : Dir) :
      FsStep faulty (.writeFile name content) dir (.error e) (Function.update dir name (some written))
  | rename {oldName newName content : List UInt8} {dir : Dir} (h : dir oldName = some content) :
      FsStep faulty (.rename oldName newName) dir (.ok ())
        (Function.update (Function.update dir oldName none) newName (some content))
  | renameMissing {oldName newName : List UInt8} {dir : Dir} (h : dir oldName = none) :
      FsStep faulty (.rename oldName newName) dir (.error .notExist) dir
  | renameFails (hf : faulty = true) (oldName newName : List UInt8) (e : FsError) (dir : Dir) :
      FsStep faulty (.rename oldName newName) dir (.error e) dir

section Methods

variable {C : Type} {codec : Codec C} {faulty : Bool} {dir dir' : Dir} {issue : Issue C}

theorem canGive_write {r : Except StoreError Unit} (hid : PlainId issue.id)
    (h : CanGive (FsStep faulty) (write codec issue) dir r dir') :
    (r = .ok () ∧ ∃ content, codec.encode issue = some content ∧
      dir' = Function.update (Function.update dir (issue.id ++ jsonSuffix ++ tmpSuffix) none)
        (issue.id ++ jsonSuffix) (some (content ++ [10]))) ∨
    (∃ e, r = .error e ∧ ¬ e.Invalid) ∧ (dir' = dir ∨ faulty = true ∧ ∃ part,
      dir' = Function.update dir (issue.id ++ jsonSuffix ++ tmpSuffix) (some part)) := by
  obtain ⟨e, he, -⟩ | ⟨path, hpath, h⟩ := canGive_result_bind.1 h
  · cases hid.issuePath.symm.trans he
  obtain rfl := Except.ok.inj (hid.issuePath.symm.trans hpath)
  cases hcontent : codec.encode issue with
  | none =>
    rw [hcontent] at h
    obtain ⟨rfl, rfl⟩ := canGive_throw.1 h
    exact .inr ⟨⟨_, rfl, id⟩, .inl rfl⟩
  | some content =>
    rw [hcontent] at h
    obtain ⟨answer, dir₁, hwrite, h⟩ := canGive_lift_bind.1 h
    cases hwrite with
    | openFails hf =>
      obtain ⟨rfl, rfl⟩ := canGive_throw.1 h
      exact .inr ⟨⟨_, rfl, id⟩, .inl rfl⟩
    | writeFails hf _ hpart =>
      obtain ⟨rfl, rfl⟩ := canGive_throw.1 h
      exact .inr ⟨⟨_, rfl, id⟩, .inr ⟨hf, _, rfl⟩⟩
    | writeFile =>
      obtain ⟨answer, dir₂, hrename, h⟩ := canGive_lift_bind.1 h
      cases hrename with
      | rename hold =>
        rw [Function.update_self] at hold
        obtain rfl := Option.some.inj hold
        obtain ⟨rfl, rfl⟩ := canGive_pure.1 h
        exact .inl ⟨rfl, content, rfl, by rw [Function.update_idem]⟩
      | renameMissing hold =>
        rw [Function.update_self] at hold
        cases hold
      | renameFails hf =>
        obtain ⟨rfl, rfl⟩ := canGive_throw.1 h
        exact .inr ⟨⟨_, rfl, id⟩, .inr ⟨hf, _, rfl⟩⟩

theorem canGive_showIssue {identifier : List UInt8} {r : Except StoreError (Issue C)}
    (h : CanGive (FsStep faulty) (showIssue codec identifier) dir r dir') :
    dir' = dir ∧ ((∃ e, issuePath identifier = .error e ∧ r = .error e) ∨
      ∃ path, issuePath identifier = .ok path ∧
        ((∃ content, dir path = some content ∧ ∀ issue, r = .ok issue ↔ codec.decode content = some issue) ∨
          (∃ e, r = .error e) ∧ (dir path = none ∨ faulty = true))) := by
  obtain ⟨e, he, rfl, rfl⟩ | ⟨path, hpath, h⟩ := canGive_result_bind.1 h
  · exact ⟨rfl, .inl ⟨e, he, rfl⟩⟩
  obtain ⟨answer, dir₁, hread, h⟩ := canGive_lift_bind.1 h
  cases hread with
  | readFile hcontent =>
    dsimp only at h
    split at h
    next hnone =>
      obtain ⟨rfl, rfl⟩ := canGive_throw.1 h
      refine ⟨rfl, .inr ⟨path, hpath, .inl ⟨_, hcontent, fun issue => ?_⟩⟩⟩
      simp [hnone]
    next issue hsome =>
      obtain ⟨rfl, rfl⟩ := canGive_pure.1 h
      refine ⟨rfl, .inr ⟨path, hpath, .inl ⟨_, hcontent, fun issue' => ?_⟩⟩⟩
      simp [hsome]
  | notExist hnone =>
    obtain ⟨rfl, rfl⟩ := canGive_throw.1 h
    exact ⟨rfl, .inr ⟨path, hpath, .inr ⟨⟨_, rfl⟩, .inl hnone⟩⟩⟩
  | readFileFails hf _ e =>
    cases e with
    | notExist =>
      obtain ⟨rfl, rfl⟩ := canGive_throw.1 h
      exact ⟨rfl, .inr ⟨path, hpath, .inr ⟨⟨_, rfl⟩, .inr hf⟩⟩⟩
    | other =>
      obtain ⟨rfl, rfl⟩ := canGive_throw.1 h
      exact ⟨rfl, .inr ⟨path, hpath, .inr ⟨⟨_, rfl⟩, .inr hf⟩⟩⟩

end Methods

end CheatEngine.Feedback
