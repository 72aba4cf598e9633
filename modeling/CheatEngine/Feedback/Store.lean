/-
  CheatEngine.Feedback.Store

  The store of feedback issues (internal/feedback/store.go): a directory with one file of
  JSON for each issue, which is replaced as a whole through a temporary file.

  The methods are programs over the calls of the operating system that they make, so the
  same definitions run alone on a directory (Feedback.IssueMap) and against each other, a
  part of a call at a time (Feedback.Interleaving).  encoding/json is a parameter.  A path
  is the name of a file in the directory of the store.
-/
import CheatEngine.Client.Net
import CheatEngine.Lib.Fallible
import CheatEngine.Lib.Utf8
import Mathlib.Data.List.Infix

namespace CheatEngine.Feedback

open CheatEngine.Lib CheatEngine.Lib.Go
open CheatEngine.Client (Message text)

/-! ## Issues -/

/-- A `time.Time` in UTC, by what `Format` prints of it. -/
structure Time where
  year : Int
  month : Nat
  day : Nat
  hour : Nat
  minute : Nat
  second : Nat
  nanosecond : Nat
  deriving DecidableEq, Repr

namespace Time

def fields (t : Time) : List Int :=
  [t.year, t.month, t.day, t.hour, t.minute, t.second, t.nanosecond]

def After (t u : Time) : Prop := u.fields < t.fields

instance (t u : Time) : Decidable (t.After u) := inferInstanceAs (Decidable (u.fields < t.fields))

/-- A number in decimal, with zeros up to a width. -/
def padded (width n : Nat) : List UInt8 :=
  let digits := (Nat.toDigits 10 n).map Char.toUInt8
  List.replicate (width - digits.length) 48 ++ digits

/-- `Format("20060102T150405Z")` -/
def stamp (t : Time) : List UInt8 :=
  (if t.year < 0 then [45] else []) ++ padded 4 t.year.natAbs ++ padded 2 t.month ++
    padded 2 t.day ++ ascii "T" ++ padded 2 t.hour ++ padded 2 t.minute ++ padded 2 t.second ++
    ascii "Z"

end Time

/-- `Issue`; `C` is the type of contexts. -/
structure Issue (C : Type) where
  id : List UInt8
  type : List UInt8
  status : List UInt8
  message : List UInt8
  context : C
  version : List UInt8
  exitCode : Option Int
  createdAt : Time
  updatedAt : Time
  deriving DecidableEq, Repr

/-- encoding/json, as far as issues go: `MarshalIndent` and `Unmarshal`. -/
structure Codec (C : Type) where
  encode : Issue C → Option (List UInt8)
  decode : List UInt8 → Option (Issue C)

/-- `sort.Slice` by `After`: newest first, and nothing is said of issues of the same time. -/
structure Sorter (C : Type) where
  sort : List (Issue C) → List (Issue C)
  perm : ∀ issues, (sort issues).Perm issues
  newestFirst : ∀ issues, (sort issues).Pairwise fun a b => ¬ b.createdAt.After a.createdAt

inductive StoreError
  | invalidType (issueType : List UInt8)
  | messageRequired
  | messageTooLong
  | generateIdentifier
  | invalidStatus (status : List UInt8)
  | invalidIdentifier
  | readStore
  | notFound (identifier : List UInt8)
  | read (identifier : List UInt8)
  | decode (identifier : List UInt8)
  | encode
  | write
  | replace

namespace StoreError

/-- The text of an error; the cause behind `%w` is left out. -/
def message : StoreError → Message
  | invalidType issueType => ⟨"invalid issue type %q", [.str issueType]⟩
  | messageRequired => text "issue message is required"
  | messageTooLong => text "issue message exceeds 16384 characters"
  | generateIdentifier => text "generate issue identifier: %w"
  | invalidStatus status => ⟨"invalid issue status %q", [.str status]⟩
  | invalidIdentifier => text "invalid issue identifier"
  | readStore => text "read issue store: %w"
  | notFound identifier => ⟨"issue %q not found", [.str identifier]⟩
  | read identifier => ⟨"read issue %q: %w", [.str identifier]⟩
  | decode identifier => ⟨"decode issue %q: %w", [.str identifier]⟩
  | encode => text "encode issue: %w"
  | write => text "write issue: %w"
  | replace => text "replace issue: %w"

/-- The errors of an argument. -/
def Invalid : StoreError → Prop
  | invalidType _ | messageRequired | messageTooLong | invalidStatus _ | invalidIdentifier => True
  | _ => False

end StoreError

/-- Errors that `errors.Is(err, os.ErrNotExist)` tells apart. -/
inductive FsError
  | notExist
  | other

structure DirEntry where
  name : List UInt8
  isDir : Bool

/-- A call of the operating system. -/
inductive FsOp
  /-- `store.clock().UTC()` -/
  | now
  /-- `rand.Read` of four bytes. -/
  | random
  /-- `os.ReadDir` of the directory of the store. -/
  | readDir
  | readFile (name : List UInt8)
  | writeFile (name content : List UInt8)
  | rename (oldName newName : List UInt8)

/-- The signature of the methods. -/
abbrev FsSig : Sig where
  Op := FsOp
  Res
    | .now => Time
    | .random => Except FsError { bytes : List UInt8 // bytes.length = 4 }
    | .readDir => Except FsError (List DirEntry)
    | .readFile _ => Except FsError (List UInt8)
    | .writeFile _ _ => Except FsError Unit
    | .rename _ _ => Except FsError Unit

abbrev StoreM (α : Type) : Type := ExceptT StoreError (Prog FsSig) α

/-- Call the operating system. -/
def os (o : FsOp) : StoreM (FsSig.Res o) := ExceptT.lift (Prog.perform (S := FsSig) o)

/-- Return what was computed. -/
def result {α : Type} (r : Except StoreError α) : StoreM α := ExceptT.mk (pure r)

/-! ## The methods -/

def validTypes : List (List UInt8) :=
  [ascii "bug", ascii "requirement", ascii "suggestion", ascii "bad-output"]

def validStatuses : List (List UInt8) :=
  [ascii "open", ascii "in-progress", ascii "resolved", ascii "closed"]

def jsonSuffix : List UInt8 := ascii ".json"

def tmpSuffix : List UInt8 := ascii ".tmp"

def issuePath (identifier : List UInt8) : Except StoreError (List UInt8) :=
  let identifier := trimSpace identifier
  if identifier = [] ∨ (47 ∈ identifier ∨ 92 ∈ identifier) ∨ ascii ".." <:+: identifier then
    .error .invalidIdentifier
  else .ok (identifier ++ jsonSuffix)

def hexByte (b : UInt8) : List UInt8 :=
  let digit (d : Nat) : UInt8 := UInt8.ofNat (if d < 10 then 48 + d else 87 + d)
  [digit (b.toNat / 16), digit (b.toNat % 16)]

def identifierText (now : Time) (randomBytes : List UInt8) : List UInt8 :=
  ascii "CECLI-" ++ now.stamp ++ ascii "-" ++ randomBytes.flatMap hexByte

def newIdentifier (now : Time) : StoreM (List UInt8) := do
  match ← os .random with
  | .error _ => throw .generateIdentifier
  | .ok randomBytes => return identifierText now randomBytes.1

section Methods

variable {C : Type} (codec : Codec C)

def write (issue : Issue C) : StoreM Unit := do
  let path ← result (issuePath issue.id)
  match codec.encode issue with
  | none => throw .encode
  | some content =>
    match ← os (.writeFile (path ++ tmpSuffix) (content ++ [10])) with
    | .error _ => throw .write
    | .ok () =>
      match ← os (.rename (path ++ tmpSuffix) path) with
      | .error _ => throw .replace
      | .ok () => return ()

def create (issueType message version : List UInt8) (context : C) (exitCode : Option Int) :
    StoreM (Issue C) := do
  let issueType := toLower (trimSpace issueType)
  if issueType ∉ validTypes then throw (.invalidType issueType)
  else
    let message := trimSpace message
    if message = [] then throw .messageRequired
    else if 16384 < message.length then throw .messageTooLong
    else
      let now ← os .now
      let identifier ← newIdentifier now
      let issue : Issue C :=
        { id := identifier, type := issueType, status := ascii "open", message, context, version,
          exitCode, createdAt := now, updatedAt := now }
      write codec issue
      return issue

def showIssue (identifier : List UInt8) : StoreM (Issue C) := do
  let path ← result (issuePath identifier)
  match ← os (.readFile path) with
  | .error .notExist => throw (.notFound identifier)
  | .error .other => throw (.read identifier)
  | .ok content =>
    match codec.decode content with
    | none => throw (.decode identifier)
    | some issue => return issue

def showAll : List DirEntry → StoreM (List (Issue C))
  | [] => return []
  | entry :: entries => do
    if entry.isDir ∨ ¬ jsonSuffix <:+ entry.name then showAll entries
    else
      let issue ← showIssue codec (entry.name.take (entry.name.length - jsonSuffix.length))
      let issues ← showAll entries
      return issue :: issues

def list (sorter : Sorter C) : StoreM (List (Issue C)) := do
  match ← os .readDir with
  | .error _ => throw .readStore
  | .ok entries => do
    let issues ← showAll codec entries
    return sorter.sort issues

def transition (identifier status : List UInt8) : StoreM (Issue C) := do
  let status := toLower (trimSpace status)
  if status ∉ validStatuses then throw (.invalidStatus status)
  else
    let issue ← showIssue codec identifier
    let now ← os .now
    let issue := { issue with status, updatedAt := now }
    write codec issue
    return issue

end Methods

/-! ## Identifiers -/

/-- Digits, letters and `'-'`. -/
def Plain (s : List UInt8) : Prop :=
  ∀ b ∈ s, (48 ≤ b.toNat ∧ b.toNat ≤ 57) ∨ (65 ≤ b.toNat ∧ b.toNat ≤ 90) ∨
    (97 ≤ b.toNat ∧ b.toNat ≤ 122) ∨ b.toNat = 45

/-- Digits, letters and `'-'`, at least one. -/
structure PlainId (identifier : List UInt8) : Prop where
  ne_nil : identifier ≠ []
  plain : Plain identifier

variable {identifier : List UInt8}

theorem PlainId.trimSpace (h : PlainId identifier) :
    trimSpace identifier = identifier := by
  refine trimSpace_of_noSpace (noSpace_of_visible fun b hb => ?_)
  have hplain := h.plain b hb
  omega

theorem PlainId.not_mem (h : PlainId identifier) {b : UInt8}
    (hb : b.toNat = 46 ∨ b.toNat = 47 ∨ b.toNat = 92) : b ∉ identifier := by
  intro hmem
  have hplain := h.plain b hmem
  omega

theorem issuePath_of_plain (h : PlainId (Go.trimSpace identifier)) :
    issuePath identifier = .ok (Go.trimSpace identifier ++ jsonSuffix) := by
  have hdots : ¬ ascii ".." <:+: Go.trimSpace identifier := by
    rintro ⟨front, back, heq⟩
    have hdot : (46 : UInt8) ∈ ascii ".." := List.mem_cons_self
    have hmem : (46 : UInt8) ∈ front ++ ascii ".." ++ back :=
      List.mem_append_left back (List.mem_append_right front hdot)
    rw [heq] at hmem
    exact h.not_mem (.inl rfl) hmem
  have hslash : (47 : UInt8) ∉ Go.trimSpace identifier := h.not_mem (.inr (.inl rfl))
  have hback : (92 : UInt8) ∉ Go.trimSpace identifier := h.not_mem (.inr (.inr rfl))
  simp [issuePath, h.ne_nil, hdots, hslash, hback]

theorem PlainId.issuePath (h : PlainId identifier) :
    issuePath identifier = .ok (identifier ++ jsonSuffix) := by
  have htrim := h.trimSpace
  rw [issuePath_of_plain (by rwa [htrim]), htrim]

theorem issuePath_eq_ok {path : List UInt8} (h : issuePath identifier = .ok path) :
    path = Go.trimSpace identifier ++ jsonSuffix := by
  unfold issuePath at h
  dsimp only at h
  split at h
  · cases h
  · exact (Except.ok.inj h).symm

/-- No file of an issue is named like a temporary one. -/
theorem not_tmpSuffix (identifier : List UInt8) : ¬ tmpSuffix <:+ identifier ++ jsonSuffix := by
  intro h
  have hlast := List.suffix_of_suffix_length_le h (List.suffix_append identifier jsonSuffix) (by decide)
  exact absurd hlast (by decide)

theorem PlainId.validUtf8 (h : PlainId identifier) :
    ValidUtf8 identifier := by
  refine validUtf8_of_ascii fun b hb => ?_
  have hplain := h.plain b hb
  omega

instance (s : List UInt8) : Decidable (Plain s) :=
  inferInstanceAs (Decidable (∀ b ∈ s, _))

theorem Plain.append {s t : List UInt8} (hs : Plain s) (ht : Plain t) : Plain (s ++ t) := by
  intro b hb
  rcases List.mem_append.1 hb with hb | hb
  · exact hs b hb
  · exact ht b hb

theorem plain_padded (width n : Nat) : Plain (Time.padded width n) := by
  refine Plain.append (fun b hb => ?_) fun b hb => ?_
  · obtain rfl := (List.mem_replicate.1 hb).2
    exact .inl (by decide)
  · obtain ⟨c, hc, rfl⟩ := List.mem_map.1 hb
    have hdigit := Nat.isDigit_of_mem_toDigits (by decide) (by decide) hc
    have hrange : 48 ≤ c.toNat ∧ c.toNat ≤ 57 := by
      simpa [Char.isDigit, UInt32.le_iff_toNat_le] using hdigit
    have hbyte : c.toUInt8.toNat = c.toNat := by
      show c.toNat % 256 = c.toNat
      omega
    left
    omega

theorem plain_hexByte (b : UInt8) : Plain (hexByte b) := by
  have hdigit : ∀ d : Nat, d < 16 → Plain [UInt8.ofNat (if d < 10 then 48 + d else 87 + d)] := by
    intro d hd b' hb'
    obtain rfl := List.mem_singleton.1 hb'
    have hlt : (if d < 10 then 48 + d else 87 + d) < 256 := by split <;> omega
    rw [UInt8.toNat_ofNat', Nat.mod_eq_of_lt hlt]
    split <;> omega
  have hlt := b.toNat_lt
  exact Plain.append (hdigit (b.toNat / 16) (by omega)) (hdigit (b.toNat % 16) (by omega))

theorem plain_stamp (t : Time) : Plain t.stamp := by
  have hT : Plain (ascii "T") := by decide +kernel
  have hZ : Plain (ascii "Z") := by decide +kernel
  have hsign : Plain (if t.year < 0 then [45] else []) := by
    split <;> decide +kernel
  exact ((((((((hsign.append (plain_padded 4 _)).append (plain_padded 2 _)).append
    (plain_padded 2 _)).append hT).append (plain_padded 2 _)).append (plain_padded 2 _)).append
    (plain_padded 2 _)).append hZ)

theorem plain_identifierText (now : Time) (randomBytes : List UInt8) :
    PlainId (identifierText now randomBytes) := by
  have hfront : Plain (ascii "CECLI-") := by decide +kernel
  have hdash : Plain (ascii "-") := by decide +kernel
  have hhex : Plain (randomBytes.flatMap hexByte) := by
    intro b hb
    obtain ⟨b', -, hmem⟩ := List.mem_flatMap.1 hb
    exact plain_hexByte b' b hmem
  refine ⟨?_, ((hfront.append (plain_stamp now)).append hdash).append hhex⟩
  have hne : ascii "CECLI-" ≠ [] := by decide
  simp [identifierText, hne]

end CheatEngine.Feedback
