/-
  CheatEngine.Feedback.Processes

  Processes that use one directory at the same time.  A call of the operating system takes
  several steps: `os.WriteFile` opens and truncates the file, writes it in parts and closes
  it, `os.ReadFile` opens it and reads it in parts.  A name refers to an inode, and whoever
  has a file open keeps its inode when the name goes to another.
-/
import CheatEngine.Feedback.Directory

namespace CheatEngine.Feedback

open CheatEngine.Lib CheatEngine.Lib.Go

/-- The names of a directory, and what the inodes hold. -/
structure Files where
  names : List UInt8 → Option Nat
  data : Nat → List UInt8
  /-- An inode that nobody had yet. -/
  next : Nat

namespace Files

/-- The directory as one sees it who opens a file now. -/
def view (f : Files) : Dir := fun name => (f.names name).map f.data

def setData (f : Files) (inode : Nat) (bytes : List UInt8) : Files :=
  { f with data := Function.update f.data inode bytes }

def create (f : Files) (name : List UInt8) : Files where
  names := Function.update f.names name (some f.next)
  data := Function.update f.data f.next []
  next := f.next + 1

/-- `rename(2)` of a name that refers to an inode. -/
def rename (f : Files) (oldName newName : List UInt8) (inode : Nat) : Files :=
  { f with names := Function.update (Function.update f.names oldName none) newName (some inode) }

theorem names_create (f : Files) (name : List UInt8) :
    (f.create name).names = Function.update f.names name (some f.next) := rfl

theorem names_rename (f : Files) (oldName newName : List UInt8) (inode : Nat) :
    (f.rename oldName newName inode).names =
      Function.update (Function.update f.names oldName none) newName (some inode) := rfl

end Files

def writeAt (old : List UInt8) (offset : Nat) (bytes : List UInt8) : List UInt8 :=
  (old ++ List.replicate (offset - old.length) 0).take offset ++ bytes ++
    old.drop (offset + bytes.length)

theorem writeAt_length (old bytes : List UInt8) : writeAt old old.length bytes = old ++ bytes := by
  simp [writeAt]

/-! ## Processes -/

/-- Where a process stands inside a call of the operating system. -/
inductive Micro
  /-- Before the call. -/
  | idle
  /-- In `os.ReadFile`, with what was read so far. -/
  | reading (inode : Nat) (got : List UInt8)
  /-- In `os.WriteFile`, with what is left to be written. -/
  | writing (inode offset : Nat) (left : List UInt8)

/-- A process: what it has still to do, and how far it is with the first call of that. -/
structure Proc (α : Type) where
  rest : Prog FsSig α
  micro : Micro

/-- A process before its first step. -/
def Proc.start {α : Type} (x : Prog FsSig α) : Proc α := ⟨x, .idle⟩

/-- One step of a process.  Only a faulty process fails without a reason. -/
inductive ProcStep (faulty : Bool) {α : Type} : Files → Proc α → Files → Proc α → Prop
  | now (t : Time) {k : FsSig.Res .now → Prog FsSig α} {f : Files} :
      ProcStep faulty f ⟨.op .now k, .idle⟩ f ⟨k t, .idle⟩
  | random (bytes : { bytes : List UInt8 // bytes.length = 4 })
      {k : FsSig.Res .random → Prog FsSig α} {f : Files} :
      ProcStep faulty f ⟨.op .random k, .idle⟩ f ⟨k (.ok bytes), .idle⟩
  | randomFails (hf : faulty = true) {k : FsSig.Res .random → Prog FsSig α} {f : Files} :
      ProcStep faulty f ⟨.op .random k, .idle⟩ f ⟨k (.error .other), .idle⟩
  | readDir {entries : List DirEntry} {k : FsSig.Res .readDir → Prog FsSig α} {f : Files}
      (h : Lists entries f.view) :
      ProcStep faulty f ⟨.op .readDir k, .idle⟩ f ⟨k (.ok entries), .idle⟩
  | readDirFails (hf : faulty = true) (e : FsError) {k : FsSig.Res .readDir → Prog FsSig α}
      {f : Files} : ProcStep faulty f ⟨.op .readDir k, .idle⟩ f ⟨k (.error e), .idle⟩
  | openRead {name : List UInt8} {k : FsSig.Res (.readFile name) → Prog FsSig α} {f : Files}
      {inode : Nat} (h : f.names name = some inode) :
      ProcStep faulty f ⟨.op (.readFile name) k, .idle⟩ f
        ⟨.op (.readFile name) k, .reading inode []⟩
  | notExist {name : List UInt8} {k : FsSig.Res (.readFile name) → Prog FsSig α} {f : Files}
      (h : f.names name = none) :
      ProcStep faulty f ⟨.op (.readFile name) k, .idle⟩ f ⟨k (.error .notExist), .idle⟩
  | openReadFails (hf : faulty = true) (e : FsError) {name : List UInt8}
      {k : FsSig.Res (.readFile name) → Prog FsSig α} {f : Files} :
      ProcStep faulty f ⟨.op (.readFile name) k, .idle⟩ f ⟨k (.error e), .idle⟩
  | read {name part got : List UInt8} {k : FsSig.Res (.readFile name) → Prog FsSig α} {f : Files}
      {inode : Nat} (h : part <+: (f.data inode).drop got.length) :
      ProcStep faulty f ⟨.op (.readFile name) k, .reading inode got⟩ f
        ⟨.op (.readFile name) k, .reading inode (got ++ part)⟩
  | readEnd {name got : List UInt8} {k : FsSig.Res (.readFile name) → Prog FsSig α} {f : Files}
      {inode : Nat} (h : (f.data inode).length ≤ got.length) :
      ProcStep faulty f ⟨.op (.readFile name) k, .reading inode got⟩ f ⟨k (.ok got), .idle⟩
  | readFails (hf : faulty = true) (e : FsError) {name got : List UInt8}
      {k : FsSig.Res (.readFile name) → Prog FsSig α} {f : Files} {inode : Nat} :
      ProcStep faulty f ⟨.op (.readFile name) k, .reading inode got⟩ f ⟨k (.error e), .idle⟩
  | openWrite {name content : List UInt8} {k : FsSig.Res (.writeFile name content) → Prog FsSig α}
      {f : Files} {inode : Nat} (h : f.names name = some inode) :
      ProcStep faulty f ⟨.op (.writeFile name content) k, .idle⟩ (f.setData inode [])
        ⟨.op (.writeFile name content) k, .writing inode 0 content⟩
  | openCreate {name content : List UInt8} {k : FsSig.Res (.writeFile name content) → Prog FsSig α}
      {f : Files} (h : f.names name = none) :
      ProcStep faulty f ⟨.op (.writeFile name content) k, .idle⟩ (f.create name)
        ⟨.op (.writeFile name content) k, .writing f.next 0 content⟩
  | openWriteFails (hf : faulty = true) (e : FsError) {name content : List UInt8}
      {k : FsSig.Res (.writeFile name content) → Prog FsSig α} {f : Files} :
      ProcStep faulty f ⟨.op (.writeFile name content) k, .idle⟩ f ⟨k (.error e), .idle⟩
  | write {name content part left : List UInt8}
      {k : FsSig.Res (.writeFile name content) → Prog FsSig α} {f : Files} {inode offset : Nat} :
      ProcStep faulty f ⟨.op (.writeFile name content) k, .writing inode offset (part ++ left)⟩
        (f.setData inode (writeAt (f.data inode) offset part))
        ⟨.op (.writeFile name content) k, .writing inode (offset + part.length) left⟩
  | close {name content : List UInt8} {k : FsSig.Res (.writeFile name content) → Prog FsSig α}
      {f : Files} {inode offset : Nat} :
      ProcStep faulty f ⟨.op (.writeFile name content) k, .writing inode offset []⟩ f
        ⟨k (.ok ()), .idle⟩
  | writeFails (hf : faulty = true) (e : FsError) {name content left : List UInt8}
      {k : FsSig.Res (.writeFile name content) → Prog FsSig α} {f : Files} {inode offset : Nat} :
      ProcStep faulty f ⟨.op (.writeFile name content) k, .writing inode offset left⟩ f
        ⟨k (.error e), .idle⟩
  | rename {oldName newName : List UInt8} {k : FsSig.Res (.rename oldName newName) → Prog FsSig α}
      {f : Files} {inode : Nat} (h : f.names oldName = some inode) :
      ProcStep faulty f ⟨.op (.rename oldName newName) k, .idle⟩ (f.rename oldName newName inode)
        ⟨k (.ok ()), .idle⟩
  | renameMissing {oldName newName : List UInt8}
      {k : FsSig.Res (.rename oldName newName) → Prog FsSig α} {f : Files}
      (h : f.names oldName = none) :
      ProcStep faulty f ⟨.op (.rename oldName newName) k, .idle⟩ f ⟨k (.error .notExist), .idle⟩
  | renameFails (hf : faulty = true) (e : FsError) {oldName newName : List UInt8}
      {k : FsSig.Res (.rename oldName newName) → Prog FsSig α} {f : Files} :
      ProcStep faulty f ⟨.op (.rename oldName newName) k, .idle⟩ f ⟨k (.error e), .idle⟩

/-- The next step of the process opens a file for writing. -/
def Proc.Opens {α : Type} (p : Proc α) : Prop :=
  p.micro = .idle ∧ ∃ name content k, p.rest = .op (.writeFile name content) k

/-- The process has opened its file for writing and not yet renamed it. -/
def Proc.Replacing {α : Type} (p : Proc α) : Prop :=
  (∃ inode offset left, p.micro = .writing inode offset left) ∨
    ∃ oldName newName k, p.rest = .op (.rename oldName newName) k

end CheatEngine.Feedback
