/-
  CheatEngine.Ceserver.Elf

  ELF files, as symbols.c reads them: the headers with `pread`, then for every symbol table
  the string table it is linked to.  `ELF32` and `ELF64` differ in the layout of what they
  read; ELF64 also checks the section numbers, and takes the address of the first segment
  off the value of each symbol.

  Reading through a null pointer, or past the end of a table, does not return.
-/
import CheatEngine.Lib.Bytes

namespace CheatEngine.Ceserver

open CheatEngine.Lib

/-! ## Layout (elf.h) -/

def etExec : UInt16 := 2

def etDyn : UInt16 := 3

def ptLoad : UInt32 := 1

def shtSymtab : UInt32 := 2

def shtStrtab : UInt32 := 3

def shtDynsym : UInt32 := 11

/-- The fields of the file header that are used. -/
structure Ehdr where
  e_type : UInt16
  e_phoff : UInt64
  e_shoff : UInt64
  e_phentsize : UInt16
  e_phnum : UInt16
  e_shentsize : UInt16
  e_shnum : UInt16
  e_shstrndx : UInt16

/-- A program header. -/
structure Phdr where
  p_type : UInt32
  p_vaddr : UInt64

/-- A section header. -/
structure Shdr where
  sh_type : UInt32
  sh_offset : UInt64
  sh_size : UInt64
  sh_link : UInt32

/-- A symbol. -/
structure Sym where
  st_name : UInt32
  st_info : UInt8
  st_value : UInt64
  st_size : UInt64

/-- The layout of a class: how each record is read from its first byte, how many bytes it
    has, and how an offset in the file is added to that of the image. -/
structure ElfLayout where
  ehdr : List UInt8 → Ehdr
  phdr : List UInt8 → Phdr
  phdrSize : Nat
  shdr : List UInt8 → Shdr
  shdrSize : Nat
  sym : List UInt8 → Sym
  symSize : Nat
  add : UInt64 → UInt32 → UInt64

def layout64 : ElfLayout where
  ehdr bs := ⟨u16At bs 16, u64At bs 32, u64At bs 40, u16At bs 54, u16At bs 56, u16At bs 58,
    u16At bs 60, u16At bs 62⟩
  phdr bs := ⟨u32At bs 0, u64At bs 16⟩
  phdrSize := 56
  shdr bs := ⟨u32At bs 4, u64At bs 24, u64At bs 32, u32At bs 40⟩
  shdrSize := 64
  sym bs := ⟨u32At bs 0, u8At bs 4, u64At bs 8, u64At bs 16⟩
  symSize := 24
  add offset fileoffset := offset + fileoffset.toUInt64

def layout32 : ElfLayout where
  ehdr bs := ⟨u16At bs 16, (u32At bs 28).toUInt64, (u32At bs 32).toUInt64, u16At bs 42,
    u16At bs 44, u16At bs 46, u16At bs 48, u16At bs 50⟩
  phdr bs := ⟨u32At bs 0, (u32At bs 8).toUInt64⟩
  phdrSize := 32
  shdr bs := ⟨u32At bs 4, (u32At bs 16).toUInt64, (u32At bs 20).toUInt64, u32At bs 24⟩
  shdrSize := 40
  sym bs := ⟨u32At bs 0, u8At bs 12, (u32At bs 4).toUInt64, (u32At bs 8).toUInt64⟩
  symSize := 16
  add offset fileoffset := (offset.toUInt32 + fileoffset).toUInt64

def pread (file : List UInt8) (size : Nat) (offset : UInt64) : Option (List UInt8) :=
  if offset.toNat < 2 ^ 63 then some ((file.drop offset.toNat).take size) else none

def elfHeader (file : List UInt8) (fileoffset : UInt32) : List UInt8 :=
  (file.drop fileoffset.toNat).take 64

def records {α : Type} (read : List UInt8 → α) (size count : Nat) (table : List UInt8) : List α :=
  (List.range count).map fun i => read (table.drop (i * size))

def programHeaders (file : List UInt8) (fileoffset : UInt32) (l : ElfLayout) (b : Ehdr) :
    Option (List Phdr) :=
  (pread file (b.e_phentsize.toNat * b.e_phnum.toNat) (l.add b.e_phoff fileoffset)).map
    (records l.phdr l.phdrSize b.e_phnum.toNat)

def sectionHeaders (file : List UInt8) (fileoffset : UInt32) (l : ElfLayout) (b : Ehdr) :
    Option (List Shdr) :=
  (pread file (b.e_shentsize.toNat * b.e_shnum.toNat) (l.add b.e_shoff fileoffset)).map
    (records l.shdr l.shdrSize b.e_shnum.toNat)

/-- `p_vaddr` of the first segment. -/
def firstLoad (phdrs : List Phdr) : Option UInt64 :=
  (phdrs.find? fun p => p.p_type = ptLoad).map Phdr.p_vaddr

/-- `int offset=programHeaders[i].p_vaddr`, as it is subtracted from a 64-bit value. -/
def asInt (p_vaddr : UInt64) : UInt64 := p_vaddr.toUInt32.toInt32.toInt64.toUInt64

def Shdr.isSymbolTable (sh : Shdr) : Bool := sh.sh_type = shtSymtab || sh.sh_type = shtDynsym

section Tables

variable (file : List UInt8) (fileoffset : UInt32) (l : ElfLayout)

/-- The symbols of a section; none when they cannot be read. -/
def symbolTable (sh : Shdr) : List Sym :=
  match pread file sh.sh_size.toNat (l.add sh.sh_offset fileoffset) with
  | some table => records l.sym l.symSize (sh.sh_size.toNat / l.symSize) table
  | none => []

/-- `stringTable[index]` after `loadStringTable`; `none` is NULL. -/
def stringTable (shdrs : List Shdr) (index : Nat) : Option (List UInt8) :=
  match shdrs[index]? with
  | some sh =>
    if sh.sh_type = shtStrtab then
      pread file sh.sh_size.toNat (l.add sh.sh_offset fileoffset)
    else none
  | none => none

/-- The string at `st_name`, which must end inside the table. -/
def stringAt (table : List UInt8) (st_name : UInt32) : Option (List UInt8) :=
  let rest := table.drop st_name.toNat
  if 0 ∈ rest then some (rest.takeWhile (· ≠ 0)) else none

/-- `symbolname`; `none` when it cannot be looked at. -/
def symbolname (shdrs : List Shdr) (sh : Shdr) (sym : Sym) : Option (List UInt8) :=
  (stringTable file fileoffset l shdrs sh.sh_link.toNat).bind fun table =>
    stringAt table sym.st_name

/-- The symbols of a section that have a value, with their names. -/
def namedSymbols (shdrs : List Shdr) (sh : Shdr) : Option (List (Sym × List UInt8)) :=
  ((symbolTable file fileoffset l sh).filter fun sym => sym.st_value ≠ 0).mapM fun sym =>
    (symbolname file fileoffset l shdrs sh sym).map fun name => (sym, name)

/-- Both loops of `ELF32`. -/
def symbols32 (shdrs : List Shdr) : Option (List (Sym × List UInt8)) :=
  ((shdrs.filter Shdr.isSymbolTable).mapM (namedSymbols file fileoffset l shdrs)).map List.flatten

/-- Both loops of `ELF64`, which skips a section with a bad link, and all of them when the
    number of the section names is bad. -/
def symbols64 (b : Ehdr) (shdrs : List Shdr) : Option (List (Sym × List UInt8)) :=
  if b.e_shstrndx < b.e_shnum then
    ((shdrs.filter fun sh => sh.isSymbolTable && sh.sh_link.toNat < b.e_shnum.toNat).mapM
      (namedSymbols file fileoffset l shdrs)).map List.flatten
  else some []

end Tables

/-- A symbol of the file: its value and size, `st_info`, and its name. -/
structure FileSymbol where
  st_value : UInt64
  st_size : UInt64
  st_info : UInt8
  name : List UInt8

/-- An image in a file: at an offset, of a class. -/
structure ElfImage where
  file : List UInt8
  fileoffset : UInt32
  layout : ElfLayout

namespace ElfImage

variable (m : ElfImage)

def header : Ehdr := m.layout.ehdr (elfHeader m.file m.fileoffset)

def phdrs : List Phdr := (programHeaders m.file m.fileoffset m.layout m.header).getD []

def shdrs : List Shdr := (sectionHeaders m.file m.fileoffset m.layout m.header).getD []

def p_vaddr : UInt64 := (firstLoad m.phdrs).getD 0

def table (sh : Shdr) : List Sym := symbolTable m.file m.fileoffset m.layout sh

def name? (sh : Shdr) (sym : Sym) : Option (List UInt8) :=
  symbolname m.file m.fileoffset m.layout m.shdrs sh sym

/-- The entries of a symbol table that have a value. -/
def entriesOf (sh : Shdr) : List FileSymbol :=
  ((m.table sh).filter fun sym => sym.st_value ≠ 0).map fun sym =>
    ⟨sym.st_value, sym.st_size, sym.st_info, (m.name? sh sym).getD []⟩

def entries : List FileSymbol := (m.shdrs.filter Shdr.isSymbolTable).flatMap m.entriesOf

def listed : List FileSymbol := m.entries.filter fun s => s.name ≠ []

/-- The headers can be read, a segment is loaded, and each symbol table is linked to a string
    table that ends the names of its symbols. -/
structure WellFormed : Prop where
  magic : u32At (elfHeader m.file m.fileoffset) 0 = 0x464c457f
  phentsize : m.header.e_phentsize.toNat = m.layout.phdrSize
  shentsize : m.header.e_shentsize.toNat = m.layout.shdrSize
  phdrs : (programHeaders m.file m.fileoffset m.layout m.header).isSome
  shdrs : (sectionHeaders m.file m.fileoffset m.layout m.header).isSome
  load : (firstLoad m.phdrs).isSome
  shstrndx : m.header.e_shstrndx < m.header.e_shnum
  link : ∀ sh ∈ m.shdrs, sh.isSymbolTable → sh.sh_link.toNat < m.header.e_shnum.toNat
  names : ∀ sh ∈ m.shdrs, sh.isSymbolTable → ∀ sym ∈ m.table sh, sym.st_value ≠ 0 →
    (m.name? sh sym).isSome

end ElfImage

section

variable (file : List UInt8) (fileoffset : UInt32)

def elf64Image : ElfImage := ⟨file, fileoffset, layout64⟩

def elf32Image : ElfImage := ⟨file, fileoffset, layout32⟩

def isClass32 : Bool := u8At (elfHeader file fileoffset) 4 = 1

end

section Collect

variable {m : ElfImage}

/-- Each name is found, so that a table gives all its entries. -/
theorem mapM_eq_map {α β : Type} {f : α → Option β} {g : α → β} :
    ∀ {l : List α}, (∀ a ∈ l, f a = some (g a)) → l.mapM f = some (l.map g)
  | [], _ => rfl
  | a :: l, h => by
    have hhead := h a List.mem_cons_self
    have htail := mapM_eq_map fun b hb => h b (List.mem_cons_of_mem a hb)
    simp [List.mapM_cons, hhead, htail]

/-- A symbol with its name, as an entry of the file. -/
def toFileSymbol (p : Sym × List UInt8) : FileSymbol :=
  ⟨p.1.st_value, p.1.st_size, p.1.st_info, p.2⟩

theorem namedSymbols_eq (h : m.WellFormed) {sh : Shdr} (hsh : sh ∈ m.shdrs)
    (htable : sh.isSymbolTable = true) :
    ∃ symbols, namedSymbols m.file m.fileoffset m.layout m.shdrs sh = some symbols ∧
      symbols.map toFileSymbol = m.entriesOf sh := by
  have hnames : ∀ sym ∈ (m.table sh).filter fun sym => sym.st_value ≠ 0,
      ((m.name? sh sym).map fun name => (sym, name)) = some (sym, (m.name? sh sym).getD []) := by
    intro sym hsym
    rw [List.mem_filter] at hsym
    obtain ⟨name, hname⟩ := Option.isSome_iff_exists.1
      (h.names sh hsh htable sym hsym.1 (by simpa using hsym.2))
    simp [hname]
  refine ⟨_, mapM_eq_map hnames, ?_⟩
  rw [List.map_map]
  rfl

theorem mapM_namedSymbols (h : m.WellFormed) {shdrs : List Shdr}
    (hshdrs : ∀ sh ∈ shdrs, sh ∈ m.shdrs ∧ sh.isSymbolTable = true) :
    ∃ symbols, shdrs.mapM (namedSymbols m.file m.fileoffset m.layout m.shdrs) = some symbols ∧
      symbols.flatten.map toFileSymbol = shdrs.flatMap m.entriesOf := by
  induction shdrs with
  | nil => exact ⟨[], rfl, rfl⟩
  | cons sh shdrs ih =>
    obtain ⟨hmem, htable⟩ := hshdrs sh List.mem_cons_self
    obtain ⟨symbols, hsymbols, hentries⟩ := namedSymbols_eq h hmem htable
    obtain ⟨rest, hrest, hflat⟩ := ih fun s hs => hshdrs s (List.mem_cons_of_mem sh hs)
    refine ⟨symbols :: rest, ?_, ?_⟩
    · simp [List.mapM_cons, hsymbols, hrest]
    · simp [hentries, hflat]

theorem symbols32_eq (h : m.WellFormed) :
    ∃ symbols, symbols32 m.file m.fileoffset m.layout m.shdrs = some symbols ∧
      symbols.map toFileSymbol = m.entries := by
  have htables : ∀ sh ∈ m.shdrs.filter Shdr.isSymbolTable,
      sh ∈ m.shdrs ∧ sh.isSymbolTable = true := fun sh hsh => List.mem_filter.1 hsh
  obtain ⟨symbols, hsymbols, hentries⟩ := mapM_namedSymbols h htables
  exact ⟨symbols.flatten, by rw [symbols32, hsymbols]; rfl, hentries⟩

/-- So does ELF64: no link is bad. -/
theorem symbols64_eq (h : m.WellFormed) :
    ∃ symbols, symbols64 m.file m.fileoffset m.layout m.header m.shdrs = some symbols ∧
      symbols.map toFileSymbol = m.entries := by
  have hsame : (m.shdrs.filter fun sh =>
      sh.isSymbolTable && sh.sh_link.toNat < m.header.e_shnum.toNat) =
      m.shdrs.filter Shdr.isSymbolTable := by
    apply List.filter_congr
    intro sh hsh
    by_cases htable : sh.isSymbolTable = true
    · simp [htable, h.link sh hsh htable]
    · simp [htable]
  obtain ⟨symbols, hsymbols, hentries⟩ := symbols32_eq h
  refine ⟨symbols, ?_, hentries⟩
  rw [symbols64, if_pos h.shstrndx, hsame]
  exact hsymbols

end Collect

end CheatEngine.Ceserver
