/-
  CheatEngine.Ceserver.Options

  The option store of ceserver (options.c): four global variables that the
  commands `GetOptions`, `GetOption` and `SetOption` read and write by name.

  The table of options is counted only by `handleGetOptions`: until it ran, the
  lookup by name, which goes over the first `optioncount` entries, finds nothing.
-/
import CheatEngine.Ceserver.Effects
import CheatEngine.Lib.Stdio

namespace CheatEngine.Ceserver

open CheatEngine.Lib

/-- The variables behind the options, each of them an `int`. -/
inductive OptionVar
  | MEMORY_SEARCH_OPTION
  | ATTACH_TO_ACCESS_MEMORY
  | ATTACH_TO_WRITE_MEMORY
  | ALLOC_WITHOUT_EXTENSION
  deriving DecidableEq, Repr

/-- `CEServerOption`; a text that is `NULL` is empty, as `sendstring16` sends it. -/
structure CEServerOption where
  optname : CString 255
  parent : CString 255
  description : CString 255
  acceptablevalues : CString 255
  type : Int32
  data : OptionVar

def noText : CString 255 := CString.empty 255

def optMRO : CEServerOption where
  optname := ⟨ascii "optMSO", by decide, by decide⟩
  parent := noText
  description := ⟨ascii "Memory search option", by decide, by decide⟩
  acceptablevalues := ⟨ascii
    "0=/proc/pid/mem reads;1=ptrace read;2=process_vm_readv;3=process_vm_readv syscall",
    by decide, by decide⟩
  type := 2
  data := .MEMORY_SEARCH_OPTION

def optATAM : CEServerOption where
  optname := ⟨ascii "optATAM", by decide, by decide⟩
  parent := noText
  description := ⟨ascii "Attach to access memory", by decide, by decide⟩
  acceptablevalues := noText
  type := 1
  data := .ATTACH_TO_ACCESS_MEMORY

def optATWM : CEServerOption where
  optname := ⟨ascii "optATWM", by decide, by decide⟩
  parent := noText
  description := ⟨ascii "Attach to write memory", by decide, by decide⟩
  acceptablevalues := noText
  type := 1
  data := .ATTACH_TO_WRITE_MEMORY

def optAWSO : CEServerOption where
  optname := ⟨ascii "optAWSO", by decide, by decide⟩
  parent := noText
  description := ⟨ascii "Allocate memory without extension injection", by decide, by decide⟩
  acceptablevalues := noText
  type := 1
  data := .ALLOC_WITHOUT_EXTENSION

/-- The table, up to its `NULL`. -/
def options : List CEServerOption := [optMRO, optATAM, optATWM, optAWSO]

/-! ## The store -/

/-- `optioncount` and the variables. -/
structure OptionStore where
  optioncount : Nat
  data : OptionVar → Int32

/-- A ceserver that was just started: the count is 0, the variables are what the
    command line made of them. -/
def OptionStore.fresh (data : OptionVar → Int32) : OptionStore := ⟨0, data⟩

/-- The characters of a C string. -/
def chars (bytes : List UInt8) : List Char := bytes.map fun b => Char.ofNat b.toNat

/-- A character of ASCII and the byte it is. -/
theorem toNat_toUInt8 {c : Char} (h : c.toNat < 128) : c.toUInt8.toNat = c.toNat := by
  have hval : c.val.toNat < 256 := Nat.lt_trans h (by decide)
  rw [Char.toUInt8, UInt32.toNat_toUInt8]
  exact Nat.mod_eq_of_lt hval

theorem zero_notMem_printed (i : Int32) :
    (0 : UInt8) ∉ ((putDec i.toInt).take 30).map Char.toUInt8 := by
  intro h
  obtain ⟨c, hc, hzero⟩ := List.mem_map.mp h
  obtain ⟨hpos, hascii⟩ := putDec_ascii c (List.mem_of_mem_take hc)
  have hbyte := toNat_toUInt8 hascii
  rw [hzero] at hbyte
  exact absurd hbyte (Nat.ne_of_lt hpos)

/-- `snprintf(str, 31, "%d", i)` -/
def printInt (i : Int32) : CString 255 where
  bytes := ((putDec i.toInt).take 30).map Char.toUInt8
  length_le := by
    rw [List.length_map]
    exact (List.length_take_le 30 _).trans (by decide)
  noNul := zero_notMem_printed i

namespace OptionStore

variable (s : OptionStore)

def assign (var : OptionVar) (v : Int32) : OptionStore :=
  { s with data := Function.update s.data var v }

def getOption (name : List UInt8) : Option CEServerOption :=
  (options.take s.optioncount).find? fun o => o.optname.bytes = name

/-- `getOptionValue`; no option of the table has another type. -/
def getOptionValue (o : CEServerOption) : Option (CString 255) :=
  if o.type = 1 then some (if s.data o.data ≠ 0 then ⟨ascii "1", by decide, by decide⟩
    else ⟨ascii "0", by decide, by decide⟩)
  else if o.type = 2 then some (printInt (s.data o.data))
  else none

/-- What `handleSetOption` does with a name and a value. -/
def handleSetOption (optname newvalue : List UInt8) : OptionStore :=
  match s.getOption optname with
  | some o =>
    let i := Int32.ofInt (atoi (chars newvalue))
    if o.type = 1 then s.assign o.data (if i ≠ 0 then 1 else 0)
    else if o.type = 2 then s.assign o.data i
    else s
  | none => s

/-- The store after the counting loop of `handleGetOptions`. -/
def counted : OptionStore :=
  if s.optioncount = 0 then { s with optioncount := options.length } else s

def serverOption (o : CEServerOption) : ServerOption where
  optname := o.optname
  parent := o.parent
  description := o.description
  acceptablevalues := o.acceptablevalues
  currentValue := (s.getOptionValue o).getD noText
  type := o.type

def listing : List ServerOption := (options.take s.optioncount).map s.serverOption

theorem length_listing_le : s.listing.length ≤ 4 := by
  rw [listing, List.length_map]
  exact List.length_take_le' _ _

end OptionStore

/-- The functions behind the dispatcher, as far as the options go. -/
def optionOutcomes : Outcomes OptionStore
  | .getOptions, s => (⟨s.counted.listing, s.counted.length_listing_le⟩, s.counted)
  | .getOption optname, s => ((s.getOption optname).bind s.getOptionValue, s)
  | .setOption optname newvalue, s => ((), s.handleSetOption optname newvalue)
  | c, s => (refusal c, s)

/-- A command on the options, with the strings as the client sent them. -/
inductive OptionCommand
  | getOptions
  | getOption (name : List UInt8)
  | setOption (name value : List UInt8)
  deriving DecidableEq

def receivedString (bytes : List UInt8) : Option (List UInt8) :=
  if bytes = [] then none else some (cString bytes)

namespace OptionCommand

/-- The handler of a command, with what it receives. -/
def handler : OptionCommand → Command CeApi Unit
  | .getOptions => handleGetOptions
  | .getOption name => onGetOption (receivedString name)
  | .setOption name value => onSetOption (receivedString name) (receivedString value)

/-- A command on a stream of its own: what it sends, and the store after it. -/
def serve (c : OptionCommand) (s : OptionStore) : List UInt8 × OptionStore :=
  let w := (drive optionOutcomes.env c.handler.run ⟨[], [], s, []⟩).2
  (w.out, w.api)

/-- The command stores a value under a name. -/
def Sets (o : CEServerOption) : OptionCommand → Prop
  | .setOption name _ => cString name = o.optname.bytes
  | _ => False

end OptionCommand

def OptionStore.run (s : OptionStore) (commands : List OptionCommand) : OptionStore :=
  commands.foldl (fun s c => (c.serve s).2) s

section Receive

variable (inp out : List UInt8) (s : OptionStore) (log : List (Prog.Event CeApi))

end Receive

section Serve

variable (s : OptionStore)

theorem drive_sendOptions {α : Type} (l : List ServerOption) (k : Unit → Command CeApi α)
    (inp out : List UInt8) (log : List (Prog.Event CeApi)) :
    drive optionOutcomes.env (sendOptions l >>= k).run ⟨inp, out, s, log⟩ =
      drive optionOutcomes.env (k ()).run
        ⟨inp, out ++ (l.map ServerOption.encode).flatten, s, log⟩ := by
  induction l generalizing out with
  | nil => rw [List.map_nil, List.flatten_nil, List.append_nil]; rfl
  | cons o rest ih =>
    have hsend : ∀ k' : Unit → Command CeApi α,
        drive optionOutcomes.env (o.send >>= k').run ⟨inp, out, s, log⟩ =
          drive optionOutcomes.env (k' ()).run ⟨inp, out ++ o.encode, s, log⟩ := by
      intro k'
      simp only [ServerOption.send, sendstring16, bind_assoc, drive_reply, ServerOption.encode,
        string16, List.append_assoc]
    rw [sendOptions, bind_assoc, hsend, ih, List.map_cons, List.flatten_cons, List.append_assoc]

def optionsReply (listed : List ServerOption) : List UInt8 :=
  u16 (UInt16.ofNat listed.length) ++ (listed.map ServerOption.encode).flatten

theorem serve_getOptions :
    OptionCommand.getOptions.serve s = (optionsReply s.counted.listing, s.counted) := by
  have hdrive : drive optionOutcomes.env handleGetOptions.run ⟨[], [], s, []⟩ =
      (pure (some ()), ⟨[], optionsReply s.counted.listing, s.counted,
        [⟨.getOptions, some ⟨s.counted.listing, s.counted.length_listing_le⟩⟩]⟩) := by
    have hlast : sendOptions s.counted.listing =
        sendOptions s.counted.listing >>= fun _ => pure () := (bind_pure _).symm
    rw [handleGetOptions, drive_outcome]
    show drive optionOutcomes.env (reply _ >>= fun _ => sendOptions s.counted.listing).run _ = _
    rw [hlast, drive_reply, drive_sendOptions]
    rfl
  show ((drive optionOutcomes.env handleGetOptions.run ⟨[], [], s, []⟩).2.out,
    (drive optionOutcomes.env handleGetOptions.run ⟨[], [], s, []⟩).2.api) = _
  rw [hdrive]

theorem serve_getOption {name : List UInt8} (hname : name ≠ []) :
    (OptionCommand.getOption name).serve s =
      (string16 (((s.getOption (cString name)).bind s.getOptionValue).elim [] CString.bytes),
        s) := by
  have hhandler : (OptionCommand.getOption name).handler = onGetOption (some (cString name)) :=
    congrArg onGetOption (if_neg hname)
  have hanswer : optionOutcomes (.getOption (cString name)) s =
      ((s.getOption (cString name)).bind s.getOptionValue, s) := rfl
  rw [OptionCommand.serve, hhandler, onGetOption, drive_outcome, hanswer]
  dsimp only
  cases (s.getOption (cString name)).bind s.getOptionValue <;> rfl

theorem serve_setOption {name value : List UInt8} (hname : name ≠ []) (hvalue : value ≠ []) :
    (OptionCommand.setOption name value).serve s =
      ([], s.handleSetOption (cString name) (cString value)) := by
  have hhandler : (OptionCommand.setOption name value).handler =
      onSetOption (some (cString name)) (some (cString value)) :=
    congrArg₂ onSetOption (if_neg hname) (if_neg hvalue)
  rw [OptionCommand.serve, hhandler]
  rfl

theorem serve_noName (c : OptionCommand)
    (h : c = .getOption [] ∨ (∃ value, c = .setOption [] value) ∨ ∃ name, c = .setOption name []) :
    (c.serve s).2 = s := by
  rcases h with rfl | ⟨value, rfl⟩ | ⟨name, rfl⟩
  · rfl
  · rfl
  · cases name <;> rfl

end Serve

section Count

variable {s : OptionStore}

theorem handleSetOption_count (s : OptionStore) (name value : List UInt8) :
    (s.handleSetOption name value).optioncount = s.optioncount := by
  unfold OptionStore.handleSetOption
  split
  · split
    · rfl
    · split <;> rfl
  · rfl

theorem serve_count {c : OptionCommand} (h : c ≠ .getOptions) (s : OptionStore) :
    (c.serve s).2.optioncount = s.optioncount := by
  cases c with
  | getOptions => exact absurd rfl h
  | getOption name =>
    by_cases hname : name = []
    · rw [serve_noName s _ (.inl (congrArg _ hname))]
    · rw [serve_getOption s hname]
  | setOption name value =>
    by_cases hname : name = []
    · rw [serve_noName s _ (.inr (.inl ⟨value, by rw [hname]⟩))]
    by_cases hvalue : value = []
    · rw [serve_noName s _ (.inr (.inr ⟨name, by rw [hvalue]⟩))]
    · rw [serve_setOption s hname hvalue]
      exact handleSetOption_count s _ _

theorem counted_of_counted (h : s.optioncount = options.length) : s.counted = s := by
  have hne : s.optioncount ≠ 0 := by
    rw [h]
    decide
  exact if_neg hne

theorem run_counted (h : s.optioncount = options.length) (commands : List OptionCommand) :
    (s.run commands).optioncount = options.length := by
  induction commands generalizing s with
  | nil => exact h
  | cons c commands ih =>
    have hstep : (c.serve s).2.optioncount = options.length := by
      by_cases hc : c = .getOptions
      · rw [hc, serve_getOptions, counted_of_counted h, h]
      · rw [serve_count hc, h]
    exact ih hstep

theorem run_count (h : s.optioncount = 0) (commands : List OptionCommand) :
    (s.run commands).optioncount =
      if .getOptions ∈ commands then options.length else 0 := by
  induction commands generalizing s with
  | nil => exact h
  | cons c commands ih =>
    by_cases hc : c = .getOptions
    · have hcounted : (c.serve s).2.optioncount = options.length := by
        rw [hc, serve_getOptions, OptionStore.counted, if_pos h]
      rw [if_pos (by rw [hc]; exact List.mem_cons_self)]
      exact run_counted hcounted commands
    · have hmem : .getOptions ∈ c :: commands ↔ .getOptions ∈ commands := by
        rw [List.mem_cons]
        exact ⟨fun h' => h'.resolve_left (Ne.symm hc), .inr⟩
      have hstep : (c.serve s).2.optioncount = 0 := by rw [serve_count hc, h]
      simp only [hmem]
      exact ih hstep

end Count

section Data

variable {s : OptionStore} {o : CEServerOption} {o' : CEServerOption}

theorem optname_of_data (ho : o ∈ options) (ho' : o' ∈ options)
    (h : o'.data = o.data) : o'.optname.bytes = o.optname.bytes := by
  simp only [options, List.mem_cons, List.not_mem_nil, or_false] at ho ho'
  rcases ho with rfl | rfl | rfl | rfl <;> rcases ho' with rfl | rfl | rfl | rfl <;>
    first | exact absurd h (by decide) | rfl

theorem data_of_optname (ho : o ∈ options) (ho' : o' ∈ options)
    (h : o'.optname.bytes = o.optname.bytes) : o'.data = o.data := by
  simp only [options, List.mem_cons, List.not_mem_nil, or_false] at ho ho'
  rcases ho with rfl | rfl | rfl | rfl <;> rcases ho' with rfl | rfl | rfl | rfl <;>
    first | rfl | exact absurd h (by decide)

theorem getOption_some {name : List UInt8}
    (h : s.getOption name = some o') : o' ∈ options ∧ o'.optname.bytes = name := by
  have hmem := List.mem_of_find?_eq_some h
  have hname := List.find?_some h
  exact ⟨List.mem_of_mem_take hmem, by simpa using hname⟩

theorem handleSetOption_data (s : OptionStore) {name value : List UInt8} {var : OptionVar}
    (h : ∀ o' ∈ options, o'.optname.bytes = name → o'.data ≠ var) :
    (s.handleSetOption name value).data var = s.data var := by
  unfold OptionStore.handleSetOption
  split
  next o' hfound =>
    obtain ⟨hmem, hname⟩ := getOption_some hfound
    have hne := (h o' hmem hname).symm
    split
    · exact Function.update_of_ne hne _ _
    · split
      · exact Function.update_of_ne hne _ _
      · rfl
  next => rfl

theorem serve_data (ho : o ∈ options) {c : OptionCommand} (hc : ¬ c.Sets o) (s : OptionStore) :
    (c.serve s).2.data o.data = s.data o.data := by
  cases c with
  | getOptions =>
    rw [serve_getOptions, OptionStore.counted]
    split <;> rfl
  | getOption name =>
    by_cases hname : name = []
    · rw [serve_noName s _ (.inl (congrArg _ hname))]
    · rw [serve_getOption s hname]
  | setOption name value =>
    by_cases hname : name = []
    · rw [serve_noName s _ (.inr (.inl ⟨value, by rw [hname]⟩))]
    by_cases hvalue : value = []
    · rw [serve_noName s _ (.inr (.inr ⟨name, by rw [hvalue]⟩))]
    · rw [serve_setOption s hname hvalue]
      refine handleSetOption_data s ?_
      intro o' ho' hname' hdata
      exact hc (hname'.symm.trans (optname_of_data ho ho' hdata))

theorem run_data (ho : o ∈ options) {commands : List OptionCommand}
    (h : ∀ c ∈ commands, ¬ c.Sets o) (s : OptionStore) :
    (s.run commands).data o.data = s.data o.data := by
  induction commands generalizing s with
  | nil => rfl
  | cons c commands ih =>
    obtain ⟨hc, hrest⟩ := List.forall_mem_cons.mp h
    have hstep := serve_data ho hc s
    have hrun := ih hrest (c.serve s).2
    exact hrun.trans hstep

theorem getOption_counted (h : s.optioncount = options.length) (ho : o ∈ options) :
    s.getOption o.optname.bytes = some o := by
  rw [OptionStore.getOption, h, List.take_length]
  simp only [options, List.mem_cons, List.not_mem_nil, or_false] at ho
  rcases ho with rfl | rfl | rfl | rfl <;> rfl

theorem getOption_uncounted (h : s.optioncount = 0) (name : List UInt8) :
    s.getOption name = none := by
  rw [OptionStore.getOption, h]
  rfl

end Data

def decimal (i : Int32) : List UInt8 := (putDec i.toInt).map Char.toUInt8

/-- A value that an option can take, in the form in which it is listed. -/
def CanonicalValue (o : CEServerOption) (v : List UInt8) : Prop :=
  (o.type = 2 ∧ ∃ i, v = decimal i) ∨ (o.type = 1 ∧ (v = ascii "0" ∨ v = ascii "1"))

theorem printInt_bytes (i : Int32) : (printInt i).bytes = decimal i := by
  have hlen : (putDec i.toInt).length ≤ 11 := length_putDec i.le_toInt i.toInt_lt
  show ((putDec i.toInt).take 30).map Char.toUInt8 = _
  rw [List.take_of_length_le (by omega)]
  rfl

theorem chars_ascii {text : List Char} (h : ∀ c ∈ text, c.toNat < 128) :
    chars (text.map Char.toUInt8) = text := by
  induction text with
  | nil => rfl
  | cons c text ih =>
    obtain ⟨hc, hrest⟩ := List.forall_mem_cons.mp h
    have hchar : Char.ofNat c.toUInt8.toNat = c := by
      rw [toNat_toUInt8 hc, Char.ofNat_toNat]
    show Char.ofNat c.toUInt8.toNat :: chars (text.map Char.toUInt8) = _
    rw [hchar, ih hrest]

theorem atoi_decimal (i : Int32) : Int32.ofInt (atoi (chars (decimal i))) = i := by
  rw [decimal, chars_ascii fun c hc => (putDec_ascii c hc).2, atoi_putDec i.le_toInt i.toInt_lt,
    Int32.ofInt_toInt]

theorem printInt_decimal (i : Int32) : decimal i ≠ [] ∧ (0 : UInt8) ∉ decimal i := by
  constructor
  · intro h
    have hnil : putDec i.toInt = [] := List.map_eq_nil_iff.mp h
    have hread := scanInt_putDec i.le_toInt i.toInt_lt
    rw [hnil] at hread
    cases hread
  · rw [← printInt_bytes]
    exact (printInt i).noNul

variable {v : List UInt8}

theorem CanonicalValue.text {o : CEServerOption} (hv : CanonicalValue o v) :
    v ≠ [] ∧ cString v = v := by
  rcases hv with ⟨-, i, rfl⟩ | ⟨-, rfl | rfl⟩
  · exact ⟨(printInt_decimal i).1, cString_eq (printInt_decimal i).2⟩
  · exact ⟨by decide, by decide⟩
  · exact ⟨by decide, by decide⟩

theorem optname_text {o : CEServerOption} (ho : o ∈ options) :
    o.optname.bytes ≠ [] ∧ cString o.optname.bytes = o.optname.bytes := by
  refine ⟨?_, cString_eq o.optname.noNul⟩
  simp only [options, List.mem_cons, List.not_mem_nil, or_false] at ho
  rcases ho with rfl | rfl | rfl | rfl <;> decide

theorem getOptionValue_set {s : OptionStore} {o : CEServerOption}
    (hcount : s.optioncount = options.length) (ho : o ∈ options) (hv : CanonicalValue o v)
    {s' : OptionStore}
    (hdata : s'.data o.data = (s.handleSetOption o.optname.bytes v).data o.data) :
    ∃ value, s'.getOptionValue o = some value ∧ value.bytes = v := by
  have hfound := getOption_counted hcount ho
  have hset : s.handleSetOption o.optname.bytes v =
      if o.type = 1 then s.assign o.data (if Int32.ofInt (atoi (chars v)) ≠ 0 then 1 else 0)
      else if o.type = 2 then s.assign o.data (Int32.ofInt (atoi (chars v))) else s := by
    rw [OptionStore.handleSetOption, hfound]
  rw [hset] at hdata
  have hself : ∀ i, (s.assign o.data i).data o.data = i := by
    intro i
    simp only [OptionStore.assign, Function.update_self]
  rcases hv with ⟨htype, i, rfl⟩ | ⟨htype, hbool⟩
  · have hne : ¬ (o.type = 1) := by
      rw [htype]
      decide
    rw [if_neg hne, if_pos htype, hself, atoi_decimal] at hdata
    refine ⟨printInt i, ?_, printInt_bytes i⟩
    rw [OptionStore.getOptionValue, if_neg hne, if_pos htype, hdata]
  · rw [if_pos htype, hself] at hdata
    rcases hbool with rfl | rfl
    · have hzero : s'.data o.data = 0 := hdata
      exact ⟨⟨ascii "0", by decide, by decide⟩, by
        rw [OptionStore.getOptionValue, if_pos htype, hzero, if_neg (by decide)], rfl⟩
    · have hone : s'.data o.data = 1 := hdata
      exact ⟨⟨ascii "1", by decide, by decide⟩, by
        rw [OptionStore.getOptionValue, if_pos htype, hone, if_pos (by decide)], rfl⟩

/-! ## The store keeps what is set -/

/-- After the commands `pre`, the value `v` that is stored in the option `o` is what
    `GetOption` answers and `GetOptions` lists until a next `SetOption` of its name,
    and storing it leaves the variables of the other options. -/
structure KeepsOption (s : OptionStore) (pre : List OptionCommand) (o : CEServerOption)
    (v : List UInt8) : Prop where
  answered : ∀ post, (∀ c ∈ post, ¬ c.Sets o) →
    ((OptionCommand.getOption o.optname.bytes).serve
      (s.run (pre ++ .setOption o.optname.bytes v :: post))).1 = string16 v
  listed : ∀ post, (∀ c ∈ post, ¬ c.Sets o) →
    ∃ before opt after, opt.optname = o.optname ∧ opt.currentValue.bytes = v ∧
      (OptionCommand.getOptions.serve
        (s.run (pre ++ .setOption o.optname.bytes v :: post))).1 =
          optionsReply (before ++ opt :: after)
  others : ∀ o' ∈ options, o'.data ≠ o.data →
    (s.run (pre ++ [.setOption o.optname.bytes v])).data o'.data = (s.run pre).data o'.data

theorem run_append (s : OptionStore) (pre post : List OptionCommand) :
    s.run (pre ++ post) = (s.run pre).run post :=
  List.foldl_append ..

theorem run_set_data {s : OptionStore} {o : CEServerOption} (ho : o ∈ options)
    (hv : CanonicalValue o v) (pre : List OptionCommand) {post : List OptionCommand}
    (hpost : ∀ c ∈ post, ¬ c.Sets o) :
    (s.run (pre ++ .setOption o.optname.bytes v :: post)).data o.data =
      ((s.run pre).handleSetOption o.optname.bytes v).data o.data := by
  obtain ⟨hname, hcname⟩ := optname_text ho
  obtain ⟨hvne, hcv⟩ := hv.text
  rw [run_append]
  show ((((OptionCommand.setOption o.optname.bytes v).serve (s.run pre)).2).run post).data
    o.data = _
  rw [run_data ho hpost, serve_setOption _ hname hvne, hcname, hcv]

theorem keepsOption_of_listed (data : OptionVar → Int32) {pre : List OptionCommand}
    (hpre : .getOptions ∈ pre) {o : CEServerOption} (ho : o ∈ options)
    (hv : CanonicalValue o v) : KeepsOption (.fresh data) pre o v := by
  obtain ⟨hname, hcname⟩ := optname_text ho
  obtain ⟨hvne, hcv⟩ := hv.text
  have hcount : ((OptionStore.fresh data).run pre).optioncount = options.length := by
    rw [run_count rfl, if_pos hpre]
  have hcount' : ∀ post, ((OptionStore.fresh data).run
      (pre ++ .setOption o.optname.bytes v :: post)).optioncount = options.length := by
    intro post
    rw [run_append]
    exact run_counted hcount _
  refine ⟨?_, ?_, ?_⟩
  · intro post hpost
    obtain ⟨value, hvalue, rfl⟩ := getOptionValue_set hcount ho hv (run_set_data ho hv pre hpost)
    rw [serve_getOption _ hname, hcname, getOption_counted (hcount' post) ho, Option.bind_some,
      hvalue]
    rfl
  · intro post hpost
    obtain ⟨value, hvalue, rfl⟩ := getOptionValue_set hcount ho hv (run_set_data ho hv pre hpost)
    generalize hs : (OptionStore.fresh data).run
      (pre ++ .setOption o.optname.bytes value.bytes :: post) = s at hvalue
    have hall : s.optioncount = options.length := by
      rw [← hs]
      exact hcount' post
    have hlisting : s.counted.listing = options.map s.serverOption := by
      rw [counted_of_counted hall, OptionStore.listing, hall, List.take_length]
    obtain ⟨before, after, hsplit⟩ := List.append_of_mem ho
    refine ⟨before.map s.serverOption, s.serverOption o, after.map s.serverOption, rfl, ?_, ?_⟩
    · show ((s.getOptionValue o).getD noText).bytes = _
      rw [hvalue, Option.getD_some]
    · rw [serve_getOptions, hlisting, hsplit, List.map_append, List.map_cons]
  · intro o' ho' hne
    have hstep : (OptionStore.fresh data).run (pre ++ [.setOption o.optname.bytes v]) =
        ((OptionStore.fresh data).run pre).handleSetOption o.optname.bytes v := by
      rw [run_append]
      show ((OptionCommand.setOption o.optname.bytes v).serve _).2 = _
      rw [serve_setOption _ hname hvne, hcname, hcv]
    rw [hstep]
    refine handleSetOption_data _ ?_
    intro o'' ho'' hname'' hdata
    exact hne (hdata.symm.trans (data_of_optname ho ho'' hname''))

theorem listed_of_keepsOption {data : OptionVar → Int32} {pre : List OptionCommand}
    {o : CEServerOption} (ho : o ∈ options) (hv : CanonicalValue o v)
    (h : KeepsOption (.fresh data) pre o v) : .getOptions ∈ pre := by
  by_contra hpre
  obtain ⟨hname, hcname⟩ := optname_text ho
  have hmem : OptionCommand.getOptions ∉ pre ++ [.setOption o.optname.bytes v] := by
    simpa using hpre
  have hcount := run_count (s := .fresh data) rfl (pre ++ [.setOption o.optname.bytes v])
  rw [if_neg hmem] at hcount
  have hanswer := h.answered [] nofun
  rw [serve_getOption _ hname, getOption_uncounted hcount] at hanswer
  have hlen := congrArg List.length hanswer
  have hempty : (string16 []).length = 2 := rfl
  have hfull : (string16 v).length = 2 + v.length := by
    rw [string16, List.length_append, u16_length]
  have hpos : 0 < v.length := List.length_pos_of_ne_nil hv.text.1
  have hsame : (string16 []).length = (string16 v).length := hlen
  omega

/-- The store of a ceserver that was just started keeps a canonical value of an
    option exactly when a `GetOptions` was executed before it was set. -/
theorem keepsOption_iff (data : OptionVar → Int32) (pre : List OptionCommand)
    {o : CEServerOption} (ho : o ∈ options) {v : List UInt8} (hv : CanonicalValue o v) :
    KeepsOption (.fresh data) pre o v ↔ .getOptions ∈ pre := by
  constructor
  · exact fun h => listed_of_keepsOption ho hv h
  · exact fun hpre => keepsOption_of_listed data hpre ho hv

/-- `optATWM` set to 0 after the options were listed. -/
theorem keepsOption_iff_optATWM : KeepsOption (.fresh fun _ => 1) [.getOptions] optATWM [48] := by
  have ho : optATWM ∈ options := .tail _ (.tail _ (.head _))
  have hv : CanonicalValue optATWM [48] := .inr ⟨rfl, .inl rfl⟩
  have hkeeps := keepsOption_iff (fun _ => 1) [.getOptions] ho hv
  exact hkeeps.mpr List.mem_cons_self

/-- `optMSO` set to 1 as the first command: the answer to `GetOption` is the empty
    text, and the listing has the old value. -/
theorem option_not_kept :
    ((OptionCommand.getOption optMRO.optname.bytes).serve
        ((OptionStore.fresh fun _ => 2).run [.setOption optMRO.optname.bytes [49]])).1 =
      string16 [] ∧
    ¬ KeepsOption (.fresh fun _ => 2) [] optMRO [49] := by
  have hcount : ((OptionStore.fresh fun _ => 2).run
      [.setOption optMRO.optname.bytes [49]]).optioncount = 0 := run_count rfl _
  have ho : optMRO ∈ options := .head _
  have hv : CanonicalValue optMRO [49] := .inl ⟨rfl, 1, by decide⟩
  constructor
  · rw [serve_getOption _ (by decide), getOption_uncounted hcount]
    rfl
  · exact fun h => absurd (listed_of_keepsOption ho hv h) (by decide)

end CheatEngine.Ceserver
