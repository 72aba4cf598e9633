/-
  CheatEngine.Cli.Pattern

  Byte patterns on the command line (`ParsePattern` in internal/memory/value.go).

  A pattern is a list of cells, each a byte or a wildcard, and a text for it is a
  list of words, one for each cell.  `ParsePattern` accepts the texts of non-empty
  patterns and no others, and hands out a mask over `x` and `?` that the
  server-side scan does not refuse.
-/
import Mathlib.Data.List.Forall2
import Mathlib.Tactic.IntervalCases
import CheatEngine.Cli.Value
import CheatEngine.Client.Runs

namespace CheatEngine.Cli

open CheatEngine.Lib CheatEngine.Lib.Go
open CheatEngine.Client (Message ClientM Runs text)

def wildcardMask : UInt8 := 63

def byteMask : UInt8 := 120

def wildcards : List (List UInt8) := [ascii "?", ascii "??", ascii "**"]

def parseToken (token : List UInt8) : Except Message (UInt8 × UInt8) :=
  if token ∈ wildcards then .ok (0, wildcardMask)
  else if token.length ≠ 2 then
    .error ⟨"pattern token %q must be two hex digits or ??", [.str token]⟩
  else
    match hexDecode token with
    | some decoded => .ok (decoded.headD 0, byteMask)
    | none => .error ⟨"invalid pattern token %q: %w", [.str token]⟩

def parsePattern (value : List UInt8) : Except Message (List UInt8 × List UInt8) := do
  let tokens := fields (replaceByte 44 32 (trimSpace value))
  if tokens = [] then throw (text "pattern is empty")
  else
    let entries ← tokens.mapM parseToken
    return (entries.map Prod.fst, entries.map Prod.snd)

/-! ## The grammar -/

/-- A token for a cell: three spellings of a wildcard, and two digits of a byte. -/
def TokenOf (token : List UInt8) : Option UInt8 → Prop
  | none => token ∈ wildcards
  | some b => ∃ c d x y, token = [c, d] ∧ hexDigitValue c = some x ∧ hexDigitValue d = some y ∧
      b = UInt8.ofNat (16 * x + y)

def patternByte : Option UInt8 → UInt8
  | none => 0
  | some b => b

def maskByte : Option UInt8 → UInt8
  | none => wildcardMask
  | some _ => byteMask

section Tokens

variable {token : List UInt8} {cell : Option UInt8} {c : UInt8} {x : Nat}

theorem hexDigitValue_range (h : hexDigitValue c = some x) :
    48 ≤ c.toNat ∧ c.toNat ≤ 57 ∨ 97 ≤ c.toNat ∧ c.toNat ≤ 102 ∨
      65 ≤ c.toNat ∧ c.toNat ≤ 70 := by
  simp only [hexDigitValue, UInt8.le_iff_toNat_le, UInt8.reduceToNat] at h
  split at h
  · next hc => exact .inl hc
  · split at h
    · next hc => exact .inr (.inl hc)
    · split at h
      · next hc => exact .inr (.inr hc)
      · cases h

theorem TokenOf.visible (h : TokenOf token cell) :
    token ≠ [] ∧ Visible token ∧ 44 ∉ token := by
  cases cell with
  | none =>
    simp only [TokenOf, wildcards, List.mem_cons, List.not_mem_nil, or_false] at h
    have hcomma : ∀ {s : List UInt8}, s.contains 44 = false → 44 ∉ s := fun h hmem =>
      Bool.eq_false_iff.1 h (List.contains_iff_mem.2 hmem)
    rcases h with rfl | rfl | rfl <;>
      exact ⟨List.cons_ne_nil _ _, visible_of_all rfl, hcomma rfl⟩
  | some b =>
    obtain ⟨c, d, x, y, rfl, hc, hd, -⟩ := h
    have hc := hexDigitValue_range hc
    have hd := hexDigitValue_range hd
    have hcomma : (44 : UInt8).toNat = 44 := rfl
    refine ⟨List.cons_ne_nil _ _, ?_, ?_⟩
    · intro z hz
      rcases (by simpa using hz : z = c ∨ z = d) with rfl | rfl <;> omega
    · intro hz
      rcases (by simpa using hz : 44 = c ∨ 44 = d) with rfl | rfl <;> omega

/-- Two digits are no wildcard. -/
theorem not_mem_wildcards {b : UInt8} (h : TokenOf token (some b)) : token ∉ wildcards := by
  obtain ⟨c, d, x, y, rfl, hc, -⟩ := h
  have hc := hexDigitValue_range hc
  simp only [wildcards, ascii, List.mem_cons, List.not_mem_nil, or_false]
  rintro (h | h | h)
  · cases h
  · obtain rfl : c = 63 := (List.cons.inj h).1
    exact absurd hc (by decide)
  · obtain rfl : c = 42 := (List.cons.inj h).1
    exact absurd hc (by decide)

theorem parseToken_of (h : TokenOf token cell) :
    parseToken token = .ok (patternByte cell, maskByte cell) := by
  cases cell with
  | none => exact if_pos h
  | some b =>
    rw [parseToken, if_neg (not_mem_wildcards h)]
    obtain ⟨c, d, x, y, rfl, hc, hd, rfl⟩ := h
    rw [if_neg (by simp)]
    simp only [hexDecode, hc, hd]
    rfl

theorem exists_cell {entry : UInt8 × UInt8} (h : parseToken token = .ok entry) :
    ∃ cell, TokenOf token cell ∧ entry = (patternByte cell, maskByte cell) := by
  by_cases hwild : token ∈ wildcards
  · rw [parseToken, if_pos hwild] at h
    exact ⟨none, hwild, (Except.ok.inj h).symm⟩
  · rw [parseToken, if_neg hwild] at h
    split at h
    · cases h
    · next hlength =>
      obtain ⟨c, d, rfl⟩ := List.length_eq_two.1 (not_not.1 hlength)
      rcases hc : hexDigitValue c with _ | x
      · simp [hexDecode, hc] at h
      · rcases hd : hexDigitValue d with _ | y
        · simp [hexDecode, hc, hd] at h
        · simp only [hexDecode, hc, hd] at h
          exact ⟨some (UInt8.ofNat (16 * x + y)), ⟨c, d, x, y, rfl, hc, hd, rfl⟩,
            (Except.ok.inj h).symm⟩

end Tokens

section Texts

variable {tokens : List (List UInt8)} {cells : List (Option UInt8)}

theorem mapM_of_forall₂ (h : List.Forall₂ TokenOf tokens cells) :
    tokens.mapM parseToken = .ok (cells.map fun cell => (patternByte cell, maskByte cell)) := by
  induction h with
  | nil => rfl
  | cons htoken _ ih =>
    rw [List.mapM_cons, parseToken_of htoken, ih]
    rfl

theorem forall₂_of_mapM {entries : List (UInt8 × UInt8)}
    (h : tokens.mapM parseToken = .ok entries) : ∃ cells, List.Forall₂ TokenOf tokens cells ∧
      entries = cells.map fun cell => (patternByte cell, maskByte cell) := by
  induction tokens generalizing entries with
  | nil => exact ⟨[], .nil, (Except.ok.inj h).symm⟩
  | cons token tokens ih =>
    rw [List.mapM_cons] at h
    rcases htoken : parseToken token with e | entry
    · rw [htoken] at h
      cases h
    · rcases hrest : tokens.mapM parseToken with e | rest
      · rw [htoken, hrest] at h
        cases h
      · rw [htoken, hrest] at h
        obtain ⟨cell, hcell, rfl⟩ := exists_cell htoken
        obtain ⟨cells, hcells, rfl⟩ := ih hrest
        exact ⟨cell :: cells, .cons hcell hcells, (Except.ok.inj h).symm⟩

variable {value : List UInt8}

theorem parsePattern_iff {pattern mask : List UInt8} :
    parsePattern value = .ok (pattern, mask) ↔
      ∃ tokens cells, Separated tokens (replaceByte 44 32 value) ∧ tokens ≠ [] ∧
        List.Forall₂ TokenOf tokens cells ∧ pattern = cells.map patternByte ∧
        mask = cells.map maskByte := by
  have hfields : fields (replaceByte 44 32 (trimSpace value)) = fields (replaceByte 44 32 value) :=
    fields_replaceByte_trimSpace (by decide) value
  have hparse : parsePattern value =
      if fields (replaceByte 44 32 value) = [] then .error (text "pattern is empty")
      else do
        let entries ← (fields (replaceByte 44 32 value)).mapM parseToken
        return (entries.map Prod.fst, entries.map Prod.snd) := by
    rw [parsePattern, hfields]
    rfl
  constructor
  · intro h
    rw [hparse] at h
    split at h
    · cases h
    · next hne =>
      rcases hentries : (fields (replaceByte 44 32 value)).mapM parseToken with e | entries
      · rw [hentries] at h
        cases h
      · obtain ⟨cells, hcells, rfl⟩ := forall₂_of_mapM hentries
        rw [hentries] at h
        obtain ⟨rfl, rfl⟩ := Prod.mk.inj (Except.ok.inj h)
        refine ⟨_, cells, separated_fields _, hne, hcells, ?_, ?_⟩
        · rw [List.map_map]
          rfl
        · rw [List.map_map]
          rfl
  · rintro ⟨tokens, cells, hsep, hne, hcells, rfl, rfl⟩
    rw [hparse, fields_of_separated hsep, if_neg hne, mapM_of_forall₂ hcells]
    show Except.ok (_, _) = _
    rw [List.map_map, List.map_map]
    rfl

theorem parsePattern_mask {pattern mask : List UInt8}
    (h : parsePattern value = .ok (pattern, mask)) :
    pattern ≠ [] ∧ pattern.length = mask.length ∧ ∀ m ∈ mask, m = byteMask ∨ m = wildcardMask := by
  obtain ⟨tokens, cells, -, hne, hcells, rfl, rfl⟩ := parsePattern_iff.1 h
  refine ⟨?_, by rw [List.length_map, List.length_map], ?_⟩
  · intro hnil
    obtain rfl := List.map_eq_nil_iff.1 hnil
    cases hcells
    exact hne rfl
  · intro m hm
    obtain ⟨cell, -, rfl⟩ := List.mem_map.1 hm
    cases cell with
    | none => exact .inr rfl
    | some b => exact .inl rfl

/-! ## Rendering -/

theorem separated_intercalate (h : ∀ token ∈ tokens, token ≠ [] ∧ NoSpace token) :
    Separated tokens (List.intercalate [32] tokens) := by
  induction tokens with
  | nil => exact .nil .nil
  | cons token tokens ih =>
    obtain ⟨hne, hspace⟩ := h token List.mem_cons_self
    have hrest := ih fun token' h' => h token' (List.mem_cons_of_mem _ h')
    cases tokens with
    | nil =>
      rw [List.intercalate_singleton]
      have hsep := Separated.cons .nil hne hspace (.inl rfl) (.nil .nil)
      rwa [List.nil_append, List.append_nil] at hsep
    | cons token' tokens =>
      rw [List.intercalate_cons_cons, List.append_assoc]
      have hwidth : spaceWidth ([32] ++ List.intercalate [32] (token' :: tokens)) ≠ 0 :=
        Nat.one_ne_zero
      -- the space belongs to the gap before the next word
      exact Separated.cons .nil hne hspace (.inr hwidth) (hrest.of_space hwidth)

theorem not_mem_intercalate {c : UInt8} (hc : c ≠ 32) (h : ∀ token ∈ tokens, c ∉ token) :
    c ∉ List.intercalate [32] tokens := by
  induction tokens with
  | nil => exact List.not_mem_nil
  | cons token tokens ih =>
    have htoken := h token List.mem_cons_self
    have hrest := ih fun token' h' => h token' (List.mem_cons_of_mem _ h')
    cases tokens with
    | nil => rwa [List.intercalate_singleton]
    | cons token' tokens =>
      rw [List.intercalate_cons_cons, List.mem_append, List.mem_append, List.mem_singleton]
      exact not_or.2 ⟨not_or.2 ⟨htoken, hc⟩, hrest⟩

theorem forall₂_mem (h : List.Forall₂ TokenOf tokens cells) :
    ∀ token ∈ tokens, ∃ cell, TokenOf token cell := by
  induction h with
  | nil => simp
  | cons htoken _ ih => simpa using ⟨⟨_, htoken⟩, ih⟩

/-- A text of cells: a token for each, with a space between two. -/
def Renders (value : List UInt8) (cells : List (Option UInt8)) : Prop :=
  ∃ tokens, List.Forall₂ TokenOf tokens cells ∧ value = List.intercalate [32] tokens

theorem hexDigitValue_hexDigit {d : Nat} (h : d < 16) : hexDigitValue (hexDigit d) = some d := by
  interval_cases d <;> rfl

/-- Every pattern has a text: `??` and upper-case digits. -/
theorem exists_renders (cells : List (Option UInt8)) : ∃ value, Renders value cells := by
  have htokens : ∃ tokens, List.Forall₂ TokenOf tokens cells := by
    induction cells with
    | nil => exact ⟨[], .nil⟩
    | cons cell cells ih =>
      obtain ⟨tokens, htokens⟩ := ih
      cases cell with
      | none => exact ⟨ascii "??" :: tokens, .cons (List.mem_of_getElem? (i := 1) rfl) htokens⟩
      | some b =>
        have hlt : b.toNat < 256 := b.toNat_lt
        have hb : b = UInt8.ofNat (16 * (b.toNat / 16) + b.toNat % 16) := by
          rw [Nat.div_add_mod, UInt8.ofNat_toNat]
        have htoken : TokenOf [hexDigit (b.toNat / 16), hexDigit (b.toNat % 16)] (some b) :=
          ⟨_, _, b.toNat / 16, b.toNat % 16, rfl, hexDigitValue_hexDigit (by omega),
            hexDigitValue_hexDigit (by omega), hb⟩
        exact ⟨_, .cons htoken htokens⟩
  obtain ⟨tokens, htokens⟩ := htokens
  exact ⟨_, tokens, htokens, rfl⟩

theorem parsePattern_renders (h : Renders value cells) (hne : cells ≠ []) :
    parsePattern value = .ok (cells.map patternByte, cells.map maskByte) := by
  obtain ⟨tokens, htokens, rfl⟩ := h
  have hvisible : ∀ token ∈ tokens, token ≠ [] ∧ Visible token ∧ 44 ∉ token := fun token htoken => by
    obtain ⟨cell, hcell⟩ := forall₂_mem htokens token htoken
    exact hcell.visible
  have hcomma : 44 ∉ List.intercalate [32] tokens :=
    not_mem_intercalate (by decide) fun token htoken => (hvisible token htoken).2.2
  have hsep : Separated tokens (List.intercalate [32] tokens) :=
    separated_intercalate fun token htoken =>
      ⟨(hvisible token htoken).1, noSpace_of_visible (hvisible token htoken).2.1⟩
  rw [parsePattern_iff]
  refine ⟨tokens, cells, ?_, ?_, htokens, rfl, rfl⟩
  · rwa [replaceByte_of_not_mem hcomma]
  · rintro rfl
    cases htokens
    exact hne rfl

end Texts

def cellOf (b m : UInt8) : Option UInt8 := if m = wildcardMask then none else some b

def zeroed (pattern mask : List UInt8) : List UInt8 :=
  List.zipWith (fun b m => if m = wildcardMask then 0 else b) pattern mask

section Masks

variable {pattern mask : List UInt8}

theorem map_patternByte_cellOf :
    (List.zipWith cellOf pattern mask).map patternByte = zeroed pattern mask := by
  rw [List.map_zipWith, zeroed]
  congr 1
  funext b m
  rw [cellOf]
  split <;> rfl

theorem map_maskByte_cellOf (hlength : pattern.length = mask.length)
    (hmask : ∀ m ∈ mask, m = byteMask ∨ m = wildcardMask) :
    (List.zipWith cellOf pattern mask).map maskByte = mask := by
  induction pattern generalizing mask with
  | nil => rw [List.eq_nil_of_length_eq_zero hlength.symm]; rfl
  | cons b pattern ih =>
    cases mask with
    | nil => cases hlength
    | cons m mask =>
      rw [List.zipWith_cons_cons, List.map_cons,
        ih (Nat.succ.inj hlength) fun m' h' => hmask m' (List.mem_cons_of_mem _ h')]
      rcases hmask m List.mem_cons_self with rfl | rfl <;> rfl

end Masks

/-! ## The server-side scan -/

/-- A method whose errors are all errors of the protocol. -/
def ProtocolErrors {α : Type} (m : ClientM α) : Prop :=
  ∀ h e, Runs m h (.error e) → ∃ operation message, e = .protocol operation message

namespace ProtocolErrors

variable {α β : Type}

theorem pure (a : α) : ProtocolErrors (Pure.pure a : ClientM α) := by
  intro h e hrun
  cases (Runs.pure_inv hrun).2

theorem throw (operation : String) (message : Message) :
    ProtocolErrors (throw (.protocol operation message) : ClientM α) := by
  intro h e hrun
  obtain rfl := Except.error.inj (Runs.throw_inv hrun).2
  exact ⟨operation, message, rfl⟩

theorem bind {m : ClientM α} {f : α → ClientM β} (hm : ProtocolErrors m)
    (hf : ∀ a, ProtocolErrors (f a)) : ProtocolErrors (m >>= f) := by
  intro h e hrun
  rcases Runs.bind_inv hrun with ⟨e', hrun', he⟩ | ⟨_, h₂, a, _, _, hrun'⟩
  · obtain rfl := Except.error.inj he
    exact hm h e hrun'
  · exact hf a h₂ e hrun'

theorem ask (o : Client.NetOp) : ProtocolErrors (Client.ask o) := by
  intro h e hrun
  obtain ⟨v, _, hv⟩ := Runs.ask_inv hrun
  cases hv

theorem writePacket (packet : List UInt8) : ProtocolErrors (Client.writePacket packet) := by
  refine bind (ask _) fun result => ?_
  rcases result with (e | e) | _
  · exact throw _ _
  · exact throw _ _
  · exact pure ()

theorem readFull (operation : String) (n : Nat) : ProtocolErrors (Client.readFull operation n) := by
  rw [Client.readFull]
  split
  · exact pure _
  · refine bind (ask _) fun result => ?_
    cases result with
    | error e => exact throw _ _
    | ok bytes => exact pure bytes

theorem readMany {read : ClientM α} (h : ProtocolErrors read) (count : Nat) :
    ProtocolErrors (Client.readMany read count) := by
  induction count with
  | zero => exact pure []
  | succ count ih => exact bind h fun value => bind ih fun values => pure (value :: values)

theorem openProcess (pid : Int32) : ProtocolErrors (Client.openProcess pid) := by
  refine bind (writePacket _) fun _ => bind (bind (readFull _ 4) fun _ => pure _) fun handle => ?_
  split
  · exact throw _ _
  · exact pure handle

theorem deferClose {handle : UInt32} {body : ClientM α} (h : ProtocolErrors body) :
    ProtocolErrors (Client.deferClose handle body) := by
  intro h' e hrun
  obtain ⟨h₁, _, _, _, hbody, _⟩ := Runs.deferClose_inv hrun
  exact h h₁ e hbody

end ProtocolErrors

/-- The errors of `ServerAOBScan` about its mask and about the two lengths. -/
def MaskError (e : Client.ClientError) : Prop :=
  e = .plain (text "pattern and mask must be non-empty and have equal lengths") ∨
    e = .plain (text "mask may contain only 'x' and '?' bytes")

theorem serverAOBScan_mask {pattern mask : List UInt8} (hne : pattern ≠ [])
    (hlength : pattern.length = mask.length) (hmask : ∀ m ∈ mask, m = byteMask ∨ m = wildcardMask)
    (pid : Int32) (start stop : UInt64) (alignment : Int64) (protection : UInt32)
    {h : Client.History} {e : Client.ClientError}
    (hrun : Runs (Client.serverAOBScan pid pattern mask start stop alignment protection) h
      (.error e)) : ¬ MaskError e := by
  have hplain : ∀ message, e = .plain message →
      message.format ≠ "pattern and mask must be non-empty and have equal lengths" →
      message.format ≠ "mask may contain only 'x' and '?' bytes" → ¬ MaskError e := by
    rintro message rfl hfirst hsecond (he | he)
    · cases he
      exact hfirst rfl
    · cases he
      exact hsecond rfl
  have hempty : ¬ (pattern.length = 0 ∨ pattern.length ≠ mask.length) :=
    not_or.2 ⟨fun h => hne (List.eq_nil_of_length_eq_zero h), not_not.2 hlength⟩
  have hany : ¬ (mask.any fun value => value != 'x'.toUInt8 && value != '?'.toUInt8) = true := by
    simp only [List.any_eq_true, Bool.and_eq_true, bne_iff_ne]
    rintro ⟨m, hm, hx, hwild⟩
    exact (hmask m hm).elim hx hwild
  rw [Client.serverAOBScan, if_neg hempty] at hrun
  split at hrun
  · exact hplain _ (Except.error.inj (Runs.throw_inv hrun).2) (by simp) (by simp)
  · split at hrun
    · exact hplain _ (Except.error.inj (Runs.throw_inv hrun).2) (by simp [text]) (by simp [text])
    · split at hrun
      · exact hplain _ (Except.error.inj (Runs.throw_inv hrun).2) (by simp [text]) (by simp [text])
      · -- the mask passes as well, and all that follows is the exchange with the server
        have hexchange : ∃ operation message, e = .protocol operation message := by
          refine ProtocolErrors.bind (.openProcess pid) (fun handle => .deferClose
            (.bind (.writePacket _) fun _ => .bind (.bind (.readFull _ 4) fun _ => .pure _)
              fun count => ?_)) h e hrun
          split
          · exact .throw _ _
          · exact .readMany (.bind (.readFull _ 8) fun _ => .pure _) _
        obtain ⟨operation, message, rfl⟩ := hexchange
        rintro (he | he) <;> cases he

/-- `ParsePattern` accepts the texts of the grammar and returns their cells; the text of a
    pattern and a mask, in either case of the digits, is read as that mask and the pattern
    with zeros at its wildcards; and the scan never refuses a result for its mask. -/
theorem patternGrammar :
    (∀ value pattern mask : List UInt8, parsePattern value = .ok (pattern, mask) ↔
      ∃ tokens cells, Separated tokens (replaceByte 44 32 value) ∧ tokens ≠ [] ∧
        List.Forall₂ TokenOf tokens cells ∧ pattern = cells.map patternByte ∧
        mask = cells.map maskByte) ∧
    (∀ pattern mask : List UInt8, pattern ≠ [] → pattern.length = mask.length →
      (∀ m ∈ mask, m = byteMask ∨ m = wildcardMask) →
        (∃ value, Renders value (List.zipWith cellOf pattern mask)) ∧
          ∀ value, Renders value (List.zipWith cellOf pattern mask) →
            parsePattern value = .ok (zeroed pattern mask, mask)) ∧
    ∀ value pattern mask : List UInt8, parsePattern value = .ok (pattern, mask) →
      ∀ pid start stop alignment protection h e,
        Runs (Client.serverAOBScan pid pattern mask start stop alignment protection) h (.error e) →
          ¬ MaskError e := by
  refine ⟨fun value pattern mask => parsePattern_iff, ?_, ?_⟩
  · intro pattern mask hne hlength hmask
    refine ⟨exists_renders _, fun value hrender => ?_⟩
    have hcells : List.zipWith cellOf pattern mask ≠ [] := by
      intro hnil
      have hzero := congrArg List.length hnil
      rw [List.length_zipWith, ← hlength, Nat.min_self] at hzero
      exact hne (List.eq_nil_of_length_eq_zero hzero)
    rw [parsePattern_renders hrender hcells, map_patternByte_cellOf,
      map_maskByte_cellOf hlength hmask]
  · intro value pattern mask hparse pid start stop alignment protection h e hrun
    obtain ⟨hne, hlength, hmask⟩ := parsePattern_mask hparse
    exact serverAOBScan_mask hne hlength hmask pid start stop alignment protection hrun

/-- `48 8b ?? FF` -/
theorem patternGrammar_bytes :
    parsePattern (ascii "48 8b ?? FF") = .ok ([0x48, 0x8B, 0, 0xFF], ascii "xx?x") := by
  have hmask : ∀ m ∈ ascii "xx?x", m = byteMask ∨ m = wildcardMask := by
    intro m hm
    have hm' : m ∈ [byteMask, byteMask, wildcardMask, byteMask] := hm
    simp only [List.mem_cons, List.not_mem_nil, or_false] at hm'
    rcases hm' with h | h | h | h
    · exact .inl h
    · exact .inl h
    · exact .inr h
    · exact .inl h
  refine (patternGrammar.2.1 [0x48, 0x8B, 7, 0xFF] (ascii "xx?x") (by simp) rfl hmask).2 _ ?_
  refine ⟨[ascii "48", ascii "8b", ascii "??", ascii "FF"], ?_, rfl⟩
  refine .cons ?_ (.cons ?_ (.cons ?_ (.cons ?_ .nil)))
  · exact ⟨52, 56, 4, 8, rfl, rfl, rfl, rfl⟩
  · exact ⟨56, 98, 8, 11, rfl, rfl, rfl, rfl⟩
  · show ascii "??" ∈ wildcards
    exact List.mem_cons_of_mem _ List.mem_cons_self
  · exact ⟨70, 70, 15, 15, rfl, rfl, rfl, rfl⟩

end CheatEngine.Cli
