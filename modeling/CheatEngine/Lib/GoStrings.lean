/-
  CheatEngine.Lib.GoStrings

  Go strings as lists of bytes, and the functions of package `strings` that split
  them at white space.  White space is what `unicode.IsSpace` says of a rune in
  UTF-8: one byte of ASCII, two bytes or three.  No byte of such a rune but the
  first can start one, so the functions may look at bytes.

  `fields_eq_iff` says what `strings.Fields` returns without mentioning how it
  scans.
-/
import Mathlib.Data.List.Basic

namespace CheatEngine.Lib.Go

def ascii (s : String) : List UInt8 := s.toList.map Char.toUInt8

/-- Strings are looked up by equality. -/
instance instLawfulBEqString : LawfulBEq (List UInt8) := inferInstance

/-! ## White space -/

/-- `'\\t'`, `'\\n'`, `'\\v'`, `'\\f'`, `'\\r'` and `' '`. -/
def asciiSpace (b : UInt8) : Bool := b = 32 || (9 ≤ b && b ≤ 13)

def latinSpace (b c : UInt8) : Bool := b = 0xC2 && (c = 0x85 || c = 0xA0)

/-- U+1680, U+2000 to U+200A, U+2028, U+2029, U+202F, U+205F and U+3000. -/
def wideSpace (b c d : UInt8) : Bool :=
  (b = 0xE1 && c = 0x9A && d = 0x80) ||
    (b = 0xE2 && c = 0x80 && ((0x80 ≤ d && d ≤ 0x8A) || d = 0xA8 || d = 0xA9 || d = 0xAF)) ||
    (b = 0xE2 && c = 0x81 && d = 0x9F) ||
    (b = 0xE3 && c = 0x80 && d = 0x80)

/-- The length of the white-space rune at the start of a string; 0 if there is none. -/
def spaceWidth : List UInt8 → Nat
  | [] => 0
  | b :: s =>
    if asciiSpace b then 1
    else
      match s with
      | [] => 0
      | c :: s =>
        if latinSpace b c then 2
        else
          match s with
          | [] => 0
          | d :: _ => if wideSpace b c d then 3 else 0

def continuation (b : UInt8) : Bool := 0x80 ≤ b && b < 0xC0

theorem continuation_iff (b : UInt8) : continuation b = true ↔ 128 ≤ b.toNat ∧ b.toNat < 192 := by
  simp [continuation, UInt8.le_iff_toNat_le, UInt8.lt_iff_toNat_lt]

theorem asciiSpace_iff (b : UInt8) :
    asciiSpace b = true ↔ b.toNat = 32 ∨ 9 ≤ b.toNat ∧ b.toNat ≤ 13 := by
  simp [asciiSpace, UInt8.le_iff_toNat_le, ← UInt8.toNat_inj]

theorem latinSpace_iff (b c : UInt8) :
    latinSpace b c = true ↔ b.toNat = 194 ∧ (c.toNat = 133 ∨ c.toNat = 160) := by
  simp [latinSpace, ← UInt8.toNat_inj]

theorem wideSpace_bytes {b c d : UInt8} (h : wideSpace b c d = true) :
    (b.toNat = 225 ∨ b.toNat = 226 ∨ b.toNat = 227) ∧ continuation c = true ∧
      continuation d = true := by
  simp only [wideSpace, Bool.or_eq_true, Bool.and_eq_true, decide_eq_true_eq,
    UInt8.le_iff_toNat_le, ← UInt8.toNat_inj] at h
  rw [continuation_iff, continuation_iff]
  simp only [UInt8.reduceToNat] at h
  omega

theorem not_continuation_of_spaceWidth {b : UInt8} {s : List UInt8} (h : spaceWidth (b :: s) ≠ 0) :
    continuation b = false := by
  rw [Bool.eq_false_iff]
  intro hb
  rw [continuation_iff] at hb
  apply h
  have hascii : ¬ asciiSpace b = true := by
    rw [asciiSpace_iff]
    omega
  have hlatin : ∀ c, ¬ latinSpace b c = true := fun c => by
    rw [latinSpace_iff]
    omega
  have hwide : ∀ c d, ¬ wideSpace b c d = true := fun c d h => by
    have hfirst := (wideSpace_bytes h).1
    omega
  rcases s with _ | ⟨c, _ | ⟨d, s⟩⟩ <;> simp [spaceWidth, hascii, hlatin, hwide]

theorem spaceWidth_le (s : List UInt8) : spaceWidth s ≤ s.length := by
  rcases s with _ | ⟨b, _ | ⟨c, _ | ⟨d, s⟩⟩⟩
  · exact Nat.le_refl _
  · simp only [spaceWidth]
    split
    · exact Nat.le_refl _
    · exact Nat.zero_le _
  · simp only [spaceWidth, List.length_cons]
    split
    · omega
    · split <;> omega
  · simp only [spaceWidth, List.length_cons]
    split
    · omega
    · split
      · omega
      · split <;> omega

/-- What follows a string does not change how it starts, unless it continues a rune. -/
theorem spaceWidth_append {u v : List UInt8} (hu : u ≠ [])
    (hv : ∀ b, v.head? = some b → continuation b = false) : spaceWidth (u ++ v) = spaceWidth u := by
  rcases v with _ | ⟨x, v⟩
  · rw [List.append_nil]
  have hx : continuation x = false := hv x rfl
  have hx' : ¬ (128 ≤ x.toNat ∧ x.toNat < 192) := by
    rw [← continuation_iff, hx]
    exact Bool.false_ne_true
  rcases u with _ | ⟨b, _ | ⟨c, _ | ⟨d, u⟩⟩⟩
  · exact absurd rfl hu
  · have hlatin : ¬ latinSpace b x = true := by
      rw [latinSpace_iff]
      omega
    have hwide : ∀ y, ¬ wideSpace b x y = true := fun y h => by
      rw [(wideSpace_bytes h).2.1] at hx
      cases hx
    rcases v with _ | ⟨y, v⟩
    · simp [spaceWidth, hlatin]
    · simp [spaceWidth, hlatin, hwide]
  · have hwide : ¬ wideSpace b c x = true := fun h => by
      rw [(wideSpace_bytes h).2.2] at hx
      cases hx
    simp [spaceWidth, hwide]
  · rfl

theorem spaceWidth_append_of_ne {u : List UInt8} (hu : spaceWidth u ≠ 0) (v : List UInt8) :
    spaceWidth (u ++ v) = spaceWidth u := by
  rcases u with _ | ⟨b, _ | ⟨c, _ | ⟨d, u⟩⟩⟩
  · exact absurd rfl hu
  · have hb : asciiSpace b = true := by simpa [spaceWidth] using hu
    simp [spaceWidth, hb]
  · by_cases hb : asciiSpace b = true
    · simp [spaceWidth, hb]
    · have hlatin : latinSpace b c = true := by simpa [spaceWidth, hb] using hu
      simp [spaceWidth, hlatin]
  · rfl

theorem spaceWidth_take (s : List UInt8) : spaceWidth (s.take (spaceWidth s)) = spaceWidth s := by
  rcases s with _ | ⟨b, _ | ⟨c, _ | ⟨d, s⟩⟩⟩
  · rfl
  · by_cases hb : asciiSpace b = true <;> simp [spaceWidth, hb]
  · by_cases hb : asciiSpace b = true
    · simp [spaceWidth, hb]
    · by_cases hlatin : latinSpace b c = true <;> simp [spaceWidth, hb, hlatin]
  · by_cases hb : asciiSpace b = true
    · simp [spaceWidth, hb]
    · by_cases hlatin : latinSpace b c = true
      · simp [spaceWidth, hb, hlatin]
      · by_cases hwide : wideSpace b c d = true <;> simp [spaceWidth, hb, hlatin, hwide]

/-- Nothing but white space. -/
inductive Blank : List UInt8 → Prop
  | nil : Blank []
  | rune {s : List UInt8} : spaceWidth s ≠ 0 → Blank (s.drop (spaceWidth s)) → Blank s

/-- No white space anywhere. -/
def NoSpace (s : List UInt8) : Prop := ∀ v, v <:+ s → spaceWidth v = 0

theorem NoSpace.tail {b : UInt8} {s : List UInt8} (h : NoSpace (b :: s)) : NoSpace s :=
  fun v hv => h v (hv.trans (List.suffix_cons b s))

theorem Blank.start {s : List UInt8} (h : Blank s) : s = [] ∨ spaceWidth s ≠ 0 := by
  cases h with
  | nil => exact .inl rfl
  | rune hs _ => exact .inr hs

theorem Blank.append {g g' : List UInt8} (h : Blank g) (h' : Blank g') : Blank (g ++ g') := by
  induction h with
  | nil => exact h'
  | @rune s hs _ ih =>
    refine Blank.rune ?_ ?_
    · rwa [spaceWidth_append_of_ne hs]
    · rwa [spaceWidth_append_of_ne hs, List.drop_append_of_le_length (spaceWidth_le s)]

theorem boundary {v : List UInt8} (hv : v = [] ∨ spaceWidth v ≠ 0) :
    ∀ b, v.head? = some b → continuation b = false := by
  intro b hb
  rcases v with _ | ⟨c, v⟩
  · cases hb
  · obtain rfl : c = b := Option.some.inj hb
    exact not_continuation_of_spaceWidth (hv.resolve_left (List.cons_ne_nil _ _))

/-! ## `strings.Fields` -/

/-- The field that was begun, if there is one. -/
def ended (token : List UInt8) : List (List UInt8) := if token = [] then [] else [token]

/-- The scan: how much of a white-space rune is left, the field that was begun, and
    the rest of the string. -/
def fieldsFrom : Nat → List UInt8 → List UInt8 → List (List UInt8)
  | _, token, [] => ended token
  | skip + 1, token, _ :: s => fieldsFrom skip token s
  | 0, token, b :: s =>
    match spaceWidth (b :: s) with
    | 0 => fieldsFrom 0 (token ++ [b]) s
    | w + 1 => ended token ++ fieldsFrom w [] s

def fields (s : List UInt8) : List (List UInt8) := fieldsFrom 0 [] s

/-- The fields of a string with white space around them. -/
inductive Separated : List (List UInt8) → List UInt8 → Prop
  | nil {s : List UInt8} : Blank s → Separated [] s
  | cons {gap token rest : List UInt8} {tokens : List (List UInt8)} : Blank gap → token ≠ [] →
      NoSpace token → (rest = [] ∨ spaceWidth rest ≠ 0) → Separated tokens rest →
        Separated (token :: tokens) (gap ++ (token ++ rest))

section Fields

variable {s token v : List UInt8} {tokens : List (List UInt8)}

theorem fieldsFrom_skip (n : Nat) (token s : List UInt8) (hn : n ≤ s.length) :
    fieldsFrom n token s = fieldsFrom 0 token (s.drop n) := by
  induction n generalizing s with
  | zero => rfl
  | succ n ih =>
    cases s with
    | nil => exact absurd hn (Nat.not_succ_le_zero n)
    | cons b s => exact ih s (Nat.le_of_succ_le_succ hn)

theorem fieldsFrom_space (token : List UInt8) (hs : spaceWidth s ≠ 0) :
    fieldsFrom 0 token s = ended token ++ fields (s.drop (spaceWidth s)) := by
  cases s with
  | nil => exact absurd rfl hs
  | cons b s =>
    obtain ⟨w, hw⟩ := Nat.exists_eq_succ_of_ne_zero hs
    have hle := spaceWidth_le (b :: s)
    rw [hw, List.length_cons] at hle
    rw [fieldsFrom, hw]
    show ended token ++ fieldsFrom w [] s = _
    rw [fieldsFrom_skip w [] s (Nat.le_of_succ_le_succ hle)]
    rfl

theorem fields_space (hs : spaceWidth s ≠ 0) : fields s = fields (s.drop (spaceWidth s)) :=
  fieldsFrom_space [] hs

theorem fields_blank_append {gap : List UInt8} (h : Blank gap) (s : List UInt8) :
    fields (gap ++ s) = fields s := by
  induction h with
  | nil => rfl
  | @rune gap hs _ ih =>
    have hwidth := spaceWidth_append_of_ne hs s
    rw [fields_space (hwidth ▸ hs), hwidth, List.drop_append_of_le_length (spaceWidth_le gap), ih]

theorem fieldsFrom_word {t : List UInt8} (token : List UInt8) (ht : NoSpace t)
    (hv : ∀ b, v.head? = some b → continuation b = false) :
    fieldsFrom 0 token (t ++ v) = fieldsFrom 0 (token ++ t) v := by
  induction t generalizing token with
  | nil => rw [List.append_nil, List.nil_append]
  | cons b t ih =>
    have hwidth : spaceWidth (b :: (t ++ v)) = 0 :=
      (spaceWidth_append (List.cons_ne_nil b t) hv).trans (ht _ List.suffix_rfl)
    rw [List.cons_append, fieldsFrom, hwidth]
    show fieldsFrom 0 (token ++ [b]) (t ++ v) = _
    rw [ih (token ++ [b]) ht.tail, List.append_assoc]
    rfl

theorem fields_word (hne : token ≠ []) (htoken : NoSpace token) (hv : v = [] ∨ spaceWidth v ≠ 0) :
    fields (token ++ v) = token :: fields v := by
  have hended : ended token = [token] := if_neg hne
  rw [fields, fieldsFrom_word [] htoken (boundary hv), List.nil_append]
  rcases hv with rfl | hv
  · exact hended
  · rw [fieldsFrom_space token hv, hended, fields_space hv]
    rfl

theorem fields_of_separated (h : Separated tokens s) : fields s = tokens := by
  induction h with
  | @nil s hs =>
    have hblank := fields_blank_append hs []
    rwa [List.append_nil] at hblank
  | cons hgap hne htoken hrest _ ih =>
    rw [fields_blank_append hgap, fields_word hne htoken hrest, ih]

theorem exists_word (s : List UInt8) :
    ∃ t v, s = t ++ v ∧ NoSpace t ∧ (v = [] ∨ spaceWidth v ≠ 0) := by
  induction s with
  | nil => exact ⟨[], [], rfl, fun v hv => by rw [List.suffix_nil.1 hv]; rfl, .inl rfl⟩
  | cons b s ih =>
    by_cases hwidth : spaceWidth (b :: s) = 0
    · obtain ⟨t, v, rfl, ht, hv⟩ := ih
      refine ⟨b :: t, v, rfl, fun u hu => ?_, hv⟩
      rcases List.suffix_cons_iff.1 hu with rfl | hu
      · rw [← spaceWidth_append (List.cons_ne_nil b t) (boundary hv)]
        exact hwidth
      · exact ht u hu
    · exact ⟨[], b :: s, rfl, fun v hv => by rw [List.suffix_nil.1 hv]; rfl, .inr hwidth⟩

theorem Separated.of_space (hs : spaceWidth s ≠ 0) (h : Separated tokens (s.drop (spaceWidth s))) :
    Separated tokens s := by
  have hrune : Blank (s.take (spaceWidth s)) := by
    have htake := spaceWidth_take s
    refine Blank.rune (by rwa [htake]) ?_
    rw [htake, List.drop_take, Nat.sub_self, List.take_zero]
    exact Blank.nil
  generalize hrest : s.drop (spaceWidth s) = rest at h
  rw [← List.take_append_drop (spaceWidth s) s, hrest]
  cases h with
  | nil hblank => exact .nil (hrune.append hblank)
  | cons hgap hne htoken hnext htokens =>
    rw [← List.append_assoc]
    exact .cons (hrune.append hgap) hne htoken hnext htokens

theorem separated_fields (s : List UInt8) : Separated (fields s) s := by
  induction hn : s.length using Nat.strongRecOn generalizing s with
  | _ n ih =>
    subst hn
    by_cases hwidth : spaceWidth s = 0
    · cases s with
      | nil => exact .nil .nil
      | cons b s =>
        obtain ⟨t, v, hsplit, ht, hv⟩ := exists_word (b :: s)
        have hne : t ≠ [] := by
          rintro rfl
          rw [List.nil_append] at hsplit
          subst hsplit
          exact hv.elim (List.cons_ne_nil b s) fun h => h hwidth
        have hlen : v.length < (b :: s).length := by
          have hpos := List.length_pos_iff.2 hne
          rw [hsplit, List.length_append]
          omega
        rw [hsplit, fields_word hne ht hv]
        exact .cons .nil hne ht hv (ih _ hlen v rfl)
    · have hle := spaceWidth_le s
      have hlen : (s.drop (spaceWidth s)).length < s.length := by
        rw [List.length_drop]
        omega
      rw [fields_space hwidth]
      exact .of_space hwidth (ih _ hlen _ rfl)

/-- White space at the end changes nothing. -/
theorem Separated.append_blank {gap : List UInt8} (h : Separated tokens s) (hgap : Blank gap) :
    Separated tokens (s ++ gap) := by
  induction h with
  | nil hs => exact .nil (hs.append hgap)
  | @cons gap' token rest tokens hgap' hne htoken hrest _ ih =>
    rw [List.append_assoc, List.append_assoc]
    refine .cons hgap' hne htoken ?_ ih
    rcases hrest with rfl | hrest
    · exact hgap.start
    · exact .inr (by rwa [spaceWidth_append_of_ne hrest])

end Fields

/-! ## `strings.TrimSpace` -/

/-- White space is dropped from the left; the first argument is how much of a rune is
    left. -/
def trimLeft : Nat → List UInt8 → List UInt8
  | _, [] => []
  | skip + 1, _ :: s => trimLeft skip s
  | 0, b :: s =>
    match spaceWidth (b :: s) with
    | 0 => b :: s
    | w + 1 => trimLeft w s

/-- Nothing is left when white space is dropped from the left. -/
def isBlank (s : List UInt8) : Bool := trimLeft 0 s = []

def trimRight : List UInt8 → List UInt8
  | [] => []
  | b :: s => if isBlank (b :: s) then [] else b :: trimRight s

def trimSpace (s : List UInt8) : List UInt8 := trimRight (trimLeft 0 s)

section Trim

variable {s : List UInt8}

theorem trimLeft_skip (n : Nat) (s : List UInt8) (hn : n ≤ s.length) :
    trimLeft n s = trimLeft 0 (s.drop n) := by
  induction n generalizing s with
  | zero => rfl
  | succ n ih =>
    cases s with
    | nil => exact absurd hn (Nat.not_succ_le_zero n)
    | cons b s => exact ih s (Nat.le_of_succ_le_succ hn)

theorem trimLeft_of_zero (h : spaceWidth s = 0) : trimLeft 0 s = s := by
  cases s with
  | nil => rfl
  | cons b s => rw [trimLeft, h]

theorem trimLeft_space (hs : spaceWidth s ≠ 0) :
    trimLeft 0 s = trimLeft 0 (s.drop (spaceWidth s)) := by
  cases s with
  | nil => exact absurd rfl hs
  | cons b s =>
    obtain ⟨w, hw⟩ := Nat.exists_eq_succ_of_ne_zero hs
    have hle := spaceWidth_le (b :: s)
    rw [hw, List.length_cons] at hle
    rw [trimLeft, hw]
    exact trimLeft_skip w s (Nat.le_of_succ_le_succ hle)

theorem trimLeft_spec (s : List UInt8) : ∃ gap, Blank gap ∧ s = gap ++ trimLeft 0 s := by
  induction hn : s.length using Nat.strongRecOn generalizing s with
  | _ n ih =>
    subst hn
    by_cases hwidth : spaceWidth s = 0
    · exact ⟨[], .nil, by rw [trimLeft_of_zero hwidth]; rfl⟩
    · have hle := spaceWidth_le s
      have hlen : (s.drop (spaceWidth s)).length < s.length := by
        rw [List.length_drop]
        omega
      obtain ⟨gap, hgap, hsplit⟩ := ih _ hlen _ rfl
      refine ⟨s.take (spaceWidth s) ++ gap, ?_, ?_⟩
      · have htake := spaceWidth_take s
        have hrune : Blank (s.take (spaceWidth s)) := by
          refine Blank.rune (by rwa [htake]) ?_
          rw [htake, List.drop_take, Nat.sub_self, List.take_zero]
          exact Blank.nil
        exact hrune.append hgap
      · rw [trimLeft_space hwidth, List.append_assoc, ← hsplit, List.take_append_drop]

theorem blank_of_isBlank (h : isBlank s = true) : Blank s := by
  obtain ⟨gap, hgap, hsplit⟩ := trimLeft_spec s
  rw [of_decide_eq_true h, List.append_nil] at hsplit
  exact hsplit ▸ hgap

theorem trimRight_spec (s : List UInt8) : ∃ gap, Blank gap ∧ s = trimRight s ++ gap := by
  induction s with
  | nil => exact ⟨[], .nil, rfl⟩
  | cons b s ih =>
    obtain ⟨gap, hgap, hsplit⟩ := ih
    rw [trimRight]
    split
    · next h => exact ⟨b :: s, blank_of_isBlank h, rfl⟩
    · exact ⟨gap, hgap, by rw [List.cons_append, ← hsplit]⟩

theorem trimSpace_spec (s : List UInt8) :
    ∃ gap gap', Blank gap ∧ Blank gap' ∧ s = gap ++ (trimSpace s ++ gap') := by
  obtain ⟨gap, hgap, hleft⟩ := trimLeft_spec s
  obtain ⟨gap', hgap', hright⟩ := trimRight_spec (trimLeft 0 s)
  exact ⟨gap, gap', hgap, hgap', by rw [trimSpace, ← hright, ← hleft]⟩

theorem trimSpace_of_noSpace (h : NoSpace s) : trimSpace s = s := by
  rw [trimSpace, trimLeft_of_zero (h s List.suffix_rfl)]
  induction s with
  | nil => rfl
  | cons b s ih =>
    have hblank : ¬ isBlank (b :: s) = true := by
      rw [isBlank, trimLeft_of_zero (h _ List.suffix_rfl)]
      simp
    rw [trimRight, if_neg hblank, ih h.tail]

variable {gap : List UInt8}

theorem trimLeft_blank_append (h : Blank gap) (s : List UInt8) :
    trimLeft 0 (gap ++ s) = trimLeft 0 s := by
  induction h with
  | nil => rfl
  | @rune gap hs _ ih =>
    have hwidth := spaceWidth_append_of_ne hs s
    rw [trimLeft_space (hwidth ▸ hs), hwidth, List.drop_append_of_le_length (spaceWidth_le gap), ih]

theorem trimRight_blank (h : Blank gap) : trimRight gap = [] := by
  have hblank : isBlank gap = true := by
    have hleft := trimLeft_blank_append h []
    rw [List.append_nil] at hleft
    exact decide_eq_true hleft
  cases gap with
  | nil => rfl
  | cons b gap => rw [trimRight, if_pos hblank]

theorem trimSpace_word {gap' : List UInt8} (hgap : Blank gap) (hgap' : Blank gap')
    (h : NoSpace s) (hne : s ≠ []) : trimSpace (gap ++ (s ++ gap')) = s := by
  -- a suffix of the word starts as it does with the white space behind it
  have hwidth : ∀ {t : List UInt8}, NoSpace t → t ≠ [] → spaceWidth (t ++ gap') = 0 := fun ht hne =>
    (spaceWidth_append hne (boundary hgap'.start)).trans (ht _ List.suffix_rfl)
  have hright : ∀ {t : List UInt8}, NoSpace t → trimRight (t ++ gap') = t := by
    intro t ht
    induction t with
    | nil => exact trimRight_blank hgap'
    | cons b t ih =>
      have hblank : ¬ isBlank (b :: (t ++ gap')) = true := by
        have hzero : spaceWidth (b :: (t ++ gap')) = 0 := hwidth ht (List.cons_ne_nil b t)
        rw [isBlank, trimLeft_of_zero hzero]
        simp
      rw [List.cons_append, trimRight, if_neg hblank, ih ht.tail]
  rw [trimSpace, trimLeft_blank_append hgap, trimLeft_of_zero (hwidth h hne), hright h]

end Trim

def splitByte (separator : UInt8) : List UInt8 → List (List UInt8)
  | [] => [[]]
  | c :: s =>
    if c = separator then [] :: splitByte separator s
    else
      match splitByte separator s with
      | [] => [[c]]
      | segment :: segments => (c :: segment) :: segments

theorem splitByte_ne_nil (separator : UInt8) (s : List UInt8) : splitByte separator s ≠ [] := by
  cases s with
  | nil => exact List.cons_ne_nil _ _
  | cons c s =>
    rw [splitByte]
    split
    · exact List.cons_ne_nil _ _
    · split <;> exact List.cons_ne_nil _ _

/-! ## Replacing and lowering -/

def replaceByte (old new : UInt8) (s : List UInt8) : List UInt8 :=
  s.map fun b => if b = old then new else b

/-- The lower case of ASCII letters, and of the two runes U+0130 and U+212A, whose lower
    case is ASCII. Other runes are left as they are: their lower case is outside ASCII
    as well. The first argument is how much of a rune is left. -/
def lowerFrom : Nat → List UInt8 → List UInt8
  | _, [] => []
  | skip + 1, _ :: s => lowerFrom skip s
  | 0, b :: s =>
    if b = 0xC4 ∧ s.take 1 = [0xB0] then 105 :: lowerFrom 1 s
    else if b = 0xE2 ∧ s.take 2 = [0x84, 0xAA] then 107 :: lowerFrom 2 s
    else (if 65 ≤ b ∧ b ≤ 90 then b + 32 else b) :: lowerFrom 0 s

/-- `strings.ToLower`, as far as it is compared with ASCII strings. -/
def toLower (s : List UInt8) : List UInt8 := lowerFrom 0 s

/-- Visible ASCII characters. -/
def Visible (s : List UInt8) : Prop := ∀ b ∈ s, 33 ≤ b.toNat ∧ b.toNat ≤ 126

theorem visible_of_all {s : List UInt8}
    (h : (s.all fun b => Nat.ble 33 b.toNat && Nat.ble b.toNat 126) = true) : Visible s := by
  intro b hb
  have hb := List.all_eq_true.1 h b hb
  rw [Bool.and_eq_true, Nat.ble_eq, Nat.ble_eq] at hb
  exact hb

section Lower

variable {b : UInt8} {s : List UInt8}

theorem spaceWidth_first (h : spaceWidth (b :: s) ≠ 0) :
    (b.toNat = 32 ∨ 9 ≤ b.toNat ∧ b.toNat ≤ 13) ∨ b.toNat = 194 ∨
      ∃ c d s', s = c :: d :: s' ∧ wideSpace b c d = true := by
  by_cases hb : asciiSpace b = true
  · exact .inl ((asciiSpace_iff b).1 hb)
  · rcases s with _ | ⟨c, _ | ⟨d, s⟩⟩
    · simp [spaceWidth, hb] at h
    · have hlatin : latinSpace b c = true := by simpa [spaceWidth, hb] using h
      exact .inr (.inl ((latinSpace_iff b c).1 hlatin).1)
    · by_cases hlatin : latinSpace b c = true
      · exact .inr (.inl ((latinSpace_iff b c).1 hlatin).1)
      · have hwide : wideSpace b c d = true := by simpa [spaceWidth, hb, hlatin] using h
        exact .inr (.inr ⟨c, d, s, rfl, hwide⟩)

theorem spaceWidth_of_visible (h : 33 ≤ b.toNat ∧ b.toNat ≤ 126) : spaceWidth (b :: s) = 0 := by
  by_contra hne
  rcases spaceWidth_first hne with hb | hb | ⟨c, d, s', -, hwide⟩
  · omega
  · omega
  · have hfirst := (wideSpace_bytes hwide).1
    omega

theorem spaceWidth_of_continuation (h : continuation b = true) : spaceWidth (b :: s) = 0 := by
  by_contra hne
  rw [not_continuation_of_spaceWidth hne] at h
  cases h

theorem noSpace_nil : NoSpace [] := fun v hv => by
  rw [List.suffix_nil.1 hv]
  rfl

theorem NoSpace.cons (hb : spaceWidth (b :: s) = 0) (hs : NoSpace s) : NoSpace (b :: s) := by
  intro v hv
  rcases List.suffix_cons_iff.1 hv with rfl | hv
  · exact hb
  · exact hs v hv

theorem noSpace_of_visible (h : Visible s) : NoSpace s := by
  induction s with
  | nil => exact noSpace_nil
  | cons b s ih =>
    exact (ih fun c hc => h c (List.mem_cons_of_mem _ hc)).cons
      (spaceWidth_of_visible (h b List.mem_cons_self))

theorem noSpace_of_toLower (h : Visible (toLower s)) : NoSpace s := by
  induction hn : s.length using Nat.strongRecOn generalizing s with
  | _ n ih =>
    subst hn
    cases s with
    | nil => exact noSpace_nil
    | cons b s =>
      rw [toLower, lowerFrom] at h
      split at h
      · next hrune =>
        obtain ⟨rfl, htake⟩ := hrune
        rcases s with _ | ⟨c, s⟩
        · cases htake
        · obtain rfl : c = 0xB0 := by simpa using htake
          have hlt : s.length < (0xC4 :: 0xB0 :: s).length := by
            show s.length < s.length + 1 + 1
            omega
          have hs : NoSpace s := ih _ hlt (fun x hx => h x (List.mem_cons_of_mem _ hx)) rfl
          refine (hs.cons (spaceWidth_of_continuation rfl)).cons ?_
          by_contra hne
          rcases spaceWidth_first hne with hb | hb | ⟨c, d, s', -, hwide⟩
          · exact absurd hb (by decide)
          · exact absurd hb (by decide)
          · exact absurd (wideSpace_bytes hwide).1 (by decide)
      · split at h
        · next hrune =>
          obtain ⟨rfl, htake⟩ := hrune
          rcases s with _ | ⟨c, _ | ⟨d, s⟩⟩
          · cases htake
          · simp at htake
          · obtain ⟨rfl, rfl⟩ : c = 0x84 ∧ d = 0xAA := by simpa using htake
            have hlt : s.length < (0xE2 :: 0x84 :: 0xAA :: s).length := by
              show s.length < s.length + 1 + 1 + 1
              omega
            have hs : NoSpace s := ih _ hlt (fun x hx => h x (List.mem_cons_of_mem _ hx)) rfl
            exact ((hs.cons (spaceWidth_of_continuation rfl)).cons
              (spaceWidth_of_continuation rfl)).cons rfl
        · have hs : NoSpace s := ih _ (Nat.lt_succ_self _)
            (fun x hx => h x (List.mem_cons_of_mem _ hx)) rfl
          refine hs.cons (spaceWidth_of_visible ?_)
          have hb := h _ List.mem_cons_self
          split at hb
          · next hupper =>
            rw [UInt8.le_iff_toNat_le, UInt8.le_iff_toNat_le] at hupper
            have h65 : (65 : UInt8).toNat = 65 := rfl
            have h90 : (90 : UInt8).toNat = 90 := rfl
            omega
          · exact hb

theorem not_visible_of_take (s : List UInt8) :
    ∀ x ∈ s.take (spaceWidth s), ¬ (33 ≤ x.toNat ∧ x.toNat ≤ 126) := by
  have hascii : ∀ b, asciiSpace b = true → ¬ (33 ≤ b.toNat ∧ b.toNat ≤ 126) := fun b hb => by
    rw [asciiSpace_iff] at hb
    omega
  have hlatin : ∀ b c, latinSpace b c = true → ¬ (33 ≤ b.toNat ∧ b.toNat ≤ 126) ∧
      ¬ (33 ≤ c.toNat ∧ c.toNat ≤ 126) := fun b c hbc => by
    rw [latinSpace_iff] at hbc
    omega
  rcases s with _ | ⟨b, _ | ⟨c, _ | ⟨d, s⟩⟩⟩
  · simp
  · by_cases hb : asciiSpace b = true
    · simpa [spaceWidth, hb] using hascii b hb
    · simp [spaceWidth, hb]
  · by_cases hb : asciiSpace b = true
    · simpa [spaceWidth, hb] using hascii b hb
    · by_cases hbc : latinSpace b c = true
      · simpa [spaceWidth, hb, hbc] using hlatin b c hbc
      · simp [spaceWidth, hb, hbc]
  · by_cases hb : asciiSpace b = true
    · simpa [spaceWidth, hb] using hascii b hb
    · by_cases hbc : latinSpace b c = true
      · simpa [spaceWidth, hb, hbc] using hlatin b c hbc
      · by_cases hwide : wideSpace b c d = true
        · obtain ⟨hfirst, hc, hd⟩ := wideSpace_bytes hwide
          rw [continuation_iff] at hc hd
          intro x hx
          rcases (by simpa [spaceWidth, hb, hbc, hwide] using hx : x = b ∨ x = c ∨ x = d)
            with rfl | rfl | rfl <;> omega
        · simp [spaceWidth, hb, hbc, hwide]

variable {new old : UInt8}

theorem replaceByte_of_not_mem (h : old ∉ s) : replaceByte old new s = s := by
  have hmap : ∀ x ∈ s, (if x = old then new else x) = x := by
    intro x hx
    refine if_neg ?_
    rintro rfl
    exact h hx
  rw [replaceByte, List.map_congr_left hmap, List.map_id']

theorem replaceByte_blank (hold : 33 ≤ old.toNat ∧ old.toNat ≤ 126) (h : Blank s) :
    replaceByte old new s = s := by
  refine replaceByte_of_not_mem ?_
  induction h with
  | nil => exact List.not_mem_nil
  | @rune s hs _ ih =>
    intro hmem
    rw [← List.take_append_drop (spaceWidth s) s] at hmem
    rcases List.mem_append.1 hmem with hmem | hmem
    · exact not_visible_of_take s old hmem hold
    · exact ih hmem

theorem fields_replaceByte_trimSpace (hold : 33 ≤ old.toNat ∧ old.toNat ≤ 126) (s : List UInt8) :
    fields (replaceByte old new (trimSpace s)) = fields (replaceByte old new s) := by
  obtain ⟨gap, gap', hgap, hgap', hs⟩ := trimSpace_spec s
  have hreplace : replaceByte old new s = gap ++ (replaceByte old new (trimSpace s) ++ gap') := by
    conv_lhs => rw [hs, replaceByte, List.map_append, List.map_append]
    rw [← replaceByte, ← replaceByte, ← replaceByte, replaceByte_blank hold hgap,
      replaceByte_blank hold hgap']
  rw [hreplace, fields_blank_append hgap]
  exact (fields_of_separated ((separated_fields _).append_blank hgap')).symm

end Lower

end CheatEngine.Lib.Go
