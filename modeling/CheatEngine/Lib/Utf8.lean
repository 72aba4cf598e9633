/-
  CheatEngine.Lib.Utf8

  Valid UTF-8, as `utf8.ValidString` has it.  Trimming white space takes whole runes away,
  so what is left of a valid string is valid.
-/
import CheatEngine.Lib.GoStrings

namespace CheatEngine.Lib.Go

/-- The length of the rune at the start of a string; 0 if there is no valid one. -/
def runeWidth : List UInt8 → Nat
  | [] => 0
  | b :: s =>
    if b < 0x80 then 1
    else if b < 0xC2 then 0
    else if b < 0xE0 then
      match s with
      | c :: _ => if continuation c then 2 else 0
      | _ => 0
    else if b < 0xF0 then
      match s with
      | c :: d :: _ =>
        if continuation c && continuation d && !(b = 0xE0 && c < 0xA0) &&
          !(b = 0xED && 0xA0 ≤ c) then 3 else 0
      | _ => 0
    else if b < 0xF5 then
      match s with
      | c :: d :: e :: _ =>
        if continuation c && continuation d && continuation e && !(b = 0xF0 && c < 0x90) &&
          !(b = 0xF4 && 0x90 ≤ c) then 4 else 0
      | _ => 0
    else 0

/-- Nothing but valid runes. -/
inductive ValidUtf8 : List UInt8 → Prop
  | nil : ValidUtf8 []
  | rune {s : List UInt8} : runeWidth s ≠ 0 → ValidUtf8 (s.drop (runeWidth s)) → ValidUtf8 s

attribute [local simp] runeWidth

variable {b : UInt8}

theorem runeWidth_ascii (s : List UInt8) (h : b.toNat < 128) :
    runeWidth (b :: s) = 1 := by
  have hb : b < 0x80 := UInt8.lt_iff_toNat_lt.2 h
  simp [hb]

theorem runeWidth_latin {c : UInt8} (s : List UInt8) (h : latinSpace b c = true) :
    runeWidth (b :: c :: s) = 2 := by
  rw [latinSpace_iff] at h
  have hc : continuation c = true := by
    rw [continuation_iff]
    omega
  obtain rfl : b = 0xC2 := UInt8.toNat_inj.1 h.1
  simp [hc]

theorem runeWidth_wide {c d : UInt8} (s : List UInt8) (h : wideSpace b c d = true) :
    runeWidth (b :: c :: d :: s) = 3 := by
  obtain ⟨hb, hc, hd⟩ := wideSpace_bytes h
  rcases hb with hb | hb | hb
  · obtain rfl : b = 0xE1 := UInt8.toNat_inj.1 hb
    simp [hc, hd]
  · obtain rfl : b = 0xE2 := UInt8.toNat_inj.1 hb
    simp [hc, hd]
  · obtain rfl : b = 0xE3 := UInt8.toNat_inj.1 hb
    simp [hc, hd]

variable {s : List UInt8}

theorem runeWidth_of_space (h : spaceWidth s ≠ 0) : runeWidth s = spaceWidth s := by
  rcases s with _ | ⟨b, s⟩
  · exact absurd rfl h
  by_cases hascii : asciiSpace b = true
  · rw [runeWidth_ascii s (by have := (asciiSpace_iff b).1 hascii; omega)]
    simp [spaceWidth, hascii]
  rcases s with _ | ⟨c, s⟩
  · exact absurd (by simp [spaceWidth, hascii]) h
  by_cases hlatin : latinSpace b c = true
  · rw [runeWidth_latin s hlatin]
    simp [spaceWidth, hascii, hlatin]
  rcases s with _ | ⟨d, s⟩
  · exact absurd (by simp [spaceWidth, hascii, hlatin]) h
  by_cases hwide : wideSpace b c d = true
  · rw [runeWidth_wide s hwide]
    simp [spaceWidth, hascii, hlatin, hwide]
  · exact absurd (by simp [spaceWidth, hascii, hlatin, hwide]) h

theorem runeWidth_le (s : List UInt8) : runeWidth s ≤ s.length := by
  rcases s with _ | ⟨b, _ | ⟨c, _ | ⟨d, _ | ⟨e, s⟩⟩⟩⟩ <;> simp only [runeWidth, List.length_cons]
  all_goals (repeat' split) <;> omega

theorem runeWidth_append {u v : List UInt8} (hv : ∀ b, v.head? = some b → continuation b = false)
    (hu : u ≠ []) (hw : runeWidth (u ++ v) ≠ 0) : runeWidth (u ++ v) = runeWidth u := by
  rcases v with _ | ⟨x, v⟩
  · rw [List.append_nil]
  have hx : continuation x = false := hv x rfl
  rcases u with _ | ⟨b, _ | ⟨c, _ | ⟨d, _ | ⟨e, u⟩⟩⟩⟩
  · exact absurd rfl hu
  · rcases v with _ | ⟨y, _ | ⟨z, v⟩⟩ <;> simp_all
  · rcases v with _ | ⟨y, v⟩ <;> simp_all
  · simp_all
  · rfl

theorem validUtf8_of_ascii (h : ∀ b ∈ s, b.toNat < 128) : ValidUtf8 s := by
  induction s with
  | nil => exact .nil
  | cons b s ih =>
    have hwidth := runeWidth_ascii s (h b (by simp))
    refine .rune (hwidth ▸ Nat.one_ne_zero) ?_
    rw [hwidth]
    exact ih fun b' hb' => h b' (by simp [hb'])

theorem ValidUtf8.of_blank_append {gap : List UInt8} (hgap : Blank gap)
    (h : ValidUtf8 (gap ++ s)) : ValidUtf8 s := by
  induction hgap with
  | nil => exact h
  | @rune gap hspace _ ih =>
    have hwidth : runeWidth (gap ++ s) = spaceWidth gap := by
      rw [← spaceWidth_append_of_ne hspace s]
      exact runeWidth_of_space (by rwa [spaceWidth_append_of_ne hspace s])
    have hrest : ValidUtf8 ((gap ++ s).drop (runeWidth (gap ++ s))) := by
      cases hall : gap ++ s with
      | nil => exact .nil
      | cons b rest =>
        rw [hall] at h
        cases h with
        | rune _ hrest => exact hrest
    rw [hwidth, List.drop_append_of_le_length (spaceWidth_le gap)] at hrest
    exact ih hrest

theorem ValidUtf8.of_append_blank {gap : List UInt8} (hgap : Blank gap)
    (h : ValidUtf8 (s ++ gap)) : ValidUtf8 s := by
  generalize hall : s ++ gap = all at h
  induction h generalizing s with
  | nil =>
    obtain ⟨rfl, -⟩ := List.append_eq_nil_iff.1 hall
    exact .nil
  | @rune all hne hrest ih =>
    subst hall
    rcases List.eq_nil_or_concat s with rfl | ⟨s', b, hs⟩
    · exact .nil
    have hnil : s ≠ [] := by simp [hs]
    -- the first rune lies before the gap
    have hwidth := runeWidth_append (boundary hgap.start) hnil hne
    rw [hwidth] at hne ih
    exact .rune hne (ih (List.drop_append_of_le_length (runeWidth_le s)).symm)

theorem ValidUtf8.trimSpace (h : ValidUtf8 s) : ValidUtf8 (trimSpace s) := by
  obtain ⟨gap, gap', hgap, hgap', hs⟩ := trimSpace_spec s
  rw [hs] at h
  exact .of_append_blank hgap' (.of_blank_append hgap h)

end CheatEngine.Lib.Go
