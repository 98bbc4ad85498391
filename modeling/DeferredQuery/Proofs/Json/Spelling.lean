import DeferredQuery.Json.Reader
import DeferredQuery.Json.Spelling
import DeferredQuery.Proofs.Number.Reading

/-!
# Strings of JSON read back

A text is spelled character by character, and each spelling is read as one: the reader of documents
takes it as a piece of the string, whatever follows, and the reader of spellings gives the number of
the character. No character is a surrogate, so the numbers are characters again.
-/

set_option autoImplicit false

namespace DeferredQuery.Json

open Number

/-- How a character is spelled: by a short escape, by its number, or by itself. -/
theorem spellChar_cases (c : Char) :
    (∃ e, e ≠ 'u' ∧ spellChar c = ['\\', e] ∧ escapedChar? e = some c) ∨
      (c.toNat < 0x20 ∧ spellChar c = '\\' :: 'u' :: hexDigits 4 c.toNat) ∨
      (c ≠ '"' ∧ c ≠ '\\' ∧ 0x20 ≤ c.toNat ∧ spellChar c = [c]) := by
  by_cases hquote : c = '"'
  · exact .inl ⟨'"', by decide, by rw [hquote]; rfl, by rw [hquote]; rfl⟩
  by_cases hslash : c = '\\'
  · exact .inl ⟨'\\', by decide, by rw [hslash]; rfl, by rw [hslash]; rfl⟩
  by_cases hback : c = '\x08'
  · exact .inl ⟨'b', by decide, by rw [hback]; rfl, by rw [hback]; rfl⟩
  by_cases hfeed : c = '\x0c'
  · exact .inl ⟨'f', by decide, by rw [hfeed]; rfl, by rw [hfeed]; rfl⟩
  by_cases hline : c = '\n'
  · exact .inl ⟨'n', by decide, by rw [hline]; rfl, by rw [hline]; rfl⟩
  by_cases hreturn : c = '\r'
  · exact .inl ⟨'r', by decide, by rw [hreturn]; rfl, by rw [hreturn]; rfl⟩
  by_cases htab : c = '\t'
  · exact .inl ⟨'t', by decide, by rw [htab]; rfl, by rw [htab]; rfl⟩
  right
  by_cases hcontrol : c.toNat < 0x20
  · left
    exact ⟨hcontrol, by simp [spellChar, *]⟩
  · right
    exact ⟨hquote, hslash, by omega, by simp [spellChar, *]⟩

/-- The number of a character in four digits. -/
theorem exists_hexDigits (n : Nat) : ∃ a b c d, hexDigits 4 n = [a, b, c, d] :=
  ⟨_, _, _, _, rfl⟩

/-! ## Taking a string from a document -/

theorem readString?_spellChar (c : Char) (s : List Char) :
    readString? (spellChar c ++ s) =
      (readString? s).map fun (spelling, after) => (spellChar c ++ spelling, after) := by
  obtain ⟨e, he, hspell, hescape⟩ | ⟨hcontrol, hspell⟩ | ⟨hquote, hslash, hplain, hspell⟩ :=
    spellChar_cases c
  · rw [hspell]
    simp [readString?, he, hescape]
  · have hdigits : ∀ x ∈ hexDigits 4 c.toNat, (hexValue? x).isSome = true :=
      fun x hx => hexValue?_of_mem_hexDigits hx
    obtain ⟨x, y, z, w, hhex⟩ := exists_hexDigits c.toNat
    rw [hhex] at hspell hdigits
    rw [hspell]
    have hall : [x, y, z, w].all (hexValue? · |>.isSome) = true := List.all_eq_true.mpr hdigits
    simp only [List.cons_append, List.nil_append, readString?, hall, if_true]
  · rw [hspell]
    have hnot : ¬ c.toNat < 0x20 := by omega
    simp [readString?, hslash, hnot]

/-- The spelling of a text is taken to its closing quote. -/
theorem readString?_spell (s rest : List Char) :
    readString? (spell s ++ '"' :: rest) = some (spell s, rest) := by
  induction s with
  | nil => rfl
  | cons c s ih =>
    have hspell : spell (c :: s) = spellChar c ++ spell s := rfl
    rw [hspell, List.append_assoc, readString?_spellChar, ih]
    rfl

/-! ## Reading a spelling -/

theorem units?_spellChar (c : Char) (s : List Char) :
    units? (spellChar c ++ s) = (units? s).map (c.toNat :: ·) := by
  obtain ⟨e, he, hspell, hescape⟩ | ⟨hcontrol, hspell⟩ | ⟨hquote, hslash, hplain, hspell⟩ :=
    spellChar_cases c
  · have hstep : units? ('\\' :: e :: s) =
        (units? s).bind fun units => some (c.toNat :: units) := by
      simp [units?, he, hescape]
    rw [hspell]
    show units? ('\\' :: e :: s) = _
    rw [hstep]
    cases units? s <;> rfl
  · obtain ⟨x, y, z, w, hhex⟩ := exists_hexDigits c.toNat
    have hvalue := hexFrom?_hexDigits 4 c.toNat
    rw [hhex] at hspell hvalue
    rw [hspell]
    rw [Nat.mod_eq_of_lt (by omega)] at hvalue
    simp only [List.cons_append, List.nil_append, units?, hvalue]
    cases units? s <;> rfl
  · rw [hspell]
    simp [units?, hslash]

theorem units?_spell (s : List Char) : units? (spell s) = some (s.map Char.toNat) := by
  induction s with
  | nil => rfl
  | cons c s ih =>
    have hspell : spell (c :: s) = spellChar c ++ spell s := rfl
    rw [hspell, units?_spellChar, ih]
    rfl

/-- The number of a character is no surrogate. -/
theorem not_surrogate (c : Char) :
    isHighSurrogate c.toNat = false ∧ isLowSurrogate c.toNat = false := by
  have hvalid : c.toNat.isValidChar := c.valid
  simp only [isHighSurrogate, isLowSurrogate, Bool.and_eq_false_iff, decide_eq_false_iff_not]
  rcases hvalid with h | ⟨h, -⟩
  · omega
  · omega

theorem ofUnits?_toNat (s : List Char) : ofUnits? (s.map Char.toNat) = some s := by
  induction s with
  | nil => rfl
  | cons c s ih =>
    obtain ⟨hhigh, hlow⟩ := not_surrogate c
    rw [List.map_cons, ofUnits?.eq_def]
    simp [hhigh, hlow, ih]

/-- **A text is read back from its spelling**, whatever its characters are. -/
theorem unspell?_spell (s : List Char) : unspell? (spell s) = some s := by
  rw [unspell?, units?_spell]
  exact ofUnits?_toNat s

end DeferredQuery.Json
