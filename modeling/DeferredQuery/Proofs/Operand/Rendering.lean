import DeferredQuery.Operand
import DeferredQuery.Proofs.Text.Brackets

/-!
# What operands write

Numbers and keywords are written as tokens, and texts, instants and identifiers as literals. A token
has neither quotes nor parentheses, so an operand is written the same as far as it stands outside
literals, whatever text it holds, and it is balanced.
-/

set_option autoImplicit false

namespace DeferredQuery

open Text

/-! ## Tokens -/

namespace Text

/-- What numbers and keywords are written with. -/
def isTokenChar (c : Char) : Bool := isWordChar c || c == '-' || c == '.'

/-- A text that is a number or a keyword; there is something of it, and nothing that could be taken
for the end of it. -/
structure IsToken (text : String) : Prop where
  ne_empty : text ≠ ""
  chars : ∀ c ∈ text.toList, isTokenChar c = true

theorem isTokenChar_of_isWordChar {c : Char} (h : isWordChar c = true) : isTokenChar c = true := by
  simp [isTokenChar, h]

theorem isFlat_of_isTokenChar {c : Char} (h : isTokenChar c = true) : isFlat c = true := by
  simp only [isTokenChar, Bool.or_eq_true, beq_iff_eq] at h
  obtain (hword | rfl) | rfl := h
  · exact isFlat_of_isWordChar hword
  · rfl
  · rfl

theorem IsWord.isToken {text : String} (h : IsWord text) (hne : text ≠ "") : IsToken text :=
  ⟨hne, fun c hc => isTokenChar_of_isWordChar (h c hc)⟩

theorem IsToken.flat {text : String} (h : IsToken text) : Flat text :=
  fun c hc => isFlat_of_isTokenChar (h.chars c hc)

end Text

/-! ## Numbers -/

namespace Number

theorem isTokenChar_of_mem_digits {n : Nat} {c : Char} (h : c ∈ digits n) :
    isTokenChar c = true := by
  have hdigit := Nat.isDigit_of_mem_toDigits (by decide) (by decide) h
  apply isTokenChar_of_isWordChar
  simp [isWordChar, Char.isAlphanum, hdigit]

theorem digits_ne_nil (n : Nat) : digits n ≠ [] := Nat.toDigits_ne_nil

theorem isTokenChar_of_mem_withPoint {places : Nat} {ds : List Char}
    (hds : ∀ c ∈ ds, isTokenChar c = true) : ∀ c ∈ withPoint places ds, isTokenChar c = true := by
  intro c hc
  unfold withPoint at hc
  split at hc
  · exact hds c hc
  · have hpadded :
        ∀ c ∈ List.replicate (places + 1 - ds.length) '0' ++ ds, isTokenChar c = true := by
      intro c hc
      rcases List.mem_append.mp hc with hc | hc
      · rw [List.eq_of_mem_replicate hc]
        rfl
      · exact hds c hc
    rcases List.mem_append.mp hc with hc | hc
    · exact hpadded c (List.mem_of_mem_take hc)
    · rcases List.mem_cons.mp hc with rfl | hc
      · rfl
      · exact hpadded c (List.mem_of_mem_drop hc)

theorem withPoint_ne_nil (places : Nat) {ds : List Char} (h : ds ≠ []) :
    withPoint places ds ≠ [] := by
  unfold withPoint
  split
  · exact h
  · simp

/-- A number behind its sign, if it has one. -/
theorem isToken_signed (negative : Bool) {ds : List Char} (hne : ds ≠ [])
    (hds : ∀ c ∈ ds, isTokenChar c = true) :
    IsToken (String.ofList ((if negative then ['-'] else []) ++ ds)) := by
  constructor
  · simp [hne]
  · intro c hc
    rw [String.toList_ofList] at hc
    rcases List.mem_append.mp hc with hc | hc
    · cases negative with
      | false => cases hc
      | true =>
        rw [List.mem_singleton.mp hc]
        rfl
    · exact hds c hc

theorem isToken_intText (n : Int) : IsToken (String.ofList (intText n)) := by
  have hdigits : ∀ c ∈ digits n.natAbs, isTokenChar c = true := fun c => isTokenChar_of_mem_digits
  unfold intText
  split
  · exact isToken_signed true (digits_ne_nil _) hdigits
  · exact isToken_signed false (digits_ne_nil _) hdigits

theorem isTokenChar_of_mem_positional {d : Decimal} : ∀ c ∈ d.positional, isTokenChar c = true := by
  intro c hc
  unfold Decimal.positional at hc
  split at hc
  · rcases List.mem_append.mp hc with hc | hc
    · exact isTokenChar_of_mem_digits hc
    · rw [List.eq_of_mem_replicate hc]
      rfl
  · exact isTokenChar_of_mem_withPoint (fun c => isTokenChar_of_mem_digits) c hc

theorem positional_ne_nil (d : Decimal) : d.positional ≠ [] := by
  unfold Decimal.positional
  split
  · exact List.append_ne_nil_of_left_ne_nil (digits_ne_nil _) _
  · exact withPoint_ne_nil _ (digits_ne_nil _)

theorem isToken_text (f : Format) (bits : Nat) : IsToken (f.text bits) := by
  unfold Format.text
  split
  · exact IsWord.isToken (by decide) (by decide)
  · exact isToken_signed _ (List.cons_ne_nil _ _) (List.all_eq_true.mp (by decide))
  · exact isToken_signed _ (List.cons_ne_nil _ _) (List.all_eq_true.mp (by decide))
  · exact isToken_signed _ (positional_ne_nil _) isTokenChar_of_mem_positional

theorem Scaled.isToken_text (d : Scaled) : IsToken d.text :=
  isToken_signed d.negative (withPoint_ne_nil _ (digits_ne_nil _))
    (isTokenChar_of_mem_withPoint fun _ => isTokenChar_of_mem_digits)

end Number

theorem quoteFree_repr (n : Nat) : QuoteFree n.repr := by
  have hflat : Flat n.repr := by
    intro c hc
    rw [Nat.toList_repr] at hc
    exact isFlat_of_isTokenChar (Number.isTokenChar_of_mem_digits hc)
  exact hflat.quoteFree

/-! ## Operands -/

namespace Operand

/-- The two operands are the same, but for the text that they hold. -/
inductive SameButText : Operand → Operand → Prop
  | same (a : Operand) : SameButText a a
  | text (s t : String) : SameButText (.text s) (.text t)

/-- **A member of a list** is a literal or a token. -/
theorem renderMember_cases (a : Operand) :
    (∃ body, a.renderMember = quote body) ∨ IsToken a.renderMember := by
  cases a with
  | null => exact .inr (IsWord.isToken (by decide) (by decide))
  | bool value => cases value <;> exact .inr (IsWord.isToken (by decide) (by decide))
  | int32 value => exact .inr (Number.isToken_intText _)
  | int64 value => exact .inr (Number.isToken_intText _)
  | float32 bits => exact .inr (Number.isToken_text _ _)
  | float64 bits => exact .inr (Number.isToken_text _ _)
  | text value => exact .inl ⟨value, rfl⟩
  | instant value => exact .inl ⟨_, rfl⟩
  | uuid value => exact .inl ⟨_, rfl⟩
  | decimal value => exact .inr value.isToken_text

theorem alike_renderMember_self (a : Operand) : Alike a.renderMember a.renderMember := by
  obtain ⟨body, hbody⟩ | htoken := a.renderMember_cases
  · rw [hbody]
    exact .quote body body
  · exact .of_quoteFree htoken.flat.quoteFree

theorem balanced_renderMember (a : Operand) : Balanced a.renderMember := by
  obtain ⟨body, hbody⟩ | htoken := a.renderMember_cases
  · rw [hbody]
    exact .quote body
  · exact .of_flat htoken.flat

/-- Every operand but a text is written into a condition as it is written into a list. -/
theorem render_eq_renderMember {a : Operand} (h : a.text? = none) : a.render = a.renderMember := by
  cases a with
  | text value => cases h
  | _ => rfl

theorem balanced_renderList (operands : List Operand) : Balanced (renderList operands) := by
  apply Balanced.bracket
  apply Balanced.intercalate (.of_flat (by decide))
  intro text htext
  obtain ⟨operand, _, rfl⟩ := List.mem_map.mp htext
  exact operand.balanced_renderMember

/-- Members that differ in their texts are literals in the same place. -/
theorem SameButText.renderMember {a b : Operand} (h : a.SameButText b) :
    Alike a.renderMember b.renderMember := by
  cases h with
  | same => exact a.alike_renderMember_self
  | text s t => exact .quote s t

theorem renderList_alike {l m : List Operand} (h : List.Forall₂ SameButText l m) :
    Alike (renderList l) (renderList m) := by
  have hmembers : List.Forall₂ Alike (l.map Operand.renderMember) (m.map Operand.renderMember) := by
    rw [List.forall₂_map_left_iff, List.forall₂_map_right_iff]
    exact h.imp fun _ _ hab => hab.renderMember
  have hinner := Alike.intercalate (x := ", ") (by decide) (by decide) hmembers
  exact (hinner.prepend (by decide)).append (by decide)

end Operand

end DeferredQuery
