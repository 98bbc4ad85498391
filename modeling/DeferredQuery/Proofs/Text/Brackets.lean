import DeferredQuery.Proofs.Text.Literals
import DeferredQuery.Text.Identifier

/-!
# Brackets

Parentheses are counted outside of literals. A text is balanced if counting goes on behind it as it
would have gone on without it; so nothing that is put together from balanced texts closes a
parenthesis that stands before it, or leaves one open. A group is one pair of parentheses: the one
at its start is closed by its last character.
-/

set_option autoImplicit false

namespace DeferredQuery.Text

/-! ## Counting -/

/-- What follows the parenthesis that closes an open one, where `depth` others have to be closed
first. Inside a literal parentheses do not count. Two quotes in a row in a literal leave it and
enter it again, with nothing in between. -/
def afterClosing : Bool → Nat → List Char → Option (List Char)
  | _, _, [] => none
  | true, depth, c :: rest => afterClosing (c != '\'') depth rest
  | false, depth, c :: rest =>
    if c = '\'' then afterClosing true depth rest
    else if c = '(' then afterClosing false (depth + 1) rest
    else if c = ')' then
      match depth with
      | 0 => some rest
      | depth + 1 => afterClosing false depth rest
    else afterClosing false depth rest

/-- The text starts with a parenthesis, and its last character is the one that closes it. -/
def IsGroup (text : String) : Prop :=
  ∃ rest, text.toList = '(' :: rest ∧ afterClosing false 0 rest = some []

example : IsGroup "(a = ')''(' OR (b) AND c)" := ⟨_, rfl, by decide⟩

example : ¬ IsGroup "(a) OR (b)" := by
  rintro ⟨rest, hrest, hclosing⟩
  cases hrest
  exact absurd hclosing (by decide)

/-- Counting goes on behind the text as it would without it. -/
def Balanced (text : String) : Prop :=
  ∀ depth rest, afterClosing false depth (text.toList ++ rest) = afterClosing false depth rest

/-! ## Texts without brackets -/

/-- Neither a quote nor a parenthesis. -/
def isFlat (c : Char) : Bool := c != '\'' && c != '(' && c != ')'

/-- A text without quotes and parentheses. -/
def Flat (text : String) : Prop := ∀ c ∈ text.toList, isFlat c = true

instance (text : String) : Decidable (Flat text) :=
  List.decidableBAll (fun c => isFlat c = true) text.toList

@[simp] theorem flat_append {a b : String} : Flat (a ++ b) ↔ Flat a ∧ Flat b := by
  simp [Flat, or_imp, forall_and]

theorem flat_intercalate {x : String} {l : List String} (hx : Flat x) (h : ∀ text ∈ l, Flat text) :
    Flat (x.intercalate l) :=
  intercalate_of_append (by decide) (fun ha hb => flat_append.mpr ⟨ha, hb⟩) hx h

theorem Flat.quoteFree {text : String} (h : Flat text) : QuoteFree text :=
  fun hquote => absurd (h _ hquote) (by decide)

/-- Such characters do not count. -/
theorem afterClosing_of_isFlat {c : Char} (h : isFlat c = true) (depth : Nat) (rest : List Char) :
    afterClosing false depth (c :: rest) = afterClosing false depth rest := by
  simp only [isFlat, Bool.and_eq_true, bne_iff_ne] at h
  obtain ⟨⟨hquote, hopen⟩, hclose⟩ := h
  cases depth <;> simp only [afterClosing, hquote, hopen, hclose, if_false]

theorem isFlat_of_isWordChar {c : Char} (h : isWordChar c = true) : isFlat c = true := by
  simp only [isFlat, Bool.and_eq_true, bne_iff_ne]
  refine ⟨⟨?_, ?_⟩, ?_⟩ <;>
  · rintro rfl
    exact absurd h (by decide)

/-- A text of word characters. -/
def IsWord (text : String) : Prop := ∀ c ∈ text.toList, isWordChar c = true

instance (text : String) : Decidable (IsWord text) :=
  List.decidableBAll (fun c => isWordChar c = true) text.toList

namespace IsWord

variable {a b : String}

theorem of_isIdentifier (h : isIdentifier a.toList = true) : IsWord a :=
  List.all_eq_true.mp (all_isWordChar_of_isIdentifier h)

theorem append (ha : IsWord a) (hb : IsWord b) : IsWord (a ++ b) := by
  intro c hc
  rw [String.toList_append, List.mem_append] at hc
  exact hc.elim (ha c) (hb c)

theorem flat (h : IsWord a) : Flat a := fun c hc => isFlat_of_isWordChar (h c hc)

theorem space_notMem (h : IsWord a) : ' ' ∉ a.toList :=
  fun hspace => absurd (h _ hspace) (by decide)

end IsWord

/-! ## Balanced texts -/

namespace Balanced

variable {a b : String}

theorem append (ha : Balanced a) (hb : Balanced b) : Balanced (a ++ b) := by
  intro depth rest
  rw [String.toList_append, List.append_assoc, ha, hb]

theorem of_flat (h : Flat a) : Balanced a := by
  intro depth rest
  unfold Flat at h
  generalize a.toList = chars at h
  induction chars with
  | nil => rfl
  | cons c chars ih =>
    rw [List.forall_mem_cons] at h
    obtain ⟨hc, hchars⟩ := h
    rw [List.cons_append, afterClosing_of_isFlat hc]
    exact ih hchars

/-- The body of a literal is passed over, whatever it holds. -/
theorem quote (text : String) : Balanced (Text.quote text) := by
  intro depth rest
  have hbody : ∀ body : List Char, afterClosing true depth (doubleQuotes body ++ '\'' :: rest) =
      afterClosing false depth rest := by
    intro body
    induction body with
    | nil => rfl
    | cons c body ih =>
      by_cases hc : c = '\''
      · subst hc
        exact ih
      · rw [doubleQuotes, if_neg hc, List.cons_append, afterClosing, bne_iff_ne.mpr hc]
        exact ih
  rw [toList_quote, List.cons_append, List.append_assoc]
  exact hbody text.toList

/-- A pair of parentheses around a balanced text. -/
theorem bracket (h : Balanced a) : Balanced ("(" ++ a ++ ")") := by
  intro depth rest
  have hclose := h (depth + 1) (')' :: rest)
  rw [String.toList_append, String.toList_append, List.append_assoc, List.append_assoc]
  exact hclose

theorem intercalate {x : String} {l : List String} (hx : Balanced x)
    (h : ∀ text ∈ l, Balanced text) : Balanced (x.intercalate l) :=
  intercalate_of_append (fun _ _ => rfl) append hx h

theorem join {l : List String} (h : ∀ text ∈ l, Balanced text) : Balanced (String.join l) := by
  induction l with
  | nil => exact fun _ _ => rfl
  | cons a rest ih =>
    rw [List.forall_mem_cons] at h
    rw [String.join_cons]
    exact h.1.append (ih h.2)

/-- **A balanced text in parentheses is a group.** -/
theorem isGroup (h : Balanced a) : IsGroup ("(" ++ a ++ ")") := by
  refine ⟨a.toList ++ [')'], ?_, h 0 [')']⟩
  rw [String.toList_append, String.toList_append]
  rfl

end Balanced

end DeferredQuery.Text
