import DeferredQuery.Proofs.Text.Literals

/-!
# Scanning literals

What a reader of statements does at quotes. It reads one literal from its opening quote, where two
quotes in a row are one quote of the text, and it cuts a text at the separators that stand outside
of literals. `readLiteral?_eq_some_iff` says that reading is the inverse of quoting, in both
directions: so a literal determines its text, and what follows it is left alone unless it starts
with a quote, which would be read as a part of the literal.
-/

set_option autoImplicit false

namespace DeferredQuery.Text

/-! ## One literal -/

/-- Reads on behind the opening quote of a literal, to the quote that stands alone and closes it;
the text that is read, and what follows. A literal that is not closed is none. -/
def readBody? : List Char → Option (List Char × List Char)
  | [] => none
  | '\'' :: '\'' :: rest => (readBody? rest).map fun (body, after) => ('\'' :: body, after)
  | '\'' :: rest => some ([], rest)
  | c :: rest => (readBody? rest).map fun (body, after) => (c :: body, after)

def readLiteral? : List Char → Option (List Char × List Char)
  | '\'' :: rest => readBody? rest
  | _ => none

/-- A body is read to its end. -/
theorem readBody?_body (body : List Char) {rest : List Char} (h : NoQuoteFirst rest) :
    readBody? (doubleQuotes body ++ '\'' :: rest) = some (body, rest) := by
  induction body with
  | nil =>
    cases rest with
    | nil => rfl
    | cons c rest =>
      have hc : c ≠ '\'' := fun hc => h (by rw [hc]; rfl)
      simp [readBody?, hc]
  | cons c body ih =>
    by_cases hc : c = '\''
    · simp [doubleQuotes, hc, readBody?, ih]
    · simp [doubleQuotes, hc, readBody?, ih]

/-- What has been read is the body of a literal. -/
theorem eq_body_of_readBody? {s body rest : List Char} (h : readBody? s = some (body, rest)) :
    s = doubleQuotes body ++ '\'' :: rest ∧ NoQuoteFirst rest := by
  fun_induction readBody? s generalizing body with
  | case1 => cases h
  | case2 s ih =>
    obtain ⟨⟨read, after⟩, hread, hbody⟩ := Option.map_eq_some_iff.mp h
    cases hbody
    obtain ⟨rfl, hafter⟩ := ih hread
    exact ⟨rfl, hafter⟩
  | case3 s hsingle =>
    cases h
    refine ⟨rfl, fun hquote => ?_⟩
    obtain ⟨tail, rfl⟩ := List.head?_eq_some_iff.mp hquote
    exact hsingle tail rfl
  | case4 c s _ hc ih =>
    obtain ⟨⟨read, after⟩, hread, hbody⟩ := Option.map_eq_some_iff.mp h
    cases hbody
    obtain ⟨rfl, hafter⟩ := ih hread
    rw [doubleQuotes, if_neg hc]
    exact ⟨rfl, hafter⟩

/-- **Reading a literal undoes quoting**, and reads nothing else: what is read is a quoted text, and
what follows it does not start with a quote. -/
theorem readLiteral?_eq_some_iff {s rest : List Char} {text : String} :
    readLiteral? s = some (text.toList, rest) ↔
      s = (quote text).toList ++ rest ∧ NoQuoteFirst rest := by
  rw [toList_quote, List.cons_append, List.append_assoc, List.singleton_append]
  constructor
  · intro h
    unfold readLiteral? at h
    split at h
    · obtain ⟨rfl, hrest⟩ := eq_body_of_readBody? h
      exact ⟨rfl, hrest⟩
    · cases h
  · rintro ⟨rfl, hrest⟩
    exact readBody?_body text.toList hrest

/-- A literal is read as the text that was quoted. -/
theorem readLiteral?_quote (text : String) {rest : List Char} (h : NoQuoteFirst rest) :
    readLiteral? ((quote text).toList ++ rest) = some (text.toList, rest) :=
  readLiteral?_eq_some_iff.mpr ⟨rfl, h⟩

theorem quote_injective : Function.Injective quote := by
  intro s t h
  have hend : NoQuoteFirst [] := nofun
  have hs := readLiteral?_quote s hend
  rw [h, readLiteral?_quote t hend, Option.some.injEq, Prod.mk.injEq] at hs
  exact (String.toList_inj.mp hs.1).symm

example : readLiteral? "'it''s' = x".toList = some ("it's".toList, " = x".toList) := by decide

/-! ## Cutting outside of literals -/

/-- Puts a text before the first of some pieces. -/
def extendFirst (s : List Char) : List (List Char) → List (List Char)
  | [] => [s]
  | piece :: pieces => (s ++ piece) :: pieces

/-- The pieces of a text between the separators outside of literals, where the text starts inside of
one or outside. Two quotes in a row in a literal leave it and enter it again, with nothing in
between. -/
def cutOutside (sep : Char) : Bool → List Char → List (List Char)
  | _, [] => [[]]
  | true, c :: rest => extendFirst [c] (cutOutside sep (c != '\'') rest)
  | false, c :: rest =>
    if c = sep then [] :: cutOutside sep false rest
    else extendFirst [c] (cutOutside sep (c == '\'') rest)

example : cutOutside ',' false "1, 'a, ''b', 2".toList =
    ["1".toList, " 'a, ''b'".toList, " 2".toList] := by decide

@[simp] theorem extendFirst_nil {pieces : List (List Char)} (h : pieces ≠ []) :
    extendFirst [] pieces = pieces := by
  cases pieces with
  | nil => exact absurd rfl h
  | cons piece pieces => rfl

@[simp] theorem extendFirst_extendFirst (s t : List Char) (pieces : List (List Char)) :
    extendFirst s (extendFirst t pieces) = extendFirst (s ++ t) pieces := by
  cases pieces <;> simp [extendFirst]

theorem cutOutside_ne_nil (sep : Char) (inside : Bool) (s : List Char) :
    cutOutside sep inside s ≠ [] := by
  have hextend : ∀ (t : List Char) (pieces : List (List Char)), extendFirst t pieces ≠ [] := by
    intro t pieces
    cases pieces <;> simp [extendFirst]
  cases s with
  | nil => cases inside <;> simp [cutOutside]
  | cons c rest =>
    cases inside with
    | true => exact hextend _ _
    | false =>
      rw [cutOutside]
      split
      · exact List.cons_ne_nil _ _
      · exact hextend _ _

/-- No cut is made in the text: all of it goes to the first piece of what follows. -/
def Uncut (sep : Char) (text : String) : Prop :=
  ∀ rest, cutOutside sep false (text.toList ++ rest) =
    extendFirst text.toList (cutOutside sep false rest)

namespace Uncut

variable {sep : Char}

/-- A text without quotes and separators is not cut. -/
theorem of_notMem {text : String} (hquote : QuoteFree text) (hsep : sep ∉ text.toList) :
    Uncut sep text := by
  intro rest
  unfold QuoteFree at hquote
  generalize text.toList = chars at hquote hsep
  induction chars with
  | nil => exact (extendFirst_nil (cutOutside_ne_nil sep false rest)).symm
  | cons c chars ih =>
    rw [List.mem_cons, not_or] at hquote hsep
    rw [List.cons_append, cutOutside, if_neg (Ne.symm hsep.1),
      beq_eq_false_iff_ne.mpr (Ne.symm hquote.1), ih hquote.2 hsep.2, extendFirst_extendFirst]
    rfl

/-- A literal is not cut, whatever it holds. -/
theorem quote (text : String) (hsep : sep ≠ '\'') : Uncut sep (Text.quote text) := by
  intro rest
  have hbody : ∀ body : List Char, cutOutside sep true (doubleQuotes body ++ '\'' :: rest) =
      extendFirst (doubleQuotes body ++ ['\'']) (cutOutside sep false rest) := by
    intro body
    induction body with
    | nil => rfl
    | cons c body ih =>
      by_cases hc : c = '\''
      · -- The first of the two quotes leaves the literal, and the second enters it again.
        subst hc
        simp [doubleQuotes, cutOutside, Ne.symm hsep, ih]
      · have hinside : (c != '\'') = true := bne_iff_ne.mpr hc
        simp [doubleQuotes, hc, cutOutside, hinside, ih]
  simp [cutOutside, Ne.symm hsep, hbody]

end Uncut

/-- **Texts that are not cut come back** from a text in which they stand behind one another, a
separator and a blank between two: each as it was, the blank before it. -/
theorem cutOutside_intercalate {sep : Char} {first : String} {rest : List String}
    (h : ∀ text ∈ first :: rest, Uncut sep text) {glue : String} {blank : List Char}
    (hglue : glue.toList = sep :: blank) (hblank : Uncut sep (String.ofList blank)) :
    cutOutside sep false (glue.intercalate (first :: rest)).toList =
      first.toList :: rest.map fun text => blank ++ text.toList := by
  induction rest generalizing first with
  | nil =>
    have hfirst := h first List.mem_cons_self []
    simpa [cutOutside, extendFirst] using hfirst
  | cons second rest ih =>
    rw [List.forall_mem_cons] at h
    have hrest := hblank (glue.intercalate (second :: rest)).toList
    rw [ih h.2, String.toList_ofList] at hrest
    rw [String.intercalate_cons_cons, String.toList_append, String.toList_append, hglue,
      List.append_assoc, h.1, List.cons_append, cutOutside, if_pos rfl, hrest]
    simp [extendFirst]

end DeferredQuery.Text
