import DeferredQuery.Text.Lowercase
import DeferredQuery.Text.Quoted

/-!
# Lowering a literal

Lowering a quoted text is quoting the lowered text. No character but the quote is lowered to a
quote, so the quotes stay where they are; and a quote is looked through where a capital sigma asks
for its neighbours, so the letters between the quotes are lowered as if the quotes were not there.
-/

set_option autoImplicit false

namespace DeferredQuery.Text

/-! ## Single characters -/

/-- No run of the lowercase mapping leads to the quote or below it. -/
theorem quote_lt_of_mem_lowerRuns {run : LowerRun} (h : run ∈ lowerRuns) :
    39 < (run.first : Int) + run.offset := by
  have hall : ∀ run ∈ lowerRuns, 39 < (run.first : Int) + run.offset := by decide +kernel
  exact hall run h

theorem eq_of_ofNat_eq_quote {n : Nat} (h : Char.ofNat n = '\'') : n = 39 := by
  by_cases hvalid : n.isValidChar
  · rw [Char.ofNat, dif_pos hvalid] at h
    exact congrArg Char.toNat h
  · rw [Char.ofNat, dif_neg hvalid] at h
    cases h

theorem eq_quote_of_toLower {c : Char} (h : c.toLower = '\'') : c = '\'' := by
  unfold Char.toLower at h
  split at h
  · rename_i hrange
    -- The small letters all come after the quote.
    have hnat := congrArg (UInt32.toNat ∘ Char.val) h
    simp only [ge_iff_le, UInt32.le_iff_toNat_le] at hrange
    obtain ⟨hlow, hhigh⟩ := hrange
    simp at hnat hlow hhigh
    omega
  · exact h

/-- A character that is no quote is lowered to characters that are none. -/
theorem quote_notMem_lowerChar {c : Char} (h : c ≠ '\'') : '\'' ∉ lowerChar c := by
  unfold lowerChar
  split
  · rw [List.mem_singleton]
    exact fun hlower => h (eq_quote_of_toLower hlower.symm)
  split
  · decide
  split
  · rename_i run hfound
    have hholds := List.find?_some hfound
    have hrun := quote_lt_of_mem_lowerRuns (List.mem_of_find?_eq_some hfound)
    simp only [LowerRun.holds, Bool.and_eq_true, decide_eq_true_eq] at hholds
    rw [List.mem_singleton]
    intro hquote
    have := eq_of_ofNat_eq_quote hquote.symm
    omega
  · rw [List.mem_singleton]
    exact Ne.symm h

theorem lowerSigma_ne_quote (before after : List Char) : lowerSigma before after ≠ '\'' := by
  unfold lowerSigma
  split <;> decide

/-! ## Neighbours -/

/-- A quote does not keep a capital sigma from seeing a cased character. -/
@[simp] theorem casedNext_quote (s : List Char) : casedNext ('\'' :: s) = casedNext s := by
  have hquote : isCaseIgnorable '\'' = true := by decide
  rw [casedNext, List.dropWhile_cons_of_pos hquote, casedNext]

theorem casedNext_cons {s t : List Char} (c : Char) (h : casedNext s = casedNext t) :
    casedNext (c :: s) = casedNext (c :: t) := by
  by_cases hc : isCaseIgnorable c = true
  · simpa only [casedNext, List.dropWhile_cons_of_pos hc] using h
  · simp only [casedNext, List.dropWhile_cons_of_neg hc]

/-- The body of a literal and its closing quote show the same cased character as its text. -/
theorem casedNext_body (s : List Char) : casedNext (doubleQuotes s ++ ['\'']) = casedNext s := by
  induction s with
  | nil => exact casedNext_quote []
  | cons c rest ih =>
    rw [doubleQuotes]
    split
    · rename_i hc
      subst hc
      simpa using ih
    · exact casedNext_cons c ih

/-! ## The literal -/

theorem doubleQuotes_of_notMem {s : List Char} (h : '\'' ∉ s) : doubleQuotes s = s := by
  induction s with
  | nil => rfl
  | cons c rest ih =>
    rw [List.mem_cons, not_or] at h
    rw [doubleQuotes, if_neg (Ne.symm h.1), ih h.2]

/-- The body of a literal is lowered as its text is, where the characters before both show the same
cased character. -/
theorem lowercaseAfter_body {before other : List Char} (s : List Char)
    (h : casedNext before = casedNext other) :
    lowercaseAfter before (doubleQuotes s ++ ['\'']) =
      doubleQuotes (lowercaseAfter other s) ++ ['\''] := by
  induction s generalizing before other with
  | nil => rfl
  | cons c rest ih =>
    by_cases hc : c = '\''
    · -- In the body the quote stands twice, and neither of the two hides a neighbour.
      subst hc
      have hrest := @ih ('\'' :: '\'' :: before) ('\'' :: other) (by simpa using h)
      simp [doubleQuotes, lowercaseAfter, lowerChar_of_ascii, hrest]
    · have hrest := ih (casedNext_cons c h)
      have hsigma : lowerSigma before (doubleQuotes rest ++ ['\'']) = lowerSigma other rest := by
        rw [lowerSigma, h, casedNext_body, lowerSigma]
      have hlower : '\'' ∉ if c = 'Σ' then [lowerSigma other rest] else lowerChar c := by
        split
        · rw [List.mem_singleton]
          exact Ne.symm (lowerSigma_ne_quote other rest)
        · exact quote_notMem_lowerChar hc
      rw [doubleQuotes, if_neg hc, List.cons_append, lowercaseAfter, lowercaseAfter, hrest, hsigma,
        doubleQuotes_append, doubleQuotes_of_notMem hlower, List.append_assoc]

/-- **Lowering a literal is the literal of the lowered text.** -/
theorem lowercase_quote (text : String) : lowercase (quote text) = quote (lowercase text) := by
  have hbody := @lowercaseAfter_body ['\''] [] text.toList (casedNext_quote [])
  rw [← String.toList_inj]
  simp [lowercaseAfter, lowerChar_of_ascii, hbody]

end DeferredQuery.Text
