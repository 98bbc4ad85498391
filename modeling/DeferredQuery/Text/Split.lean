/-!
# Cutting a text at a separator

`splitLast?` cuts at the last separator, `fields` at every one.
-/

set_option autoImplicit false

namespace DeferredQuery.Text

/-- What stands before and after the last separator, if there is one. -/
def splitLast? (sep : Char) : List Char → Option (List Char × List Char)
  | [] => none
  | c :: rest =>
    match splitLast? sep rest with
    | some (before, after) => some (c :: before, after)
    | none => if c = sep then some ([], rest) else none

/-- The pieces between the separators; there is always one more of them than of separators. -/
def fields (sep : Char) : List Char → List (List Char)
  | [] => [[]]
  | c :: rest =>
    if c = sep then [] :: fields sep rest
    else
      match fields sep rest with
      | [] => [[c]]
      | piece :: pieces => (c :: piece) :: pieces

theorem splitLast?_eq_none_iff {sep : Char} {s : List Char} :
    splitLast? sep s = none ↔ sep ∉ s := by
  induction s with
  | nil => simp [splitLast?]
  | cons c rest ih =>
    cases h : splitLast? sep rest with
    | none =>
      have hr : sep ∉ rest := ih.mp h
      by_cases hc : c = sep
      · simp [splitLast?, h, hc]
      · simp [splitLast?, h, hc, hr, Ne.symm hc]
    | some parts =>
      have hr : sep ∈ rest := Classical.byContradiction fun hn => by simp [ih.mpr hn] at h
      simp [splitLast?, h, hr]

/-- The cut is at the last separator: none follows it. -/
theorem splitLast?_append {sep : Char} {before after : List Char} (h : sep ∉ after) :
    splitLast? sep (before ++ sep :: after) = some (before, after) := by
  induction before with
  | nil => simp [splitLast?, splitLast?_eq_none_iff.mpr h]
  | cons c rest ih => simp [splitLast?, ih]

/-- A cut leaves the separator out, and is behind every other one. -/
theorem splitLast?_some {sep : Char} {s before after : List Char}
    (h : splitLast? sep s = some (before, after)) : s = before ++ sep :: after ∧ sep ∉ after := by
  induction s generalizing before with
  | nil => simp [splitLast?] at h
  | cons c rest ih =>
    simp only [splitLast?] at h
    cases hr : splitLast? sep rest with
    | some parts =>
      obtain ⟨first, last⟩ := parts
      rw [hr] at h
      cases h
      obtain ⟨rfl, hlast⟩ := ih hr
      exact ⟨rfl, hlast⟩
    | none =>
      rw [hr] at h
      by_cases hc : c = sep
      · simp only [hc, if_true, Option.some.injEq, Prod.mk.injEq] at h
        obtain ⟨rfl, rfl⟩ := h
        exact ⟨by rw [hc]; rfl, splitLast?_eq_none_iff.mp hr⟩
      · simp [hc] at h

theorem fields_ne_nil (sep : Char) (s : List Char) : fields sep s ≠ [] := by
  cases s with
  | nil => simp [fields]
  | cons c rest =>
    simp only [fields]
    split
    · simp
    · split <;> simp

end DeferredQuery.Text
