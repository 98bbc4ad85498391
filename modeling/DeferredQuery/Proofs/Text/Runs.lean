import DeferredQuery.Text.Blank
import Mathlib.Data.List.TakeWhile

/-!
# Runs of characters

Readers take the longest run of characters of some class: letters, digits, blanks. A run that was
written is taken as a whole, and what was written behind it is left, if it does not go on with a
character of the class.
-/

set_option autoImplicit false

namespace DeferredQuery.Text

variable {p : Char → Bool} {run s : List Char}

/-- The text does not go on with a character of the class. -/
def Stops (p : Char → Bool) (s : List Char) : Prop := ∀ c rest, s = c :: rest → p c = false

theorem stops_nil : Stops p [] := nofun

theorem stops_cons {c : Char} (h : p c = false) : Stops p (c :: s) := by
  intro d rest heq
  cases heq
  exact h

theorem stops_dropWhile (p : Char → Bool) (s : List Char) : Stops p (s.dropWhile p) := by
  intro c rest h
  have hhead := List.head?_dropWhile_not p s
  rw [h] at hhead
  simpa using hhead

theorem takeWhile_run (hrun : ∀ c ∈ run, p c = true) (hs : Stops p s) :
    (run ++ s).takeWhile p = run := by
  rw [List.takeWhile_append_of_pos hrun]
  cases s with
  | nil => simp
  | cons c s => simp [hs c s rfl]

theorem dropWhile_run (hrun : ∀ c ∈ run, p c = true) (hs : Stops p s) :
    (run ++ s).dropWhile p = s := by
  rw [List.dropWhile_append_of_pos hrun]
  cases s with
  | nil => rfl
  | cons c s => simp [hs c s rfl]

/-- The visible characters of ASCII are between the blanks. -/
theorem isBlank_of_visible {c : Char} (h : 0x21 ≤ c.toNat ∧ c.toNat < 0x80) :
    isBlank c = false := by
  rw [← Bool.not_eq_true, isBlank, Ranges.holds_iff]
  simp [blankRanges]
  omega

end DeferredQuery.Text
