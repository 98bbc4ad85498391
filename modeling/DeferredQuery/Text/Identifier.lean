/-!
# Plain identifiers

Names that are written into a statement unquoted: an ASCII letter or underscore, then ASCII
letters, digits and underscores.
-/

set_option autoImplicit false

namespace DeferredQuery.Text

/-- ASCII letters, digits and the underscore. -/
def isWordChar (c : Char) : Bool := c.isAlphanum || c == '_'

/-- A word character that is no digit. -/
def isWordStart (c : Char) : Bool := c.isAlpha || c == '_'

def isIdentifier : List Char → Bool
  | [] => false
  | c :: rest => isWordStart c && rest.all isWordChar

theorem isWordChar_of_isWordStart {c : Char} (h : isWordStart c = true) : isWordChar c = true := by
  simp only [isWordStart, Bool.or_eq_true] at h
  rcases h with h | h <;> simp [isWordChar, Char.isAlphanum, h]

theorem all_isWordChar_of_isIdentifier {s : List Char} (h : isIdentifier s = true) :
    s.all isWordChar = true := by
  cases s with
  | nil => rfl
  | cons c rest =>
    simp only [isIdentifier, Bool.and_eq_true] at h
    simpa [isWordChar_of_isWordStart h.1] using h.2

end DeferredQuery.Text
