/-!
# Text literals

A text literal stands between single quotes, and a single quote inside it is written twice. The
body of a literal is the homomorphic image of its text, so a literal determines the text.
-/

set_option autoImplicit false

namespace DeferredQuery.Text

/-- The body of a literal: every single quote doubled. -/
def doubleQuotes : List Char → List Char
  | [] => []
  | c :: rest => if c = '\'' then '\'' :: '\'' :: doubleQuotes rest else c :: doubleQuotes rest

def quote (text : String) : String :=
  String.ofList ('\'' :: (doubleQuotes text.toList ++ ['\'']))

@[simp] theorem doubleQuotes_nil : doubleQuotes [] = [] := rfl

@[simp] theorem doubleQuotes_append (s t : List Char) :
    doubleQuotes (s ++ t) = doubleQuotes s ++ doubleQuotes t := by
  induction s with
  | nil => rfl
  | cons c rest ih => by_cases h : c = '\'' <;> simp [doubleQuotes, h, ih]

@[simp] theorem toList_quote (text : String) :
    (quote text).toList = '\'' :: (doubleQuotes text.toList ++ ['\'']) := by
  simp [quote]

end DeferredQuery.Text
