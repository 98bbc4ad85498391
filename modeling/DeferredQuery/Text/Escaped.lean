import DeferredQuery.Text.UnprintableTable

/-!
# Escaped text

How a text is shown inside an error message: between double quotes, with escapes for the double
quote, the backslash, the usual control characters and every character that would not be seen.
-/

set_option autoImplicit false

namespace DeferredQuery.Text

/-- The scalar value of a character in hexadecimal, between braces. -/
def scalarEscape (c : Char) : List Char :=
  ['\\', 'u', '\x7b'] ++ Nat.toDigits 16 c.toNat ++ ['\x7d']

def escapeChar (c : Char) : List Char :=
  if c = '\x00' then ['\\', '0']
  else if c = '\t' then ['\\', 't']
  else if c = '\r' then ['\\', 'r']
  else if c = '\n' then ['\\', 'n']
  else if c = '\\' || c = '"' then ['\\', c]
  else if unprintableRanges.holds c then scalarEscape c
  else [c]

def escaped (text : String) : String :=
  String.ofList ('"' :: (text.toList.flatMap escapeChar ++ ['"']))

end DeferredQuery.Text
