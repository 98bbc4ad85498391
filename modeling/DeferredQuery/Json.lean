/-!
# JSON documents

A document keeps every number and every string by its spelling. What a spelling means is asked only
of the values that are used: a number may be wanted as an integer, a float or a decimal, and a value
that nobody asks for need not mean anything. Members keep their order, and a key may occur twice.
-/

set_option autoImplicit false

namespace DeferredQuery

/-- The spelling of a number: the digits before the point, after it, and of the exponent. -/
structure Numeral where
  negative : Bool
  whole : List Char
  fraction : Option (List Char)
  /-- Whether the exponent is negative, and its digits. -/
  exponent : Option (Bool × List Char)
  deriving DecidableEq, Repr

/-- A document. Strings and keys are what stands between the quotes. -/
inductive Json where
  | null
  | bool (value : Bool)
  | number (numeral : Numeral)
  | text (spelling : List Char)
  | array (items : List Json)
  | object (members : List (List Char × Json))
  deriving Repr

end DeferredQuery
