import DeferredQuery.Json
import DeferredQuery.Json.Spelling
import DeferredQuery.Number.Digits

/-!
# Writing JSON documents

A document is written without blanks, its members in their order.
-/

set_option autoImplicit false

namespace DeferredQuery

def Numeral.toChars (n : Numeral) : List Char :=
  (if n.negative then ['-'] else []) ++ n.whole ++
    (match n.fraction with
      | none => []
      | some ds => '.' :: ds) ++
    match n.exponent with
    | none => []
    | some (negative, ds) => 'e' :: (if negative then '-' :: ds else ds)

namespace Json

def ofText (text : String) : Json := .text (spell text.toList)

def ofInt (n : Int) : Json := .number ⟨n < 0, Number.digits n.natAbs, none, none⟩

def ofMembers (members : List (String × Json)) : Json :=
  .object (members.map fun (key, value) => (spell key.toList, value))

def quoted (spelling : List Char) : List Char := '"' :: (spelling ++ ['"'])

mutual

def toChars : Json → List Char
  | .null => ['n', 'u', 'l', 'l']
  | .bool true => ['t', 'r', 'u', 'e']
  | .bool false => ['f', 'a', 'l', 's', 'e']
  | .number numeral => numeral.toChars
  | .text spelling => quoted spelling
  | .array items => '[' :: (itemChars items ++ [']'])
  | .object members => '\x7b' :: (memberChars members ++ ['\x7d'])

def itemChars : List Json → List Char
  | [] => []
  | [item] => toChars item
  | item :: items => toChars item ++ ',' :: itemChars items

/-- The members of an object, with commas between them. -/
def memberChars : List (List Char × Json) → List Char
  | [] => []
  | [(key, value)] => quoted key ++ ':' :: toChars value
  | (key, value) :: members => quoted key ++ ':' :: toChars value ++ ',' :: memberChars members

end

def write (document : Json) : String := String.ofList document.toChars

end Json

end DeferredQuery
