import DeferredQuery.Json
import DeferredQuery.Json.Spelling

/-!
# Typed values in JSON

What a document means where a text, a table, a record or one of several cases is expected. A record
is an object, whose unknown members do not count, or an array of its fields in their order, of which
the last may be missing. A case is written by its name, or as an object of one member, the name with
what the case holds.
-/

set_option autoImplicit false

namespace DeferredQuery.Json

def text? : Json → Option String
  | .text spelling => (unspell? spelling).map String.ofList
  | _ => none

/-- The members of an object, with their keys as texts. -/
def members? : Json → Option (List (String × Json))
  | .object members =>
    members.mapM fun (key, value) => (unspell? key).map fun key => (String.ofList key, value)
  | _ => none

/-- The member with a key: none, one, or, if the key is repeated, an error. -/
def member? (key : String) (members : List (String × Json)) : Option (Option Json) :=
  match members.filter (·.1 == key) with
  | [] => some none
  | [(_, value)] => some (some value)
  | _ => none

/-- The fields of a record, in the order of their names; a field that is not there is `none`. -/
def fields? (names : List String) : Json → Option (List (Option Json))
  | .array items =>
    if items.length ≤ names.length then
      some (items.map some ++ List.replicate (names.length - items.length) none)
    else none
  | document => do
    let members ← document.members?
    names.mapM (member? · members)

/-- A field that may be missing, and is then the default. -/
def fieldOr? {α : Type} (read? : Json → Option α) (default : α) : Option Json → Option α
  | none => some default
  | some document => read? document

/-- One of several cases: its name, and what it holds if that is written. -/
def case? : Json → Option (String × Option Json)
  | .text spelling => (unspell? spelling).map fun name => (String.ofList name, none)
  | document => do
    match ← document.members? with
    | [(name, value)] => some (name, some value)
    | _ => none

/-- Whether what is written for a case that holds nothing is nothing. -/
def isNothing : Option Json → Bool
  | none => true
  | some .null => true
  | some _ => false

end DeferredQuery.Json
