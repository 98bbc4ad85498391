import DeferredQuery.Error
import DeferredQuery.Json.Reader
import DeferredQuery.Json.Record
import DeferredQuery.Schema
import DeferredQuery.Text.Identifier

/-!
# The options of a repository

The alias of the base entity and the column of its primary key. Both are written into statements as
they are, so they have to be plain identifiers.
-/

set_option autoImplicit false

namespace DeferredQuery

structure Options where
  baseAlias : String := "entity"
  primaryKey : String := defaultPrimaryKey
  deriving DecidableEq, Repr

namespace Options

def withBaseAlias (name : String) (o : Options) : Options := { o with baseAlias := name }

def withPrimaryKey (column : String) (o : Options) : Options := { o with primaryKey := column }

/-- Refuses a value that is no plain identifier. -/
def checkIdentifier (field value : String) : Except Error Unit :=
  if Text.isIdentifier value.toList then .ok ()
  else .error (.configuration (.notIdentifier field value))

/-- Checks both options, the alias first. -/
def validate (o : Options) : Except Error Unit := do
  checkIdentifier "alias" o.baseAlias
  checkIdentifier "primary_key" o.primaryKey

def ofJson? (document : Json) : Option Options := do
  match ← document.fields? ["alias", "primary_key"] with
  | [baseAlias, primaryKey] =>
    return ⟨← Json.fieldOr? Json.text? ({} : Options).baseAlias baseAlias,
      ← Json.fieldOr? Json.text? ({} : Options).primaryKey primaryKey⟩
  | _ => none

def read (text : String) : Except Error Options :=
  match Json.read? text >>= ofJson? with
  | none => .error .serialization
  | some options => do
    options.validate
    return options

end Options

end DeferredQuery
