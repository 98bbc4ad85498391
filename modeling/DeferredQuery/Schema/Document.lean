import DeferredQuery.Json.Reader
import DeferredQuery.Json.Record
import DeferredQuery.Json.Writer
import DeferredQuery.Schema

/-!
# Schemas as JSON

A schema is an object of entities. An entity has the fields `name`, `table`, `primary_key` and
`relations`, of which only the table has to be there; one without a name is named by its key. A
relation has `kind`, `target` and `foreign_key`.
-/

set_option autoImplicit false

namespace DeferredQuery

namespace RelationKind

def jsonName : RelationKind → String
  | .manyToOne => "many_to_one"
  | .oneToMany => "one_to_many"
  | .oneToOne => "one_to_one"

def ofJsonName? (name : String) : Option RelationKind :=
  [manyToOne, oneToMany, oneToOne].find? (·.jsonName == name)

def ofJson? (document : Json) : Option RelationKind := do
  let (name, held) ← document.case?
  if Json.isNothing held then ofJsonName? name else none

end RelationKind

namespace Relation

def toJson (r : Relation) : Json :=
  .ofMembers [("kind", .ofText r.kind.jsonName), ("target", .ofText r.target),
    ("foreign_key", .ofText r.foreignKey)]

def ofJson? (document : Json) : Option Relation := do
  match ← document.fields? ["kind", "target", "foreign_key"] with
  | [some kind, some target, some foreignKey] =>
    return ⟨← RelationKind.ofJson? kind, ← target.text?, ← foreignKey.text?⟩
  | _ => none

end Relation

/-- A table as an object, its values written by `write`. -/
def Table.toJson {α : Type} (write : α → Json) (t : Table α) : Json :=
  .ofMembers (t.entries.map fun entry => (entry.1, write entry.2))

/-- Reads an object as a table; of a repeated key the last value counts. -/
def Table.ofJson? {α : Type} (read? : Json → Option α) (document : Json) : Option (Table α) := do
  let entries ← (← document.members?).mapM fun (key, value) => (read? value).map fun value =>
    (key, value)
  return Table.ofList entries

namespace Entity

def toJson (e : Entity) : Json :=
  .ofMembers [("name", .ofText e.name), ("table", .ofText e.table),
    ("primary_key", .ofText e.primaryKey), ("relations", e.relations.toJson Relation.toJson)]

def ofJson? (document : Json) : Option Entity := do
  match ← document.fields? ["name", "table", "primary_key", "relations"] with
  | [name, some table, primaryKey, relations] =>
    return ⟨← Json.fieldOr? Json.text? "" name, ← table.text?,
      ← Json.fieldOr? Json.text? defaultPrimaryKey primaryKey,
      ← Json.fieldOr? (Table.ofJson? Relation.ofJson?) Table.empty relations⟩
  | _ => none

end Entity

namespace Schema

def toJson (s : Schema) : Json := s.entities.toJson Entity.toJson

def ofJson? (document : Json) : Option Schema := do
  return ⟨(← Table.ofJson? Entity.ofJson? document).mapEntries Entity.named⟩

def write (s : Schema) : String := s.toJson.write

def read (text : String) : Except Error Schema :=
  match Json.read? text >>= ofJson? with
  | some schema => .ok schema
  | none => .error .serialization

end Schema

end DeferredQuery
