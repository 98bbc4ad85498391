import DeferredQuery.Operand
import DeferredQuery.Options
import DeferredQuery.Query
import DeferredQuery.Statement

/-!
# Repositories

A repository hands out queries about one entity of a schema. It can only be made with an entity that
the schema has and with options that are valid, so its queries always have a base entity and plain
names.
-/

set_option autoImplicit false

namespace DeferredQuery

structure Repository where
  schema : Schema
  entity : String
  options : Options

namespace Repository

/-- The repository of an entity; the options are checked before the entity. -/
def make (schema : Schema) (entity : String) (options : Options) : Except Error Repository := do
  options.validate
  let _ ← schema.require entity
  return ⟨schema, entity, options⟩

/-- A statement about the entity under an alias. -/
def statement (base : String) (r : Repository) : Statement :=
  { schema := r.schema, entity := r.entity, baseAlias := base }

def all (r : Repository) : Query Statement := Query.new (r.statement r.options.baseAlias)

def one (r : Repository) : Query Statement := r.all.withFetch .one

def keyFilter (id : Operand) (r : Repository) : String :=
  r.options.baseAlias ++ "." ++ r.options.primaryKey ++ " = " ++ id.renderMember

/-- The query for the row with a primary key. The condition on the key stays apart from those of the
query, so that the query can be narrowed and not widened. -/
def byId (id : Operand) (r : Repository) : Query Statement :=
  (Query.new ((r.statement r.options.baseAlias).withBaseFilter (r.keyFilter id))).withFetch .one

/-- The options of a repository that was made are plain identifiers, and its entity is in the
schema. -/
theorem of_make {schema : Schema} {entity : String} {options : Options} {r : Repository}
    (h : make schema entity options = .ok r) :
    Text.isIdentifier r.options.baseAlias.toList = true ∧
      Text.isIdentifier r.options.primaryKey.toList = true ∧
      ∃ root, r.schema.require r.entity = .ok root := by
  obtain ⟨_, hvalid, h⟩ := exists_of_bind h
  obtain ⟨root, hroot, h⟩ := exists_of_bind h
  cases h
  obtain ⟨_, halias, hkey⟩ := exists_of_bind hvalid
  have hcheck : ∀ {field value : String} {u : Unit},
      Options.checkIdentifier field value = .ok u → Text.isIdentifier value.toList = true := by
    intro field value u h
    unfold Options.checkIdentifier at h
    split at h
    · assumption
    · cases h
  exact ⟨hcheck halias, hcheck hkey, root, hroot⟩

end Repository

end DeferredQuery
