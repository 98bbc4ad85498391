import DeferredQuery.Error
import DeferredQuery.Table

/-!
# Schemas

What a statement has to know about the entities: the table of each, the column of its primary key,
and its relations to other entities.
-/

set_option autoImplicit false

namespace DeferredQuery

/-- Which of two related entities holds the foreign key: the one that has the relation (many to
one, one to one) or its target (one to many). -/
inductive RelationKind where
  | manyToOne
  | oneToMany
  | oneToOne
  deriving DecidableEq, Repr

structure Relation where
  kind : RelationKind
  /-- The name of the entity that the relation leads to. -/
  target : String
  foreignKey : String
  deriving DecidableEq, Repr

structure Entity where
  name : String
  table : String
  primaryKey : String
  relations : Table Relation
  deriving DecidableEq

/-- The column of a primary key that has not been named. -/
def defaultPrimaryKey : String := "id"

namespace Entity

def new (name table : String) : Entity := ⟨name, table, defaultPrimaryKey, Table.empty⟩

def withPrimaryKey (column : String) (e : Entity) : Entity := { e with primaryKey := column }

/-- The entity with one more relation, in place of the one of its name. -/
def withRelation (kind : RelationKind) (name target foreignKey : String) (e : Entity) : Entity :=
  { e with relations := e.relations.put name ⟨kind, target, foreignKey⟩ }

def relation? (name : String) (e : Entity) : Option Relation := e.relations.get? name

/-- The entity under a key of a schema: it takes the key for its name if it has none. -/
def named (key : String) (e : Entity) : Entity := if e.name = "" then { e with name := key } else e

end Entity

/-- Entities under keys, which as a rule are their names. -/
structure Schema where
  entities : Table Entity
  deriving DecidableEq

namespace Schema

def empty : Schema := ⟨Table.empty⟩

/-- The schema with one more entity under its name, in place of the one that had it. -/
def withEntity (e : Entity) (s : Schema) : Schema := ⟨s.entities.put e.name e⟩

def entity? (key : String) (s : Schema) : Option Entity := s.entities.get? key

def require (key : String) (s : Schema) : Except Error Entity :=
  match s.entity? key with
  | some e => .ok e
  | none => .error (.invalidQuery (.unknownEntity key))

end Schema

end DeferredQuery
