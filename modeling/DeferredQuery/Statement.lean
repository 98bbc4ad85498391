import DeferredQuery.Builder
import DeferredQuery.Schema
import DeferredQuery.Text.Split

/-!
# Statements

The builder that writes a `SELECT` statement. A join comes as `alias.relation`, and the schema says
what table that is and which columns are equal; a join that comes as a bare entity carries its whole
condition itself. The text is put together from its clauses, so that what is sent for one row, for
all rows and for their number differs only where it has to.
-/

set_option autoImplicit false

namespace DeferredQuery

/-- A join as it was asked for. -/
structure Join where
  kind : JoinKind
  relation : String
  /-- The alias that the join binds. -/
  name : String
  condition : Option String
  deriving DecidableEq, Repr

/-- A statement about one entity, as far as it has been built. -/
structure Statement where
  schema : Schema
  entity : String
  baseAlias : String
  joins : List Join := []
  selection : Option String := none
  conditions : Group := Group.empty
  /-- A condition that is joined to the others and that no other replaces. -/
  baseFilter : Option String := none
  orders : List String := []
  offset : Option Nat := none
  limit : Option Nat := none
  deriving DecidableEq

def JoinKind.keyword : JoinKind → String
  | .inner => "INNER JOIN"
  | .left | .leftSelect => "LEFT JOIN"

/-- The equation of a relation between the entity `parent` under one alias and `target` under
another. -/
def Relation.equation (r : Relation) (parentAlias : String) (parent : Entity)
    (targetAlias : String) (target : Entity) : String :=
  match r.kind with
  | .manyToOne | .oneToOne =>
    targetAlias ++ "." ++ target.primaryKey ++ " = " ++ parentAlias ++ "." ++ r.foreignKey
  | .oneToMany =>
    targetAlias ++ "." ++ r.foreignKey ++ " = " ++ parentAlias ++ "." ++ parent.primaryKey

/-- The entities that the aliases of a statement stand for, the latest join first. -/
abbrev Scope := List (String × Entity)

namespace Join

/-- The alias and the relation of a reference, which are divided by its last point. -/
def reference? (j : Join) : Option (String × String) :=
  (Text.splitLast? '.' j.relation.toList).map fun (parent, relation) =>
    (String.ofList parent, String.ofList relation)

/-- The entity that is joined, and the condition of the join. -/
def resolve (schema : Schema) (scope : Scope) (j : Join) : Except Error (Entity × String) :=
  match j.reference? with
  | some (parentAlias, name) =>
    match scope.lookup parentAlias with
    | none => .error (.invalidQuery (.unknownAlias j.relation parentAlias))
    | some parent =>
      match parent.relation? name with
      | none => .error (.invalidQuery (.unknownRelation parent.name name))
      | some relation =>
        match schema.require relation.target with
        | .error error => .error error
        | .ok target =>
          let equation := relation.equation parentAlias parent j.name target
          match j.condition with
          | none => .ok (target, equation)
          | some condition => .ok (target, equation ++ " AND (" ++ condition ++ ")")
  | none =>
    match schema.require j.relation with
    | .error error => .error error
    | .ok target => .ok (target, j.condition.getD Keyword.always)

/-- The clause of a join whose target and condition are known. -/
def clause (j : Join) (target : Entity) (on : String) : String :=
  " " ++ j.kind.keyword ++ " " ++ target.table ++ " " ++ j.name ++ " ON " ++ on

/-- The clauses of the joins, each of which may refer to the aliases before it. -/
def clauses (schema : Schema) : Scope → List Join → Except Error String
  | _, [] => .ok ""
  | scope, j :: rest =>
    match j.resolve schema scope with
    | .error error => .error error
    | .ok (target, on) =>
      match clauses schema ((j.name, target) :: scope) rest with
      | .error error => .error error
      | .ok text => .ok (j.clause target on ++ text)

end Join

namespace Statement

/-! ## Building -/

def receive (call : Call) (s : Statement) : Statement :=
  match call with
  | .condition kind text => { s with conditions := s.conditions.add kind text }
  | .join kind relation name condition =>
    { s with joins := s.joins ++ [⟨kind, relation, name, condition⟩] }
  | .select column => { s with selection := some column }
  | .order .start column direction nulls => { s with orders := [orderText column direction nulls] }
  | .order .next column direction nulls =>
    { s with orders := s.orders ++ [orderText column direction nulls] }
  | .skip count => { s with offset := some count }
  | .take count => { s with limit := some count }

def withBaseFilter (condition : String) (s : Statement) : Statement :=
  { s with baseFilter := some condition }

/-! ## Clauses -/

def rowColumns (s : Statement) : String := s.selection.getD (s.baseAlias ++ ".*")

/-- The column that counts rows, each base entity once. -/
def countColumn (s : Statement) (base : Entity) : String :=
  "COUNT(DISTINCT " ++ s.baseAlias ++ "." ++ base.primaryKey ++ ")"

/-- The conditions that all have to hold. -/
def filters (s : Statement) : List String :=
  s.baseFilter.toList ++ if s.conditions.isEmpty then [] else [s.conditions.text]

/-- A clause of a list of items, or nothing if there is no item. -/
def listClause (keyword separator : String) (items : List String) : String :=
  if items.isEmpty then "" else keyword ++ String.intercalate separator items

def whereClause (s : Statement) : String := listClause " WHERE " " AND " s.filters

def orderClause (s : Statement) : String := listClause " ORDER BY " ", " s.orders

/-- A clause of a count, or nothing if there is none. -/
def countClause (keyword : String) : Option Nat → String
  | none => ""
  | some count => keyword ++ toString count

def limitClause (limit : Option Nat) : String := countClause " LIMIT " limit

def offsetClause (s : Statement) : String := countClause " OFFSET " s.offset

/-- The tables, and the rows of them that are meant. -/
def source (s : Statement) (base : Entity) : Except Error String :=
  match Join.clauses s.schema [(s.baseAlias, base)] s.joins with
  | .error error => .error error
  | .ok joins => .ok (" FROM " ++ base.table ++ " " ++ s.baseAlias ++ joins ++ s.whereClause)

/-- The text of the statement: for one row it has a limit, and for the number of rows it has neither
order nor bounds. -/
def text (purpose : Purpose) (s : Statement) : Except Error String :=
  match s.schema.require s.entity with
  | .error error => .error error
  | .ok base =>
    match s.source base with
    | .error error => .error error
    | .ok source =>
      match purpose with
      | .count => .ok ("SELECT " ++ s.countColumn base ++ source)
      | .display | .many =>
        .ok ("SELECT " ++ s.rowColumns ++ source ++ s.orderClause ++ limitClause s.limit
          ++ s.offsetClause)
      | .one =>
        .ok ("SELECT " ++ s.rowColumns ++ source ++ s.orderClause
          ++ limitClause (some (s.limit.getD 1)) ++ s.offsetClause)

end Statement

instance : Builder Statement where
  baseAlias := Statement.baseAlias
  receive := Statement.receive
  text := Statement.text

end DeferredQuery
