import DeferredQuery.Keyword

/-!
# Parts

A query is recorded as a list of parts, each one deferred call on a builder: what is to be done, and
the arguments of the call in order. The arguments are not typed by the action, so that a part can be
looked at, stored and completed without knowing what it does; `DeferredQuery.Part.Access` checks them
when they are used.
-/

set_option autoImplicit false

namespace DeferredQuery

/-- What a condition does with the conditions before it: it replaces them, or is joined to them. -/
inductive ConditionKind where
  | start
  | and
  | or
  deriving DecidableEq, Repr

inductive JoinKind where
  | inner
  | left
  /-- A left join whose columns are loaded too. -/
  | leftSelect
  deriving DecidableEq, Repr

/-- What an ordering does with the orderings before it: it replaces them, or comes after them. -/
inductive OrderKind where
  | start
  | next
  deriving DecidableEq, Repr

/-- What a part asks of a builder. -/
inductive Action where
  | condition (kind : ConditionKind)
  | join (kind : JoinKind)
  | select
  | order (kind : OrderKind)
  | skip
  | take
  deriving DecidableEq, Repr

/-- One argument of a part. -/
inductive Argument where
  | text (value : String)
  | count (value : Nat)
  | direction (value : SortDirection)
  | nulls (value : NullsOrder)
  deriving DecidableEq, Repr

structure Part where
  action : Action
  arguments : List Argument
  deriving DecidableEq, Repr

def Action.isCondition : Action → Bool
  | .condition _ => true
  | _ => false

def Action.isJoin : Action → Bool
  | .join _ => true
  | _ => false

def Action.name : Action → String
  | .condition .start => "Where"
  | .condition .and => "AndWhere"
  | .condition .or => "OrWhere"
  | .join .inner => "InnerJoin"
  | .join .left => "LeftJoin"
  | .join .leftSelect => "LeftJoinAndSelect"
  | .select => "Select"
  | .order .start => "OrderBy"
  | .order .next => "AddOrderBy"
  | .skip => "Skip"
  | .take => "Take"

namespace Part

/-! ## The parts that a chain records -/

def condition (kind : ConditionKind) (text : String) : Part := ⟨.condition kind, [.text text]⟩

/-- A join of a relation under an alias, without a condition of its own yet. -/
def join (kind : JoinKind) (relation name : String) : Part :=
  ⟨.join kind, [.text relation, .text name]⟩

/-- A join of a relation under an alias, with the condition written so far. -/
def joinOn (kind : JoinKind) (relation name condition : String) : Part :=
  ⟨.join kind, [.text relation, .text name, .text condition]⟩

def select (column : String) : Part := ⟨.select, [.text column]⟩

def order (kind : OrderKind) (column : String) (direction : SortDirection)
    (nulls : Option NullsOrder) : Part :=
  ⟨.order kind, [.text column, .direction direction] ++ nulls.toList.map .nulls⟩

def skip (count : Nat) : Part := ⟨.skip, [.count count]⟩

def take (count : Nat) : Part := ⟨.take, [.count count]⟩

/-! ## What a part binds and holds -/

/-- The second argument, if it is a text: the alias that a join binds. -/
def boundAlias? (p : Part) : Option String :=
  match p.arguments with
  | _ :: .text name :: _ => some name
  | _ => none

/-- Whether the part is a join that carries a condition. -/
def hasJoinCondition (p : Part) : Bool :=
  match p.action, p.arguments with
  | .join _, [_, _, .text _] => true
  | _, _ => false

/-- Whether the part is the join that binds the name as an alias. -/
def binds (name : String) (p : Part) : Bool :=
  p.action.isJoin && p.boundAlias? == some name

end Part

end DeferredQuery
