import DeferredQuery.Chain.Comparison
import DeferredQuery.Chain.Ordering
import DeferredQuery.Query

/-!
# Steps

The calls on a chain as data. A chain is reached from another if a list of steps leads to it; what
holds of every chain that can be reached is shown by going over the steps. A group holds the steps of
its scope, and a subquery its builder and the steps on it. Calls that differ in a kind or a direction
only are one constructor, and each has its own name below.
-/

set_option autoImplicit false

namespace DeferredQuery

/-- One call on a chain. -/
inductive Step (β : Type) where
  | startCondition (path : Path)
  | continueCondition (combinator : Combinator) (path : Path)
  | compare (comparison : Comparison)
  | select (path : Path)
  | orderBy (kind : OrderKind) (direction : SortDirection) (nulls : Option NullsOrder) (path : Path)
  | skip (count : Nat)
  | take (count : Nat)
  | reset
  | useBase
  | navigate (kind : JoinKind) (anchor : Chain.Anchor) (target : Target)
  | joinEntity (entity : String)
  | group (kind : ConditionKind) (steps : List (Step β))
  | subquery (negated : Bool) (builder : β) (steps : List (Step β))

namespace Step

variable {β : Type}

/-! ## Relations -/

def join (target : Target) : Step β := .navigate .inner .base target

def joinAlso (target : Target) : Step β := .navigate .left .base target

/-- Joins a relation of the base entity whose rows are to be loaded as well. -/
def including (target : Target) : Step β := .navigate .leftSelect .base target

def thenJoin (target : Target) : Step β := .navigate .inner .active target

def thenJoinAlso (target : Target) : Step β := .navigate .left .active target

/-- Joins a relation of the active alias whose rows are to be loaded as well. -/
def thenIncluding (target : Target) : Step β := .navigate .leftSelect .active target

/-! ## Conditions and groups -/

def andCondition (path : Path) : Step β := .continueCondition .and path

def orCondition (path : Path) : Step β := .continueCondition .or path

def startGroup (steps : List (Step β)) : Step β := .group .start steps

def andGroup (steps : List (Step β)) : Step β := .group .and steps

def orGroup (steps : List (Step β)) : Step β := .group .or steps

def inSelected (builder : β) (steps : List (Step β)) : Step β := .subquery false builder steps

def notInSelected (builder : β) (steps : List (Step β)) : Step β := .subquery true builder steps

/-! ## Orderings

Where nothing is said of the nulls, their place is left to the database. -/

def orderAscending (nulls : Option NullsOrder) (path : Path) : Step β :=
  .orderBy .start .ascending nulls path

def orderDescending (nulls : Option NullsOrder) (path : Path) : Step β :=
  .orderBy .start .descending nulls path

def thenAscending (nulls : Option NullsOrder) (path : Path) : Step β :=
  .orderBy .next .ascending nulls path

def thenDescending (nulls : Option NullsOrder) (path : Path) : Step β :=
  .orderBy .next .descending nulls path

/-! ## Runs -/

variable [Builder β]

mutual

def run : Step β → Chain → Except Error Chain
  | .startCondition path, q => q.startCondition path
  | .continueCondition combinator path, q => .ok (q.continueCondition combinator path)
  | .compare comparison, q => q.compare comparison
  | .select path, q => .ok (q.select path)
  | .orderBy kind direction nulls path, q => .ok (q.orderBy kind direction nulls path)
  | .skip count, q => .ok (q.skip count)
  | .take count, q => .ok (q.take count)
  | .reset, q => .ok q.reset
  | .useBase, q => .ok q.useBase
  | .navigate kind anchor target, q => .ok (q.navigate kind anchor target)
  | .joinEntity entity, q => .ok (q.joinEntity entity)
  | .group kind steps, q =>
    match runAll steps q.scope with
    | .ok scope => q.merge kind scope
    | .error error => .error error
  | .subquery negated builder steps, q =>
    match runAll steps (Chain.start (Builder.baseAlias builder)) with
    | .ok inner =>
      match (Query.mk builder inner .many).subqueryText with
      | .ok text => q.compareSubquery negated text
      | .error error => .error error
    | .error error => .error error

/-- The chain after a list of steps, of which the first that fails is the last. -/
def runAll : List (Step β) → Chain → Except Error Chain
  | [], q => .ok q
  | step :: rest, q =>
    match run step q with
    | .ok next => runAll rest next
    | .error error => .error error

end

end Step

end DeferredQuery
