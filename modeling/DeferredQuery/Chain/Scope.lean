import DeferredQuery.Chain.Navigation
import DeferredQuery.Group
import DeferredQuery.Replay

/-!
# Groups of conditions

A group of conditions is recorded by a chain of its own, the scope, which starts at the base entity
and knows the aliases joined so far. When the scope is merged, its conditions become one condition in
parentheses; its other parts cannot stand in parentheses, and are recorded before it.
-/

set_option autoImplicit false

namespace DeferredQuery.Chain

/-- The chain that records a group of conditions of this chain. -/
def scope (q : Chain) : Chain := within q.history q.baseAlias

/-- The parts of a scope that become one condition. -/
def conditionParts (q : Chain) : List Part := q.parts.filter (·.action.isCondition)

/-- The parts of a scope that stand outside the parentheses. -/
def otherParts (q : Chain) : List Part := q.parts.filter (!·.action.isCondition)

/-- The conditions of a scope as one part, if there are any. -/
def groupPart? (kind : ConditionKind) (scope : Chain) : Except Error (Option Part) :=
  if scope.conditionParts = [] then .ok none
  else
    match (replayConditions scope.conditionParts Group.empty).result with
    | .ok group => .ok (some (.condition kind group.text))
    | .error error => .error error

def merge (kind : ConditionKind) (q scope : Chain) : Except Error Chain :=
  match scope.groupPart? kind with
  | .error error => .error error
  | .ok group =>
    .ok { q with
      history := scope.history
      parts := q.parts ++ scope.otherParts ++ group.toList
      mode := .get }

end DeferredQuery.Chain
