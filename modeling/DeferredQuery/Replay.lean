import DeferredQuery.Builder
import DeferredQuery.Part.Access

/-!
# Replaying parts

The parts of a query are turned into calls and given to a builder, strictly in their order. The first
part that has not the arguments of its action stops the replay; the builder has then received the
calls of the parts before it, and none of its own.
-/

set_option autoImplicit false

namespace DeferredQuery

/-- The call that a part stands for. Arguments after those of its action are not looked at. -/
def Part.call (p : Part) : Except Error Call :=
  match p.action with
  | .condition kind => do return .condition kind (← p.text 0)
  | .join kind => do
    let relation ← p.text 0
    let name ← p.text 1
    return .join kind relation name (← p.optionalText 2)
  | .select => do return .select (← p.text 0)
  | .order kind => do
    let column ← p.text 0
    let direction ← p.direction 1
    return .order kind column direction (← p.nulls 2)
  | .skip => do return .skip (← p.count 0)
  | .take => do return .take (← p.count 0)

/-- The condition that a part stands for, if it stands for one. -/
def Part.conditionCall (p : Part) : Except Error (ConditionKind × String) :=
  match p.action with
  | .condition kind => do return (kind, ← p.text 0)
  | action => .error (.invalidQuery (.notCondition action))

/-- Where a replay ended: the builder reached, and the error that stopped it, if one did. -/
structure Replayed (β : Type) where
  builder : β
  fault : Option Error

def Replayed.result {β : Type} (r : Replayed β) : Except Error β :=
  match r.fault with
  | none => .ok r.builder
  | some error => .error error

def replay {β : Type} [Builder β] : List Part → β → Replayed β
  | [], builder => ⟨builder, none⟩
  | p :: rest, builder =>
    match p.call with
    | .ok call => replay rest (Builder.receive call builder)
    | .error error => ⟨builder, some error⟩

/-- Gives the conditions of the parts to what takes conditions; a part that is no condition stops
it. -/
def replayConditions {β : Type} [ConditionSink β] : List Part → β → Replayed β
  | [], sink => ⟨sink, none⟩
  | p :: rest, sink =>
    match p.conditionCall with
    | .ok (kind, text) => replayConditions rest (ConditionSink.addCondition kind text sink)
    | .error error => ⟨sink, some error⟩

end DeferredQuery
