import DeferredQuery.Error
import DeferredQuery.Group

/-!
# Builders

A builder is what a query is replayed onto: it takes calls one after the other and at the end gives
the text of a query. The calls are data, so what a builder was asked to do can be written down and
compared. A group of conditions takes the condition calls only.
-/

set_option autoImplicit false

namespace DeferredQuery

/-- One call on a builder. A join has a relation, written as `alias.relation`, or an entity, and the
name that it binds as an alias. -/
inductive Call where
  | condition (kind : ConditionKind) (text : String)
  | join (kind : JoinKind) (relation name : String) (condition : Option String)
  | select (column : String)
  | order (kind : OrderKind) (column : String) (direction : SortDirection)
      (nulls : Option NullsOrder)
  | skip (count : Nat)
  | take (count : Nat)
  deriving DecidableEq, Repr

/-- What a query text is asked for: to be shown, or to be sent for one row, for all rows, or for
their number. -/
inductive Purpose where
  | display
  | one
  | many
  | count
  deriving DecidableEq, Repr

/-- What takes conditions. -/
class ConditionSink (β : Type) where
  addCondition : ConditionKind → String → β → β

/-- What takes every call and gives query texts. -/
class Builder (β : Type) where
  /-- The alias of the entity that the query is about. -/
  baseAlias : β → String
  receive : Call → β → β
  /-- The text of the query for a purpose. -/
  text : Purpose → β → Except Error String

instance Builder.toConditionSink {β : Type} [Builder β] : ConditionSink β where
  addCondition kind text := Builder.receive (.condition kind text)

instance : ConditionSink Group where
  addCondition := Group.add

/-- Of two kinds of builder, one or the other. -/
instance {α β : Type} [Builder α] [Builder β] : Builder (α ⊕ β) where
  baseAlias := Sum.elim Builder.baseAlias Builder.baseAlias
  receive call := Sum.map (Builder.receive call) (Builder.receive call)
  text purpose := Sum.elim (Builder.text purpose) (Builder.text purpose)

def Builder.receiveAll {β : Type} [Builder β] (calls : List Call) (builder : β) : β :=
  calls.foldl (fun builder call => Builder.receive call builder) builder

end DeferredQuery
