import DeferredQuery.Chain.Navigation

/-!
# Opening conditions

Naming a property writes the reference to it, which then waits for its comparison: as a new condition
of the statement, or at the end of the condition of a join. A relation on the way to the property is
joined first.
-/

set_option autoImplicit false

namespace DeferredQuery.Chain

/-- The last element that meets a condition, and its position. -/
def findLast? {α : Type} (p : α → Bool) : List α → Option (Nat × α)
  | [] => none
  | a :: rest =>
    match findLast? p rest with
    | some (index, found) => some (index + 1, found)
    | none => if p a then some (0, a) else none

/-- The position of the join that binds an alias, and the join. -/
def joinOf? (name : String) (q : Chain) : Option (Nat × Part) := findLast? (Part.binds name) q.parts

def setPart (index : Nat) (part : Part) (q : Chain) : Chain :=
  { q with parts := q.parts.set index part }

/-- Continues the condition of a join with a reference to a property of the active alias. -/
def continueJoin (index : Nat) (join : Part) (combinator : Combinator) (property : String)
    (q : Chain) : Chain :=
  q.setPart index (join.extendText (" " ++ combinator.text ++ " " ++ q.reference property))

/-- Writes the reference to a property to the join of the active alias, as the first of its
condition or joined by `AND` to what it has. -/
def openOnJoin (property : String) (q : Chain) : Except Error Chain :=
  match q.joinOf? q.activeAlias with
  | none => .error (.invalidConditionalJoin q.activeAlias)
  | some (index, join) =>
    if join.hasJoinCondition then .ok (q.continueJoin index join .and property)
    else .ok (q.setPart index (join.pushText (q.reference property)))

/-- Writes the reference to a property as a new condition of the statement. -/
def openFilter (kind : ConditionKind) (property : String) (q : Chain) : Chain :=
  q.push (.condition kind (q.reference property))

/-- Starts a condition: of the base entity, or after a join, of what has been joined. -/
def startCondition (path : Path) (q : Chain) : Except Error Chain :=
  match q.mode with
  | .get =>
    let opened := { q with clause := .filter, activeAlias := q.baseAlias, mode := .compare }
    .ok (((opened.walk .inner path.relations).openFilter .start path.leaf).withActive q.baseAlias)
  | _ => do
    let walked := (q.withMode .compare).walk .inner path.relations
    let opened ← { walked with clause := .on }.openOnJoin path.leaf
    return opened.withActive q.activeAlias

/-- How the relations of a continued condition are joined: `OR` must not lose the rows that have
none. -/
def joinKindOf : Combinator → JoinKind
  | .and => .inner
  | .or => .left

def conditionKindOf : Combinator → ConditionKind
  | .and => .and
  | .or => .or

/-- The join whose condition is to be continued: that of the active alias if it has one, or when the
active alias is bound by no join, the last that has one. -/
def openJoin? (q : Chain) : Option (Nat × Part) :=
  match q.clause with
  | .filter => none
  | .on =>
    match q.joinOf? q.activeAlias with
    | some (index, join) => if join.hasJoinCondition then some (index, join) else none
    | none => findLast? Part.hasJoinCondition q.parts

def continueCondition (combinator : Combinator) (path : Path) (q : Chain) : Chain :=
  let walked := (q.withMode .compare).walk (joinKindOf combinator) path.relations
  let opened :=
    match walked.openJoin? with
    | some (index, join) => walked.continueJoin index join combinator path.leaf
    | none => { walked with clause := .filter }.openFilter (conditionKindOf combinator) path.leaf
  opened.withActive q.activeAlias

end DeferredQuery.Chain
