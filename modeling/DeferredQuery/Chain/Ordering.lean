import DeferredQuery.Chain.Navigation

/-!
# Selected and ordering columns

A column is named by a path. The relations of the path are joined, and otherwise the chain stays
where it is: the active alias and what the last call left to be done do not change.
-/

set_option autoImplicit false

namespace DeferredQuery.Chain

/-- The column of a path, and the chain with its relations joined. -/
def qualify (path : Path) (q : Chain) : String × Chain :=
  let walked := q.walk .inner path.relations
  (walked.reference path.leaf, (walked.withActive q.activeAlias).withMode q.mode)

/-- Selects the column that the query gives as a subquery: of the base entity, or after a join, of
what has been joined. -/
def select (path : Path) (q : Chain) : Chain :=
  let start := if q.mode = .get then q.useBase else q
  let (column, walked) := start.qualify path
  { walked with selection := some column, activeAlias := q.activeAlias }

def orderBy (kind : OrderKind) (direction : SortDirection) (nulls : Option NullsOrder)
    (path : Path) (q : Chain) : Chain :=
  let (column, walked) := q.qualify path
  walked.push (.order kind column direction nulls)

end DeferredQuery.Chain
