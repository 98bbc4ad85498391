import DeferredQuery.Chain

/-!
# Navigation

Going over a relation joins it under an alias made of the alias it starts from and its name. A
relation that has been joined under that alias is not joined again; the alias only becomes the
active one. So a path costs the joins that are missing, and no more.
-/

set_option autoImplicit false

namespace DeferredQuery.Chain

/-- The alias of a relation that starts from another alias. -/
def stepAlias (parent relation : String) : String := parent ++ "_" ++ relation

/-- The reference by which a join names a relation. -/
def stepRelation (parent relation : String) : String := parent ++ "." ++ relation

/-- A join does not take away that a property waits for its comparison. -/
def enterJoin (q : Chain) : Chain := if q.mode = .compare then q else q.withMode .join

/-- Makes an alias known and active, with the part that binds it unless it is known. -/
def bind (name : String) (part : Part) (q : Chain) : Chain :=
  if name ∈ q.history then q.withActive name
  else { q with parts := q.parts ++ [part], history := q.history ++ [name], activeAlias := name }

def step (kind : JoinKind) (parent relation : String) (q : Chain) : Chain :=
  let name := stepAlias parent relation
  q.enterJoin.bind name (.join kind (stepRelation parent relation) name)

/-- Goes over relations, the first from an alias and each other from the one before. -/
def walkFrom (kind : JoinKind) : String → List String → Chain → Chain
  | _, [], q => q
  | parent, relation :: rest, q =>
    walkFrom kind (stepAlias parent relation) rest (q.step kind parent relation)

def walk (kind : JoinKind) (relations : List String) (q : Chain) : Chain :=
  q.walkFrom kind q.activeAlias relations

/-- Where a navigation starts: at the base entity, or at the active alias. -/
inductive Anchor where
  | base
  | active
  deriving DecidableEq, Repr

def anchorAlias (anchor : Anchor) (q : Chain) : String :=
  match anchor with
  | .base => q.baseAlias
  | .active => q.activeAlias

/-- Joins a target. A target without relations is reached at once, wherever it would start. -/
def navigate (kind : JoinKind) (anchor : Anchor) (target : Target) (q : Chain) : Chain :=
  q.walkFrom kind (q.anchorAlias anchor) target.relations

/-- Joins an entity by its name, which is also its alias. Its rows are not related to the others
until a condition relates them. -/
def joinEntity (entity : String) (q : Chain) : Chain :=
  (q.bind entity (.joinOn .inner entity entity Keyword.always)).enterJoin

end DeferredQuery.Chain
