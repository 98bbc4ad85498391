import DeferredQuery.Part.Access
import DeferredQuery.Path

/-!
# Chains

A chain is what the calls on a query have recorded: the parts, and the little that decides where the
next call goes. There is the alias that the next step starts from, whether a condition is awaited,
and whether conditions go to the statement or to a join. The aliases that have been joined are kept
apart from the parts, because a group of conditions knows those of the chain around it and has not
their parts.
-/

set_option autoImplicit false

namespace DeferredQuery

/-- What the last call has left to be done. -/
inductive Mode where
  /-- Nothing: the next condition is about the base entity. -/
  | get
  /-- A relation has been joined, and the next condition is about it. -/
  | join
  /-- A property has been named, and waits for its comparison. -/
  | compare
  deriving DecidableEq, Repr

/-- Where conditions are being written: to the statement, or to the join of the active alias. -/
inductive Clause where
  | filter
  | on
  deriving DecidableEq, Repr

structure Chain where
  /-- The alias of the base entity. -/
  baseAlias : String
  /-- The alias that the next step starts from. -/
  activeAlias : String
  mode : Mode
  clause : Clause
  parts : List Part
  /-- The aliases that have been joined, here or in the chain around this one. -/
  history : List String
  /-- The column that a subquery gives. -/
  selection : Option String
  deriving DecidableEq, Repr

namespace Chain

/-- A chain without parts, in which the given aliases are known. -/
def within (history : List String) (base : String) : Chain where
  baseAlias := base
  activeAlias := base
  mode := .get
  clause := .filter
  parts := []
  history := history
  selection := none

def start (base : String) : Chain := within [] base

def push (part : Part) (q : Chain) : Chain := { q with parts := q.parts ++ [part] }

def withActive (name : String) (q : Chain) : Chain := { q with activeAlias := name }

def withMode (mode : Mode) (q : Chain) : Chain := { q with mode := mode }

def reference (property : String) (q : Chain) : String := q.activeAlias ++ "." ++ property

/-- Leaves the join, so that conditions are about the base entity again. -/
def reset (q : Chain) : Chain :=
  { q with activeAlias := q.baseAlias, clause := .filter, mode := .get }

/-- Goes back to the base entity without leaving the join whose condition is being written. -/
def useBase (q : Chain) : Chain := q.withActive q.baseAlias

/-- Leaves out this many rows; none is no part. -/
def skip (count : Nat) (q : Chain) : Chain := if 0 < count then q.push (.skip count) else q

/-- Takes at most this many rows; none is no part. -/
def take (count : Nat) (q : Chain) : Chain := if 0 < count then q.push (.take count) else q

end Chain

end DeferredQuery
