import DeferredQuery.Part

/-!
# Condition groups

A list of conditions, each with the word that joins it to the ones before it, and the fragment in
parentheses that they make. The fragment reads from left to right: no condition binds closer than
another.
-/

set_option autoImplicit false

namespace DeferredQuery

structure Group where
  conditions : List (Combinator × String)
  deriving DecidableEq, Repr

namespace Group

def empty : Group := ⟨[]⟩

def isEmpty (g : Group) : Bool := g.conditions.isEmpty

/-- Adds a condition; one that starts drops the conditions before it. -/
def add (kind : ConditionKind) (condition : String) (g : Group) : Group :=
  match kind with
  | .start => ⟨[(.and, condition)]⟩
  | .and => ⟨g.conditions ++ [(.and, condition)]⟩
  | .or => ⟨g.conditions ++ [(.or, condition)]⟩

/-- The conditions after the first, each behind its word. -/
def restText : List (Combinator × String) → String
  | [] => ""
  | (combinator, condition) :: rest => " " ++ combinator.text ++ " " ++ condition ++ restText rest

/-- The fragment without its parentheses; the word of the first condition is not written. -/
def innerText : List (Combinator × String) → String
  | [] => ""
  | (_, condition) :: rest => condition ++ restText rest

def text (g : Group) : String := "(" ++ innerText g.conditions ++ ")"

end Group

end DeferredQuery
