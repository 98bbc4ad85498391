/-!
# The words of a statement

The words and marks that conditions, joins and orderings are written with.
-/

set_option autoImplicit false

namespace DeferredQuery

/-- A comparison operator, by its text. Any text may serve as an operator; the usual ones have
names. -/
structure Operator where
  text : String
  deriving DecidableEq, Repr

namespace Operator

def eq : Operator := ⟨"="⟩
def ne : Operator := ⟨"!="⟩
def gt : Operator := ⟨">"⟩
def ge : Operator := ⟨">="⟩
def lt : Operator := ⟨"<"⟩
def le : Operator := ⟨"<="⟩
def like : Operator := ⟨"LIKE"⟩
def isIn : Operator := ⟨"IN"⟩
def notIn : Operator := ⟨"NOT IN"⟩
def is : Operator := ⟨"IS"⟩

end Operator

/-- How a condition is joined to the one before it. -/
inductive Combinator where
  | and
  | or
  deriving DecidableEq, Repr

def Combinator.text : Combinator → String
  | .and => "AND"
  | .or => "OR"

inductive SortDirection where
  | ascending
  | descending
  deriving DecidableEq, Repr

def SortDirection.text : SortDirection → String
  | .ascending => "ASC"
  | .descending => "DESC"

/-- Where an ordering puts the rows that have no value. -/
inductive NullsOrder where
  | first
  | last
  deriving DecidableEq, Repr

def NullsOrder.text : NullsOrder → String
  | .first => "NULLS FIRST"
  | .last => "NULLS LAST"

/-- An ordering by one column, as it stands in a statement. -/
def orderText (column : String) (direction : SortDirection) (nulls : Option NullsOrder) : String :=
  column ++ " " ++ direction.text ++
    match nulls with
    | none => ""
    | some place => " " ++ place.text

namespace Keyword

def null : String := "NULL"

def notNull : String := "NOT NULL"

/-- The condition that every row meets. -/
def always : String := "true"

def lower : String := "LOWER"

def lowered (text : String) : String := lower ++ "(" ++ text ++ ")"

end Keyword

end DeferredQuery
