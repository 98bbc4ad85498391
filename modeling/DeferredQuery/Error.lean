import DeferredQuery.Part
import DeferredQuery.Text.Escaped

/-!
# Errors

Every way in which a call can fail, by its cause; `Error.message` gives the wording. Causes that a
caller words come last in each group (`other`).
-/

set_option autoImplicit false

namespace DeferredQuery

/-- Why a comparison cannot be attached. -/
inductive Misuse where
  /-- The last call opened no condition. -/
  | nothingAwaiting
  /-- No part is a condition. -/
  | noCondition
  /-- No join carries a condition. -/
  | noJoinCondition
  | other (message : String)
  deriving DecidableEq, Repr

/-- The sort of argument that a part should have had. -/
inductive Expected where
  | text
  | count
  | direction
  | nulls
  deriving DecidableEq, Repr

/-- Why a query cannot be built. -/
inductive QueryFault where
  | emptyPath
  | badSegment (segment : String)
  | noSelection
  | badArgument (action : Action) (expected : Expected) (index : Nat) (found : Option Argument)
  | notCondition (action : Action)
  | unknownEntity (entity : String)
  | unknownAlias (relation name : String)
  | unknownRelation (entity relation : String)
  | other (message : String)
  deriving DecidableEq, Repr

/-- Why a repository's options are refused. -/
inductive OptionFault where
  | notIdentifier (field value : String)
  | other (message : String)
  deriving DecidableEq, Repr

inductive Error where
  | invalidConditional (cause : Misuse)
  /-- A condition was asked of the join that binds the name, and there is none. -/
  | invalidConditionalJoin (name : String)
  | invalidQuery (cause : QueryFault)
  /-- A column of a row has a type that cannot be read. -/
  | unsupportedType (column typeName : String)
  | configuration (cause : OptionFault)
  /-- A JSON text is malformed, or does not describe what was asked for. -/
  | serialization
  deriving DecidableEq, Repr

def Misuse.message : Misuse → String
  | .nothingAwaiting =>
    "no property is awaiting a comparison; start one with where_, and or or"
  | .noCondition => "no pending where, and or or to compare against"
  | .noJoinCondition => "no join with an open condition to compare against"
  | .other message => message

def Expected.name : Expected → String
  | .text => "text"
  | .count => "count"
  | .direction => "sort direction"
  | .nulls => "nulls order"

/-- An argument as a message shows it. -/
def Argument.shown : Argument → String
  | .text value => "Text(" ++ Text.escaped value ++ ")"
  | .count value => "Count(" ++ toString value ++ ")"
  | .direction .ascending => "Direction(Asc)"
  | .direction .descending => "Direction(Desc)"
  | .nulls .first => "Nulls(First)"
  | .nulls .last => "Nulls(Last)"

/-- The argument found, or its absence, as a message shows it. -/
def foundText : Option Argument → String
  | none => "None"
  | some argument => "Some(" ++ argument.shown ++ ")"

def QueryFault.message : QueryFault → String
  | .emptyPath => "property path must not be empty"
  | .badSegment segment => "invalid property path segment '" ++ segment ++ "'"
  | .noSelection => "a subquery needs a selected property; call select() first"
  | .badArgument action expected index found =>
    action.name ++ " part expects " ++ expected.name ++ " at argument " ++ toString index
      ++ ", found " ++ foundText found
  | .notCondition action => action.name ++ " cannot be replayed inside a condition group"
  | .unknownEntity entity => "Unknown entity '" ++ entity ++ "'"
  | .unknownAlias relation name =>
    "Join '" ++ relation ++ "' references unknown alias '" ++ name ++ "'"
  | .unknownRelation entity relation =>
    "Entity '" ++ entity ++ "' has no relation '" ++ relation ++ "'"
  | .other message => message

def OptionFault.message : OptionFault → String
  | .notIdentifier field value =>
    field ++ " must be a plain identifier, got '" ++ value ++ "'"
  | .other message => message

def Error.message : Error → String
  | .invalidConditional cause => "Invalid use of conditional method: " ++ cause.message
  | .invalidConditionalJoin name =>
    "Invalid use of conditional join: no join introduces alias '" ++ name ++ "'"
  | .invalidQuery cause => "Invalid query: " ++ cause.message
  | .unsupportedType column typeName =>
    "Unsupported type '" ++ typeName ++ "' for column '" ++ column ++ "'"
  | .configuration cause => "Configuration error: " ++ cause.message
  | .serialization => "Serialization error"

/-- Whether the error says that the calls of a chain came in a wrong order. -/
def Error.isMisuse : Error → Bool
  | .invalidConditional _ | .invalidConditionalJoin _ => true
  | _ => false

/-- What succeeds in two steps succeeds in each. -/
theorem exists_of_bind {α β : Type} {x : Except Error α} {f : α → Except Error β} {b : β}
    (h : x >>= f = .ok b) : ∃ a, x = .ok a ∧ f a = .ok b := by
  cases x with
  | error e => cases h
  | ok a => exact ⟨a, rfl, h⟩

end DeferredQuery
