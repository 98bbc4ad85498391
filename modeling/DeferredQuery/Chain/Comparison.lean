import DeferredQuery.Chain.Condition
import DeferredQuery.Operand
import DeferredQuery.Text.Lowercase
import DeferredQuery.Text.Split

/-!
# Comparisons

A comparison completes the condition that waits for one. It writes the operator and the operand
behind the newest reference, and the reference is folded if the operand is. Literal text is folded
unless the caller wants its case to matter; another property is folded only if the caller wants its
case not to matter.
-/

set_option autoImplicit false

namespace DeferredQuery

/-- Whether the case of a text is to matter; if nothing is said, that depends on the operand. -/
inductive CaseMatching where
  | unspecified
  | exact
  | folded
  deriving DecidableEq, Repr

/-- Which part of the property a literal is to be found in. -/
inductive Pattern where
  | whole
  | beginning
  | anywhere
  | ending
  deriving DecidableEq, Repr

/-- What a comparison says of the property that waits for it. -/
inductive Comparison where
  | literal (operator : Operator) (pattern : Pattern) (operand : Operand) (matching : CaseMatching)
  | null (negated : Bool)
  | member (negated : Bool) (operands : List Operand)
  /-- Another property, by its route from the active alias. -/
  | property (operator : Operator) (route : Route) (matching : CaseMatching)
  deriving DecidableEq

namespace Comparison

/-! ## With a literal -/

def equal (operand : Operand) : Comparison := .literal .eq .whole operand .unspecified

def equalMatching (operand : Operand) (matching : CaseMatching) : Comparison :=
  .literal .eq .whole operand matching

def notEqual (operand : Operand) : Comparison := .literal .ne .whole operand .unspecified

def notEqualMatching (operand : Operand) (matching : CaseMatching) : Comparison :=
  .literal .ne .whole operand matching

def greaterThan (operand : Operand) : Comparison := .literal .gt .whole operand .unspecified

def greaterThanOrEqual (operand : Operand) : Comparison := .literal .ge .whole operand .unspecified

def lessThan (operand : Operand) : Comparison := .literal .lt .whole operand .unspecified

def lessThanOrEqual (operand : Operand) : Comparison := .literal .le .whole operand .unspecified

/-- A comparison by any operator, which is written as the caller spells it. -/
def byOperator (operator : Operator) (operand : Operand) : Comparison :=
  .literal operator .whole operand .unspecified

def byOperatorMatching (operator : Operator) (operand : Operand) (matching : CaseMatching) :
    Comparison :=
  .literal operator .whole operand matching

def isTrue : Comparison := .equal (.bool true)

def isFalse : Comparison := .equal (.bool false)

def beginsWith (operand : Operand) : Comparison := .literal .like .beginning operand .unspecified

def beginsWithMatching (operand : Operand) (matching : CaseMatching) : Comparison :=
  .literal .like .beginning operand matching

def contains (operand : Operand) : Comparison := .literal .like .anywhere operand .unspecified

def containsMatching (operand : Operand) (matching : CaseMatching) : Comparison :=
  .literal .like .anywhere operand matching

def endsWith (operand : Operand) : Comparison := .literal .like .ending operand .unspecified

def endsWithMatching (operand : Operand) (matching : CaseMatching) : Comparison :=
  .literal .like .ending operand matching

/-! ## With nothing, and with a list -/

def isNull : Comparison := .null false

def isNotNull : Comparison := .null true

def isIn (operands : List Operand) : Comparison := .member false operands

def notIn (operands : List Operand) : Comparison := .member true operands

/-! ## With another property -/

def equalJoined (route : Route) : Comparison := .property .eq route .unspecified

def equalJoinedMatching (route : Route) (matching : CaseMatching) : Comparison :=
  .property .eq route matching

def notEqualJoined (route : Route) : Comparison := .property .ne route .unspecified

def notEqualJoinedMatching (route : Route) (matching : CaseMatching) : Comparison :=
  .property .ne route matching

def greaterThanJoined (route : Route) : Comparison := .property .gt route .unspecified

def greaterThanOrEqualJoined (route : Route) : Comparison := .property .ge route .unspecified

def lessThanJoined (route : Route) : Comparison := .property .lt route .unspecified

def lessThanOrEqualJoined (route : Route) : Comparison := .property .le route .unspecified

end Comparison

/-- The text that a literal is quoted as, unless it is an operand that is not quoted. A pattern makes
a text of every operand. -/
def Pattern.text? : Pattern → Operand → Option String
  | .whole, operand => operand.text?
  | .beginning, operand => some (operand.render ++ "%")
  | .anywhere, operand => some ("%" ++ operand.render ++ "%")
  | .ending, operand => some ("%" ++ operand.render)

/-- What is written behind an operator, and whether the reference before it is folded. -/
structure Comparand where
  text : String
  foldsReference : Bool
  deriving DecidableEq, Repr

namespace Comparand

/-- A text that is written as it is. -/
def verbatim (text : String) : Comparand := ⟨text, false⟩

def literal (pattern : Pattern) (operand : Operand) (matching : CaseMatching) : Comparand :=
  match pattern.text? operand with
  | none => verbatim operand.render
  | some text =>
    if matching = .exact then verbatim (Text.quote text)
    else ⟨Text.lowercase (Text.quote text), true⟩

def property (text : String) (matching : CaseMatching) : Comparand :=
  if matching = .folded then ⟨Keyword.lowered text, true⟩ else verbatim text

end Comparand

namespace Chain

/-- Divides a condition into what is complete and the newest reference, which follows the last
space. -/
def splitReference (condition : String) : String × String :=
  match Text.splitLast? ' ' condition.toList with
  | none => ("", condition)
  | some (before, after) => (String.ofList before ++ " ", String.ofList after)

/-- The condition with its newest reference compared. -/
def completeText (operator : Operator) (comparand : Comparand) (condition : String) : String :=
  let (complete, newest) := splitReference condition
  complete ++ (if comparand.foldsReference then Keyword.lowered newest else newest)
    ++ " " ++ operator.text ++ " " ++ comparand.text

/-- The part that waits for a comparison: the last condition, or the last join that has one. -/
def pending? (q : Chain) : Option (Nat × Part) :=
  match q.clause with
  | .filter => findLast? (·.action.isCondition) q.parts
  | .on => findLast? Part.hasJoinCondition q.parts

/-- Completes the condition that waits for a comparison. -/
def complete (operator : Operator) (comparand : Comparand) (q : Chain) : Except Error Chain :=
  if q.mode = .compare then
    match q.pending? with
    | none =>
      match q.clause with
      | .filter => .error (.invalidConditional .noCondition)
      | .on => .error (.invalidConditional .noJoinCondition)
    | some (index, part) =>
      match part.popText with
      | .error error => .error error
      | .ok (condition, rest) =>
        .ok ((q.setPart index (rest.pushText (completeText operator comparand condition))).withMode
          .get)
  else .error (.invalidConditional .nothingAwaiting)

def memberOperator (negated : Bool) : Operator := if negated then .notIn else .isIn

def compare (comparison : Comparison) (q : Chain) : Except Error Chain :=
  match comparison with
  | .literal operator pattern operand matching =>
    q.complete operator (.literal pattern operand matching)
  | .null negated =>
    q.complete .is (.verbatim (if negated then Keyword.notNull else Keyword.null))
  | .member negated operands =>
    q.complete (memberOperator negated) (.verbatim (Operand.renderList operands))
  | .property operator route matching =>
    q.complete operator (.property (q.reference route.text) matching)

/-- Compares the property with the column of a subquery, given by its text. -/
def compareSubquery (negated : Bool) (text : String) (q : Chain) : Except Error Chain :=
  q.complete (memberOperator negated) (.verbatim ("(" ++ text ++ ")"))

end Chain

end DeferredQuery
