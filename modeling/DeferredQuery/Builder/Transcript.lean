import DeferredQuery.Builder

/-!
# Transcripts

The builder that only writes down its calls. Its query text is the list of them, the same for every
purpose.
-/

set_option autoImplicit false

namespace DeferredQuery

/-- The calls received so far, and the alias of the base entity. -/
structure Transcript where
  baseAlias : String
  calls : List Call
  deriving DecidableEq, Repr

def ConditionKind.callName : ConditionKind → String
  | .start => "where"
  | .and => "and_where"
  | .or => "or_where"

def JoinKind.callName : JoinKind → String
  | .inner => "inner_join"
  | .left => "left_join"
  | .leftSelect => "left_join_and_select"

def OrderKind.callName : OrderKind → String
  | .start => "order_by"
  | .next => "add_order_by"

def Call.text : Call → String
  | .condition kind text => kind.callName ++ "(" ++ text ++ ")"
  | .join kind relation name none => kind.callName ++ "(" ++ relation ++ ", " ++ name ++ ")"
  | .join kind relation name (some on) =>
    kind.callName ++ "(" ++ relation ++ ", " ++ name ++ ", " ++ on ++ ")"
  | .select column => "select(" ++ column ++ ")"
  | .order kind column direction nulls =>
    kind.callName ++ "(" ++ orderText column direction nulls ++ ")"
  | .skip count => "skip(" ++ toString count ++ ")"
  | .take count => "take(" ++ toString count ++ ")"

namespace Transcript

def start (base : String) : Transcript := ⟨base, []⟩

def record (call : Call) (t : Transcript) : Transcript := { t with calls := t.calls ++ [call] }

def text (t : Transcript) : String := String.intercalate " | " (t.calls.map Call.text)

end Transcript

instance : Builder Transcript where
  baseAlias := Transcript.baseAlias
  receive := Transcript.record
  text _ t := .ok t.text

end DeferredQuery
