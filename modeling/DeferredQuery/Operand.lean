import DeferredQuery.Instant
import DeferredQuery.Keyword
import DeferredQuery.Number.Scaled
import DeferredQuery.Number.Shortest
import DeferredQuery.Text.Quoted
import DeferredQuery.Uuid

/-!
# Operands

The values that a property can be compared with, and how they are written into a condition. Text is
special: whether it is quoted and folded depends on the comparison, so its plain rendering is the
bare text. As a member of a list it is always quoted.
-/

set_option autoImplicit false

namespace DeferredQuery

open Number

/-- A value to compare with; floats are given by their bits. -/
inductive Operand where
  | null
  | bool (value : Bool)
  | int32 (value : Int32)
  | int64 (value : Int64)
  | float32 (bits : UInt32)
  | float64 (bits : UInt64)
  | text (value : String)
  | instant (value : Instant)
  | uuid (value : Uuid)
  | decimal (value : Scaled)
  deriving DecidableEq

namespace Operand

/-- The text of an operand that is subject to quoting and folding. -/
def text? : Operand → Option String
  | .text value => some value
  | _ => none

/-- The operand as it stands in a condition; text is not quoted. -/
def render : Operand → String
  | .null => Keyword.null
  | .bool true => "true"
  | .bool false => "false"
  | .int32 value => String.ofList (intText value.toInt)
  | .int64 value => String.ofList (intText value.toInt)
  | .float32 bits => Format.binary32.text bits.toNat
  | .float64 bits => Format.binary64.text bits.toNat
  | .text value => value
  | .instant value => Text.quote (String.ofList value.milliText)
  | .uuid value => Text.quote (String.ofList value.toChars)
  | .decimal value => value.text

def renderMember : Operand → String
  | .text value => Text.quote value
  | operand => operand.render

def renderList (operands : List Operand) : String :=
  "(" ++ String.intercalate ", " (operands.map renderMember) ++ ")"

/-- Equality of operands: numbers of one sort are compared as numbers, so a float that is no number
equals nothing and the places of a decimal do not count; operands of two sorts are not equal. -/
def equal : Operand → Operand → Bool
  | .float32 a, .float32 b => Format.binary32.equal a.toNat b.toNat
  | .float64 a, .float64 b => Format.binary64.equal a.toNat b.toNat
  | .decimal a, .decimal b => a.equal b
  | a, b => a == b

end Operand

end DeferredQuery
