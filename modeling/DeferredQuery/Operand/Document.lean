import DeferredQuery.Error
import DeferredQuery.Json.Number
import DeferredQuery.Json.Reader
import DeferredQuery.Json.Record
import DeferredQuery.Json.Writer
import DeferredQuery.Number.Scaled.Reader
import DeferredQuery.Operand

/-!
# Operands as JSON

An operand is one of several cases, each named by its sort and holding its value: numbers and truth
values as they are, everything else as text. The null operand holds nothing and is written by its
name alone.
-/

set_option autoImplicit false

namespace DeferredQuery.Operand

open Number

def sortName : Operand → String
  | .null => "Null"
  | .bool _ => "Bool"
  | .int32 _ => "I32"
  | .int64 _ => "I64"
  | .float32 _ => "F32"
  | .float64 _ => "F64"
  | .text _ => "String"
  | .instant _ => "DateTime"
  | .uuid _ => "Uuid"
  | .decimal _ => "Decimal"

/-- The value that an operand holds, if it has a document: floats have none here, and the null
operand holds nothing. -/
def heldJson? : Operand → Option Json
  | .bool value => some (.bool value)
  | .int32 value => some (.ofInt value.toInt)
  | .int64 value => some (.ofInt value.toInt)
  | .text value => some (.ofText value)
  | .instant value => some (.ofText (String.ofList value.exactText))
  | .uuid value => some (.ofText (String.ofList value.toChars))
  | .decimal value => some (.ofText value.text)
  | .null | .float32 _ | .float64 _ => none

/-- The document of an operand, unless it is a float. -/
def toJson? : Operand → Option Json
  | .null => some (.ofText "Null")
  | operand => operand.heldJson?.map fun held => .ofMembers [(operand.sortName, held)]

def readInteger? (low high : Int) : Json → Option Int
  | .number numeral =>
    numeral.integer?.bind fun n => if low ≤ n ∧ n ≤ high then some n else none
  | _ => none

/-- A decimal: a text, an integer, or a float, whose shortest text is then read. -/
def readDecimal? : Json → Option Scaled
  | .number numeral =>
    match numeral.integer? with
    | some n => Scaled.ofInt? n 0
    | none => numeral.binary64?.bind fun bits =>
      Scaled.readPlain? (Format.binary64.text bits).toList
  | document => document.text?.bind fun text => Scaled.read? text.toList

def readBool? : Json → Option Bool
  | .bool value => some value
  | _ => none

def readNumeral? : Json → Option Numeral
  | .number numeral => some numeral
  | _ => none

/-- Reads the value that an operand of the named sort holds. -/
def ofHeld? (sort : String) (held : Json) : Option Operand :=
  match sort with
  | "Null" => if Json.isNothing (some held) then some .null else none
  | "Bool" => (readBool? held).map .bool
  | "I32" => (readInteger? (-2147483648) 2147483647 held).map fun n => .int32 (Int32.ofInt n)
  | "I64" =>
    (readInteger? (-9223372036854775808) 9223372036854775807 held).map fun n => .int64 (Int64.ofInt n)
  | "F32" => (readNumeral? held >>= Numeral.binary32?).map fun bits => .float32 (UInt32.ofNat bits)
  | "F64" => (readNumeral? held >>= Numeral.binary64?).map fun bits => .float64 (UInt64.ofNat bits)
  | "String" => held.text?.map .text
  | "DateTime" => (held.text?.bind fun text => Instant.read? text.toList).map .instant
  | "Uuid" => (held.text?.bind fun text => Uuid.read? text.toList).map .uuid
  | "Decimal" => (readDecimal? held).map .decimal
  | _ => none

def ofJson? (document : Json) : Option Operand := do
  match ← document.case? with
  | (sort, some held) => ofHeld? sort held
  | (sort, none) => if sort = "Null" then some .null else none

/-- An operand as a JSON text, unless it is a float. -/
def write? (operand : Operand) : Option String := operand.toJson?.map Json.write

def read (text : String) : Except Error Operand :=
  match Json.read? text >>= ofJson? with
  | some operand => .ok operand
  | none => .error .serialization

end DeferredQuery.Operand
