import DeferredQuery.Number.Scaled

/-!
# Reading scaled decimals

A plain decimal is a sign, digits, and a point before, among or after them; underscores may follow
the first digit. Whole digits that do not fit are an error. Places that do not fit are rounded away
by the first of them, a five going up; the others need only be digits. An underscore in front of that
first place is passed over behind a long magnitude, and behind a short one it stands for a zero.

A text with an exponent is read second, when it is no plain decimal.
-/

set_option autoImplicit false

namespace DeferredQuery.Number.Scaled

/-- The decimal one unit of its last place above. A magnitude that no longer fits gives up its last
place. -/
def bump? (negative : Bool) (magnitude places : Nat) : Option Scaled :=
  if magnitude + 1 < magnitudeLimit then signed? negative (magnitude + 1) places
  else if places = 0 then none
  else signed? negative ((magnitude + 5) / 10) (places - 1)

/-- Whether a magnitude is short: its digits but the last stay that far below a tenth of 64 bits. -/
def isShort (magnitude : Nat) : Bool := magnitude / 10 < twoPow 64 / 10 - 255

/-- The digit of a tail that decides how it is rounded away. -/
def decidingDigit (magnitude : Nat) (tail : List Char) : Nat :=
  match if isShort magnitude then tail else tail.dropWhile (· == '_') with
  | [] => 0
  | c :: _ => if c.isDigit then digitValue c else 0

/-- Rounds away all places from here on. -/
def dropTail? (negative : Bool) (magnitude places : Nat) (tail : List Char) : Option Scaled :=
  if tail.all fun c => c.isDigit || c == '_' then
    if decidingDigit magnitude tail < 5 then signed? negative magnitude places
    else bump? negative magnitude places
  else none

/-- Reads what follows the sign. `started` says that there was a digit, and `fraction` that there
was the point. -/
def readUnsigned? (negative : Bool) (started fraction : Bool) (magnitude places : Nat) :
    List Char → Option Scaled
  | [] => if started then signed? negative magnitude places else none
  | c :: rest =>
    if fraction && maxPlaces ≤ places then dropTail? negative magnitude places (c :: rest)
    else if c.isDigit then
      let next := 10 * magnitude + digitValue c
      if next < magnitudeLimit then
        readUnsigned? negative true fraction next (if fraction then places + 1 else 0) rest
      else if fraction then dropTail? negative magnitude places (c :: rest)
      else none
    else if c == '.' && !fraction then readUnsigned? negative started true magnitude places rest
    else if c == '_' && started then readUnsigned? negative started fraction magnitude places rest
    else none

def readPlain? : List Char → Option Scaled
  | '-' :: rest => readUnsigned? true false false 0 0 rest
  | '+' :: rest => readUnsigned? false false false 0 0 rest
  | s => readUnsigned? false false false 0 0 s

/-- Reads an unsigned exponent of at most 32 bits, which may have a plus sign. -/
def readExponent? (s : List Char) : Option Nat :=
  let ds := match s with
    | '+' :: rest => rest
    | _ => s
  if ds ≠ [] ∧ ds.all Char.isDigit ∧ value ds < twoPow 32 then some (value ds) else none

def readScientific? (s : List Char) : Option Scaled :=
  let isMark (c : Char) : Bool := c == 'e' || c == 'E'
  match s.dropWhile (!isMark ·) with
  | [] => none
  | _ :: exponent => do
    let base ← readPlain? (s.takeWhile (!isMark ·))
    match exponent with
    | '-' :: ds => base.lower? (← readExponent? ds)
    | ds => base.raise? (← readExponent? ds)

def read? (s : List Char) : Option Scaled := readPlain? s <|> readScientific? s

end DeferredQuery.Number.Scaled
