import DeferredQuery.Number.Binary
import DeferredQuery.Number.Digits

/-!
# The shortest decimal of a float

A float is written with the fewest digits that read back to it, and of the decimals with that many
digits the nearest; of two that are equally near, the greater. The digits are laid out positionally,
without an exponent and without a point that no digit follows.

A decimal reads back if it lies between the midpoints to the two neighbouring floats, the midpoints
themselves counting when the mantissa is even. If a grid of decimals has a point in that interval,
one of the two points around the float is in it, so only those two are tried.
-/

set_option autoImplicit false

namespace DeferredQuery.Number

/-- The decimal `coefficient · 10 ^ exponent`. -/
structure Decimal where
  coefficient : Nat
  exponent : Int
  deriving DecidableEq

/-- The reals that read back to a float, over a common denominator: the float itself, the ends of
the interval, and whether the ends belong to it. -/
structure Interval where
  low : Nat
  middle : Nat
  high : Nat
  denominator : Nat
  closed : Bool

namespace Interval

/-- The reals that round to the float `mantissa · 2 ^ exponent`. Just above a power of two the lower
neighbour is at half the distance. -/
def ofFloat (f : Format) (mantissa : Nat) (exponent : Int) : Interval :=
  let scale := twoPow exponent.toNat
  let below := if mantissa = f.unit ∧ f.minExponent < exponent then 1 else 2
  { low := (4 * mantissa - below) * scale
    middle := 4 * mantissa * scale
    high := (4 * mantissa + 2) * scale
    denominator := 4 * twoPow (-exponent).toNat
    closed := mantissa % 2 == 0 }

/-- Whether the decimal lies in the interval. -/
def holds (i : Interval) (d : Decimal) : Bool :=
  let point := d.coefficient * tenPow d.exponent.toNat * i.denominator
  let shift := tenPow (-d.exponent).toNat
  if i.closed then i.low * shift ≤ point && point ≤ i.high * shift
  else i.low * shift < point && point < i.high * shift

/-- The number of digits before the point of the middle; for a middle below one, less the number of
zeros after the point. -/
def magnitude (i : Interval) : Int :=
  if i.denominator ≤ i.middle then (digits (i.middle / i.denominator)).length
  else 1 - ((digits ((i.denominator - 1) / i.middle)).length : Int)

/-- The decimal with the given number of digits that is to be written, if one reads back. -/
def onGrid? (i : Interval) (count : Nat) : Option Decimal :=
  let exponent := i.magnitude - count
  let num := i.middle * tenPow (-exponent).toNat
  let den := i.denominator * tenPow exponent.toNat
  let lower : Decimal := ⟨num / den, exponent⟩
  let upper : Decimal :=
    if num / den + 1 = tenPow count then ⟨1, exponent + count⟩ else ⟨num / den + 1, exponent⟩
  match i.holds lower, i.holds upper with
  | true, true => some (if 2 * (num % den) < den then lower else upper)
  | true, false => some lower
  | false, true => some upper
  | false, false => none

end Interval

/-- The shortest decimal of the positive float `mantissa · 2 ^ exponent`. Seventeen digits are
enough for every float of up to 64 bits. -/
def shortest (f : Format) (mantissa : Nat) (exponent : Int) : Decimal :=
  let interval := Interval.ofFloat f mantissa exponent
  ((List.range 17).findSome? fun n => interval.onGrid? (n + 1)).getD ⟨0, 0⟩

def Decimal.positional (d : Decimal) : List Char :=
  if 0 ≤ d.exponent then
    digits d.coefficient ++ List.replicate d.exponent.toNat '0'
  else withPoint (-d.exponent).toNat (digits d.coefficient)

def Format.text (f : Format) (bits : Nat) : String :=
  let sign (negative : Bool) : List Char := if negative then ['-'] else []
  match f.decode bits with
  | .nan => "NaN"
  | .infinite negative => String.ofList (sign negative ++ ['i', 'n', 'f'])
  | .finite negative 0 _ => String.ofList (sign negative ++ ['0'])
  | .finite negative mantissa exponent =>
    String.ofList (sign negative ++ (shortest f mantissa exponent).positional)

end DeferredQuery.Number
