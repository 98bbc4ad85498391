import DeferredQuery.Number.Digits
import DeferredQuery.Number.Power

/-!
# Scaled decimals

A decimal number of fixed precision: a sign, a magnitude of at most 96 bits, and the number of its
places, at most twenty-eight. It is written with exactly that many places, so `1.50` and `1.5` are
written differently although they are equal as numbers.

Nothing that is read or counted is a negative zero. One arises only where places are rounded away
from a negative number until nothing is left of it, and it is written with its sign.
-/

set_option autoImplicit false

namespace DeferredQuery.Number

/-- The least magnitude that does not fit. -/
def Scaled.magnitudeLimit : Nat := twoPow 96

def Scaled.maxPlaces : Nat := 28

/-- The decimal `magnitude / 10 ^ places` with its sign. -/
structure Scaled where
  negative : Bool
  magnitude : Nat
  places : Nat
  magnitude_lt : magnitude < Scaled.magnitudeLimit := by decide
  places_le : places ≤ Scaled.maxPlaces := by decide
  deriving DecidableEq

namespace Scaled

/-- The decimal with this sign, magnitude and number of places, if it fits. -/
def make? (negative : Bool) (magnitude places : Nat) : Option Scaled :=
  if h : magnitude < magnitudeLimit ∧ places ≤ maxPlaces then
    some ⟨negative, magnitude, places, h.1, h.2⟩
  else none

/-- The decimal of a magnitude that was read behind a sign. A zero has none. -/
def signed? (negative : Bool) (magnitude places : Nat) : Option Scaled :=
  make? (negative && magnitude != 0) magnitude places

def ofInt? (n : Int) (places : Nat) : Option Scaled := signed? (n < 0) n.natAbs places

def coefficient (d : Scaled) : Int := if d.negative then -(d.magnitude : Int) else d.magnitude

def toChars (d : Scaled) : List Char :=
  (if d.negative then ['-'] else []) ++ withPoint d.places (digits d.magnitude)

def text (d : Scaled) : String := String.ofList d.toChars

/-- Whether two decimals are equal as numbers. -/
def equal (a b : Scaled) : Bool :=
  a.coefficient * (tenPow b.places : Nat) == b.coefficient * (tenPow a.places : Nat)

/-! ## Powers of ten -/

/-- A magnitude without its last `count` digits. The first of them decides, and a five goes up. -/
def roundOff (count magnitude : Nat) : Nat :=
  if count = 0 then magnitude
  else magnitude / tenPow count + magnitude / tenPow (count - 1) % 10 / 5

/-- Divides by `10 ^ exponent`. The decimal gets so many more places, and those beyond the last that
it can have are rounded away. -/
def lower? (exponent : Nat) (d : Scaled) : Option Scaled :=
  if exponent ≤ maxPlaces then
    make? d.negative (roundOff (d.places + exponent - maxPlaces) d.magnitude)
      (min (d.places + exponent) maxPlaces)
  else none

/-- Multiplies by `10 ^ exponent`. The decimal gets so many fewer places, and when it has none left
as many zeros. -/
def raise? (exponent : Nat) (d : Scaled) : Option Scaled :=
  if exponent ≤ maxPlaces then
    make? d.negative (d.magnitude * tenPow (exponent - d.places)) (d.places - exponent)
  else none

@[simp] theorem roundOff_zero (magnitude : Nat) : roundOff 0 magnitude = magnitude := rfl

end Scaled

end DeferredQuery.Number
