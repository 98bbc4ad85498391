import DeferredQuery.Number.Power

/-!
# Binary floating point

A float is given by its bits. `decode` reads them as a sign and a number `mantissa · 2 ^ exponent`,
and `nearest` goes the other way: it gives the bits of the float nearest to a fraction of naturals,
ties going to the even mantissa. Everything is integer arithmetic, so nothing here is rounded that
the definitions do not round.
-/

set_option autoImplicit false

namespace DeferredQuery.Number

/-- An interchange format, by the widths of its two fields. -/
structure Format where
  fractionBits : Nat
  exponentBits : Nat

/-- What the bits of a float stand for; a finite one is `mantissa · 2 ^ exponent` with its sign. -/
inductive Datum where
  | nan
  | infinite (negative : Bool)
  | finite (negative : Bool) (mantissa : Nat) (exponent : Int)
  deriving DecidableEq

namespace Format

def binary32 : Format := ⟨23, 8⟩

def binary64 : Format := ⟨52, 11⟩

/-- One more than the greatest fraction field. -/
def unit (f : Format) : Nat := twoPow f.fractionBits

/-- The exponent field of the infinities and of what is no number. -/
def topField (f : Format) : Nat := twoPow f.exponentBits - 1

/-- The exponent of the least positive float. -/
def minExponent (f : Format) : Int := 2 - (twoPow (f.exponentBits - 1) : Int) - (f.fractionBits : Int)

/-- The bit that says that a float is negative. -/
def signBit (f : Format) : Nat := twoPow (f.fractionBits + f.exponentBits)

def infinity (f : Format) : Nat := f.topField * f.unit

def isNegative (f : Format) (bits : Nat) : Bool := bits / f.signBit % 2 == 1

def decode (f : Format) (bits : Nat) : Datum :=
  let fraction := bits % f.unit
  let field := bits / f.unit % twoPow f.exponentBits
  let negative := f.isNegative bits
  if field = f.topField then
    if fraction = 0 then .infinite negative else .nan
  else if field = 0 then .finite negative fraction f.minExponent
  else .finite negative (fraction + f.unit) (f.minExponent + field - 1)

/-- The quotient rounded to the nearest integer, a tie to the even one. -/
def roundDiv (num den : Nat) : Nat :=
  let quotient := num / den
  let rest := num % den
  if 2 * rest < den then quotient
  else if den < 2 * rest then quotient + 1
  else quotient + quotient % 2

/-- The exponent of the greatest power of two that is not above the fraction. -/
def floorLog2 (num den : Nat) : Int :=
  let guess : Int := (num.log2 : Int) - den.log2
  if den * twoPow guess.toNat ≤ num * twoPow (-guess).toNat then guess else guess - 1

/-- The bits of the float nearest to the fraction `num / den`. -/
def nearest (f : Format) (num den : Nat) : Nat :=
  if num = 0 then 0
  else
    let exponent := max (floorLog2 num den - f.fractionBits) f.minExponent
    let mantissa := roundDiv (num * twoPow (-exponent).toNat) (den * twoPow exponent.toNat)
    min ((exponent - f.minExponent).toNat * f.unit + mantissa) f.infinity

/-- The number `mantissa · 2 ^ exponent` as numerator and denominator. -/
def fraction (mantissa : Nat) (exponent : Int) : Nat × Nat :=
  (mantissa * twoPow exponent.toNat, twoPow (-exponent).toNat)

/-- The bits of the nearest float of the format to the one with these bits in another format. -/
def convert (source target : Format) (bits : Nat) : Nat :=
  let sign := if source.isNegative bits then target.signBit else 0
  match source.decode bits with
  | .nan => target.infinity + 1
  | .infinite _ => sign + target.infinity
  | .finite _ mantissa exponent =>
    let value := fraction mantissa exponent
    sign + target.nearest value.1 value.2

/-- Whether two floats are equal as numbers: what is no number equals nothing, and the zeros are
equal. -/
def equal (f : Format) (a b : Nat) : Bool :=
  match f.decode a, f.decode b with
  | .nan, _ => false
  | _, .nan => false
  | .finite _ 0 _, .finite _ 0 _ => true
  | x, y => x == y

end Format

end DeferredQuery.Number
