import DeferredQuery.Json
import DeferredQuery.Number.Binary
import DeferredQuery.Number.Digits
import DeferredQuery.Number.Power

/-!
# The numbers of JSON

A number without a fraction and an exponent is an integer, if it fits into 64 bits: unsigned from
zero on, signed below zero. Every number is also a float. For one that is no integer the digits are
gathered into a significand of at most 64 bits, which is then multiplied or divided by a power of
ten, each step being rounded; so the last bit may differ from that of the nearest float. A float
that is too great is an error, one that is too small is zero.
-/

set_option autoImplicit false

namespace DeferredQuery.Numeral

open Number

/-- One more than the greatest significand. -/
def significandLimit : Nat := twoPow 64

/-- The greatest power of ten of one step. -/
def maxPower : Nat := 308

/-- The integer that a number spells. Zero has no sign. -/
def integer? (n : Numeral) : Option Int :=
  if n.fraction = none ∧ n.exponent = none then
    let magnitude := value n.whole
    if n.negative then
      if 0 < magnitude ∧ magnitude ≤ twoPow 63 then some (-(magnitude : Int)) else none
    else if magnitude < twoPow 64 then some magnitude
    else none
  else none

/-- Takes digits into a significand while they fit; the digits that are left begin with the first
that does not. -/
def gather (significand : Nat) : List Char → Nat × List Char
  | [] => (significand, [])
  | c :: rest =>
    let next := 10 * significand + digitValue c
    if next < significandLimit then gather next rest else (significand, c :: rest)

/-- The significand of a number, and the power of ten that its digits give it. -/
def significand (n : Numeral) : Nat × Int :=
  let (whole, dropped) := gather 0 n.whole
  let places := n.fraction.getD []
  let (all, left) := gather whole places
  (all, (dropped.length : Int) - (places.length - left.length : Nat))

/-- The fraction that a finite float without its sign stands for. -/
def floatFraction (bits : Nat) : Nat × Nat :=
  match Format.binary64.decode bits with
  | .finite _ mantissa exponent => Format.fraction mantissa exponent
  | _ => (0, 1)

def powerOfTen (n : Nat) : Nat := Format.binary64.nearest (tenPow n) 1

def product (a b : Nat) : Nat :=
  let x := floatFraction a
  let y := floatFraction b
  Format.binary64.nearest (x.1 * y.1) (x.2 * y.2)

def quotient (a b : Nat) : Nat :=
  let x := floatFraction a
  let y := floatFraction b
  Format.binary64.nearest (x.1 * y.2) (x.2 * y.1)

/-- Multiplies a float by a power of ten, in at most `steps` steps of which all but the last divide
by the greatest power. -/
def scale? : Nat → Nat → Int → Option Nat
  | 0, _, _ => none
  | steps + 1, bits, exponent =>
    if exponent.natAbs ≤ maxPower then
      if 0 ≤ exponent then
        let next := product bits (powerOfTen exponent.toNat)
        if next < Format.binary64.infinity then some next else none
      else some (quotient bits (powerOfTen exponent.natAbs))
    else if bits = 0 then some 0
    else if 0 ≤ exponent then none
    else scale? steps (quotient bits (powerOfTen maxPower)) (exponent + maxPower)

/-- The bits of the float of a significand and a power of ten. -/
def magnitude? (significand : Nat) (power : Int) : Option Nat :=
  scale? (power.natAbs / maxPower + 1) (Format.binary64.nearest significand 1) power

/-- The bits of the float that a number spells when it is no integer. An exponent beyond 31 bits
counts as infinite. -/
def real? (n : Numeral) : Option Nat :=
  let (significand, power) := n.significand
  let bits? := match n.exponent with
    | none => magnitude? significand power
    | some (negative, ds) =>
      if value ds < twoPow 31 then
        magnitude? significand (if negative then power - value ds else power + value ds)
      else if significand = 0 ∨ negative then some 0
      else none
  bits?.map ((if n.negative then Format.binary64.signBit else 0) + ·)

def ofInteger (f : Format) (n : Int) : Nat :=
  (if n < 0 then f.signBit else 0) + f.nearest n.natAbs 1

/-- The bits of the float of 64 bits that a number spells. -/
def binary64? (n : Numeral) : Option Nat :=
  match n.integer? with
  | some i => some (ofInteger .binary64 i)
  | none => n.real?

/-- The bits of the float of 32 bits that a number spells. What is no integer is rounded twice. -/
def binary32? (n : Numeral) : Option Nat :=
  match n.integer? with
  | some i => some (ofInteger .binary32 i)
  | none => n.real?.map (Format.convert .binary64 .binary32)

end DeferredQuery.Numeral
