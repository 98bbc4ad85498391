/-!
# Decimal digits

Numbers as texts of ASCII digits: with a least width, with a point, and back. The digits of a number
are those of core (`Nat.toDigits 10`), so core's lemmas about them apply.
-/

set_option autoImplicit false

namespace DeferredQuery.Number

/-- The decimal digits of a number; zero has one digit. -/
def digits (n : Nat) : List Char := Nat.toDigits 10 n

/-- The decimal digits of a number, with zeros before them up to the width. -/
def paddedDigits (width n : Nat) : List Char :=
  List.replicate (width - (digits n).length) '0' ++ digits n

/-- The digits with a point before the last `places` of them, and at least one digit before the
point. -/
def withPoint (places : Nat) (ds : List Char) : List Char :=
  if places = 0 then ds
  else
    let padded := List.replicate (places + 1 - ds.length) '0' ++ ds
    padded.take (padded.length - places) ++ '.' :: padded.drop (padded.length - places)

def intText (n : Int) : List Char :=
  if n < 0 then '-' :: digits n.natAbs else digits n.natAbs

/-- The number that the digits spell, continuing a number already read. -/
def valueFrom (start : Nat) (ds : List Char) : Nat := Nat.ofDigitChars 10 ds start

def value (ds : List Char) : Nat := valueFrom 0 ds

def digitValue (c : Char) : Nat := c.toNat - '0'.toNat

/-- The digits at the start of a text, and what follows them. -/
def spanDigits (s : List Char) : List Char × List Char := s.span Char.isDigit

@[simp] theorem value_digits (n : Nat) : value (digits n) = n :=
  Nat.ofDigitChars_toDigits (by decide) (by decide)

end DeferredQuery.Number
