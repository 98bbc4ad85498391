import DeferredQuery.Number.Hex

/-!
# Identifiers of 128 bits

A universally unique identifier is written as 32 hexadecimal digits in five groups of 8, 4, 4, 4 and
12, with hyphens between the groups. It is also read without hyphens, and in the hyphenated form
between braces or after `urn:uuid:`; all letters may be of either case.
-/

set_option autoImplicit false

namespace DeferredQuery

/-- An identifier, as a word of 128 bits. -/
structure Uuid where
  value : BitVec 128
  deriving DecidableEq

namespace Uuid

open Number

def group (ds : List Char) : List Char :=
  ds.take 8 ++ '-' :: (ds.drop 8).take 4 ++ '-' :: (ds.drop 12).take 4 ++ '-' ::
    (ds.drop 16).take 4 ++ '-' :: ds.drop 20

def toChars (u : Uuid) : List Char := group (hexDigits 32 u.value.toNat)

/-- The identifier that 32 hexadecimal digits spell. -/
def ofDigits? (ds : List Char) : Option Uuid :=
  if ds.length = 32 then (hexFrom? 0 ds).map fun n => ⟨BitVec.ofNat 128 n⟩ else none

def ungroup? (s : List Char) : Option (List Char) :=
  let ds := s.filter (· ≠ '-')
  if ds.length = 32 ∧ s = group ds then some ds else none

def read? (s : List Char) : Option Uuid :=
  if s.length = 32 then ofDigits? s
  else if s.length = 36 then ungroup? s >>= ofDigits?
  else if s.length = 38 ∧ s.head? = some '\x7b' ∧ s.getLast? = some '\x7d' then
    ungroup? ((s.drop 1).take 36) >>= ofDigits?
  else if s.length = 45 ∧ (s.take 9).map Char.toLower = "urn:uuid:".toList then ungroup? (s.drop 9) >>= ofDigits?
  else none

end Uuid

end DeferredQuery
