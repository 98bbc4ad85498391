import DeferredQuery.Number.Hex

/-!
# The spelling of JSON strings

Inside a string the quote, the backslash and the control characters are escaped; any character may
be spelled by its UTF-16 code units. Reading a spelling goes over these units, in which surrogates
have to come in pairs.
-/

set_option autoImplicit false

namespace DeferredQuery.Json

open Number

/-! ## Writing -/

def spellChar (c : Char) : List Char :=
  if c = '"' then ['\\', '"']
  else if c = '\\' then ['\\', '\\']
  else if c = '\x08' then ['\\', 'b']
  else if c = '\x0c' then ['\\', 'f']
  else if c = '\n' then ['\\', 'n']
  else if c = '\r' then ['\\', 'r']
  else if c = '\t' then ['\\', 't']
  else if c.toNat < 0x20 then '\\' :: 'u' :: hexDigits 4 c.toNat
  else [c]

def spell (s : List Char) : List Char := s.flatMap spellChar

/-! ## Reading -/

/-- The character that a one-letter escape stands for. -/
def escapedChar? : Char → Option Char
  | '"' => some '"'
  | '\\' => some '\\'
  | '/' => some '/'
  | 'b' => some '\x08'
  | 'f' => some '\x0c'
  | 'n' => some '\n'
  | 'r' => some '\r'
  | 't' => some '\t'
  | _ => none

/-- The units of a spelling: the number of each character, and of each escape the number it
gives. -/
def units? : List Char → Option (List Nat)
  | [] => some []
  | '\\' :: 'u' :: a :: b :: c :: d :: rest => do
    return (← hexFrom? 0 [a, b, c, d]) :: (← units? rest)
  | '\\' :: e :: rest => do return (← escapedChar? e).toNat :: (← units? rest)
  | c :: rest => if c = '\\' then none else (units? rest).map (c.toNat :: ·)

def isHighSurrogate (unit : Nat) : Bool := 0xD800 ≤ unit && unit ≤ 0xDBFF

def isLowSurrogate (unit : Nat) : Bool := 0xDC00 ≤ unit && unit ≤ 0xDFFF

/-- The text with these units, if no surrogate stands alone. -/
def ofUnits? : List Nat → Option (List Char)
  | [] => some []
  | unit :: rest =>
    if isHighSurrogate unit then
      match rest with
      | low :: rest =>
        if isLowSurrogate low then
          let scalar := 0x10000 + (unit - 0xD800) * 0x400 + (low - 0xDC00)
          (ofUnits? rest).map (Char.ofNat scalar :: ·)
        else none
      | [] => none
    else if isLowSurrogate unit then none
    else (ofUnits? rest).map (Char.ofNat unit :: ·)

def unspell? (spelling : List Char) : Option (List Char) := units? spelling >>= ofUnits?

end DeferredQuery.Json
