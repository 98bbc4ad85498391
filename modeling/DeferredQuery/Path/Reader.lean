import DeferredQuery.Path
import DeferredQuery.Text.Blank
import DeferredQuery.Text.Split

/-!
# The notation of paths

A path is written with points between its segments. Where a segment is a collection, the step to the
next one may also be written `orders[].items` or `orders.map(o => o.items)`, and blanks may stand
anywhere.

The reader takes away, one after the other, the blanks, the beginnings `.map(o=>o` of such steps, the
closing parentheses and the pairs of brackets; what is left is cut at the points.
-/

set_option autoImplicit false

namespace DeferredQuery.Path

open Text

/-- The number of word characters at the start of a text. -/
def wordLength (s : List Char) : Nat := (s.takeWhile isWordChar).length

/-- The length of the text `o=>o` at the start, where each `o` stands for a word. -/
def arrowLength? (s : List Char) : Option Nat :=
  let name := wordLength s
  match s.drop name with
  | '=' :: '>' :: body =>
    if 0 < name ∧ 0 < wordLength body then some (name + 2 + wordLength body) else none
  | _ => none

/-- The length of the text `.map(o=>o` at the start. -/
def traversalLength? : List Char → Option Nat
  | '.' :: 'm' :: 'a' :: 'p' :: '(' :: rest => (arrowLength? rest).map (· + 5)
  | _ => none

/-- Leaves out the next `skip` characters, and after them every text of the form `.map(o=>o`, the
leftmost first. -/
def dropTraversalsAfter : Nat → List Char → List Char
  | _, [] => []
  | skip + 1, _ :: rest => dropTraversalsAfter skip rest
  | 0, c :: rest =>
    match traversalLength? (c :: rest) with
    | some length => dropTraversalsAfter (length - 1) rest
    | none => c :: dropTraversalsAfter 0 rest

def dropTraversals (s : List Char) : List Char := dropTraversalsAfter 0 s

/-- Leaves out every pair of brackets with nothing between them. -/
def dropBrackets : List Char → List Char
  | '[' :: ']' :: rest => dropBrackets rest
  | c :: rest => c :: dropBrackets rest
  | [] => []

/-- The text without blanks, with a plain point for every step. -/
def flatten (s : List Char) : List Char :=
  dropBrackets ((dropTraversals (s.filter (!isBlank ·))).filter (· ≠ ')'))

def parse (text : String) : Except Error Path :=
  match flatten text.toList with
  | [] => .error (.invalidQuery .emptyPath)
  | flat => ofSegments ((fields '.' flat).map String.ofList)

/-- A path written in a program that is no path: the mistake is in the program, not in a query. -/
structure Malformed where
  text : String
  cause : Error
  deriving DecidableEq, Repr

def Malformed.message (m : Malformed) : String :=
  "Invalid property path '" ++ m.text ++ "': " ++ m.cause.message

def ofLiteral (text : String) : Except Malformed Path :=
  match parse text with
  | .ok path => .ok path
  | .error cause => .error ⟨text, cause⟩

end DeferredQuery.Path
