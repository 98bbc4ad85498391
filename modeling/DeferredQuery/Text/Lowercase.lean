import DeferredQuery.Text.CaseTable

/-!
# Lowercase text

The full lowercase mapping of Unicode. One character, the capital I with a dot above, becomes two;
one character, the capital sigma, depends on its neighbours: it takes its final form after a cased
character and not before one, where case-ignorable characters are looked through. Every other
character is mapped by itself, and inside ASCII the mapping is the usual one.
-/

set_option autoImplicit false

namespace DeferredQuery.Text

def isCased (c : Char) : Bool := casedRanges.holds c

def isCaseIgnorable (c : Char) : Bool := caseIgnorableRanges.holds c

/-- Whether the run lowers the character with this scalar value. -/
def LowerRun.holds (run : LowerRun) (n : Nat) : Bool :=
  run.first ≤ n && n ≤ run.last && (n - run.first) % run.step == 0

/-- The lowercase of a character that stands alone. -/
def lowerChar (c : Char) : List Char :=
  if c.toNat < 0x80 then [c.toLower]
  else if c = 'İ' then ['i', '\u0307']
  else
    match lowerRuns.find? (·.holds c.toNat) with
    | some run => [Char.ofNat (c.toNat + run.offset).toNat]
    | none => [c]

/-- Whether the first character that is not case-ignorable is cased. -/
def casedNext (s : List Char) : Bool :=
  match s.dropWhile isCaseIgnorable with
  | [] => false
  | c :: _ => isCased c

/-- The lowercase of a capital sigma between the characters before it, nearest first, and those
after it. -/
def lowerSigma (before after : List Char) : Char :=
  if casedNext before && !casedNext after then 'ς' else 'σ'

/-- The lowercase of a text that continues the characters `before`, which are nearest first. -/
def lowercaseAfter (before : List Char) : List Char → List Char
  | [] => []
  | c :: rest =>
    (if c = 'Σ' then [lowerSigma before rest] else lowerChar c) ++ lowercaseAfter (c :: before) rest

def lowercase (text : String) : String := String.ofList (lowercaseAfter [] text.toList)

/-- Inside ASCII a character is lowered by itself. -/
theorem lowerChar_of_ascii {c : Char} (h : c.toNat < 0x80) : lowerChar c = [c.toLower] := by
  simp [lowerChar, h]

@[simp] theorem toList_lowercase (text : String) :
    (lowercase text).toList = lowercaseAfter [] text.toList := by
  simp [lowercase]

end DeferredQuery.Text
