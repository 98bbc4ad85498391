import DeferredQuery.Error

/-!
# Reading and completing the arguments of a part

Each accessor reads one argument by its position and answers an error, which names the action and
the position, when another sort of argument or none is there. The text at the end of a part is where
conditions are written, so it can be taken off, put on and continued.
-/

set_option autoImplicit false

namespace DeferredQuery.Part

/-- The error that the part has no argument of the expected sort at the position. -/
def fault (p : Part) (expected : Expected) (index : Nat) : Error :=
  .invalidQuery (.badArgument p.action expected index p.arguments[index]?)

def text (p : Part) (index : Nat) : Except Error String :=
  match p.arguments[index]? with
  | some (.text value) => .ok value
  | _ => .error (p.fault .text index)

/-- The text at a position, where the part may also end before it. -/
def optionalText (p : Part) (index : Nat) : Except Error (Option String) :=
  match p.arguments[index]? with
  | none => .ok none
  | some (.text value) => .ok (some value)
  | some _ => .error (p.fault .text index)

def count (p : Part) (index : Nat) : Except Error Nat :=
  match p.arguments[index]? with
  | some (.count value) => .ok value
  | _ => .error (p.fault .count index)

def direction (p : Part) (index : Nat) : Except Error SortDirection :=
  match p.arguments[index]? with
  | some (.direction value) => .ok value
  | _ => .error (p.fault .direction index)

/-- The place of the nulls at a position, where the part may also end before it. -/
def nulls (p : Part) (index : Nat) : Except Error (Option NullsOrder) :=
  match p.arguments[index]? with
  | none => .ok none
  | some (.nulls value) => .ok (some value)
  | some _ => .error (p.fault .nulls index)

/-! ## The text at the end -/

/-- The text at the end of the part, and the part without it. -/
def popText (p : Part) : Except Error (String × Part) :=
  match p.arguments.getLast? with
  | some (.text value) => .ok (value, { p with arguments := p.arguments.dropLast })
  | _ => .error (p.fault .text (p.arguments.length - 1))

def pushText (p : Part) (value : String) : Part :=
  { p with arguments := p.arguments ++ [.text value] }

/-- The part with the text at its end continued; a part that ends otherwise stays as it is. -/
def extendText (p : Part) (suffix : String) : Part :=
  match p.arguments.getLast? with
  | some (.text value) =>
    { p with arguments := p.arguments.dropLast ++ [.text (value ++ suffix)] }
  | _ => p

end DeferredQuery.Part
