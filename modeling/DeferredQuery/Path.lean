import DeferredQuery.Error
import DeferredQuery.Text.Identifier

/-!
# Property paths

A path leads from an entity over relations to a property: `orders.items.price` names the price of
the items of the orders. A route is what is left of a path when nobody asks which of its segments
are relations: it may be all relations, as where a join goes, and it may be empty.
-/

set_option autoImplicit false

namespace DeferredQuery

/-- Segments to follow one after the other; they may be any texts, and there may be none. -/
structure Route where
  segments : List String
  deriving DecidableEq, Repr

def Route.text (r : Route) : String := String.intercalate "." r.segments

/-- The relations to go over, and the property at the end. -/
structure Path where
  relations : List String
  leaf : String
  deriving DecidableEq, Repr

namespace Path

def segments (p : Path) : List String := p.relations ++ [p.leaf]

def route (p : Path) : Route := ⟨p.segments⟩

def text (p : Path) : String := p.route.text

/-- The path with these segments, unless there is none. -/
def ofSegments? : List String → Option Path
  | [] => none
  | s :: rest => some ⟨(s :: rest).dropLast, (s :: rest).getLast (by simp)⟩

def isSegment (segment : String) : Bool := Text.isIdentifier segment.toList

/-- The path with these segments, each of which has to be a plain identifier. -/
def ofSegments (segments : List String) : Except Error Path :=
  match ofSegments? segments with
  | none => .error (.invalidQuery .emptyPath)
  | some path =>
    match segments.find? fun segment => !isSegment segment with
    | some bad => .error (.invalidQuery (.badSegment bad))
    | none => .ok path

theorem segments_of_ofSegments? {segments : List String} {p : Path}
    (h : ofSegments? segments = some p) : p.segments = segments := by
  cases segments with
  | nil => simp [ofSegments?] at h
  | cons s rest =>
    simp only [ofSegments?, Option.some.injEq] at h
    subst h
    simp [segments, List.dropLast_concat_getLast]

end Path

/-- What a join goes to: over the relations of a route, or over one relation whose name is taken as
it is. -/
inductive Target where
  | route (value : Route)
  | name (value : String)
  deriving DecidableEq, Repr

/-- The relations that a target goes over, in order. -/
def Target.relations : Target → List String
  | .route value => value.segments
  | .name value => [value]

end DeferredQuery
