import DeferredQuery.Chain.Scope
import DeferredQuery.Pool

/-!
# Queries

A query is a chain over a builder, and is to give one row or all of them. Nothing happens before a
terminal call: it replays the parts onto a copy of the builder, asks for the text, and sends it to a
pool. So a terminal call changes nothing, and every one starts from the same parts.
-/

set_option autoImplicit false

namespace DeferredQuery

/-- Whether a query gives at most one row or all of them. -/
inductive Fetch where
  | one
  | many
  deriving DecidableEq, Repr

def Fetch.purpose : Fetch → Purpose
  | .one => .one
  | .many => .many

structure Query (β : Type) where
  builder : β
  chain : Chain
  fetch : Fetch

/-- The rows that a query gives. -/
inductive Rows (ρ : Type) where
  | one (row : Option ρ)
  | many (rows : List ρ)
  deriving DecidableEq, Repr

namespace Query

variable {β ρ : Type} [Builder β]

def new (builder : β) : Query β := ⟨builder, Chain.start (Builder.baseAlias builder), .many⟩

def withFetch (fetch : Fetch) (q : Query β) : Query β := { q with fetch := fetch }

/-- The text for a purpose of the builder with the parts replayed onto it. -/
def render (purpose : Purpose) (parts : List Part) (builder : β) : Except Error String :=
  match (replay parts builder).result with
  | .error error => .error error
  | .ok builder => Builder.text purpose builder

def text (q : Query β) : Except Error String := render .display q.chain.parts q.builder

/-- The text of the query as a subquery, which gives the selected column. -/
def subqueryText (q : Query β) : Except Error String :=
  match q.chain.selection with
  | none => .error (.invalidQuery .noSelection)
  | some column => render .display (.select column :: q.chain.parts) q.builder

/-- The text of the builder as it was given, with nothing replayed. -/
def builderText (q : Query β) : Except Error String := Builder.text .display q.builder

/-- Sends a builder's text for one row or for all rows. -/
def fetchFrom (fetch : Fetch) (text : Except Error String) (pool : Pool ρ) : Execution (Rows ρ) :=
  match text with
  | .error error => ⟨[], .error error⟩
  | .ok text =>
    match fetch with
    | .one => ⟨[text], (pool.fetchOptional text).map .one⟩
    | .many => ⟨[text], (pool.fetchAll text).map .many⟩

def countFrom (text : Except Error String) (pool : Pool ρ) : Execution Nat :=
  match text with
  | .error error => ⟨[], .error error⟩
  | .ok text => ⟨[text], pool.fetchCount text⟩

def run (q : Query β) (pool : Pool ρ) : Execution (Rows ρ) :=
  fetchFrom q.fetch (render q.fetch.purpose q.chain.parts q.builder) pool

def count (q : Query β) (pool : Pool ρ) : Execution Nat :=
  countFrom (render .count q.chain.parts q.builder) pool

end Query

end DeferredQuery
