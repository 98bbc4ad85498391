import DeferredQuery.Error

/-!
# Pools

A pool answers query texts. The answers are functions of the text, so that what a terminal call does
is told by the texts that it sent and the answer that it got.
-/

set_option autoImplicit false

namespace DeferredQuery

/-- What answers queries, with rows of some type. -/
structure Pool (ρ : Type) where
  fetchAll : String → Except Error (List ρ)
  fetchOptional : String → Except Error (Option ρ)
  fetchCount : String → Except Error Nat

/-- The texts that were sent, in order, and the answer. -/
structure Execution (α : Type) where
  sent : List String
  answer : Except Error α

namespace Pool

/-- A pool with the same rows and the same count for every text. -/
def constant {ρ : Type} (rows : List ρ) (count : Nat) : Pool ρ where
  fetchAll _ := .ok rows
  fetchOptional _ := .ok rows.head?
  fetchCount _ := .ok count

def failing {ρ : Type} (error : Error) : Pool ρ where
  fetchAll _ := .error error
  fetchOptional _ := .error error
  fetchCount _ := .error error

end Pool

end DeferredQuery
