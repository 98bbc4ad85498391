/-!
# Powers of two and ten

The two bases of written and stored numbers. Both functions are core's `Nat.pow`, so they compute
fast and core's lemmas about it apply.
-/

set_option autoImplicit false

namespace DeferredQuery.Number

def twoPow (exponent : Nat) : Nat := Nat.pow 2 exponent

def tenPow (exponent : Nat) : Nat := Nat.pow 10 exponent

@[simp] theorem tenPow_zero : tenPow 0 = 1 := rfl

end DeferredQuery.Number
