/-!
# Stretches of code points

A property of characters is listed as stretches of code points in ascending order. Looking a character up stops at the
first stretch that starts above it.
-/

namespace RpcBindings.Alphabet

/-- The code points `first, first + step, …, last`. -/
structure Stretch where
  first : Nat
  last : Nat
  step : Nat
  deriving DecidableEq, Repr

namespace Stretch

def covers (s : Stretch) (n : Nat) : Bool := s.first ≤ n && n ≤ s.last && (n - s.first) % s.step == 0

def anyCovers : List Stretch → Nat → Bool
  | [], _ => false
  | s :: rest, n => if n < s.first then false else s.covers n || anyCovers rest n

end Stretch

end RpcBindings.Alphabet
