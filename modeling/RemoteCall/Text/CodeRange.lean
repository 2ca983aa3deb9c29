/-
# Ranges of code points

A property of characters is given by the ranges of the code points that have it.
-/

namespace RemoteCall

/-- The code points from `first` to `last`, both of them included. -/
structure CodeRange where
  first : Nat
  last : Nat
  deriving DecidableEq, Repr

/-- Whether a character lies in a range. -/
def CodeRange.covers (range : CodeRange) (c : Char) : Bool :=
  range.first ≤ c.toNat && c.toNat ≤ range.last

end RemoteCall
