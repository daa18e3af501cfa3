import Std.Data.HashSet

/-!
# First occurrences

From each class of elements with the same key, the element that comes first. A set of the keys
met so far makes this take one lookup per element.
-/

namespace ProofPuzzles

/-- The elements whose key is not among the given ones and has not occurred before. -/
def firstsAfter {α κ : Type} [BEq κ] [Hashable κ] (key : α → κ) (met : Std.HashSet κ) :
    List α → List α
  | [] => []
  | a :: as =>
    if met.contains (key a) then firstsAfter key met as
    else a :: firstsAfter key (met.insert (key a)) as

/-- The first element with each key, in order. -/
def firstsBy {α κ : Type} [BEq κ] [Hashable κ] (key : α → κ) (as : List α) : List α :=
  firstsAfter key ∅ as

end ProofPuzzles
