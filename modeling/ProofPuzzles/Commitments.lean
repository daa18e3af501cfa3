import ProofPuzzles.Formula.Literal

/-!
# Commitments

Which letters of an alphabet are still free, and with which sign each of the others has been
asserted. A letter that has been asserted with one sign can never be asserted with the other,
so whatever is asserted through commitments stays consistent.
-/

namespace ProofPuzzles

/-- The letters still free and the literals asserted so far, both in order. -/
structure Commitments where
  available : List Letter
  used : List Literal
  deriving Repr, DecidableEq

namespace Commitments

/-- All given letters are free. -/
def ofLetters (letters : List Letter) : Commitments := ⟨letters, []⟩

/-- The first free letter. -/
def fresh? (c : Commitments) : Option Letter := c.available.head?

/-- The literal that a letter under any number of negations comes to: two negations cancel. -/
def literal? (f : Formula) : Option Literal :=
  f.base?.map fun x => ⟨x, f.leadingNegations % 2 == 0⟩

/-- Asserts a letter under any number of negations. The result is the literal it comes to; there
    is none if the letter is asserted with the other sign or is outside the alphabet, or if the
    formula is compound. -/
def assert? (c : Commitments) (f : Formula) : Option (Literal × Commitments) :=
  match literal? f with
  | none => none
  | some l =>
    if l ∈ c.used then some (l, c)
    else if l.opposite ∈ c.used then none
    else if l.letter ∈ c.available then
      some (l, ⟨c.available.erase l.letter, c.used ++ [l]⟩)
    else none

/-- Asserts literals one after the other up to the first one that cannot be asserted. The
    commitments made before it stay. -/
def assertLiterals : List Literal → Commitments → Bool × Commitments
  | [], c => (true, c)
  | l :: ls, c =>
    match c.assert? l.formula with
    | some (_, c) => assertLiterals ls c
    | none => (false, c)

/-- Asserts every literal of the formulas up to the first one that cannot be asserted. -/
def assertAll (c : Commitments) (formulas : List Formula) : Bool × Commitments :=
  assertLiterals (formulas.flatMap Formula.literals) c

/-- Whether the letter under the leading negations has been asserted with either sign. -/
def isUsed (c : Commitments) (f : Formula) : Bool :=
  match f.base? with
  | some x => c.used.any (·.letter = x)
  | none => false

end Commitments

end ProofPuzzles
