import ProofPuzzles.Firsts
import ProofPuzzles.Formula.Tile

/-!
# Literals

A formula asserts each of its letters positively or negatively, depending on whether the letter
stands directly under a negation. The negation of a compound part does not count: `¬(p∧q)`
asserts `p` and `q`.
-/

namespace ProofPuzzles

/-- A letter or the negation of a letter. -/
structure Literal where
  letter : Letter
  positive : Bool
  deriving Repr, DecidableEq, Hashable

namespace Literal

def formula (l : Literal) : Formula :=
  if l.positive then .letter l.letter else .neg (.letter l.letter)

def text (l : Literal) : String := l.formula.text

/-- The same letter with the other sign. -/
def opposite (l : Literal) : Literal := { l with positive := !l.positive }

end Literal

namespace Formula

/-- The literals of a formula from left to right, with repetitions. -/
def occurrences : Formula → List Literal
  | .letter x => [⟨x, true⟩]
  | .neg (.letter x) => [⟨x, false⟩]
  | .neg f => f.occurrences
  | .bin _ l r => l.occurrences ++ r.occurrences

/-- The distinct literals of a formula in the order of their first occurrence. -/
def literals (f : Formula) : List Literal := firstsBy id f.occurrences

end Formula

/-- The alphabetically first letter that the formulas assert both positively and negatively. -/
def contradiction? (formulas : List Formula) : Option Letter :=
  let asserted := formulas.flatMap Formula.literals
  Letter.all.find? fun x => asserted.contains ⟨x, true⟩ && asserted.contains ⟨x, false⟩

end ProofPuzzles
