import ProofPuzzles.Commitments
import ProofPuzzles.Rule

/-!
# Working backwards from a goal

A strategy reads a rule of inference backwards: it names formulas from which the rule derives
the goal. Some strategies need a letter that has not been asserted yet.
-/

namespace ProofPuzzles

/-- A way of finding formulas from which a goal follows by one rule. -/
inductive Strategy where
  /-- A conjunction follows from its two sides. -/
  | reverseConjunction
  /-- `A→C` follows from `A→x` and `x→C`. -/
  | reverseHypotheticalSyllogism
  /-- `G` follows from `x→G` and `x`. -/
  | reverseModusPonens
  /-- `G` follows from `x∨G` and `¬x`. -/
  | reverseDisjunctiveSyllogism
  deriving Repr, DecidableEq

/-- What a strategy proposes: formulas to give as premises, and formulas to go on with. -/
structure BackwardStep where
  newPremises : List Formula
  nextGoals : List Formula
  deriving Repr, DecidableEq

/-- The formulas that the goal is derived from, in the order in which a proof cites them. -/
def BackwardStep.antecedents (step : BackwardStep) : List Formula :=
  step.newPremises ++ step.nextGoals

namespace Strategy

/-- The strategies in the order in which they are tried. -/
def all : List Strategy := [
  .reverseConjunction, .reverseHypotheticalSyllogism, .reverseModusPonens,
  .reverseDisjunctiveSyllogism]

def name : Strategy → String
  | .reverseConjunction => "reverse-Conjunction"
  | .reverseHypotheticalSyllogism => "reverse-HypotheticalSyllogism"
  | .reverseModusPonens => "reverse-ModusPonens"
  | .reverseDisjunctiveSyllogism => "reverse-DisjunctiveSyllogism"

/-- The rule that derives the goal. -/
def rule : Strategy → InferenceRule
  | .reverseConjunction => .conjunction
  | .reverseHypotheticalSyllogism => .hypotheticalSyllogism
  | .reverseModusPonens => .modusPonens
  | .reverseDisjunctiveSyllogism => .disjunctiveSyllogism

/-- Whether the goal has the shape that the strategy needs. -/
def applies : Strategy → Formula → Bool
  | .reverseConjunction, .conj _ _ => true
  | .reverseConjunction, _ => false
  | .reverseHypotheticalSyllogism, .impl _ _ => true
  | .reverseHypotheticalSyllogism, _ => false
  | .reverseModusPonens, _ => true
  | .reverseDisjunctiveSyllogism, _ => true

/-- What the strategy proposes for the goal: nothing if the goal has another shape, or if the
    strategy needs a free letter and there is none. The letter stays free. -/
def step? (strategy : Strategy) (goal : Formula) (c : Commitments) : Option BackwardStep :=
  match strategy, goal with
  | .reverseConjunction, .conj a b => some ⟨[], [a, b]⟩
  | .reverseConjunction, _ => none
  | .reverseHypotheticalSyllogism, .impl a b =>
    c.fresh?.map fun x => ⟨[], [.impl a (.letter x), .impl (.letter x) b]⟩
  | .reverseHypotheticalSyllogism, _ => none
  | .reverseModusPonens, goal =>
    c.fresh?.map fun x => ⟨[.impl (.letter x) goal], [.letter x]⟩
  | .reverseDisjunctiveSyllogism, goal =>
    c.fresh?.map fun x => ⟨[.disj (.letter x) goal], [.neg (.letter x)]⟩

end Strategy

end ProofPuzzles
