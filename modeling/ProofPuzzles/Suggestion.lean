import ProofPuzzles.Backward
import ProofPuzzles.Inference
import ProofPuzzles.Proof
import ProofPuzzles.Replacement

/-!
# Suggestions for the next line
-/

namespace ProofPuzzles

/-- A formula that can be stated next, with its justification. -/
structure Suggestion where
  formula : Formula
  justification : Justification
  deriving Repr, DecidableEq

namespace Suggestion

/-- The number of the first of the lines that states the formula. -/
def numberOf? (lines : List ProofLine) (f : Formula) : Option Int :=
  (lines.find? (·.statement.formula? = some f)).map (·.number)

/-- What a rule of inference derives from the lines, except what they state already. The
    citations are in the order that a check of the proof expects; of the two formulas that
    Addition starts from only the first is cited. -/
def inferences (rule : InferenceRule) (lines : List ProofLine) : List Suggestion :=
  (Inference.applications rule (wellFormed (lines.map (·.statement)))).filterMap fun a =>
    if (numberOf? lines a.conclusion.formula).isSome then none
    else
      let cited := if rule = .addition then a.premises.take 1 else a.premises
      some ⟨a.conclusion.formula,
        .inference rule (cited.filterMap fun p => numberOf? lines p.formula)⟩

/-- What a rule of replacement makes of the line, except what the line states already. -/
def replacements (rule : ReplacementRule) (line : ProofLine) : List Suggestion :=
  match line.statement.formula? with
  | none => []
  | some f =>
    ((Replacement.variants rule f).filter (· ≠ f)).map fun g =>
      ⟨g, .replacement rule line.number⟩

/-- The strategies that propose a step for the goal, with their steps. -/
def backward (goal : Formula) (c : Commitments) : List (Strategy × BackwardStep) :=
  Strategy.all.filterMap fun s => (s.step? goal c).map (s, ·)

end Suggestion

end ProofPuzzles
