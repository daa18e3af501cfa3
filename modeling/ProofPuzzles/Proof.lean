import ProofPuzzles.Rule
import ProofPuzzles.Statement

/-!
# Proofs

A proof is a list of numbered lines. Each line states something and says why it may be stated:
it is assumed, or it follows by a rule from the lines that it cites by number.
-/

namespace ProofPuzzles

/-- Why a line may be stated. -/
inductive Justification where
  /-- The line is given. -/
  | premise
  /-- The line is assumed. -/
  | assumption
  /-- The line follows from the cited lines. -/
  | inference (rule : InferenceRule) (references : List Int)
  /-- The line is the cited line with one part replaced. -/
  | replacement (rule : ReplacementRule) (reference : Int)
  /-- The line repeats the cited line. -/
  | reiteration (reference : Int)
  /-- The line discharges the assumption of a sub-proof that reaches from one line to another. -/
  | conditionalProof (first last : Int)
  /-- The line denies the assumption of a sub-proof that reaches a contradiction. -/
  | reductio (first last : Int)
  deriving Repr, DecidableEq

/-- The short form of a justification, the rule followed by the lines it cites. -/
def Justification.text : Justification → String
  | .premise => "Premise"
  | .assumption => "Assumption"
  | .inference rule references =>
    rule.abbreviation ++ " " ++ ",".intercalate (references.map toString)
  | .replacement rule reference => rule.abbreviation ++ " " ++ toString reference
  | .reiteration reference => "R " ++ toString reference
  | .conditionalProof first last => "II " ++ toString first ++ "-" ++ toString last
  | .reductio first last => "RAA " ++ toString first ++ "-" ++ toString last

/-- A line of a proof. The depth counts the sub-proofs around the line. -/
structure ProofLine where
  number : Int
  statement : Statement
  justification : Justification
  depth : Int := 0

/-- The number, the statement, and the justification between brackets. -/
def ProofLine.text (line : ProofLine) : String :=
  toString line.number ++ ". " ++ line.statement.text ++ "  [" ++ line.justification.text ++ "]"

/-- The lines of a proof in order. -/
abbrev Proof := List ProofLine

namespace Proof

/-- The number that the next line gets: lines are counted from one. -/
def nextNumber (proof : Proof) : Int := proof.length + 1

/-- The proof with one more line. -/
def append (proof : Proof) (statement : Statement) (justification : Justification) : Proof :=
  proof ++ [{ number := proof.nextNumber, statement, justification }]

/-- The lines of the proof, one below the other. -/
def text (proof : Proof) : String := "\n".intercalate (proof.map ProofLine.text)

end Proof

end ProofPuzzles
