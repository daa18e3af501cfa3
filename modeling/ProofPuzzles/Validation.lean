import ProofPuzzles.Inference
import ProofPuzzles.Proof
import ProofPuzzles.Replacement

/-!
# Checking proofs

The lines of a proof are checked in order, each against the lines accepted before it, up to the
first one with a fault. The premises of a rule that play different parts are cited in a fixed
order; the two sides of a conjunction may be cited in either order.
-/

namespace ProofPuzzles

namespace InferenceRule

/-- How many lines a citation of the rule can name. -/
def referenceCounts : InferenceRule → List Nat
  | .modusPonens | .modusTollens | .hypotheticalSyllogism | .disjunctiveSyllogism => [2]
  | .constructiveDilemma => [2, 3]
  | .absorption | .simplification => [1]
  | .conjunction => [2]
  | .addition => [1]

/-- The parts that the cited lines play, in the order in which they have to be cited, if they
    play different ones. -/
def citationOrder? : InferenceRule → Nat → Option (List String)
  | .modusPonens, 2 => some ["implication", "antecedent"]
  | .modusTollens, 2 => some ["implication", "negated consequent"]
  | .hypotheticalSyllogism, 2 => some ["first implication", "second implication"]
  | .disjunctiveSyllogism, 2 => some ["disjunction", "negated disjunct"]
  | .constructiveDilemma, 2 => some ["conjunction of implications", "disjunction"]
  | .constructiveDilemma, 3 => some ["first implication", "second implication", "disjunction"]
  | _, _ => none

end InferenceRule

/-- What is wrong with a line. -/
inductive LineFault where
  /-- The number does not go on from the previous one. -/
  | badNumber (previous : Int)
  /-- The statement reads as no formula. -/
  | notWellFormed (text : String)
  /-- The line stands inside a sub-proof. -/
  | insideSubproof
  /-- A cited line has not been accepted. -/
  | missingLine (reference : Int)
  /-- The rule is cited with a wrong number of lines. -/
  | badReferenceCount (rule : InferenceRule)
  /-- The statement does not follow from the cited lines by the rule. -/
  | doesNotFollow (rule : Rule)
  /-- The statement follows, but the lines are cited in another order than this. -/
  | badOrder (rule : InferenceRule) (parts : List String)
  /-- The statement is not the one on the cited line. -/
  | notRepeated (reference : Int)
  /-- The justification discharges an assumption. -/
  | needsConditionalProof
  /-- The justification denies an assumption. -/
  | needsReductio
  deriving Repr, DecidableEq

/-- The wording of a fault on the line with the given number. -/
def LineFault.message (number : Int) (fault : LineFault) : String :=
  let line := "Line " ++ toString number
  match fault with
  | .badNumber previous =>
    line ++ ": line numbers must increase from 1 (previous was " ++ toString previous ++ ")."
  | .notWellFormed text => line ++ ": '" ++ text ++ "' is not a well-formed formula."
  | .insideSubproof => line ++ ": sub-proofs are not supported."
  | .missingLine reference =>
    line ++ " references non-existent line " ++ toString reference ++ "."
  | .badReferenceCount rule =>
    line ++ ": " ++ rule.name ++ " requires "
      ++ " or ".intercalate (rule.referenceCounts.map toString) ++ " reference line(s)."
  | .doesNotFollow rule => line ++ ": Does not follow by " ++ rule.name ++ "."
  | .badOrder rule parts =>
    line ++ ": " ++ rule.name ++ " expects its cited lines in the order "
      ++ ", ".intercalate parts ++ "."
  | .notRepeated reference =>
    line ++ ": Reiteration must repeat line " ++ toString reference ++ " exactly."
  | .needsConditionalProof =>
    line ++ ": Implication Introduction requires sub-proofs, which are not supported."
  | .needsReductio =>
    line ++ ": Reductio ad Absurdum requires sub-proofs, which are not supported."

/-- The outcome of checking a proof. -/
inductive Verdict where
  | valid
  /-- The first line with a fault. -/
  | invalid (number : Int) (fault : LineFault)
  deriving Repr, DecidableEq

namespace Verdict

/-- Whether the proof was accepted. -/
def isValid : Verdict → Bool
  | .valid => true
  | .invalid _ _ => false

/-- What a reader of the proof is told. -/
def message : Verdict → String
  | .valid => "Proof is valid!"
  | .invalid number fault => fault.message number

end Verdict

/-- The accepted lines, the last one first: their numbers and what they state. -/
abbrev Accepted := List (Int × Wff)

namespace Accepted

/-- What the accepted line with the given number states. -/
def line? (accepted : Accepted) (number : Int) : Option Wff :=
  (accepted.find? (·.1 = number)).map (·.2)

/-- What the accepted line with the given number states, or the complaint that there is none. -/
def line (accepted : Accepted) (number : Int) : Except LineFault Wff :=
  match accepted.line? number with
  | some w => .ok w
  | none => .error (.missingLine number)

/-- What the accepted lines with the given numbers state, or the complaint about the first one
    that is missing. -/
def lines (accepted : Accepted) : List Int → Except LineFault (List Wff)
  | [] => .ok []
  | number :: numbers =>
    match accepted.line number with
    | .error fault => .error fault
    | .ok w =>
      match accepted.lines numbers with
      | .error fault => .error fault
      | .ok ws => .ok (w :: ws)

end Accepted

namespace Validation

/-- Checks that a statement follows by a rule of inference from the cited lines. -/
def checkInference (accepted : Accepted) (w : Wff) (rule : InferenceRule)
    (references : List Int) : Except LineFault Unit :=
  if references.length ∉ rule.referenceCounts then .error (.badReferenceCount rule)
  else match accepted.lines references with
    | .error fault => .error fault
    | .ok cited =>
      let found := Inference.matchingWff rule cited w
      if found.isEmpty then .error (.doesNotFollow (.inference rule))
      else match rule.citationOrder? references.length with
        | some parts =>
          if found.any fun a => a.premises.map Wff.formula = cited.map Wff.formula then .ok ()
          else .error (.badOrder rule parts)
        | none => .ok ()

/-- Checks that a statement may be made after the accepted lines. -/
def checkJustification (accepted : Accepted) (w : Wff) : Justification → Except LineFault Unit
  | .premise => .ok ()
  | .assumption => .ok ()
  | .inference rule references => checkInference accepted w rule references
  | .replacement rule reference =>
    match accepted.line reference with
    | .error fault => .error fault
    | .ok source =>
      if Replacement.follows rule source.statement w.statement then .ok ()
      else .error (.doesNotFollow (.replacement rule))
  | .reiteration reference =>
    match accepted.line reference with
    | .error fault => .error fault
    | .ok source => if source.formula = w.formula then .ok () else .error (.notRepeated reference)
  | .conditionalProof _ _ => .error .needsConditionalProof
  | .reductio _ _ => .error .needsReductio

/-- Checks a line after the accepted lines, the last of which has the given number; that number
    is zero if there is none. -/
def checkLine (previous : Int) (accepted : Accepted) (line : ProofLine) :
    Except LineFault Wff :=
  if line.number ≤ previous ∨ previous = 0 ∧ line.number ≠ 1 then .error (.badNumber previous)
  else match line.statement.wff? with
    | none => .error (.notWellFormed line.statement.text)
    | some w =>
      if line.depth ≠ 0 then .error .insideSubproof
      else match checkJustification accepted w line.justification with
        | .error fault => .error fault
        | .ok () => .ok w

/-- Checks the lines that follow the accepted ones. -/
def validateFrom (previous : Int) (accepted : Accepted) : Proof → Verdict
  | [] => .valid
  | line :: lines =>
    match checkLine previous accepted line with
    | .error fault => .invalid line.number fault
    | .ok w => validateFrom line.number ((line.number, w) :: accepted) lines

end Validation

/-- Checks a proof. -/
def Proof.validate (proof : Proof) : Verdict := Validation.validateFrom 0 [] proof

end ProofPuzzles
