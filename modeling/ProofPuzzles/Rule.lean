import ProofPuzzles.Text.Blank

/-!
# The rules

Nine rules of inference, which derive a formula from one or more whole formulas, and ten rules
of replacement, which replace a part of one formula.
-/

namespace ProofPuzzles

/-- A rule that derives a formula from whole formulas. -/
inductive InferenceRule where
  /-- From `A→B` and `A`, derive `B`. -/
  | modusPonens
  /-- From `A→B` and `¬B`, derive `¬A`. -/
  | modusTollens
  /-- From `A→B` and `B→C`, derive `A→C`. -/
  | hypotheticalSyllogism
  /-- From `A∨B` and the negation of one side, derive the other side. -/
  | disjunctiveSyllogism
  /-- From `A→B`, `C→D` and `A∨C`, derive `B∨D`. -/
  | constructiveDilemma
  /-- From `A→B`, derive `A→(A∧B)`. -/
  | absorption
  /-- From `A∧B`, derive `A` or `B`. -/
  | simplification
  /-- From `A` and `B`, derive `A∧B`. -/
  | conjunction
  /-- From `A`, derive `A∨X` or `X∨A`. -/
  | addition
  deriving Repr, DecidableEq, Hashable

namespace InferenceRule

/-- The rules in catalog order. -/
def all : List InferenceRule := [
  .modusPonens, .modusTollens, .hypotheticalSyllogism, .disjunctiveSyllogism,
  .constructiveDilemma, .absorption, .simplification, .conjunction, .addition]

/-- The full name. -/
def name : InferenceRule → String
  | .modusPonens => "Modus Ponens"
  | .modusTollens => "Modus Tollens"
  | .hypotheticalSyllogism => "Hypothetical Syllogism"
  | .disjunctiveSyllogism => "Disjunctive Syllogism"
  | .constructiveDilemma => "Constructive Dilemma"
  | .absorption => "Absorption"
  | .simplification => "Simplification"
  | .conjunction => "Conjunction"
  | .addition => "Addition"

/-- The short form that proofs cite. -/
def abbreviation : InferenceRule → String
  | .modusPonens => "MP"
  | .modusTollens => "MT"
  | .hypotheticalSyllogism => "HS"
  | .disjunctiveSyllogism => "DS"
  | .constructiveDilemma => "CD"
  | .absorption => "Abs"
  | .simplification => "Simp"
  | .conjunction => "Conj"
  | .addition => "Add"

theorem mem_all (r : InferenceRule) : r ∈ all := by cases r <;> decide

end InferenceRule

/-- A rule that replaces a part of a formula by an equivalent one. -/
inductive ReplacementRule where
  /-- `¬(A∧B)` and `¬A∨¬B`; `¬(A∨B)` and `¬A∧¬B`. -/
  | deMorgan
  /-- `A∧B` and `B∧A`; `A∨B` and `B∨A`. -/
  | commutation
  /-- `A∧(B∧C)` and `(A∧B)∧C`; `A∨(B∨C)` and `(A∨B)∨C`. -/
  | association
  /-- `A∧(B∨C)` and `(A∧B)∨(A∧C)`; `A∨(B∧C)` and `(A∨B)∧(A∨C)`. -/
  | distribution
  /-- `A` and `¬¬A`. -/
  | doubleNegation
  /-- `A→B` and `¬B→¬A`. -/
  | transposition
  /-- `A→B` and `¬A∨B`. -/
  | materialImplication
  /-- `A↔B` and `(A→B)∧(B→A)`; `A↔B` and `(A∧B)∨(¬A∧¬B)`. -/
  | materialEquivalence
  /-- `(A∧B)→C` and `A→(B→C)`. -/
  | exportation
  /-- `A` and `A∧A`; `A` and `A∨A`. -/
  | tautology
  deriving Repr, DecidableEq, Hashable

namespace ReplacementRule

/-- The rules in catalog order. -/
def all : List ReplacementRule := [
  .deMorgan, .commutation, .association, .distribution, .doubleNegation, .transposition,
  .materialImplication, .materialEquivalence, .exportation, .tautology]

/-- The full name. -/
def name : ReplacementRule → String
  | .deMorgan => "De Morgan's Theorem"
  | .commutation => "Commutation"
  | .association => "Association"
  | .distribution => "Distribution"
  | .doubleNegation => "Double Negation"
  | .transposition => "Transposition"
  | .materialImplication => "Material Implication"
  | .materialEquivalence => "Material Equivalence"
  | .exportation => "Exportation"
  | .tautology => "Tautology"

/-- The short form that proofs cite. -/
def abbreviation : ReplacementRule → String
  | .deMorgan => "DM"
  | .commutation => "Comm"
  | .association => "Assoc"
  | .distribution => "Dist"
  | .doubleNegation => "DN"
  | .transposition => "Trans"
  | .materialImplication => "MI"
  | .materialEquivalence => "ME"
  | .exportation => "Exp"
  | .tautology => "Taut"

theorem mem_all (r : ReplacementRule) : r ∈ all := by cases r <;> decide

end ReplacementRule

/-- A rule of either kind. -/
inductive Rule where
  | inference (rule : InferenceRule)
  | replacement (rule : ReplacementRule)
  deriving Repr, DecidableEq

namespace Rule

/-- All rules, those of inference first. -/
def all : List Rule := InferenceRule.all.map .inference ++ ReplacementRule.all.map .replacement

/-- The full name. -/
def name : Rule → String
  | .inference r => r.name
  | .replacement r => r.name

/-- The short form that proofs cite. -/
def abbreviation : Rule → String
  | .inference r => r.abbreviation
  | .replacement r => r.abbreviation

/-- The rule with the given short form. Blanks around it and the case of ASCII letters do not
    matter. -/
def ofAbbreviation? (text : String) : Option Rule :=
  let wanted := (Text.trim text.toList).map Char.toLower
  all.find? fun rule => rule.abbreviation.toList.map Char.toLower == wanted

end Rule

end ProofPuzzles
