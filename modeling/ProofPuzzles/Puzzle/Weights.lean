import ProofPuzzles.Random.Source
import ProofPuzzles.Rule

/-!
# Weights of rules

How likely each rule of inference is to be chosen while a puzzle is made. A rule that has been
used becomes less likely.
-/

namespace ProofPuzzles

/-- The place of the rule in the catalog. -/
def InferenceRule.index : InferenceRule → Fin 9
  | .modusPonens => 0
  | .modusTollens => 1
  | .hypotheticalSyllogism => 2
  | .disjunctiveSyllogism => 3
  | .constructiveDilemma => 4
  | .absorption => 5
  | .simplification => 6
  | .conjunction => 7
  | .addition => 8

/-- A weight for each rule of inference, in catalog order. -/
structure RuleWeights where
  values : Vector Float 9

namespace RuleWeights

def get (weights : RuleWeights) (rule : InferenceRule) : Float := weights.values.get rule.index

/-- The weights with another one for a rule. -/
def set (weights : RuleWeights) (rule : InferenceRule) (weight : Float) : RuleWeights :=
  ⟨weights.values.set rule.index weight⟩

def usual : RuleWeights := ⟨#v[7.5, 7.75, 10.2, 10.3, 10.4, 5.0, 5.1, 10.1, 5.2]⟩

/-- The weights after a rule has been used. -/
def markUsed (weights : RuleWeights) (decay : Float) (rule : InferenceRule) : RuleWeights :=
  weights.set rule (weights.get rule * decay)

/-- One of the candidates, as likely as its weight says. Candidates without a positive weight are
    left out; if none remains, none is chosen. -/
def choose {σ : Type} [RandomSource σ] (weights : RuleWeights) (candidates : List InferenceRule)
    (source : σ) : Except Random.WeightError (Option InferenceRule × σ) :=
  match (candidates.map fun rule => (rule, weights.get rule)).filter fun c => 0.0 < c.2 with
  | [] => .ok (none, source)
  | first :: others =>
    match Random.chooseByWeight first others source with
    | .error e => .error e
    | .ok (rule, source) => .ok (some rule, source)

end RuleWeights

end ProofPuzzles
