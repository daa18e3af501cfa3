import ProofPuzzles.Decimal.Shortest
import ProofPuzzles.Formula.Symbol
import ProofPuzzles.Puzzle.Weights

/-!
# Bounds of puzzle making

The settings that say how puzzles are made. Not all values make sense: `Settings.complaint?`
tells the first thing that is wrong, and `Bounds` are settings about which there is no
complaint.
-/

namespace ProofPuzzles

/-- How puzzles are made. -/
structure Settings where
  /-- The names of the letters that formulas are built from. -/
  letterNames : List String := Letter.puzzleLetters.map (·.char.toString)
  /-- The least number of literals to start from. -/
  minSeeds : Int := 2
  /-- The greatest number of literals to start from. -/
  maxSeeds : Int := 4
  /-- The chance that a literal to start from is negative. -/
  seedNegationChance : Float := 0.25
  /-- The steps taken whatever the difficulty. -/
  baseSteps : Int := 1
  /-- The steps taken for each unit of difficulty. -/
  stepsPerDifficulty : Int := 2
  /-- How often a step is tried for each step that is wanted. -/
  stepTriesFactor : Int := 8
  /-- The chance that a step derives a leaf backwards. -/
  backwardChance : Float := 0.35
  /-- The chance that a step prefers to use the latest statement. -/
  chainBias : Float := 0.75
  /-- What the weight of a rule is multiplied by when the rule is used. -/
  weightDecay : Float := 0.5
  /-- The length of the longest statement admitted, in tiles. -/
  maxFormulaTiles : Int := 31
  /-- How often the making of a puzzle is tried. -/
  maxAttempts : Int := 50
  /-- How many rounds a search for a proof has. -/
  searchMaxRounds : Int := 8
  /-- How many statements a search for a proof may know. -/
  searchMaxFormulas : Int := 5000
  /-- How likely each rule of inference is. -/
  ruleWeights : RuleWeights := .usual

/-- What can be wrong with settings. -/
inductive SettingsError where
  | unknownVariables (names : List String)
  | tooFewVariables
  | seedRange (low high : Int)
  | chanceOutside (name : String) (value : Float)
  | decayOutside (value : Float)
  | noAttempts
  | negativeWeight

/-- The wording of each complaint. -/
def SettingsError.message : SettingsError → String
  | .unknownVariables names => "Unknown variable names: " ++ Text.quotedList names
  | .tooFewVariables => "At least two distinct variables are required"
  | .seedRange low high =>
    "Seed range must satisfy 1 <= min <= max, got " ++ toString low ++ ".." ++ toString high
  | .chanceOutside name value =>
    name ++ " must be within [0, 1], got " ++ Decimal.floatText value
  | .decayOutside value => "weight_decay must be within (0, 1], got " ++ Decimal.floatText value
  | .noAttempts => "max_attempts must be positive"
  | .negativeWeight => "Rule weights must be non-negative"

namespace Settings

/-- The letter with the given name, if there is one. -/
def letter? (name : String) : Option Letter := (Letter.ofName name).toOption

/-- Whether a chance lies between zero and one. -/
def isChance (x : Float) : Bool := 0.0 ≤ x && x ≤ 1.0

/-- The first thing that is wrong with the settings. -/
def complaint? (s : Settings) : Option SettingsError :=
  let unknown := s.letterNames.filter fun name => (letter? name).isNone
  if unknown ≠ [] then some (.unknownVariables unknown)
  else if s.letterNames.all (some · = s.letterNames.head?) then some .tooFewVariables
  else if ¬(1 ≤ s.minSeeds ∧ s.minSeeds ≤ s.maxSeeds) then
    some (.seedRange s.minSeeds s.maxSeeds)
  else if !isChance s.seedNegationChance then
    some (.chanceOutside "seed_negation_chance" s.seedNegationChance)
  else if !isChance s.backwardChance then
    some (.chanceOutside "backward_chance" s.backwardChance)
  else if !isChance s.chainBias then some (.chanceOutside "chain_bias" s.chainBias)
  else if !(0.0 < s.weightDecay && s.weightDecay ≤ 1.0) then some (.decayOutside s.weightDecay)
  else if s.maxAttempts < 1 then some .noAttempts
  else if s.ruleWeights.values.toList.any (· < 0.0) then some .negativeWeight
  else none

end Settings

/-- Settings about which there is no complaint. -/
structure Bounds extends Settings where
  accepted : toSettings.complaint? = none

namespace Bounds

/-- The settings as bounds, or the complaint about them. -/
def ofSettings (s : Settings) : Except SettingsError Bounds :=
  match h : s.complaint? with
  | none => .ok ⟨s, h⟩
  | some e => .error e

def usual : Bounds := ⟨{}, by decide +kernel⟩

/-- The letters that formulas are built from, in the given order. -/
def letters (b : Bounds) : List Letter := b.letterNames.filterMap Settings.letter?

/-- How many steps a puzzle of the given difficulty takes. -/
def targetSteps (b : Bounds) (difficulty : Int) : Int :=
  b.baseSteps + b.stepsPerDifficulty * max 1 difficulty

theorem minSeeds_le_maxSeeds (b : Bounds) : b.minSeeds ≤ b.maxSeeds := by
  have h := b.accepted
  unfold Settings.complaint? at h
  grind

end Bounds

end ProofPuzzles
