import ProofPuzzles.Bounds
import ProofPuzzles.Config.Yaml.Fault

/-!
# Bounds from configuration values

A configuration is a mapping with sections for the start of a puzzle, its steps, the attempts at
it and the search for proofs, with weights of rules, and with the letters to use. What it does
not mention is as usual.
-/

namespace ProofPuzzles.Config

/-- What is wrong with a configuration, to be reported as such. -/
inductive ConfigError where
  | settings (e : SettingsError)
  /-- The key of a weight is no rule of inference. -/
  | unknownRule (key : Value)
  /-- A setting is not the number that is wanted. -/
  | invalidNumber (e : NumberFault)
  /-- The letters are given by a value of a kind that has no parts. -/
  | invalidVariables (kind : String)
  /-- These are no names of letters, among them texts that have codes which are no characters. -/
  | unknownNames (names : List Value)
  | fileNotFound (path : String)
  | unreadableFile (path : String)
  | notAMapping (path : String)

/-- The wording of each complaint. -/
def ConfigError.message : ConfigError → String
  | .settings e => e.message
  | .unknownRule key => "Unknown inference rule in weights: " ++ key.shown
  | .invalidNumber e => "Invalid generator configuration: " ++ e.message
  | .invalidVariables kind =>
    "Invalid generator configuration: '" ++ kind ++ "' object is not iterable"
  | .unknownNames names =>
    "Unknown variable names: [" ++ ", ".intercalate (names.map Value.shown) ++ "]"
  | .fileNotFound path => "Generator config not found at: " ++ path
  | .unreadableFile path => "Error parsing YAML file: " ++ path
  | .notAMapping path => "Malformed generator config: expected a mapping in " ++ path

/-- Why no bounds can be had from a configuration. -/
inductive ConfigFault where
  /-- The configuration is wrong in a way that is reported as such. -/
  | reported (e : ConfigError)
  /-- A value cannot be taken as a number at a place where this is not reported. -/
  | number (e : NumberFault)
  /-- A section, or the configuration as a whole, is a value of a kind without entries. -/
  | noEntries (kind : String)
  /-- The file is well formed, but a value in it does not exist. -/
  | document (e : Yaml.Fault)
  /-- The file to be read is a directory. -/
  | directory (path : String)
  /-- The path is longer than the file system admits. -/
  | pathTooLong (path : String)

/-- The wording of each fault. -/
def ConfigFault.message : ConfigFault → String
  | .reported e => e.message
  | .number e => e.message
  | .noEntries kind => "no entries in a value of kind " ++ kind
  | .document e => e.message
  | .directory path => "is a directory: " ++ path
  | .pathTooLong path => "path too long: " ++ path

/-- A section that has been fetched. It is looked into only when one of its settings is wanted. -/
structure Section where
  value : Value

namespace Section

/-- The section with the given name. A void value counts as an empty section. -/
def fetch (entries : List (Value × Value)) (name : String) : Section :=
  match Value.lookup? name entries with
  | some v => if v.isVoid then ⟨.mapping []⟩ else ⟨v⟩
  | none => ⟨.mapping []⟩

def entries (s : Section) : Except ConfigFault (List (Value × Value)) :=
  match s.value with
  | .mapping entries => .ok entries
  | v => .error (.noEntries v.kindName)

/-- A setting, converted; the usual one if the section does not mention it. Numbers that no
    floating-point or whole number can hold are not reported as complaints. -/
def setting {α : Type} (s : Section) (convert : Value → Except NumberFault α) (name : String)
    (usual : α) : Except ConfigFault α :=
  match s.entries with
  | .error e => .error e
  | .ok entries =>
    match Value.lookup? name entries with
    | none => .ok usual
    | some v =>
      match convert v with
      | .ok a => .ok a
      | .error .infinityAsInteger => .error (.number .infinityAsInteger)
      | .error .integerTooLarge => .error (.number .integerTooLarge)
      | .error e => .error (.reported (.invalidNumber e))

end Section

/-- The weights with those of the entries put in, in order. -/
def readWeights : List (Value × Value) → RuleWeights → Except ConfigFault RuleWeights
  | [], weights => .ok weights
  | (key, value) :: entries, weights =>
    if !key.isShowable then .error (.number .unshowable)
    else match Rule.ofAbbreviation? key.asText with
      | some (.inference rule) =>
        match value.toFloat with
        | .ok weight => readWeights entries (weights.set rule weight)
        | .error e => .error (.number e)
      | _ => .error (.reported (.unknownRule key))

/-- The parts of a value: the items of a list or a set, the characters of a text, the numbers of
    bytes, or the keys of a mapping. -/
def partsOf? : Value → Option (List Value)
  | .list items => some items
  | .set items => some items
  | .text s => some (s.toList.map fun c => .text c.toString)
  | .codes codes => some (codes.map fun code => Value.ofCodes [code])
  | .bytes bytes => some (bytes.map fun byte => .int (Int.ofNat byte))
  | .mapping entries => some (entries.map (·.1))
  | _ => none

/-- The names of the letters, as they are given. -/
def readVariables (v : Value) : Except ConfigFault (List Value) :=
  match partsOf? v with
  | none => .error (.reported (.invalidVariables v.kindName))
  | some names =>
    if names.all Value.isShowable then .ok names
    else .error (.reported (.invalidNumber .unshowable))

/-- Whether the value is a text that has codes which are no characters. -/
def isBroken : Value → Bool
  | .codes _ => true
  | _ => false

/-- The names as texts. A text with codes that are no characters is no name. -/
def nameTexts (names : List Value) : Except ConfigFault (List String) :=
  if names.any isBroken then
    let texts := names.map fun v => if isBroken v then v else .text v.asText
    let unknown := texts.filter fun v => isBroken v || (Settings.letter? v.asText).isNone
    .error (.reported (.unknownNames unknown))
  else .ok (names.map Value.asText)

/-- The name of the entry with the letters to use. -/
def variablesName : String := "variables"

/-- The settings of a configuration. The weights come first, then the other settings in order. -/
def readSettings (entries : List (Value × Value)) : Except ConfigFault Settings := do
  let usual : Settings := {}
  let seeding := Section.fetch entries "seeding"
  let steps := Section.fetch entries "steps"
  let attempts := Section.fetch entries "attempts"
  let search := Section.fetch entries "search"
  let ruleWeights ← readWeights (← (Section.fetch entries "weights").entries) usual.ruleWeights
  let names ← match Value.lookup? variablesName entries with
    | some v => readVariables v
    | none => .ok (usual.letterNames.map Value.text)
  let settings : Settings := {
    minSeeds := ← seeding.setting Value.toInteger "min" usual.minSeeds
    maxSeeds := ← seeding.setting Value.toInteger "max" usual.maxSeeds
    seedNegationChance :=
      ← seeding.setting Value.toFloat "negation_chance" usual.seedNegationChance
    baseSteps := ← steps.setting Value.toInteger "base" usual.baseSteps
    stepsPerDifficulty :=
      ← steps.setting Value.toInteger "per_difficulty" usual.stepsPerDifficulty
    stepTriesFactor := ← steps.setting Value.toInteger "tries_factor" usual.stepTriesFactor
    backwardChance := ← steps.setting Value.toFloat "backward_chance" usual.backwardChance
    chainBias := ← steps.setting Value.toFloat "chain_bias" usual.chainBias
    weightDecay := ← steps.setting Value.toFloat "weight_decay" usual.weightDecay
    maxFormulaTiles := ← steps.setting Value.toInteger "max_formula_tiles" usual.maxFormulaTiles
    maxAttempts := ← attempts.setting Value.toInteger "max" usual.maxAttempts
    searchMaxRounds := ← search.setting Value.toInteger "max_rounds" usual.searchMaxRounds
    searchMaxFormulas :=
      ← search.setting Value.toInteger "max_formulas" usual.searchMaxFormulas
    ruleWeights }
  return { settings with letterNames := ← nameTexts names }

/-- The complaint about settings. A range of numbers that cannot be shown is a fault of its own. -/
def reportOf : SettingsError → ConfigError
  | .seedRange low high =>
    if Decimal.isShowable low && Decimal.isShowable high then .settings (.seedRange low high)
    else .invalidNumber .unshowable
  | e => .settings e

/-- The bounds of a configuration. -/
def readBounds : Value → Except ConfigFault Bounds
  | .mapping entries => do
    let settings ← readSettings entries
    match Bounds.ofSettings settings with
    | .ok bounds => .ok bounds
    | .error e => .error (.reported (reportOf e))
  | v => .error (.noEntries v.kindName)

end ProofPuzzles.Config
