import ProofPuzzles.CommandLine.Options
import ProofPuzzles.Config.Number
import ProofPuzzles.Statement

/-!
# Requests on the command line

The program has four commands, each with options of its own. Options of the program as a whole
stand in front of the command.
-/

namespace ProofPuzzles.CommandLine

/-- What the arguments say about a setting. -/
inductive Given (α : Type) where
  /-- It is not mentioned. -/
  | unsaid
  | value (a : α)
  /-- It is mentioned without a value. -/
  | blank
  deriving Repr, DecidableEq

namespace Given

/-- The setting with a value, if there is one. -/
def ofOption {α : Type} : Option α → Given α
  | some a => .value a
  | none => .blank

/-- The value, which is the usual one if the setting is not mentioned. -/
def orElse {α : Type} (usual : α) : Given α → Option α
  | .unsaid => some usual
  | .value a => some a
  | .blank => none

end Given

structure GenerateRequest where
  difficulty : Given Int := .unsaid
  count : Given Int := .unsaid
  seed : Given Int := .unsaid
  config? : Option String := none
  solve : Bool := false

/-- What to prove. Formulas without a value are among the premises as such. -/
structure ProveRequest where
  premises : List (Option Wff) := []
  goal? : Option Wff
  maxRounds : Given Int := .unsaid

/-- What the arguments ask for. -/
inductive Request where
  | nothing
  | help
  | generate (request : GenerateRequest)
  | prove (request : ProveRequest)
  | parse (w : Wff)
  | chapters

/-- A fault in the arguments, with the program or the command that found it. -/
structure UsageError where
  program : String
  message : String
  deriving Repr, DecidableEq

def programName : String := "wff-tutor"

/-- The line that reports the fault. -/
def UsageError.text (e : UsageError) : String := e.program ++ ": error: " ++ e.message ++ "\n"

/-- The option that asks for help. -/
def helpOption (α : Type) : OptionSpec α := ⟨["-h", "--help"], false, fun _ _ => .error .help⟩

/-- An option whose value is a whole number. -/
def integerOption {α : Type} (names : List String) (set : Given Int → α → α) : OptionSpec α where
  names := names
  takesValue := true
  apply
    | none, settings => .ok (set .blank settings)
    | some text, settings =>
      match Config.integerOfText text with
      | .ok n => .ok (set (.value n) settings)
      | .error _ => .error (argumentFault names ("invalid int value: " ++ Text.quoted text))

/-- Reads a well-formed formula for the argument with the given names. -/
def readFormula (names : List String) (text : String) : Except Stop Wff :=
  match Statement.ofText text with
  | .error e => .error (argumentFault names e.message)
  | .ok s =>
    match s.wff? with
    | some w => .ok w
    | none => .error (argumentFault names (FormulaError.notWellFormed text).message)

/-- An option whose value is a formula. -/
def formulaOption {α : Type} (names : List String) (set : Option Wff → α → α) : OptionSpec α where
  names := names
  takesValue := true
  apply
    | none, settings => .ok (set none settings)
    | some text, settings => (readFormula names text).map fun w => set (some w) settings

/-- The command that makes puzzles. -/
def generateCommand : CommandSpec GenerateRequest where
  options := [
    helpOption _,
    integerOption ["--difficulty", "-d"] fun n r => { r with difficulty := n },
    integerOption ["--count", "-n"] fun n r => { r with count := n },
    integerOption ["--seed"] fun n r => { r with seed := n },
    ⟨["--config", "-c"], true, fun path? r => .ok { r with config? := some (path?.getD "") }⟩,
    ⟨["--solve"], false, fun _ r => .ok { r with solve := true }⟩]
  word? := none

/-- What has been said so far about what to prove. -/
structure ProveSettings where
  premises : List (Option Wff) := []
  /-- The goal, if it is mentioned. -/
  goal? : Option (Option Wff) := none
  maxRounds : Given Int := .unsaid

/-- The command that searches for a proof. -/
def proveCommand : CommandSpec ProveSettings where
  options := [
    helpOption _,
    formulaOption ["--premise", "-p"] fun w r => { r with premises := r.premises ++ [w] },
    formulaOption ["--goal", "-g"] fun w r => { r with goal? := some w },
    integerOption ["--max-rounds"] fun n r => { r with maxRounds := n }]
  word? := none

/-- The command that shows a formula. -/
def parseCommand : CommandSpec (Option Wff) where
  options := [helpOption _]
  word? := some fun text _ => (readFormula ["formula"] text).map some

/-- The command that lists the chapters. -/
def chaptersCommand : CommandSpec Unit where
  options := [helpOption _]
  word? := none

/-- The complaint that arguments are missing. -/
def missing (names : String) : Stop :=
  .usage ("the following arguments are required: " ++ names)

def commandNames : List String := ["generate", "prove", "parse", "chapters"]

/-- Reads the arguments of the named command. -/
def readCommand (name : String) (args : List String) : Except Stop (Request × List String) :=
  match name with
  | "generate" => (generateCommand.read args {}).map fun (r, extras) => (.generate r, extras)
  | "prove" =>
    match proveCommand.read args {} with
    | .error stop => .error stop
    | .ok (r, extras) =>
      match r.goal? with
      | some goal => .ok (.prove ⟨r.premises, goal, r.maxRounds⟩, extras)
      | none => .error (missing "--goal/-g")
  | "parse" =>
    match parseCommand.read args none with
    | .error stop => .error stop
    | .ok (some w, extras) => .ok (.parse w, extras)
    | .ok (none, _) => .error (missing "formula")
  | "chapters" => (chaptersCommand.read args ()).map fun (_, extras) => (.chapters, extras)
  | _ =>
    .error (argumentFault ["command"]
      ("invalid choice: " ++ Text.quoted name ++ " (choose from "
        ++ ", ".intercalate (commandNames.map Text.quoted) ++ ")"))

/-- The options of the program as a whole. -/
def programOptions : List (OptionSpec Unit) := [
  helpOption _,
  ⟨["--verbose", "-v"], false, fun _ _ => .ok ()⟩]

/-- The arguments in front of the first word, and the word with all arguments behind it. -/
def splitCommand : List (Token Unit × String) → List (Token Unit) × Option (String × List String)
  | [] => ([], none)
  | (.word s, _) :: rest => ([], some (s, rest.map (·.2)))
  | (.separator, _) :: rest =>
    if rest.isEmpty then ([.separator], none) else ([], some ("--", rest.map (·.2)))
  | (token, _) :: rest =>
    let (tokens, command?) := splitCommand rest
    (token :: tokens, command?)

/-- The outcome of reading, with the name of the program or command that found a fault. -/
def reported {α : Type} (program : String) (help : α) : Except Stop α → Except UsageError α
  | .ok a => .ok a
  | .error .help => .ok help
  | .error (.usage message) => .error ⟨program, message⟩

/-- Reads the arguments of the program. Arguments without a use are reported last. -/
def readRequest (args : List String) : Except UsageError Request := do
  let tokens ← match classifyAll programOptions args with
    | .ok tokens => .ok tokens
    | .error (.usage message) => .error ⟨programName, message⟩
    | .error .help => .ok []
  let (own, command?) := splitCommand (tokens.zip args)
  match applyTokens ⟨programOptions, none⟩ none own () with
  | .error .help => return .help
  | .error (.usage message) => throw ⟨programName, message⟩
  | .ok ((), ownExtras) =>
    let (request, extras) ← match command? with
      | none => pure (.nothing, [])
      | some (name, rest) =>
        let program :=
          if commandNames.contains name then programName ++ " " ++ name else programName
        reported program (.help, []) (readCommand name rest)
    match request, ownExtras ++ extras with
    | .help, _ => return .help
    | request, [] => return request
    | _, extras => throw ⟨programName, "unrecognized arguments: " ++ " ".intercalate extras⟩

end ProofPuzzles.CommandLine
