import ProofPuzzles.Chapters
import ProofPuzzles.CommandLine.Request
import ProofPuzzles.Config.File
import ProofPuzzles.Puzzle.Generator
import ProofPuzzles.Random.Twister
import ProofPuzzles.Search
import ProofPuzzles.Validation

/-!
# Answering requests

What the program writes for each request, and the code with which it ends. The surroundings of
the program, its files and its environment, are given to it.
-/

namespace ProofPuzzles.CommandLine

/-- What the program finds around it. -/
structure Surroundings where
  /-- What stands at a path. -/
  entry : String → Config.PathEntry
  /-- The path of the configuration file that the environment names. -/
  configPath? : Option String
  /-- A seed for puzzles that need not be made again. -/
  freshSeed : Int

/-- Why the program breaks off. -/
inductive Crash where
  | config (e : Config.ConfigFault)
  | attempt (e : AttemptError)
  /-- A number is needed that was given without a value. -/
  | noNumber
  /-- A formula is needed that was given without a value. -/
  | noFormula

/-- The wording of each reason. -/
def Crash.message : Crash → String
  | .config e => e.message
  | .attempt e => e.message
  | .noNumber => "a number is missing"
  | .noFormula => "a formula is missing"

/-- How the program ends. -/
inductive Outcome where
  | finished (code : Nat) (out : List String) (err : List String)
  | crashed (crash : Crash)

/-- What is written when help is asked for, or nothing at all. -/
def helpText : String := "\n".intercalate [
  "usage: wff-tutor [-h] [--verbose] \x7bgenerate,prove,parse,chapters\x7d ...",
  "",
  "Propositional logic proof puzzles: generation, proof search, parsing.",
  "",
  "positional arguments:",
  "  \x7bgenerate,prove,parse,chapters\x7d",
  "                        Command to execute",
  "    generate            Generate puzzles at a difficulty",
  "    prove               Search for a proof from premises",
  "    parse               Show the canonical form of a formula",
  "    chapters            List curated problem chapters",
  "",
  "options:",
  "  -h, --help            show this help message and exit",
  "  --verbose, -v         Enable debug logging"]

/-- The bounds for a request: from the file that it names, else from the file that the environment
    names, else from the usual file if there is one. -/
def boundsFor (around : Surroundings) (config? : Option String) :
    Except Config.ConfigFault Bounds :=
  match config? with
  | some path =>
    if path = "" then usual else Config.boundsOfFile path (around.entry path)
  | none => usual
where
  usual :=
    let path := around.configPath?.getD Config.defaultPath
    Config.boundsOrUsual path (around.entry path)

/-- The lines for a puzzle, with a proof if one is asked for. -/
def puzzleLines (bounds : Bounds) (solve : Bool) (number : Nat) (problem : Problem) :
    List String :=
  let head := "#" ++ toString number ++ " [" ++ problem.id ++ "] difficulty="
    ++ toString problem.difficulty
  let premises := problem.premises.mapIdx fun i s => "  " ++ toString (i + 1) ++ ". " ++ s.text
  let limits : SearchLimits := {
    maxRounds := max bounds.searchMaxRounds (2 * problem.difficulty + 2)
    maxFormulas := bounds.searchMaxFormulas
    maxTiles := bounds.maxFormulaTiles }
  let solution :=
    if solve then
      match prove problem.premises problem.conclusion limits with
      | some proof => "  proof:" :: proof.map fun line => "    " ++ line.text
      | none => ["  proof: not found"]
    else []
  head :: (premises ++ ["  ⊢ " ++ problem.conclusion.text] ++ solution)

/-- What has been written while puzzles are made, and for how many none was found. -/
structure Written where
  out : List String := []
  err : List String := []
  failures : Nat := 0

/-- Makes puzzles with the given numbers. -/
def generatePuzzles (bounds : Bounds) (difficulty : Int) (solve : Bool) :
    List Nat → Twister → Written → Except AttemptError Written
  | [], _, written => .ok written
  | number :: numbers, source, written =>
    match Puzzle.generate bounds difficulty source with
    | (.error e, _) => .error e
    | (.ok none, source) =>
      let err := written.err ++ ["#" ++ toString number ++ ": no problem found"]
      generatePuzzles bounds difficulty solve numbers source
        { written with err, failures := written.failures + 1 }
    | (.ok (some problem), source) =>
      let out := written.out ++ puzzleLines bounds solve number problem
      generatePuzzles bounds difficulty solve numbers source { written with out }

/-- The difficulty of puzzles if nothing is said about it. -/
def usualDifficulty : Int := 3

/-- Makes puzzles within bounds. The program fails if none was found for any of them. The
    difficulty is needed only if there are puzzles to be made. -/
def generateWithin (bounds : Bounds) (freshSeed : Int) (request : GenerateRequest) : Outcome :=
  match request.seed.orElse freshSeed, request.count.orElse 1 with
  | some seed, some count =>
    let numbers := (List.range count.toNat).map (· + 1)
    match request.difficulty.orElse usualDifficulty, numbers with
    | none, _ :: _ => .crashed .noNumber
    | difficulty?, numbers =>
      let difficulty := difficulty?.getD usualDifficulty
      match generatePuzzles bounds difficulty request.solve numbers (Twister.ofSeed seed) {} with
      | .error e => .crashed (.attempt e)
      | .ok written =>
        .finished (if (written.failures : Int) = count then 1 else 0) written.out written.err
  | _, _ => .crashed .noNumber

/-- Makes puzzles. -/
def runGenerate (around : Surroundings) (request : GenerateRequest) : Outcome :=
  match boundsFor around request.config? with
  | .error (.reported e) => .finished 1 [] ["[FAIL] " ++ e.message]
  | .error e => .crashed (.config e)
  | .ok bounds => generateWithin bounds around.freshSeed request

/-- How many rounds the search for a proof has if nothing is said about it. -/
def usualMaxRounds : Int := 8

/-- Searches for a proof and checks it. -/
def runProve (request : ProveRequest) : Outcome :=
  match request.premises.mapM id, request.goal? with
  | some premises, some goal =>
    match request.maxRounds.orElse usualMaxRounds with
    | none => .crashed .noNumber
    | some maxRounds =>
      match prove (premises.map (·.statement)) goal.statement { maxRounds } with
      | none =>
        .finished 1 ["No proof of " ++ goal.text ++ " found within "
          ++ toString maxRounds ++ " round(s)."] []
      | some proof =>
        let verdict := proof.validate
        .finished (if verdict.isValid then 0 else 1) [proof.text, verdict.message] []
  | _, _ => .crashed .noFormula

/-- Shows a formula in full, with its literals. -/
def runParse (w : Wff) : Outcome :=
  .finished 0 ["canonical: " ++ w.formula.text,
    "literals:  " ++ ", ".intercalate (w.formula.literals.map Literal.text)] []

/-- Lists the chapters with their puzzles. -/
def runChapters : Outcome :=
  let lines := Chapter.all.flatMap fun chapter =>
    chapter.title :: chapter.problems.map fun problem =>
      "  " ++ problem.id ++ " " ++ problem.name ++ ": " ++ problem.text
  .finished 0 lines []

/-- Answers a request. -/
def Request.run (around : Surroundings) : Request → Outcome
  | .nothing => .finished 1 [helpText] []
  | .help => .finished 0 [helpText] []
  | .generate request => runGenerate around request
  | .prove request => runProve request
  | .parse w => runParse w
  | .chapters => runChapters

/-- What is written for lines: each of them ends. -/
def written (lines : List String) : String := String.join (lines.map (· ++ "\n"))

/-- The configuration file that a request reads, if it reads one. -/
def Request.configPath? (configPath? : Option String) : Request → Option String
  | .generate request =>
    match request.config? with
    | some path => some (if path = "" then configPath?.getD Config.defaultPath else path)
    | none => some (configPath?.getD Config.defaultPath)
  | _ => none

end ProofPuzzles.CommandLine
