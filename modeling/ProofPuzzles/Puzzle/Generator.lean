import ProofPuzzles.Formula.Literal
import ProofPuzzles.Puzzle.Attempt
import ProofPuzzles.Puzzle.Problem

/-!
# Making puzzles

A puzzle is made from an attempt that derives something: the derivation of the latest statement
is cut, and what is left of it is given as premises.
-/

namespace ProofPuzzles

namespace Puzzle

variable {σ : Type} [RandomSource σ]

/-- The puzzle that an attempt comes to: none if nothing was derived, if the conclusion would be
    a premise, or if the premises contradict each other. -/
def ofAttempt (difficulty : Int) (a : Attempt σ) : Except AttemptError (Option Problem) :=
  match a.latest? with
  | none => .ok none
  | some latest =>
    match a.graph.cut latest difficulty, a.graph.node latest with
    | .error e, _ => .error (.graph e)
    | _, .error e => .error (.graph e)
    | .ok cut, .ok node =>
      let statements := cut.premises.filterMap fun i => (a.graph.nodes[i]?).map (·.statement)
      let premises := Text.sortedBy Statement.text (firstsBy Statement.identity statements)
      let conclusion := node.statement
      let hidden := cut.hidden.length
      if hidden = 0 || premises.any (·.identity = conclusion.identity) then .ok none
      else if (contradiction? (premises.filterMap Statement.formula?)).isSome then .ok none
      else .ok <| some {
        premises, conclusion
        difficulty := hidden
        id := "gen-" ++ Problem.fingerprint premises conclusion
        name := "Generated Problem (difficulty " ++ toString hidden ++ ")" }

/-- One attempt at a puzzle. -/
def attempt (b : Bounds) (difficulty : Int) (source : σ) :
    Except AttemptError (Option Problem) × σ :=
  match (Attempt.start b source).seed b with
  | (.error e, a) => (.error e, a.source)
  | (.ok (), a) =>
    match a.build b difficulty with
    | (.error e, a) => (.error e, a.source)
    | (.ok (), a) => (ofAttempt difficulty a, a.source)

/-- Attempts puzzles until one comes out, at most as often as the bound says. -/
def generateWithin (b : Bounds) (difficulty : Int) :
    Nat → σ → Except AttemptError (Option Problem) × σ
  | 0, source => (.ok none, source)
  | attempts + 1, source =>
    match attempt b difficulty source with
    | (.ok none, source) => generateWithin b difficulty attempts source
    | other => other

/-- Makes a puzzle of at most the given difficulty, but at least one. -/
def generate (b : Bounds) (difficulty : Int) (source : σ) :
    Except AttemptError (Option Problem) × σ :=
  generateWithin b (max 1 difficulty) b.maxAttempts.toNat source

end Puzzle

end ProofPuzzles
