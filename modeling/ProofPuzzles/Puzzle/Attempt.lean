import ProofPuzzles.Backward
import ProofPuzzles.Bounds
import ProofPuzzles.Graph.Cut
import ProofPuzzles.Inference

/-!
# Attempts at a puzzle

An attempt grows a derivation graph. It starts from literals over fresh letters and then takes
steps: forwards, it adds what a rule derives from the statements of the graph; backwards, it
derives a leaf from new leaves. Letters are asserted with one sign only, so that the leaves
stay consistent.
-/

namespace ProofPuzzles

/-- The state of an attempt. The latest statement is the one derived by the last step
    forwards. -/
structure Attempt (σ : Type) where
  graph : Graph
  commitments : Commitments
  weights : RuleWeights
  latest? : Option Nat
  source : σ

/-- What an attempt can stumble over. -/
inductive AttemptError where
  | weights (e : Random.WeightError)
  | graph (e : GraphError)
  deriving Repr, DecidableEq

/-- The wording of each error. -/
def AttemptError.message : AttemptError → String
  | .weights e => e.message
  | .graph e => e.message

/-- What a step results in, and the state that it leaves, also when it fails. -/
abbrev Outcome (σ α : Type) := Except AttemptError α × Attempt σ

namespace Attempt

variable {σ : Type} [RandomSource σ]

/-- An empty graph, with the letters in a random order. -/
def start (b : Bounds) (source : σ) : Attempt σ :=
  let (letters, source) := Random.shuffle b.letters source
  ⟨.empty, .ofLetters letters, b.ruleWeights, none, source⟩

/-- Draws whether something happens that has the given chance. -/
def happens (chance : Float) (a : Attempt σ) : Bool × Attempt σ :=
  let (x, source) := RandomSource.unit a.source
  (x < chance, { a with source })

def latestStatement? (a : Attempt σ) : Option Statement :=
  a.latest?.bind fun place => (a.graph.nodes[place]?).map (·.statement)

/-! ## Starting literals -/

/-- Adds a literal over the next fresh letter for each seed, as long as there are fresh
    letters. -/
def seedFrom (b : Bounds) : Nat → Attempt σ → Outcome σ Unit
  | 0, a => (.ok (), a)
  | seeds + 1, a =>
    match a.commitments.fresh? with
    | none => (.ok (), a)
    | some x =>
      let (negative, a) := a.happens b.seedNegationChance
      let literal : Formula := if negative then .neg (.letter x) else .letter x
      let commitments := match a.commitments.assert? literal with
        | some (_, commitments) => commitments
        | none => a.commitments
      let a := { a with commitments }
      match a.graph.addLeaf (.ofFormula literal) with
      | .error e => (.error (.graph e), a)
      | .ok (_, graph) => seedFrom b seeds { a with graph }

/-- Adds a random number of starting literals. -/
def seed (b : Bounds) (a : Attempt σ) : Outcome σ Unit :=
  let (count, source) := Random.between b.minSeeds b.maxSeeds b.minSeeds_le_maxSeeds a.source
  seedFrom b count.toNat { a with source }

/-! ## Steps forwards -/

/-- Whether the graph can take what an application derives: it is new and not too long. -/
def admits (b : Bounds) (a : Attempt σ) (application : Application) : Bool :=
  !a.graph.contains application.conclusion.statement
    && (application.conclusion.length : Int) ≤ b.maxFormulaTiles

/-- The applications that use the latest statement, if those are preferred and there are any,
    else all of them. -/
def prefer (b : Bounds) (found : List Application) (a : Attempt σ) :
    List Application × Attempt σ :=
  match a.latestStatement? with
  | none => (found, a)
  | some latest =>
    let (biased, a) := a.happens b.chainBias
    let consuming := found.filter fun application =>
      application.premises.any fun p => p.statement.identity = latest.identity
    (if biased && !consuming.isEmpty then consuming else found, a)

/-- Adds what an application derives and makes it the latest statement. -/
def record (b : Bounds) (application : Application) (a : Attempt σ) : Outcome σ Bool :=
  let parents := application.premises.filterMap fun p => a.graph.find? p.statement
  match a.graph.addDerived application.conclusion.statement (some application.rule) parents with
  | .error e => (.error (.graph e), a)
  | .ok (place, graph) =>
    let weights := a.weights.markUsed b.weightDecay application.rule
    (.ok true, { a with graph, weights, latest? := some place })

/-- Tries rules chosen from the candidates, each at most once and at most as many as the bound
    says, until one derives something that the graph can take. -/
def forwardFrom (b : Bounds) (known : List Wff) :
    Nat → List InferenceRule → Attempt σ → Outcome σ Bool
  | 0, _, a => (.ok false, a)
  | bound + 1, candidates, a =>
    match a.weights.choose candidates a.source with
    | .error e => (.error (.weights e), a)
    | .ok (none, _) => (.ok false, a)
    | .ok (some rule, source) =>
      let a := { a with source }
      let found := (Inference.applications rule known).filter (a.admits b)
      if found.isEmpty then forwardFrom b known bound (candidates.erase rule) a
      else
        let (preferred, a) := a.prefer b found
        if h : preferred = [] then (.ok false, a)
        else
          let (application, source) := Random.choose preferred h a.source
          record b application { a with source }

/-- A step forwards: derives a new statement by a rule that applies to the graph. The result says
    whether there was one. -/
def forward (b : Bounds) (a : Attempt σ) : Outcome σ Bool :=
  let known := wellFormed a.graph.statements
  let candidates := InferenceRule.all.filter (Inference.applies · known)
  forwardFrom b known candidates.length candidates a

/-! ## Steps backwards -/

/-- Derives a leaf by a strategy, if it proposes new leaves that are not too long and whose
    literals can be asserted. -/
def tryStrategy (b : Bounds) (leaf : Nat) (goal : Formula) (strategy : Strategy)
    (a : Attempt σ) : Outcome σ Bool :=
  match strategy.step? goal a.commitments with
  | none => (.ok false, a)
  | some step =>
    let statements := step.antecedents.map Statement.ofFormula
    if statements.any a.graph.contains then (.ok false, a)
    else if statements.any fun s => b.maxFormulaTiles < s.length then (.ok false, a)
    else match a.commitments.assertAll step.antecedents with
      | (false, _) => (.ok false, a)
      | (true, commitments) =>
        let a := { a with commitments }
        match a.graph.addLeaves statements with
        | (.error e, graph) => (.error (.graph e), { a with graph })
        | (.ok places, graph) =>
          match graph.deriveLeaf leaf strategy.rule places with
          | .error e => (.error (.graph e), { a with graph })
          | .ok graph => (.ok true, { a with graph })

/-- Tries the strategies in order until one derives the leaf. -/
def tryStrategies (b : Bounds) (leaf : Nat) (goal : Formula) :
    List Strategy → Attempt σ → Outcome σ Bool
  | [], a => (.ok false, a)
  | strategy :: strategies, a =>
    match a.tryStrategy b leaf goal strategy with
    | (.ok false, a) => tryStrategies b leaf goal strategies a
    | other => other

/-- Tries to derive the leaves in order until one is derived, by strategies in a random order. -/
def tryLeaves (b : Bounds) : List Nat → Attempt σ → Outcome σ Bool
  | [], a => (.ok false, a)
  | leaf :: leaves, a =>
    match (a.graph.nodes[leaf]?).bind (·.statement.formula?) with
    | none => tryLeaves b leaves a
    | some goal =>
      let (strategies, source) := Random.shuffle (Strategy.all.filter (·.applies goal)) a.source
      match tryStrategies b leaf goal strategies { a with source } with
      | (.ok false, a) => tryLeaves b leaves a
      | other => other

/-- A step backwards: derives one of the leaves behind the latest statement. The result says
    whether one could be derived. -/
def backward (b : Bounds) (a : Attempt σ) : Outcome σ Bool :=
  match a.latest? with
  | none => (.ok false, a)
  | some latest =>
    match a.graph.ancestors latest with
    | .error e => (.error (.graph e), a)
    | .ok places =>
      let leaves := (List.range a.graph.size).filter fun i => i ∈ places ∧ Cut.isLeafAt a.graph i
      let (leaves, source) := Random.shuffle leaves a.source
      tryLeaves b leaves { a with source }

/-! ## Growing the graph -/

/-- A step: now and then backwards, otherwise forwards, and backwards again if there is nothing to
    derive forwards. The result says whether a step could be taken. -/
def step (b : Bounds) (a : Attempt σ) : Outcome σ Bool :=
  let (first, a) := if a.latest?.isSome then a.happens b.backwardChance else (false, a)
  match if first then a.backward b else (.ok false, a) with
  | (.error e, a) => (.error e, a)
  | (.ok true, a) => (.ok true, a)
  | (.ok false, a) =>
    match a.forward b with
    | (.ok false, a) => a.backward b
    | other => other

/-- Takes steps until there are as many as wanted, no step can be taken, or the tries are used
    up. -/
def buildFrom (b : Bounds) (wanted : Int) : Nat → Int → Attempt σ → Outcome σ Unit
  | 0, _, a => (.ok (), a)
  | tries + 1, steps, a =>
    if wanted ≤ steps then (.ok (), a)
    else match a.step b with
      | (.error e, a) => (.error e, a)
      | (.ok true, a) => buildFrom b wanted tries (steps + 1) a
      | (.ok false, a) => (.ok (), a)

/-- Takes as many steps as a puzzle of the given difficulty needs. -/
def build (b : Bounds) (difficulty : Int) (a : Attempt σ) : Outcome σ Unit :=
  let wanted := b.targetSteps difficulty
  buildFrom b wanted (wanted * b.stepTriesFactor).toNat 0 a

end Attempt

end ProofPuzzles
