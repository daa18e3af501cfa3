import Mathlib.Logic.Relation
import ProofPuzzles.Proofs.Puzzle.Turns

/-! # What an attempt can do

However the numbers fall, an attempt changes its state in four ways only: it draws, it asserts a
literal to start from, it records what a rule derives, or it derives a leaf from new leaves. What
each of these keeps holds in every state that an attempt reaches.
-/

namespace ProofPuzzles

namespace Attempt

open Relation

variable {σ : Type} {b : Bounds} {a a' : Attempt σ}

/-- One change of the state. -/
inductive Move (b : Bounds) (a : Attempt σ) : Attempt σ → Prop where
  | draw (source : σ) : Move b a { a with source }
  | seed {x : Letter} {literal : Formula} {place : Nat} {graph : Graph}
    (fresh : a.commitments.fresh? = some x)
    (literally : literal = .letter x ∨ literal = .neg (.letter x))
    (added : a.graph.addLeaf (.ofFormula literal) = .ok (place, graph)) :
    Move b a { a with graph, commitments := committed a.commitments literal }
  | derive {rule : InferenceRule} {application : Application} {place : Nat} {graph : Graph}
    (found : application ∈ Inference.applications rule (wellFormed a.graph.statements))
    (admitted : a.admits b application = true)
    (added : a.graph.addDerived application.conclusion.statement (some application.rule)
      (parentsOf a.graph application) = .ok (place, graph)) :
    Move b a { a with
      graph
      weights := a.weights.markUsed b.weightDecay application.rule
      latest? := some place }
  | expand {latest leaf : Nat} {reached places : List Nat} {goal : Formula} {strategy : Strategy}
    {step : BackwardStep} {commitments : Commitments} {grown graph : Graph}
    (derived : a.latest? = some latest) (ancestors : a.graph.ancestors latest = .ok reached)
    (behind : leaf ∈ reached) (isLeaf : Cut.isLeafAt a.graph leaf = true)
    (states : (a.graph.nodes[leaf]?).bind (·.statement.formula?) = some goal)
    (proposed : strategy.step? goal a.commitments = some step)
    (fresh : ∀ f ∈ step.antecedents, a.graph.contains (.ofFormula f) = false)
    (short : ∀ f ∈ step.antecedents, ((Statement.ofFormula f).length : Int) ≤ b.maxFormulaTiles)
    (asserted : a.commitments.assertAll step.antecedents = (true, commitments))
    (added : a.graph.addLeaves (step.antecedents.map .ofFormula) = (.ok places, grown))
    (derives : grown.deriveLeaf leaf strategy.rule places = .ok graph) :
    Move b a { a with graph, commitments }

/-- Any number of changes one after the other. -/
abbrev Moves (b : Bounds) : Attempt σ → Attempt σ → Prop := ReflTransGen (Move b)

theorem Moves.draw (source : σ) : Moves b a { a with source } := .single (.draw source)

theorem Seeding.moves (turn : Seeding a (.ok ()) a') : Moves b a a' := by
  cases turn with
  | idle exhausted => exact .refl
  | @added l place graph source fresh added =>
      have moved : Move b { a with source }
          { a with graph, source, commitments := committed a.commitments l.formula } :=
        .seed fresh (Literal.formula_cases l) added
      exact .head (.draw source) (.single moved)

theorem Forwards.moves [RandomSource σ] {result : Except AttemptError Bool}
    (went : Forwards b a result a') : Moves b a a' := by
  cases went with
  | idle source => exact .draw source
  | undecided source listed failed => exact .draw source
  | @derived rule application place graph source found admitted added =>
      have moved : Move b { a with source } { a with
          graph, source
          weights := a.weights.markUsed b.weightDecay application.rule
          latest? := some place } := .derive found admitted added
      exact .head (.draw source) (.single moved)

theorem Backwards.moves {derived : Bool} (went : Backwards b a (.ok derived) a') :
    Moves b a a' := by
  cases went with
  | idle source => exact .draw source
  | expands source newest ancestors behind isLeaf states expands =>
      cases expands with
      | idle => exact .draw source
      | @derived strategy step commitments places grown graph proposes added derives =>
          have moved : Move b { a with source } { a with graph, source, commitments } :=
            .expand newest ancestors behind isLeaf states proposes.proposed proposes.fresh
              proposes.short proposes.asserted added derives
          exact .head (.draw source) (.single moved)

variable [RandomSource σ]

/-! ## Starting literals -/

theorem seedFrom_one_moves (h : seedFrom b 1 a = (.ok (), a')) : Moves b a a' := by
  have turn := seedFrom_one b a
  rw [h] at turn
  exact turn.moves

/-- Seeds are added one at a time. -/
theorem exists_first {seeds : Nat} (h : seedFrom b (seeds + 1) a = (.ok (), a')) :
    ∃ first, seedFrom b 1 a = (.ok (), first) ∧ seedFrom b seeds first = (.ok (), a') := by
  rw [seedFrom_succ] at h
  split at h
  · cases h
  · rename_i first one
    exact ⟨first, one, h⟩

theorem seedFrom_moves {seeds : Nat} (h : seedFrom b seeds a = (.ok (), a')) : Moves b a a' := by
  induction seeds generalizing a with
  | zero =>
      cases h
      exact .refl
  | succ seeds ih =>
      obtain ⟨first, one, others⟩ := exists_first h
      exact (seedFrom_one_moves one).trans (ih others)

/-- A literal over a new letter is taken as it is drawn. -/
theorem exists_seedFrom_succ {x : Letter} {n : Nat} (fresh : a.commitments.fresh? = some x)
    (positive : a.happens b.seedNegationChance = (false, a))
    (new : a.graph.find? (.ofFormula (.letter x)) = none) :
    ∃ graph, seedFrom b (n + 1) a =
        seedFrom b n { a with graph, commitments := committed a.commitments (.letter x) } ∧
      graph.nodes = a.graph.nodes ++ [⟨.ofFormula (.letter x), none, []⟩] := by
  obtain ⟨graph, added, nodes⟩ := Graph.exists_addDerived new none []
  refine ⟨graph, ?_, nodes⟩
  rw [seedFrom, fresh]
  simp only [positive, Bool.false_eq_true, if_false, Graph.addLeaf, added]
  rfl

theorem seed_moves (h : seed b a = (.ok (), a')) : Moves b a a' :=
  (Moves.draw _).trans (seedFrom_moves h)

/-! ## Steps forwards -/

/-- Before anything is derived, one of the applications that are found is recorded. -/
theorem forwardFrom_succ {known : List Wff} {n : Nat} {candidates : List InferenceRule}
    {rule : InferenceRule} {source : σ} {application : Application} {others : List Application}
    (underived : a.latest? = none)
    (chosen : a.weights.choose candidates a.source = .ok (some rule, source))
    (found : (Inference.applications rule known).filter (a.admits b) = application :: others) :
    forwardFrom b known (n + 1) candidates a =
      record b (Random.choose (application :: others) (List.cons_ne_nil _ _) source).1
        { a with
          source := (Random.choose (application :: others) (List.cons_ne_nil _ _) source).2 } := by
  obtain ⟨graph, commitments, weights, _, before⟩ := a
  cases underived
  have drawn : (Inference.applications rule known).filter
      (admits b ⟨graph, commitments, weights, none, source⟩) = application :: others := found
  rw [forwardFrom, chosen]
  simp only [drawn, prefer, latestStatement?, Option.bind_none, List.isEmpty_cons,
    Bool.false_eq_true, if_false, List.cons_ne_nil, dite_false]

theorem forward_moves {derived : Bool} (h : forward b a = (.ok derived, a')) : Moves b a a' := by
  have went := forward_forwards b a
  rw [h] at went
  exact went.moves

theorem backward_moves {derived : Bool} (h : backward b a = (.ok derived, a')) : Moves b a a' := by
  have went := backward_backwards b a
  rw [h] at went
  exact went.moves

/-! ## Growing the graph -/

/-- A step first draws which way to go, and turns back where there is nothing to derive. -/
theorem exists_step_eq (b : Bounds) (a : Attempt σ) : ∃ first source, step b a =
    match if first = true then backward b { a with source } else (.ok false, { a with source }) with
    | (.error e, a) => (.error e, a)
    | (.ok true, a) => (.ok true, a)
    | (.ok false, a) =>
      match a.forward b with
      | (.ok false, a) => a.backward b
      | other => other := by
  cases derived : a.latest?.isSome with
  | true =>
      refine ⟨(a.happens b.backwardChance).1, (a.happens b.backwardChance).2.source, ?_⟩
      rw [step, derived]
      rfl
  | false =>
      refine ⟨false, a.source, ?_⟩
      rw [step, derived]
      rfl

/-- What holds of a state still holds after a draw and after either direction has had its turn. -/
structure Keeps (b : Bounds) (kept : Attempt σ → Prop) : Prop where
  draw : ∀ {a}, kept a → ∀ source, kept { a with source }
  forward : ∀ {a a' derived}, kept a → forward b a = (.ok derived, a') → kept a'
  backward : ∀ {a a' derived}, kept a → backward b a = (.ok derived, a') → kept a'

section

variable {kept : Attempt σ → Prop} (keeps : Keeps b kept)

include keeps

theorem Keeps.step {derived : Bool} (before : kept a) (h : step b a = (.ok derived, a')) :
    kept a' := by
  obtain ⟨first, source, same⟩ := exists_step_eq b a
  have turned : ∀ {derived : Bool} {c : Attempt σ},
      (if first = true then Attempt.backward b { a with source }
        else (.ok false, { a with source })) = (.ok derived, c) → kept c := by
    intro derived c h
    split at h
    · exact keeps.backward (keeps.draw before source) h
    · cases h
      exact keeps.draw before source
  rw [same] at h
  split at h
  · cases h
  · rename_i back
    cases h
    exact turned back
  · rename_i back
    split at h
    · rename_i went
      exact keeps.backward (keeps.forward (turned back) went) h
    · exact keeps.forward (turned back) h

theorem Keeps.buildFrom {wanted steps : Int} {tries : Nat} (before : kept a)
    (h : buildFrom b wanted tries steps a = (.ok (), a')) : kept a' := by
  induction tries generalizing steps a with
  | zero =>
      cases h
      exact before
  | succ tries ih =>
      rw [Attempt.buildFrom] at h
      split at h
      · cases h
        exact before
      · split at h
        · cases h
        · rename_i stepped
          exact ih (keeps.step before stepped) h
        · rename_i stepped
          cases h
          exact keeps.step before stepped

end

theorem keeps_moves (b : Bounds) (a : Attempt σ) : Keeps b (Moves b a) where
  draw moves source := moves.trans (Moves.draw source)
  forward moves went := moves.trans (forward_moves went)
  backward moves went := moves.trans (backward_moves went)

/-- What has been built after the literals have been asserted comes about by moves. -/
theorem build_moves {difficulty : Int} (h : build b difficulty a = (.ok (), a')) : Moves b a a' :=
  (keeps_moves b a).buildFrom .refl h

/-! ## The states of attempts -/

/-- The states that attempts reach: after each seed and each step, whatever is drawn. -/
inductive Reached (b : Bounds) : Attempt σ → Prop where
  | start (source : σ) : Reached b (start b source)
  | draw {a : Attempt σ} (before : Reached b a) (source : σ) : Reached b { a with source }
  | seed {a a' : Attempt σ} (before : Reached b a) (seeds : seedFrom b 1 a = (.ok (), a')) :
    Reached b a'
  | forward {a a' : Attempt σ} {derived : Bool} (before : Reached b a)
    (went : forward b a = (.ok derived, a')) : Reached b a'
  | backward {a a' : Attempt σ} {derived : Bool} (before : Reached b a)
    (went : backward b a = (.ok derived, a')) : Reached b a'

/-- What is reached is reached by moves. -/
theorem Reached.exists_moves (reached : Reached b a) :
    ∃ source : σ, Moves b (Attempt.start b source) a := by
  induction reached with
  | start source => exact ⟨source, .refl⟩
  | draw _ source ih =>
      obtain ⟨first, moves⟩ := ih
      exact ⟨first, moves.trans (Moves.draw source)⟩
  | seed _ seeds ih =>
      obtain ⟨first, moves⟩ := ih
      exact ⟨first, moves.trans (seedFrom_moves seeds)⟩
  | forward _ went ih =>
      obtain ⟨first, moves⟩ := ih
      exact ⟨first, moves.trans (forward_moves went)⟩
  | backward _ went ih =>
      obtain ⟨first, moves⟩ := ih
      exact ⟨first, moves.trans (backward_moves went)⟩

theorem Reached.seedFrom {seeds : Nat} (before : Reached b a)
    (h : seedFrom b seeds a = (.ok (), a')) : Reached b a' := by
  induction seeds generalizing a with
  | zero =>
      cases h
      exact before
  | succ seeds ih =>
      obtain ⟨first, one, others⟩ := exists_first h
      exact ih (before.seed one) others

theorem Reached.build {difficulty : Int} (before : Reached b a)
    (h : build b difficulty a = (.ok (), a')) : Reached b a' :=
  Keeps.buildFrom ⟨.draw, .forward, .backward⟩ before h

/-- All of what an attempt does before it comes to a puzzle stays among these states. -/
theorem reached_of_attempt {difficulty : Int} {source source' : σ} {problem? : Option Problem}
    (h : Puzzle.attempt b difficulty source = (.ok problem?, source')) :
    ∃ a : Attempt σ, Reached b a ∧ Puzzle.ofAttempt difficulty a = .ok problem? := by
  unfold Puzzle.attempt at h
  split at h
  · cases h
  · rename_i seeded seeds
    split at h
    · cases h
    · rename_i built builds
      have started : Reached b seeded := ((Reached.start source).draw _).seedFrom seeds
      exact ⟨built, started.build builds, congrArg Prod.fst h⟩

end Attempt

end ProofPuzzles
