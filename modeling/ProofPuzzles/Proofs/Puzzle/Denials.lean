import ProofPuzzles.Proofs.Puzzle.Failure
import ProofPuzzles.Proofs.Puzzle.Invariant

/-! # Rules that puzzles never use

Modus Tollens and Disjunctive Syllogism need a formula and the negation of one of its sides. An
attempt asserts each letter with one sign only, so the graph never states the negation of a side of
something that it states. Steps forwards therefore never find an application of the two rules,
whatever their weights are, and the strategy that reads Disjunctive Syllogism backwards proposes a
letter with both signs, which cannot be asserted.
-/

namespace ProofPuzzles

open Formula

/-- The rules that need the negation of one side of something else. -/
def InferenceRule.Denies (rule : InferenceRule) : Prop :=
  rule = .modusTollens ∨ rule = .disjunctiveSyllogism

variable {used : List Literal} {f : Formula}

/-- Neither of the rules applies to asserted formulas. -/
theorem Consumes.not_denies {rule : InferenceRule} {premises : List Formula}
    (consumes : Consumes rule premises f) (signs : OneSigned used)
    (given : ∀ g ∈ premises, g.Asserted used) : ¬rule.Denies := by
  rintro (rfl | rfl)
  · obtain ⟨a, b⟩ : Schema .modusTollens premises f := consumes
    simp only [List.forall_mem_cons] at given
    exact given.1.right.not_neg signs given.2.1
  · obtain ⟨a, b⟩ | ⟨a, b⟩ : Schema .disjunctiveSyllogism premises f := consumes
    · simp only [List.forall_mem_cons] at given
      exact given.1.left.not_neg signs given.2.1
    · simp only [List.forall_mem_cons] at given
      exact given.1.right.not_neg signs given.2.1

/-- A strategy whose literals can all be asserted reads none of the rules backwards. -/
theorem Strategy.not_denies {strategy : Strategy} {goal : Formula} {c : Commitments}
    {step : BackwardStep} (proposed : strategy.step? goal c = some step) (signs : OneSigned used)
    (literals : ∀ f ∈ step.antecedents, f.occurrences ⊆ used) : ¬strategy.rule.Denies := by
  intro denies
  cases Strategy.proposal_of_step? proposed with
  | @disjunctiveSyllogism x =>
      have positive : ⟨x, true⟩ ∈ used :=
        literals (disj (.letter x) goal) List.mem_cons_self List.mem_cons_self
      have negative : ⟨x, false⟩ ∈ used :=
        literals (neg (.letter x)) (by simp [BackwardStep.antecedents]) List.mem_cons_self
      exact signs _ positive negative
  | conjunction | hypotheticalSyllogism | modusPonens =>
      rcases denies with same | same <;> cases same

/-- Nothing in the graph has been derived by one of the rules. -/
def Graph.Undenied (g : Graph) : Prop :=
  ∀ node ∈ g.nodes, ∀ rule, node.rule? = some rule → ¬rule.Denies

namespace Attempt

variable {σ : Type} {b : Bounds} {a a' : Attempt σ} {seeds : Nat}

theorem Move.undenied (move : Move b a a') (consistent : a.Consistent)
    (undenied : a.graph.Undenied) : a'.graph.Undenied := by
  cases move with
  | draw source => exact undenied
  | seed fresh literally added => exact Graph.forall_node_addDerived undenied added nofun
  | derive found admitted added =>
      obtain ⟨premises, consumes, given⟩ := consistent.consumes found
      refine Graph.forall_node_addDerived undenied added ?_
      intro rule carried
      cases carried
      exact consumes.not_denies consistent.coherent.signs given
  | expand newest ancestors behind isLeaf states proposed fresh short asserted added derives =>
      obtain ⟨coherent, -, literals⟩ := consistent.coherent.assertAll asserted
      have grown := Graph.forall_node_addLeaves undenied added fun s _ => nofun
      refine Graph.forall_node_deriveLeaf grown derives ?_
      intro node _ _ rule carried
      cases carried
      exact Strategy.not_denies proposed coherent.signs literals

theorem Moves.undenied (moves : Moves b a a') (consistent : a.Consistent)
    (undenied : a.graph.Undenied) : a'.graph.Undenied := by
  induction moves with
  | refl => exact undenied
  | tail before move ih => exact move.undenied (Moves.consistent before consistent) ih

variable [RandomSource σ]

/-- Over different letters nothing goes wrong but the choice of a rule, and then all that has
happened is that numbers were drawn. -/
theorem Passed.exists_moves (distinct : b.letterNames.Nodup) (passed : Passed b seeds a) :
    ∃ source : σ, Moves b (Attempt.start b source) a := by
  induction passed with
  | start source => exact ⟨source, .refl⟩
  | draw _ source ih =>
      obtain ⟨first, moves⟩ := ih
      exact ⟨first, moves.trans (Moves.draw source)⟩
  | @seed a _ ih =>
      obtain ⟨first, moves⟩ := ih
      obtain ⟨after, seeded⟩ := (moves.healthy (healthy_start distinct first)).exists_seedFrom 1
      rw [seeded]
      exact ⟨first, moves.trans (seedFrom_moves seeded)⟩
  | @forward seeds a _ ih =>
      obtain ⟨first, moves⟩ := ih
      exact ⟨first, moves.trans (forward_forwards b a).moves⟩
  | @backward seeds a _ ih =>
      obtain ⟨first, moves⟩ := ih
      have healthy := moves.healthy (healthy_start distinct first)
      have went := backward_backwards b a
      obtain ⟨derived, ended⟩ := went.exists_ok healthy.sound healthy.tidy healthy.latest
      rw [ended] at went
      exact ⟨first, moves.trans went.moves⟩

theorem Passed.undenied (distinct : b.letterNames.Nodup) (passed : Passed b seeds a) :
    a.graph.Undenied := by
  obtain ⟨source, moves⟩ := passed.exists_moves distinct
  exact moves.undenied (consistent_start distinct source) nofun

/-- Over different letters neither Modus Tollens nor Disjunctive Syllogism ever derives anything, in
no state that an attempt passes through and so not in what it ends with either. -/
theorem never_denies (distinct : b.letterNames.Nodup) :
    (∀ (seeds : Nat) (a : Attempt σ), Passed b seeds a → ∀ node ∈ a.graph.nodes,
      node.rule? ≠ some .modusTollens ∧ node.rule? ≠ some .disjunctiveSyllogism) ∧
    ∀ (difficulty : Int) (source : σ),
      ∀ node ∈ (((start b source).seed b).2.build b difficulty).2.graph.nodes,
        node.rule? ≠ some .modusTollens ∧ node.rule? ≠ some .disjunctiveSyllogism := by
  have everywhere : ∀ (seeds : Nat) (a : Attempt σ), Passed b seeds a → ∀ node ∈ a.graph.nodes,
      node.rule? ≠ some .modusTollens ∧ node.rule? ≠ some .disjunctiveSyllogism := by
    intro seeds a passed node member
    have undenied := passed.undenied distinct node member
    constructor
    · intro carried
      exact undenied _ carried (.inl rfl)
    · intro carried
      exact undenied _ carried (.inr rfl)
  exact ⟨everywhere, fun difficulty source => everywhere _ _ (passed_build b difficulty source)⟩

theorem never_denies_conjunction : Puzzle.Pair.bounds.letterNames.Nodup ∧
    (∃ a : Attempt Unit, Passed Puzzle.Pair.bounds 2 a ∧
      a.graph.nodes = Puzzle.Pair.leaves ++ [Puzzle.Pair.derived] ∧ ∀ node ∈ a.graph.nodes,
        node.rule? ≠ some .modusTollens ∧ node.rule? ≠ some .disjunctiveSyllogism) ∧
    ∀ node ∈ (((start Puzzle.Pair.bounds ()).seed Puzzle.Pair.bounds).2.build
        Puzzle.Pair.bounds 1).2.graph.nodes,
      node.rule? ≠ some .modusTollens ∧ node.rule? ≠ some .disjunctiveSyllogism := by
  have distinct : Puzzle.Pair.bounds.letterNames.Nodup := by decide
  obtain ⟨passing, building⟩ := never_denies (σ := Unit) distinct
  obtain ⟨a, passed, -, nodes⟩ := exists_passed_conjunction
  exact ⟨distinct, ⟨a, passed, nodes, passing 2 a passed⟩, building 1 ()⟩

end Attempt

end ProofPuzzles
