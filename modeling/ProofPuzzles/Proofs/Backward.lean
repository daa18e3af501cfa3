import ProofPuzzles.Proofs.Puzzle.Soundness
import ProofPuzzles.Proofs.Validation.Building

/-! # Steps backwards lead back to their goal

A proof that states premises and cites all of them, in the order in which they stand, is accepted
exactly where they fill a schema of the rule. What a strategy proposes does so, whatever the goal is
and whichever letters are free: a side of a conjunction may be stated twice, and the letter that is
brought in may occur in the goal.
-/

namespace ProofPuzzles

open Formula

namespace Proof

variable {premises : List Wff} {rule : InferenceRule} {s : Statement}

/-- The numbers of so many lines from the first one on. -/
def numbersTo (count : Nat) : List Int := (List.range count).map fun i : Nat => (i : Int) + 1

/-- The proof that states premises and infers one statement more, citing all of them in order. -/
def inOrder (premises : List Wff) (rule : InferenceRule) (s : Statement) : Proof :=
  (ofPremises premises).append s (.inference rule (numbersTo premises.length))

theorem length_ofPremises (premises : List Wff) :
    (ofPremises premises).length = premises.length := by
  simpa using congrArg List.length (statements_ofPremises premises)

/-- Each number stands for the premise at its place, also where a premise is repeated. -/
theorem states_numbersTo (premises : List Wff) :
    List.Forall₂ (ofPremises premises).States (numbersTo premises.length)
      (premises.map Wff.formula) := by
  induction premises using List.reverseRecOn with
  | nil => exact .nil
  | append_singleton premises w ih =>
      have kept : ofPremises premises ⊆ (ofPremises premises).append w.statement .premise :=
        List.subset_append_left _ _
      have last : ((ofPremises premises).append w.statement .premise).States
          ((premises.length : Int) + 1) w.formula :=
        ⟨_, List.mem_append_right _ (List.mem_singleton_self _),
          by rw [nextNumber, length_ofPremises], w.reads⟩
      rw [ofPremises_append_singleton, numbersTo, List.length_append, List.length_singleton,
        List.range_succ, List.map_append, List.map_append]
      exact List.rel_append (cited_mono ih kept) (.cons last .nil)

theorem validate_inOrder_iff : (inOrder premises rule s).validate = .valid ↔
    ∃ f, s.formula? = some f ∧ Schema rule (premises.map Wff.formula) f := by
  have counted := counted_ofPremises premises
  rw [inOrder, counted.validate_append_iff]
  constructor
  · rintro ⟨f, reads, justified⟩
    cases justified with
    | inference cited schema =>
        have built := validate_eq_valid_iff_wellBuilt.mp counted.valid
        cases built.cited_unique cited (states_numbersTo premises)
        exact ⟨f, reads, schema⟩
  · rintro ⟨f, reads, schema⟩
    exact ⟨f, reads, .inference (states_numbersTo premises) schema⟩

end Proof

namespace Strategy

variable {strategy : Strategy} {goal : Formula} {c : Commitments} {step : BackwardStep}

/-- A goal of the right shape is all that a strategy needs, and a free letter except for splitting
a conjunction. -/
theorem isSome_step?_iff : (strategy.step? goal c).isSome = true ↔
    strategy.applies goal = true ∧ (strategy = .reverseConjunction ∨ c.available ≠ []) := by
  unfold step? applies
  split <;> simp [Commitments.fresh?]

theorem schema_antecedents (proposed : strategy.step? goal c = some step) :
    Schema strategy.rule step.antecedents goal := by
  refine (consumes proposed).schema ?_
  cases strategy <;> decide

/-- There is a step for each goal of the right shape, as long as there is a letter for it. Its
antecedents as premises derive the goal, however the goal is spelled: they fill the rule in the
order in which they are proposed. -/
theorem rederives (strategy : Strategy) (goal : Wff) (c : Commitments) :
    ((strategy.step? goal.formula c).isSome = true ↔ strategy.applies goal.formula = true ∧
      (strategy = .reverseConjunction ∨ c.available ≠ [])) ∧
    ∀ step, strategy.step? goal.formula c = some step →
      (Proof.inOrder (step.antecedents.map Wff.ofFormula) strategy.rule goal.statement).validate =
        .valid := by
  refine ⟨isSome_step?_iff, fun step proposed => ?_⟩
  rw [Proof.validate_inOrder_iff, map_formula_ofFormula]
  exact ⟨goal.formula, goal.reads, schema_antecedents proposed⟩

/-- The two sides of the first goal are the same, and the letter that is brought in for the second
one is all that stands in it. -/
theorem rederives_coinciding :
    let x : Letter := ⟨15⟩
    let p : Formula := .letter x
    let c : Commitments := .ofLetters [x]
    let sides : BackwardStep := ⟨[], [p, p]⟩
    let chain : BackwardStep := ⟨[], [impl p p, impl p p]⟩
    Strategy.step? .reverseConjunction (conj p p) c = some sides ∧
      (Proof.inOrder (sides.antecedents.map Wff.ofFormula) .conjunction
        (.ofFormula (conj p p))).validate = .valid ∧
      Strategy.step? .reverseHypotheticalSyllogism (impl p p) c = some chain ∧
      (Proof.inOrder (chain.antecedents.map Wff.ofFormula) .hypotheticalSyllogism
        (.ofFormula (impl p p))).validate = .valid := by
  intro x p c sides chain
  have splits : Strategy.step? .reverseConjunction (conj p p) c = some sides := rfl
  have chains : Strategy.step? .reverseHypotheticalSyllogism (impl p p) c = some chain := rfl
  obtain ⟨-, joined⟩ := rederives .reverseConjunction (.ofFormula (conj p p)) c
  obtain ⟨-, linked⟩ := rederives .reverseHypotheticalSyllogism (.ofFormula (impl p p)) c
  exact ⟨splits, joined sides splits, chains, linked chain chains⟩

end Strategy

end ProofPuzzles
