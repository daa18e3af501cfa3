import ProofPuzzles.Proofs.Commitments.Copies
import ProofPuzzles.Proofs.Puzzle.Denials

/-! # All of a turn or nothing

A step backwards tries leaf after leaf and strategy after strategy, and each try asserts letters
before it is known whether it comes to anything. A step forwards draws rules until one applies.
Either way a turn that comes to nothing has only drawn random numbers, and a turn that comes to
something has made one change. Over different letters a step backwards always tells which of the
two it was. What has come about by turns is never taken back.
-/

namespace ProofPuzzles

namespace Attempt

variable {σ : Type} {b : Bounds} {a a' : Attempt σ} {seeds : Nat}

/-- Nothing has happened but that random numbers may have been drawn. -/
def Untouched (a a' : Attempt σ) : Prop := ∃ source, a' = { a with source }

/-- A leaf behind the latest statement has been derived from what a strategy proposes for it, and
that has come in as new leaves. -/
inductive Expanded (a : Attempt σ) : Attempt σ → Prop where
  | expand {latest leaf : Nat} {node : GraphNode} {goal : Formula} {strategy : Strategy}
    {step : BackwardStep} {graph : Graph} {commitments : Commitments} (source : σ)
    (newest : a.latest? = some latest) (behind : a.graph.Behind latest leaf)
    (there : a.graph.At leaf node) (isLeaf : node.parents = [])
    (states : node.statement.formula? = some goal)
    (proposed : strategy.step? goal a.commitments = some step)
    (nonempty : step.antecedents ≠ [])
    (nodes : graph.nodes = List.set
      (a.graph.nodes ++ step.antecedents.map fun f => ⟨.ofFormula f, none, []⟩) leaf
      ⟨node.statement, some strategy.rule, List.range' a.graph.size step.antecedents.length⟩)
    (used : a.commitments.used <+: commitments.used) :
    Expanded a { a with graph, commitments, source }

/-- One derived statement has been appended and is the latest, and the weight of its rule has
changed. -/
inductive Extended (b : Bounds) (a : Attempt σ) : Attempt σ → Prop where
  | extend {s : Statement} {rule : InferenceRule} {parents : List Nat} {graph : Graph} (source : σ)
    (derived : parents ≠ []) (nodes : graph.nodes = a.graph.nodes ++ [⟨s, some rule, parents⟩]) :
    Extended b a { a with
      graph, source
      weights := a.weights.markUsed b.weightDecay rule
      latest? := some a.graph.size }

theorem Forwards.untouched [RandomSource σ] {result : Except AttemptError Bool}
    (went : Forwards b a result a') (stuck : result ≠ .ok true) : Untouched a a' := by
  cases went with
  | idle source => exact ⟨source, rfl⟩
  | undecided source listed failed => exact ⟨source, rfl⟩
  | derived source found admitted added => exact absurd rfl stuck

theorem Forwards.extended [RandomSource σ] (went : Forwards b a (.ok true) a') :
    Extended b a a' := by
  cases went with
  | derived source found admitted added =>
      obtain ⟨-, rfl, nodes⟩ := Graph.addDerived_eq_ok added
      exact .extend source (parentsOf_ne_nil found) nodes

theorem Backwards.untouched (went : Backwards b a (.ok false) a') : Untouched a a' := by
  cases went with
  | idle source => exact ⟨source, rfl⟩
  | expands source newest ancestors behind isLeaf states expands =>
      exact ⟨source, expands.eq_of_false⟩

theorem Backwards.expanded (went : Backwards b a (.ok true) a') : Expanded a a' := by
  cases went with
  | expands source newest ancestors behind isLeaf states expands =>
      cases expands with
      | @derived strategy step commitments places grown graph proposes added derives =>
          obtain ⟨node, there, reads⟩ := Graph.formulaAt?_eq_some.mp states
          obtain ⟨longer, rfl⟩ := Graph.addLeaves_eq_ok added
          obtain ⟨held, found, -, changed⟩ := Graph.deriveLeaf_eq_ok derives
          cases found.symm.trans (there.addLeaves added)
          rw [List.map_map] at longer
          rw [longer, List.length_map] at changed
          exact .expand source newest (Graph.behind_of_ancestors ancestors _ behind) there
            (there.parents_eq_nil isLeaf) reads proposes.proposed
            (Strategy.consumes proposes.proposed).ne_nil changed
            (Commitments.used_prefix_of_assertAll proposes.asserted)

/-! ## What stays -/

/-- What has been stated, derived and asserted is so still, and in the same places. -/
structure Retains (a a' : Attempt σ) : Prop where
  statements : a.graph.statements <+: a'.graph.statements
  derived : ∀ i node, a.graph.At i node → node.parents ≠ [] → a'.graph.At i node
  used : a.commitments.used <+: a'.commitments.used

theorem used_prefix_committed (c : Commitments) (literal : Formula) :
    c.used <+: (committed c literal).used := by
  unfold committed
  split
  · rename_i asserts
    exact Commitments.used_prefix_of_takes (Commitments.takes_of_assert asserts)
  · exact List.prefix_rfl

theorem Move.retains (move : Move b a a') : Retains a a' := by
  cases move with
  | draw source => exact ⟨List.prefix_rfl, fun _ _ there _ => there, List.prefix_rfl⟩
  | seed fresh literally added =>
      refine ⟨⟨_, (Graph.statements_addDerived added).symm⟩, fun i node there _ => ?_,
        used_prefix_committed _ _⟩
      exact (Graph.at_append (Graph.addDerived_eq_ok added).2.2).mpr (.inl there)
  | derive found admitted added =>
      refine ⟨⟨_, (Graph.statements_addDerived added).symm⟩, fun i node there _ => ?_,
        List.prefix_rfl⟩
      exact (Graph.at_append (Graph.addDerived_eq_ok added).2.2).mpr (.inl there)
  | expand newest ancestors behind isLeaf states proposed fresh short asserted added derives =>
      have longer := (Graph.statements_deriveLeaf derives).trans (Graph.statements_addLeaves added)
      exact ⟨⟨_, longer.symm⟩,
        fun i node there derived => at_expanded there derived isLeaf added derives,
        Commitments.used_prefix_of_assertAll asserted⟩

theorem Moves.retains (moves : Moves b a a') : Retains a a' := by
  induction moves with
  | refl => exact ⟨List.prefix_rfl, fun _ _ there _ => there, List.prefix_rfl⟩
  | tail _ move ih =>
      have last := move.retains
      exact ⟨ih.statements.trans last.statements,
        fun i node there derived => last.derived i node (ih.derived i node there derived) derived,
        ih.used.trans last.used⟩

variable [RandomSource σ]

/-- However many turns an attempt takes, it takes back nothing. -/
theorem build_retains {difficulty : Int} (builds : build b difficulty a = (.ok (), a')) :
    Retains a a' := (build_moves builds).retains

/-! ## Turns in the states of an attempt -/

/-- Over different letters no step backwards fails in a state that an attempt passes through, and
turns in both directions are all or nothing. -/
theorem turns_atomic (distinct : b.letterNames.Nodup) (passed : Passed b seeds a) :
    (∃ derived, (backward b a).1 = .ok derived) ∧
    ((backward b a).1 = .ok false → Untouched a (backward b a).2) ∧
    ((backward b a).1 = .ok true → Expanded a (backward b a).2) ∧
    ((forward b a).1 ≠ .ok true → Untouched a (forward b a).2) ∧
    ((forward b a).1 = .ok true → Extended b a (forward b a).2) := by
  have back := backward_backwards b a
  have ahead := forward_forwards b a
  obtain ⟨source, moves⟩ := passed.exists_moves distinct
  have healthy := moves.healthy (healthy_start distinct source)
  refine ⟨back.exists_ok healthy.sound healthy.tidy healthy.latest, fun stuck => ?_,
    fun derived => ?_, ahead.untouched, fun derived => ?_⟩
  · rw [stuck] at back
    exact back.untouched
  · rw [derived] at back
    exact back.expanded
  · rw [derived] at ahead
    exact ahead.extended

/-- Two letters come in and are joined in one turn. -/
theorem turns_atomic_conjunction : Puzzle.Pair.bounds.letterNames.Nodup ∧
    ∃ a : Attempt Unit, Passed Puzzle.Pair.bounds 2 a ∧
      (∃ derived, (backward Puzzle.Pair.bounds a).1 = .ok derived) ∧
      (forward Puzzle.Pair.bounds a).1 = .ok true ∧
      Extended Puzzle.Pair.bounds a (forward Puzzle.Pair.bounds a).2 := by
  have distinct : Puzzle.Pair.bounds.letterNames.Nodup := by decide
  obtain ⟨graph, commitments, passed, leaves⟩ := exists_passed_letters
  obtain ⟨grown, weights, stepped, -⟩ := Puzzle.Pair.forward_eq (c := commitments) leaves
  have derived : (forward Puzzle.Pair.bounds (Puzzle.Pair.seeded graph commitments)).1 =
      .ok true := congrArg Prod.fst stepped
  obtain ⟨succeeds, -, -, -, extended⟩ := turns_atomic distinct passed
  exact ⟨distinct, _, passed, succeeds, derived, extended derived⟩

end Attempt

end ProofPuzzles
