import ProofPuzzles.Proofs.Graph.Operations
import ProofPuzzles.Proofs.Puzzle.Soundness

/-! # Attempts keep their graphs tidy

No statement stands in a graph twice, and nothing is cited twice for one step. Leaves are never
conjunctions, so no strategy splits one, and only literals to start from may be longer than the
bound.
-/

namespace ProofPuzzles

variable {limit : Int} {g h : Graph} {node : GraphNode} {f : Formula}

/-- What holds of each node on its own. -/
structure GraphNode.Tidy (limit : Int) (node : GraphNode) : Prop where
  parents : node.parents.Nodup
  leaf : node.parents = [] → ∀ l r, node.statement.formula? ≠ some (.conj l r)
  short : ∀ f, node.statement.formula? = some f →
    (f.tiles.length : Int) ≤ limit ∨ node.parents = [] ∧ f.isLiteral = true

/-- The nodes are tidy and state different things. -/
structure Graph.Tidy (limit : Int) (g : Graph) : Prop where
  distinct : (g.statements.map Statement.identity).Nodup
  nodes : ∀ node ∈ g.nodes, node.Tidy limit

namespace Graph

theorem tidy_empty : empty.Tidy limit := ⟨List.nodup_nil, nofun⟩

section

variable {i j place : Nat} {s : Statement} {rule : InferenceRule} {rule? : Option InferenceRule}
  {parents places : List Nat} {statements : List Statement}

theorem Tidy.at (tidy : g.Tidy limit) (there : g.At i node) : node.Tidy limit :=
  tidy.nodes node (List.mem_of_getElem? there)

/-- Each formula has one place. -/
theorem Tidy.eq_of_formulaAt? (tidy : g.Tidy limit) (first : g.formulaAt? i = some f)
    (second : g.formulaAt? j = some f) : i = j := by
  have identity : ∀ {k}, g.formulaAt? k = some f →
      (g.statements.map Statement.identity)[k]? = some (.formula f) := by
    intro k states
    obtain ⟨node, there, reads⟩ := formulaAt?_eq_some.mp states
    have found : g.nodes[k]? = some node := there
    simp [Graph.statements, found, Statement.identity_eq reads]
  obtain ⟨inside, one⟩ := List.getElem?_eq_some_iff.mp (identity first)
  obtain ⟨within, other⟩ := List.getElem?_eq_some_iff.mp (identity second)
  exact tidy.distinct.getElem_inj_iff.mp (one.trans other.symm)

theorem nodup_addDerived (distinct : (g.statements.map Statement.identity).Nodup)
    (added : g.addDerived s rule? parents = .ok (place, h)) :
    (h.statements.map Statement.identity).Nodup := by
  have new : g.contains s = false := by simp [contains, (addDerived_eq_ok added).1]
  rw [statements_addDerived added, List.map_append]
  refine distinct.append (List.nodup_singleton _) ?_
  simpa using not_contains_iff.mp new

theorem nodup_addLeaves (distinct : (g.statements.map Statement.identity).Nodup)
    (added : g.addLeaves statements = (.ok places, h)) :
    (h.statements.map Statement.identity).Nodup := by
  induction statements generalizing g places with
  | nil =>
      cases added
      exact distinct
  | cons s statements ih =>
      rw [addLeaves] at added
      split at added
      · cases added
      · rename_i place grown first
        split at added
        · cases added
        · rename_i rest last others
          cases added
          exact ih (nodup_addDerived distinct first) others

theorem Tidy.addDerived (tidy : g.Tidy limit)
    (added : g.addDerived s rule? parents = .ok (place, h))
    (new : GraphNode.Tidy limit ⟨s, rule?, parents⟩) : h.Tidy limit :=
  ⟨nodup_addDerived tidy.distinct added, forall_node_addDerived tidy.nodes added new⟩

theorem Tidy.addLeaves (tidy : g.Tidy limit) (added : g.addLeaves statements = (.ok places, h))
    (new : ∀ s ∈ statements, GraphNode.Tidy limit ⟨s, none, []⟩) : h.Tidy limit :=
  ⟨nodup_addLeaves tidy.distinct added, forall_node_addLeaves tidy.nodes added new⟩

theorem Tidy.deriveLeaf (tidy : g.Tidy limit)
    (derived : g.deriveLeaf place rule parents = .ok h) (nodup : parents.Nodup)
    (short : ∀ f, g.formulaAt? place = some f → (f.tiles.length : Int) ≤ limit) :
    h.Tidy limit := by
  refine ⟨statements_deriveLeaf derived ▸ tidy.distinct,
    forall_node_deriveLeaf tidy.nodes derived fun old there leaf => ?_⟩
  exact {
    parents := nodup
    leaf := fun _ => (tidy.at there).leaf leaf
    short := fun f reads => .inl (short f (formulaAt?_eq_some.mpr ⟨old, there, reads⟩)) }

end

end Graph

theorem Formula.ne_conj_of_isLiteral (literal : f.isLiteral = true) (l r : Formula) :
    f ≠ .conj l r := by
  rintro rfl
  cases literal

namespace Strategy

variable {strategy : Strategy} {goal : Formula} {c : Commitments} {step : BackwardStep}

/-- For a goal that is no conjunction, no strategy proposes one. -/
theorem ne_conj (proposed : strategy.step? goal c = some step)
    (other : ∀ l r, goal ≠ .conj l r) : ∀ f ∈ step.antecedents, ∀ l r, f ≠ .conj l r := by
  cases proposal_of_step? proposed with
  | conjunction l r => exact absurd rfl (other l r)
  | hypotheticalSyllogism | modusPonens | disjunctiveSyllogism => simp [BackwardStep.antecedents]

/-- A literal is only derived from something longer. -/
theorem exists_longer (proposed : strategy.step? goal c = some step)
    (literal : goal.isLiteral = true) :
    ∃ f ∈ step.antecedents, goal.tiles.length ≤ f.tiles.length := by
  cases proposal_of_step? proposed with
  | conjunction | hypotheticalSyllogism => cases literal
  | modusPonens | disjunctiveSyllogism =>
      refine ⟨_, List.mem_cons_self, ?_⟩
      rw [Formula.tiles_bin]
      simp only [List.length_cons, List.length_append]
      omega

/-- Unless it splits a conjunction or comes back to the goal, what a strategy proposes is different
formulas. -/
theorem nodup_antecedents (proposed : strategy.step? goal c = some step)
    (other : ∀ l r, goal ≠ .conj l r) (new : goal ∉ step.antecedents) : step.antecedents.Nodup := by
  cases proposal_of_step? proposed with
  | conjunction l r => exact absurd rfl (other l r)
  | hypotheticalSyllogism =>
      refine List.nodup_cons.mpr ⟨fun member => new ?_, List.nodup_singleton _⟩
      cases List.mem_singleton.mp member
      exact List.mem_cons_self
  | modusPonens | disjunctiveSyllogism => simp [BackwardStep.antecedents]

end Strategy

namespace Attempt

variable {σ : Type} {b : Bounds} {a a' : Attempt σ} {rule : InferenceRule}
  {application : Application}

/-- An application never consumes one statement twice. -/
theorem nodup_parentsOf
    (found : application ∈ Inference.applications rule (wellFormed g.statements)) :
    (parentsOf g application).Nodup := by
  refine List.Nodup.of_map g.formulaAt? ?_
  rw [map_formulaAt?_parentsOf found]
  exact (Inference.applications_sound found).nodup_formulas.map fun _ _ => Option.some.inj

theorem parentsOf_ne_nil
    (found : application ∈ Inference.applications rule (wellFormed g.statements)) :
    parentsOf g application ≠ [] := by
  obtain ⟨premises, states, consumes⟩ := follows_parentsOf found
  intro empty
  rw [empty, List.map_nil, eq_comm, List.map_eq_nil_iff] at states
  exact consumes.ne_nil states

theorem Move.tidy (tidy : a.graph.Tidy b.maxFormulaTiles) (move : Move b a a') :
    a'.graph.Tidy b.maxFormulaTiles := by
  cases move with
  | draw source => exact tidy
  | @seed x literal place graph fresh literally added =>
      have simple : literal.isLiteral = true := by rcases literally with rfl | rfl <;> rfl
      exact tidy.addDerived added {
        parents := List.nodup_nil
        leaf := fun _ l r same =>
          Formula.ne_conj_of_isLiteral simple l r (Option.some.inj same)
        short := fun f same => .inr ⟨rfl, Option.some.inj same ▸ simple⟩ }
  | @derive rule application place graph found admitted added =>
      have inst := Inference.applications_sound found
      exact tidy.addDerived added {
        parents := nodup_parentsOf found
        leaf := fun empty => absurd empty (parentsOf_ne_nil found)
        short := by
          intro f reads
          have short := (admits_iff.mp admitted).2
          rw [application.conclusion.reads] at reads
          rw [inst.full, Option.some.inj reads] at short
          exact .inl short }
  | @expand latest leaf reached places goal strategy step commitments grown graph newest ancestors
      behind isLeaf states proposed fresh short asserted added derives =>
      obtain ⟨longer, places_eq⟩ := Graph.addLeaves_eq_ok added
      obtain ⟨old, there, reads⟩ := Graph.formulaAt?_eq_some.mp states
      have bare := there.parents_eq_nil isLeaf
      have plain := Strategy.ne_conj proposed fun l r same =>
        (tidy.at there).leaf bare l r (same ▸ reads)
      have extended : grown.Tidy b.maxFormulaTiles := by
        refine tidy.addLeaves added fun s member => ?_
        obtain ⟨f, listed, rfl⟩ := List.mem_map.mp member
        exact {
          parents := List.nodup_nil
          leaf := fun _ l r same => plain f listed l r (Option.some.inj same)
          short := fun e same => .inl (Option.some.inj same ▸ short f listed) }
      refine extended.deriveLeaf derives (places_eq ▸ List.nodup_range') fun f stated => ?_
      have kept : grown.formulaAt? leaf = some goal := Graph.formulaAt?_append longer states
      cases kept.symm.trans stated
      rcases (tidy.at there).short goal reads with within | ⟨-, literal⟩
      · exact within
      · obtain ⟨f, listed, above⟩ := Strategy.exists_longer proposed literal
        have bounded : (f.tiles.length : Int) ≤ b.maxFormulaTiles := short f listed
        omega

theorem Moves.tidy (moves : Moves b a a') (tidy : a.graph.Tidy b.maxFormulaTiles) :
    a'.graph.Tidy b.maxFormulaTiles := by
  induction moves with
  | refl => exact tidy
  | tail _ move ih => exact move.tidy ih

/-! ## Steps backwards in tidy graphs -/

section

variable {latest leaf : Nat} {goal : Formula} {strategy : Strategy} {step : BackwardStep}
  {commitments : Commitments} {result : Except AttemptError Bool}

/-- What a strategy proposes for a leaf can be added, and the leaf can be derived from it. -/
theorem Proposes.exists_derived (proposes : Proposes b a goal strategy step commitments)
    (tidy : a.graph.Tidy limit) (isLeaf : Cut.isLeafAt a.graph leaf = true)
    (states : a.graph.formulaAt? leaf = some goal) :
    ∃ places grown graph,
      a.graph.addLeaves (step.antecedents.map .ofFormula) = (.ok places, grown) ∧
        grown.deriveLeaf leaf strategy.rule places = .ok graph := by
  obtain ⟨node, there, reads⟩ := Graph.formulaAt?_eq_some.mp states
  have bare := there.parents_eq_nil isLeaf
  have present : a.graph.contains (.ofFormula goal) = true := by
    rw [Graph.contains_iff, Statement.identity_eq rfl, ← Statement.identity_eq reads]
    exact List.mem_map_of_mem (Graph.statement_mem there)
  have nodup : step.antecedents.Nodup := by
    refine Strategy.nodup_antecedents proposes.proposed (fun l r same => ?_) fun member => ?_
    · exact (tidy.at there).leaf bare l r (same ▸ reads)
    · exact Bool.false_ne_true ((proposes.fresh goal member).symm.trans present)
  have distinct : ((step.antecedents.map Statement.ofFormula).map Statement.identity).Nodup := by
    rw [List.map_map]
    exact nodup.map fun f g same => Identity.formula.inj same
  obtain ⟨places, grown, added⟩ := Graph.exists_addLeaves
    (fun s member => by
      obtain ⟨f, listed, rfl⟩ := List.mem_map.mp member
      exact proposes.fresh f listed) distinct
  obtain ⟨graph, derives⟩ :=
    Graph.exists_deriveLeaf (there.addLeaves added) bare strategy.rule places
  exact ⟨places, grown, graph, added, derives⟩

theorem Expands.exists_ok (expands : Expands b a leaf goal result a')
    (tidy : a.graph.Tidy limit) (isLeaf : Cut.isLeafAt a.graph leaf = true)
    (states : a.graph.formulaAt? leaf = some goal) : ∃ derived, result = .ok derived := by
  cases expands with
  | idle => exact ⟨false, rfl⟩
  | present proposes failed =>
      obtain ⟨places, grown, graph, added, -⟩ := proposes.exists_derived tidy isLeaf states
      cases failed.symm.trans added
  | underivable proposes added failed =>
      obtain ⟨places, grown, graph, same, derives⟩ := proposes.exists_derived tidy isLeaf states
      cases added.symm.trans same
      cases failed.symm.trans derives
  | derived proposes added derives => exact ⟨true, rfl⟩

/-- Where the graph is sound and tidy, no step backwards fails. -/
theorem Backwards.exists_ok (went : Backwards b a result a') (sound : a.graph.Sound)
    (tidy : a.graph.Tidy limit)
    (inside : ∀ place, a.latest? = some place → place < a.graph.nodes.length) :
    ∃ derived, result = .ok derived := by
  cases went with
  | idle source => exact ⟨false, rfl⟩
  | lost source newest failed =>
      obtain ⟨places, ancestors⟩ := Graph.exists_ancestors sound.isAcyclic (inside _ newest)
      cases failed.symm.trans ancestors
  | expands source newest ancestors behind isLeaf states expands =>
      exact expands.exists_ok tidy isLeaf states

end

end Attempt

end ProofPuzzles
