import ProofPuzzles.Proofs.Firsts
import ProofPuzzles.Proofs.Graph.Soundness
import ProofPuzzles.Proofs.Inference.Enumeration
import ProofPuzzles.Proofs.Puzzle.Moves

/-! # Attempts grow sound graphs

What a step forwards records follows by the rule that was applied, and what a step backwards
derives follows by the rule that the strategy reads backwards. So the graph of an attempt is sound
in every state.
-/

namespace ProofPuzzles

variable {σ : Type} {b : Bounds} {a a' : Attempt σ}

namespace Strategy

variable {strategy : Strategy} {goal : Formula} {c : Commitments} {step : BackwardStep}

/-- What the strategies propose for a goal. -/
inductive Proposal (c : Commitments) : Strategy → Formula → BackwardStep → Prop where
  | conjunction (l r : Formula) : Proposal c .reverseConjunction (.conj l r) ⟨[], [l, r]⟩
  | hypotheticalSyllogism {x : Letter} (fresh : c.fresh? = some x) (l r : Formula) :
    Proposal c .reverseHypotheticalSyllogism (.impl l r)
      ⟨[], [.impl l (.letter x), .impl (.letter x) r]⟩
  | modusPonens {x : Letter} (fresh : c.fresh? = some x) (goal : Formula) :
    Proposal c .reverseModusPonens goal ⟨[.impl (.letter x) goal], [.letter x]⟩
  | disjunctiveSyllogism {x : Letter} (fresh : c.fresh? = some x) (goal : Formula) :
    Proposal c .reverseDisjunctiveSyllogism goal ⟨[.disj (.letter x) goal], [.neg (.letter x)]⟩

theorem proposal_of_step? (proposed : strategy.step? goal c = some step) :
    Proposal c strategy goal step := by
  unfold step? at proposed
  split at proposed
  · cases proposed
    exact .conjunction _ _
  · cases proposed
  · obtain ⟨x, fresh, rfl⟩ := Option.map_eq_some_iff.mp proposed
    exact .hypotheticalSyllogism fresh _ _
  · cases proposed
  · obtain ⟨x, fresh, rfl⟩ := Option.map_eq_some_iff.mp proposed
    exact .modusPonens fresh _
  · obtain ⟨x, fresh, rfl⟩ := Option.map_eq_some_iff.mp proposed
    exact .disjunctiveSyllogism fresh _

/-- The strategies propose what their rules consume. -/
theorem consumes (proposed : strategy.step? goal c = some step) :
    Consumes strategy.rule step.antecedents goal := by
  cases proposal_of_step? proposed with
  | conjunction l r => exact ⟨l, r, rfl, rfl⟩
  | @hypotheticalSyllogism x _ l r => exact Schema.hypotheticalSyllogism l (.letter x) r
  | @modusPonens x => exact Schema.modusPonens (.letter x) goal
  | @disjunctiveSyllogism x => exact Schema.denyLeft (.letter x) goal

end Strategy

namespace Attempt

section

variable {g : Graph} {rule : InferenceRule} {application : Application}

/-- The places of what an application consumes state its premises. -/
theorem map_formulaAt?_parentsOf
    (found : application ∈ Inference.applications rule (wellFormed g.statements)) :
    (parentsOf g application).map g.formulaAt? =
      (application.premises.map Wff.formula).map some := by
  have stated : ∀ p ∈ application.premises, p.statement ∈ g.statements := by
    intro p member
    exact mem_wellFormed.mp (Inference.mem_of_applications found member)
  rw [parentsOf]
  generalize application.premises = premises at stated
  induction premises with
  | nil => rfl
  | cons p premises ih =>
      rw [List.forall_mem_cons] at stated
      obtain ⟨i, place, states⟩ := Graph.exists_find? stated.1 p.reads
      simp only [List.filterMap_cons, place, List.map_cons, states, ih stated.2]

/-- An application over the statements of a graph follows from the places of its premises. -/
theorem follows_parentsOf
    (found : application ∈ Inference.applications rule (wellFormed g.statements)) :
    g.Follows application.rule (parentsOf g application) application.conclusion.formula := by
  have inst := Inference.applications_sound found
  exact ⟨_, map_formulaAt?_parentsOf found, inst.rule_eq ▸ inst.consumes⟩

end

section

variable {g grown : Graph} {formulas : List Formula}

/-- New leaves state the formulas that they were added for. -/
theorem map_formulaAt?_range'
    (longer : grown.nodes = g.nodes ++ (formulas.map Statement.ofFormula).map (⟨·, none, []⟩)) :
    (List.range' g.nodes.length formulas.length).map grown.formulaAt? = formulas.map some := by
  apply List.ext_getElem
  · simp
  · intro j inside _
    have within : j < formulas.length := by simpa using inside
    simp [Graph.formulaAt?, longer, within]

theorem parents_of_mem_range' {p : Nat} {node : GraphNode}
    (longer : grown.nodes = g.nodes ++ (formulas.map Statement.ofFormula).map (⟨·, none, []⟩))
    (new : p ∈ List.range' g.nodes.length formulas.length) (there : grown.At p node) :
    node.parents = [] := by
  rw [List.mem_range'_1] at new
  rw [Graph.At, longer, List.getElem?_append_right new.1] at there
  obtain ⟨s, -, rfl⟩ := List.mem_map.mp (List.mem_of_getElem? there)
  rfl

end

theorem Move.sound (sound : a.graph.Sound) (move : Move b a a') : a'.graph.Sound := by
  cases move with
  | draw source => exact sound
  | seed fresh literally added => exact sound.addLeaf rfl added
  | @derive rule application place graph found admitted added =>
      refine sound.append (Graph.addDerived_eq_ok added).2.2 application.conclusion.reads ?_
      exact fun _ => ⟨_, rfl, follows_parentsOf found⟩
  | @expand latest leaf reached places goal strategy step commitments grown graph newest ancestors
      behind isLeaf states proposed fresh short asserted added derives =>
      obtain ⟨longer, places_eq⟩ := Graph.addLeaves_eq_ok added
      rw [List.length_map] at places_eq
      subst places_eq
      have extended : grown.Sound := by
        refine sound.addLeaves (fun s member => ?_) added
        obtain ⟨f, -, rfl⟩ := List.mem_map.mp member
        exact ⟨f, rfl⟩
      have inside := Graph.lt_of_formulaAt? states
      have outside : leaf ∉ List.range' a.graph.nodes.length step.antecedents.length := by
        rw [List.mem_range'_1]
        omega
      exact extended.deriveLeaf outside (fun p new node => parents_of_mem_range' longer new)
        (Graph.formulaAt?_append longer states)
        ⟨_, map_formulaAt?_range' longer, Strategy.consumes proposed⟩ derives

theorem Moves.sound (moves : Moves b a a') (sound : a.graph.Sound) : a'.graph.Sound := by
  induction moves with
  | refl => exact sound
  | tail _ move ih => exact move.sound ih

end Attempt

end ProofPuzzles
