import ProofPuzzles.Proofs.Validation.Exact
import ProofPuzzles.Search

/-! # Building proofs line by line

A proof that states premises and then applies rules to what it states already is accepted: each
line gets the next number, and the cited lines are found by their formulas.
-/

namespace ProofPuzzles

/-- Something to state and the application that derives it. -/
structure ProofStep where
  statement : Statement
  application : Application

/-- The step can be taken where the given formulas are stated. -/
structure ProofStep.Ready (step : ProofStep) (stated : List Formula) : Prop where
  derives : ∃ f, step.statement.formula? = some f ∧
    Schema step.application.rule (step.application.premises.map Wff.formula) f
  cites : ∀ p ∈ step.application.premises, p.formula ∈ stated

namespace Proof

variable {proof : Proof} {s : Statement} {f : Formula} {cited : List Formula}
  {references : List Int} {n : Int} {steps : List ProofStep}

/-- The formulas that the lines state, in order. -/
def formulas (proof : Proof) : List Formula := proof.filterMap (·.statement.formula?)

/-- A valid proof that counts its lines. -/
structure Counted (proof : Proof) : Prop where
  valid : proof.validate = .valid
  within : ∀ line ∈ proof, line.number ≤ proof.length

/-- The line that takes the step: it cites by the numbers that the proof gives. -/
def lineFor (proof : Proof) (step : ProofStep) : ProofLine where
  number := proof.nextNumber
  statement := step.statement
  justification := .inference step.application.rule
    (step.application.premises.map fun p => proof.numberOf p.formula)

/-- The proof with the steps taken one after the other. -/
def extend (proof : Proof) (steps : List ProofStep) : Proof :=
  steps.foldl (fun proof step => proof ++ [proof.lineFor step]) proof

/-- Where every line states a formula, the formulas tell the statements apart. -/
theorem map_identity_eq (wellFormed : ∀ line ∈ proof, line.statement.formula? ≠ none) :
    proof.map (·.statement.identity) = proof.formulas.map .formula := by
  induction proof with
  | nil => rfl
  | cons line proof ih =>
      rw [List.forall_mem_cons] at wellFormed
      obtain ⟨f, reads⟩ := Option.ne_none_iff_exists'.mp wellFormed.1
      have kept : formulas (line :: proof) = f :: formulas proof := List.filterMap_cons_some reads
      rw [List.map_cons, ih wellFormed.2, kept, List.map_cons, Statement.identity_eq reads]

theorem States.mem_formulas (states : proof.States n f) : f ∈ proof.formulas := by
  obtain ⟨line, member, -, reads⟩ := states
  exact List.mem_filterMap.mpr ⟨line, member, reads⟩

theorem subset_formulas (states : List.Forall₂ proof.States references cited) :
    cited ⊆ proof.formulas := by
  induction states with
  | nil => exact List.nil_subset _
  | cons first _ ih => exact List.cons_subset.mpr ⟨first.mem_formulas, ih⟩

theorem states_numberOf (stated : f ∈ proof.formulas) : proof.States (proof.numberOf f) f := by
  obtain ⟨line, member, reads⟩ := List.mem_filterMap.mp stated
  unfold numberOf
  split
  · rename_i first found
    exact ⟨first, List.mem_of_find?_eq_some found, rfl, by simpa using List.find?_some found⟩
  · rename_i none
    exact absurd reads (by simpa using List.find?_eq_none.mp none line member)

/-- With no formula stated twice, the number found is that of the line that states it. -/
theorem numberOf_eq {line : ProofLine} (distinct : proof.formulas.Nodup) (member : line ∈ proof)
    (reads : line.statement.formula? = some f) : proof.numberOf f = line.number := by
  induction proof with
  | nil => cases member
  | cons first rest ih =>
      rcases List.mem_cons.mp member with rfl | later
      · simp [numberOf, reads]
      · have elsewhere : first.statement.formula? ≠ some f := by
          intro same
          have kept : formulas (first :: rest) = f :: formulas rest :=
            List.filterMap_cons_some same
          rw [kept, List.nodup_cons] at distinct
          exact distinct.1 (List.mem_filterMap.mpr ⟨line, later, reads⟩)
        have skipped : numberOf (first :: rest) f = numberOf rest f := by
          simp [numberOf, elsewhere]
        have front : (formulas rest).Sublist (formulas (first :: rest)) :=
          (List.sublist_cons_self first rest).filterMap _
        rw [skipped, ih (distinct.sublist front) later]

theorem Counted.nil : Counted [] := ⟨rfl, nofun⟩

theorem Counted.append {justification : Justification} (counted : proof.Counted)
    (reads : s.formula? = some f) (justified : Justified proof f justification) :
    (proof.append s justification).Counted where
  valid := by
    refine validate_append_singleton.mpr ⟨counted.valid, fun none => ?_, fun other member => ?_,
      rfl, f, reads, justified⟩
    · subst none
      rfl
    · have bound := counted.within other member
      simp only [nextNumber]
      omega
  within line member := by
    rw [Proof.append, List.length_append, List.length_singleton]
    rcases List.mem_append.mp member with old | new
    · have bound := counted.within line old
      omega
    · rw [List.mem_singleton.mp new]
      simp only [nextNumber]
      omega

theorem Counted.validate_append_iff {justification : Justification} (counted : proof.Counted) :
    (proof.append s justification).validate = .valid ↔
      ∃ f, s.formula? = some f ∧ Justified proof f justification := by
  constructor
  · intro accepted
    exact (validate_append_singleton.mp accepted).2.justified
  · rintro ⟨f, reads, justified⟩
    exact (counted.append reads justified).valid

theorem Counted.append_lineFor {step : ProofStep} (counted : proof.Counted)
    (ready : step.Ready proof.formulas) : Counted (proof ++ [proof.lineFor step]) := by
  obtain ⟨f, reads, schema⟩ := ready.derives
  refine counted.append reads (.inference ?_ schema)
  rw [List.forall₂_map_left_iff, List.forall₂_map_right_iff, List.forall₂_same]
  intro p member
  exact states_numberOf (ready.cites p member)

/-! ## Taking several steps -/

theorem extend_cons (proof : Proof) (step : ProofStep) (steps : List ProofStep) :
    proof.extend (step :: steps) = extend (proof ++ [proof.lineFor step]) steps := rfl

theorem extend_append_singleton (proof : Proof) (steps : List ProofStep) (step : ProofStep) :
    proof.extend (steps ++ [step]) =
      proof.extend steps ++ [(proof.extend steps).lineFor step] := List.foldl_append

/-- What the steps append to the proof. -/
theorem extend_eq_append (proof : Proof) (steps : List ProofStep) :
    ∃ derived : Proof, proof.extend steps = proof ++ derived ∧
      derived.map (·.statement) = steps.map (·.statement) ∧
      ∀ line ∈ derived, ∃ rule references, line.justification = .inference rule references := by
  induction steps generalizing proof with
  | nil => exact ⟨[], (List.append_nil proof).symm, rfl, nofun⟩
  | cons step steps ih =>
      obtain ⟨derived, built, statements, inferred⟩ := ih (proof ++ [proof.lineFor step])
      refine ⟨proof.lineFor step :: derived, ?_, ?_, List.forall_mem_cons.mpr ⟨?_, inferred⟩⟩
      · rw [extend_cons, built, List.append_assoc, List.singleton_append]
      · rw [List.map_cons, statements, List.map_cons]
        rfl
      · exact ⟨_, _, rfl⟩

theorem formulas_extend (proof : Proof) (steps : List ProofStep) :
    (proof.extend steps).formulas =
      proof.formulas ++ steps.filterMap (·.statement.formula?) := by
  obtain ⟨derived, built, statements, -⟩ := extend_eq_append proof steps
  have same : derived.formulas = (derived.map (·.statement)).filterMap (·.formula?) :=
    List.filterMap_map.symm
  rw [built, formulas, List.filterMap_append, ← formulas, ← formulas, same, statements,
    List.filterMap_map]
  rfl

/-- A step that is taken leaves a line that cites by the numbers of the lines before it. -/
theorem exists_lineFor {derived : Proof} {step : ProofStep}
    (built : proof.extend steps = proof ++ derived) (member : step ∈ steps) :
    ∃ part : Proof, proof <+: part ∧ part <+: proof ++ derived ∧ part.lineFor step ∈ derived := by
  induction steps generalizing proof derived with
  | nil => cases member
  | cons first steps ih =>
      obtain ⟨rest, longer, -, -⟩ := extend_eq_append (proof ++ [proof.lineFor first]) steps
      rw [extend_cons, longer, List.append_assoc] at built
      obtain rfl := List.append_cancel_left built
      rcases List.mem_cons.mp member with rfl | later
      · exact ⟨proof, List.prefix_rfl, List.prefix_append _ _, List.mem_cons_self⟩
      · obtain ⟨part, start, initial, there⟩ := ih longer later
        rw [List.append_assoc] at initial
        exact ⟨part, (List.prefix_append _ _).trans start, initial, List.mem_cons_of_mem _ there⟩

theorem formulas_append_lineFor (proof : Proof) (step : ProofStep) :
    formulas (proof ++ [proof.lineFor step]) =
      proof.formulas ++ [step].filterMap (·.statement.formula?) := List.filterMap_append

/-- Steps that can be taken in order lead from a valid proof to a valid proof. -/
theorem Counted.extend (counted : proof.Counted)
    (ready : ∀ before step after, steps = before ++ step :: after →
      step.Ready (proof.formulas ++ before.filterMap (·.statement.formula?))) :
    (proof.extend steps).Counted := by
  induction steps generalizing proof with
  | nil => exact counted
  | cons step steps ih =>
      have first := ready [] step steps rfl
      rw [List.filterMap_nil, List.append_nil] at first
      refine ih (counted.append_lineFor first) fun before next after split => ?_
      have later := ready (step :: before) next after (by rw [split, List.cons_append])
      rw [← List.singleton_append, List.filterMap_append, ← List.append_assoc,
        ← formulas_append_lineFor] at later
      exact later

/-! ## Stating premises -/

theorem ofPremises_append_singleton (premises : List Wff) (w : Wff) :
    ofPremises (premises ++ [w]) = (ofPremises premises).append w.statement .premise := by
  rw [ofPremises, List.foldl_append]
  rfl

theorem counted_ofPremises (premises : List Wff) : (ofPremises premises).Counted := by
  induction premises using List.reverseRecOn with
  | nil => exact .nil
  | append_singleton premises w ih =>
      rw [ofPremises_append_singleton]
      exact ih.append w.reads .premise

theorem statements_ofPremises (premises : List Wff) :
    (ofPremises premises).map (·.statement) = premises.map Wff.statement := by
  induction premises using List.reverseRecOn with
  | nil => rfl
  | append_singleton premises w ih =>
      rw [ofPremises_append_singleton, append, List.map_append, ih, List.map_append]
      rfl

theorem premise_of_mem_ofPremises {premises : List Wff} :
    ∀ line ∈ ofPremises premises, line.justification = .premise := by
  induction premises using List.reverseRecOn with
  | nil => exact fun line member => absurd member List.not_mem_nil
  | append_singleton premises w ih =>
      rw [ofPremises_append_singleton]
      intro line member
      rcases List.mem_append.mp member with old | new
      · exact ih line old
      · rw [List.mem_singleton.mp new]

theorem formulas_ofPremises (premises : List Wff) :
    (ofPremises premises).formulas = premises.map Wff.formula := by
  have same : (ofPremises premises).formulas =
      ((ofPremises premises).map (·.statement)).filterMap (·.formula?) := List.filterMap_map.symm
  rw [same, statements_ofPremises, List.filterMap_map, ← List.filterMap_eq_map]
  exact List.filterMap_congr fun w _ => w.reads

end Proof

end ProofPuzzles
