import ProofPuzzles.Proofs.Validation.Building
import ProofPuzzles.Suggestion

/-! # What is suggested and what is accepted

A suggestion cites, for each formula that a rule consumes, the first of the chosen lines that states
it. The check tries the rule on what the cited lines state and on nothing else. They agree: what is
suggested for some lines of a valid proof may stand at its end, and it is all that may stand there
by citing different formulas of these lines, save that Addition may add anything.
-/

namespace ProofPuzzles

open Inference

variable {rule : InferenceRule} {proof lines selected : Proof} {f : Formula} {n : Int}

namespace Suggestion

/-- The line that states what is suggested. -/
def lineAt (s : Suggestion) (n : Int) : ProofLine where
  number := n
  statement := .ofFormula s.formula
  justification := s.justification

theorem isSome_numberOf? : (numberOf? lines f).isSome ↔ f ∈ Proof.formulas lines := by
  simp [numberOf?, Proof.formulas]

theorem states_of_numberOf? (found : numberOf? lines f = some n) : lines.States n f := by
  obtain ⟨line, first, rfl⟩ := Option.map_eq_some_iff.mp found
  exact ⟨line, List.mem_of_find?_eq_some first, rfl, by simpa using List.find?_some first⟩

/-- The numbers found for stated formulas are those of lines that state them. -/
theorem states_numbers {ws : List Wff} (stated : ws.map Wff.formula ⊆ Proof.formulas lines) :
    List.Forall₂ lines.States (ws.filterMap fun w => numberOf? lines w.formula)
      (ws.map Wff.formula) := by
  induction ws with
  | nil => exact .nil
  | cons w ws ih =>
      rw [List.map_cons, List.cons_subset] at stated
      obtain ⟨n, found⟩ := Option.isSome_iff_exists.mp (isSome_numberOf?.mpr stated.1)
      simp only [List.filterMap_cons, found]
      exact .cons (states_of_numberOf? found) (ih stated.2)

/-- What a suggestion cites suffices: Addition does without the formula that it adds. -/
theorem schema_cited {ws : List Wff} (consumes : Consumes rule (ws.map Wff.formula) f) :
    Schema rule ((if rule = .addition then ws.take 1 else ws).map Wff.formula) f := by
  by_cases adds : rule = .addition
  · rw [if_pos adds, List.map_take]
    subst adds
    obtain ⟨a, x, premises, rfl | rfl⟩ := consumes
    · rw [premises]
      exact .addRight a x
    · rw [premises]
      exact .addLeft a x
  · rw [if_neg adds]
    exact consumes.schema adds

theorem map_formula_statements (lines : Proof) :
    (wellFormed (lines.map (·.statement))).map Wff.formula = Proof.formulas lines := by
  rw [map_formula_wellFormed, List.filterMap_map]
  rfl

theorem premises_subset {a : Application}
    (found : a ∈ applications rule (wellFormed (lines.map (·.statement)))) :
    a.premises.map Wff.formula ⊆ Proof.formulas lines := by
  intro g consumed
  obtain ⟨w, member, rfl⟩ := List.mem_map.mp consumed
  rw [← map_formula_statements]
  exact List.mem_map_of_mem (mem_of_applications found member)

/-- A suggestion is justified by the lines that it was made for, and there are such lines. -/
theorem justified_of_mem {s : Suggestion} (member : s ∈ inferences rule lines) :
    Justified lines s.formula s.justification ∧ lines ≠ [] := by
  obtain ⟨a, found, same⟩ := List.mem_filterMap.mp member
  have stated := premises_subset found
  have consumes := (applications_sound found).consumes
  split at same
  · cases same
  · cases same
    refine ⟨.inference (states_numbers (List.Subset.trans ?_ stated)) (schema_cited consumes), ?_⟩
    · refine List.map_subset _ ?_
      split
      · exact List.take_subset _ _
      · exact List.Subset.refl _
    · rintro rfl
      exact consumes.ne_nil (List.subset_nil.mp stated)

/-- Whatever the rule yields and the lines do not state is suggested. -/
theorem exists_of_yields (yields : Yields rule (Proof.formulas lines) f)
    (new : f ∉ Proof.formulas lines) : ∃ s ∈ inferences rule lines, s.formula = f := by
  rw [← map_formula_statements] at yields
  obtain ⟨a, found, concludes⟩ := List.mem_map.mp (mem_conclusions.mpr yields)
  have unstated : ¬(numberOf? lines a.conclusion.formula).isSome := by
    rw [concludes, isSome_numberOf?]
    exact new
  refine ⟨_, List.mem_filterMap.mpr ⟨a, found, if_neg unstated⟩, ?_⟩
  rw [concludes]
  rfl

/-- For lines of a valid proof, a rule suggests what may be stated at the end of the proof, citing
these lines. Addition apart, where the check accepts something that the lines do not state for
different formulas of theirs, it is among what is suggested. -/
theorem inferences_exact (valid : proof.validate = .valid) (chosen : selected ⊆ proof)
    (rule : InferenceRule) :
    (∀ s ∈ inferences rule selected, ∀ n, (∀ line ∈ proof, line.number < n) →
      Proof.validate (proof ++ [s.lineAt n]) = .valid) ∧
    (rule ≠ .addition → ∀ line references cited,
      line.justification = .inference rule references →
      Proof.validate (proof ++ [line]) = .valid →
      List.Forall₂ selected.States references cited → cited.Nodup →
      ∀ f, line.statement.formula? = some f → f ∉ selected.formulas →
        ∃ s ∈ inferences rule selected, s.formula = f) := by
  constructor
  · intro s member n later
    obtain ⟨justified, nonempty⟩ := justified_of_mem member
    refine Proof.validate_append_singleton.mpr ⟨valid, ?_⟩
    exact {
      first := fun none => absurd (List.subset_nil.mp (none ▸ chosen)) nonempty
      later := later
      unnested := rfl
      justified := ⟨s.formula, rfl, justified.mono chosen⟩ }
  · intro other line references cited cites accepted states distinct f reads new
    obtain ⟨g, same, justified⟩ := (Proof.validate_append_singleton.mp accepted).2.justified
    cases reads.symm.trans same
    rw [cites] at justified
    cases justified with
    | inference checked schema =>
        have built := Proof.validate_eq_valid_iff_wellBuilt.mp valid
        cases built.cited_unique checked (Proof.cited_mono states chosen)
        have stated := Proof.subset_formulas states
        exact exists_of_yields (schema.yields other distinct stated) new

/-- The lines are chosen in another order, and one of them repeats a line that is left out. -/
theorem inferences_exact_detachment :
    let p := Formula.letter ⟨15⟩
    let q := Formula.letter ⟨16⟩
    let conditional : ProofLine := ⟨1, .ofFormula (.impl p q), .premise, 0⟩
    let given : ProofLine := ⟨2, .ofFormula p, .premise, 0⟩
    let repeated : ProofLine := ⟨3, .ofFormula p, .reiteration 2, 0⟩
    let last : ProofLine := ⟨7, .ofFormula q, .inference .modusPonens [1, 3], 0⟩
    let proof : Proof := [conditional, given, repeated]
    let selected : Proof := [repeated, conditional]
    proof.validate = .valid ∧ selected ⊆ proof ∧ (∀ line ∈ proof, line.number < 4) ∧
      Proof.validate (proof ++ [last]) = .valid ∧
      List.Forall₂ selected.States [1, 3] [.impl p q, p] ∧ q ∉ selected.formulas ∧
      ∃ s ∈ inferences .modusPonens selected, s.formula = q ∧
        Proof.validate (proof ++ [s.lineAt 4]) = .valid := by
  intro p q conditional given repeated last proof selected
  have valid : proof.validate = .valid := rfl
  have chosen : selected ⊆ proof := by simp [selected, proof]
  have later : ∀ line ∈ proof, line.number < 4 := by decide
  have states : List.Forall₂ selected.States [1, 3] [.impl p q, p] :=
    .cons ⟨conditional, by simp [selected], rfl, rfl⟩
      (.cons ⟨repeated, by simp [selected], rfl, rfl⟩ .nil)
  have accepted : Proof.validate (proof ++ [last]) = .valid := by
    have cited := Proof.cited_mono states chosen
    rw [Proof.validate_append_singleton]
    exact ⟨valid, nofun, by decide, rfl, q, rfl, .inference cited (.modusPonens p q)⟩
  have new : q ∉ selected.formulas := by decide
  obtain ⟨sound, complete⟩ := inferences_exact valid chosen .modusPonens
  obtain ⟨s, suggested, same⟩ := complete nofun last _ _ rfl accepted states (by decide) q rfl new
  exact ⟨valid, chosen, later, accepted, states, new, s, suggested, same, sound s suggested 4 later⟩

end Suggestion

end ProofPuzzles
