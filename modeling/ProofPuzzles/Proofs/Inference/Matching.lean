import ProofPuzzles.Proofs.Inference.Yields
import ProofPuzzles.Proofs.WellFormed
import ProofPuzzles.Validation

/-! # Matching a citation against a schema

A check never looks at a schema. It enumerates what the rule derives from the cited lines, keeps
what derives the stated formula from exactly those lines, and then compares the order. That
accepts the instances of the schemas and nothing else, also when one formula is cited twice.
-/

namespace ProofPuzzles

open scoped List

theorem Schema.length_mem {rule cited f} (h : Schema rule cited f) :
    cited.length ∈ rule.referenceCounts := by
  cases h <;> simp [InferenceRule.referenceCounts]

namespace Inference

variable {rule : InferenceRule} {cited : List Wff} {w : Wff}

theorem mem_matchingWff_addition {a : Application} {base : Wff}
    (h : a ∈ matchingWff .addition [base] w) : Schema .addition [base.formula] w.formula := by
  rw [matchingWff] at h
  split at h
  · rename_i left right reads
    rw [reads]
    split at h
    · rename_i side
      rcases side with same | same
      · rw [same]
        exact .addRight _ _
      · rw [same]
        exact .addLeft _ _
    · cases h
  · cases h

theorem matchingWff_eq_filter (other : rule ≠ .addition) :
    matchingWff rule cited w = (instances rule (.ofList cited)).filter fun a =>
      a.conclusion.formula = w.formula
        && (a.premises.map Wff.formula).isPerm (cited.map Wff.formula) := by
  unfold matchingWff
  split
  · exact absurd rfl other
  · rfl

theorem mem_matchingWff (other : rule ≠ .addition) {a : Application} :
    a ∈ matchingWff rule cited w ↔
      a ∈ instances rule (.ofList cited) ∧ a.conclusion.formula = w.formula ∧
        a.premises.map Wff.formula ~ cited.map Wff.formula := by
  rw [matchingWff_eq_filter other, List.mem_filter]
  simp [List.isPerm_iff]

/-- Statements match a rule in the order in which it consumes them, Addition with what it adds. -/
theorem matching_ne_nil {statements : List Statement} {s : Statement} {premises : List Formula}
    {f : Formula} (given : statements.map Statement.formula? = premises.map some)
    (states : s.formula? = some f) (consumes : Consumes rule premises f) :
    matching rule statements s ≠ [] := by
  obtain ⟨ws, reads, rfl⟩ := exists_mapM_wff? given
  have concludes : s.wff? = some ⟨s, f, states⟩ := Statement.wff?_eq_some.mpr rfl
  have enumerates : matchingWff rule ws ⟨s, f, states⟩ = (instances rule (.ofList ws)).filter
      fun a => a.conclusion.formula = f
        && (a.premises.map Wff.formula).isPerm (ws.map Wff.formula) := by
    unfold matchingWff
    split
    · obtain ⟨a, x, two, -⟩ := consumes
      cases two
    · rfl
  have available : ws <+~ (Known.ofList ws).entries := by rw [Known.entries_ofList]
  obtain ⟨a, member, premises, conclusion⟩ := instances_complete consumes available
  rw [matching, reads, concludes]
  simp only [enumerates]
  refine List.ne_nil_of_mem (List.mem_filter.mpr ⟨member, ?_⟩)
  rw [premises, conclusion, Bool.and_eq_true, decide_eq_true_eq, List.isPerm_iff]
  exact ⟨rfl, .refl _⟩

/-- What the check of a citation asks for, once the number of cited lines is right. -/
def Accepts (rule : InferenceRule) (cited : List Wff) (w : Wff) : Prop :=
  ∃ a ∈ matchingWff rule cited w, rule.citationOrder? cited.length ≠ none →
    a.premises.map Wff.formula = cited.map Wff.formula

theorem unordered_cases {n : Nat} (count : n ∈ rule.referenceCounts)
    (unordered : rule.citationOrder? n = none) : rule = .conjunction ∨ n = 1 := by
  cases rule <;> simp_all [InferenceRule.referenceCounts, InferenceRule.citationOrder?]
  rcases count with rfl | rfl <;> simp at unordered

theorem schema_of_accepts (count : cited.length ∈ rule.referenceCounts)
    (h : Accepts rule cited w) : Schema rule (cited.map Wff.formula) w.formula := by
  obtain ⟨a, member, ordered⟩ := h
  by_cases adds : rule = .addition
  · subst adds
    obtain ⟨base, rfl⟩ := List.length_eq_one_iff.mp (List.mem_singleton.mp count)
    exact mem_matchingWff_addition member
  · obtain ⟨enumerated, concludes, perm⟩ := (mem_matchingWff adds).mp member
    have schema := (instances_sound enumerated).consumes.schema adds
    rw [concludes] at schema
    by_cases unordered : rule.citationOrder? cited.length = none
    · rcases unordered_cases count unordered with rfl | single
      · exact schema.conjunction_perm perm
      · obtain ⟨base, rfl⟩ := List.length_eq_one_iff.mp single
        rwa [List.perm_singleton.mp perm] at schema
    · rwa [ordered unordered] at schema

/-- What is cited can be put into the order in which an application consumes it. Only a
    conjunction that is cited the other way round has to be turned. -/
theorem exists_consumes {f : Formula} (h : Schema rule (cited.map Wff.formula) f)
    (other : rule ≠ .addition) : ∃ ws, ws ~ cited ∧ (rule ≠ .conjunction → ws = cited) ∧
      Consumes rule (ws.map Wff.formula) f := by
  cases rule with
  | addition => exact absurd rfl other
  | conjunction =>
      generalize reads : cited.map Wff.formula = premises at h
      cases h with
      | conjunction a b => exact ⟨cited, .refl _, fun _ => rfl, a, b, reads, rfl⟩
      | conjunctionSwapped a b =>
          obtain ⟨v, u, rfl, hv, hu⟩ := by simpa [List.map_eq_cons_iff] using reads
          exact ⟨[u, v], .swap _ _ _, fun ne => absurd rfl ne, a, b, by simp [hu, hv], rfl⟩
  | _ => exact ⟨cited, .refl _, fun _ => rfl, h⟩

theorem accepts_addition {base : Wff} (h : Schema .addition [base.formula] w.formula) :
    Accepts .addition [base] w := by
  refine ⟨⟨.addition, [base], w⟩, ?_, fun _ => rfl⟩
  generalize hw : w.formula = f at h
  cases h with
  | addRight => simp [matchingWff, hw]
  | addLeft => simp [matchingWff, hw]

theorem accepts_of_schema (h : Schema rule (cited.map Wff.formula) w.formula) :
    Accepts rule cited w := by
  by_cases adds : rule = .addition
  · subst adds
    have single : cited.length = 1 := by simpa [InferenceRule.referenceCounts] using h.length_mem
    obtain ⟨base, rfl⟩ := List.length_eq_one_iff.mp single
    exact accepts_addition h
  · obtain ⟨ws, same, unturned, consumes⟩ := exists_consumes h adds
    have available : ws <+~ (Known.ofList cited).entries := by
      rw [Known.entries_ofList]
      exact same.subperm
    obtain ⟨a, enumerated, premises, concludes⟩ := instances_complete consumes available
    refine ⟨a, (mem_matchingWff adds).mpr ⟨enumerated, by rw [concludes]; rfl, ?_⟩, ?_⟩
    · rw [premises]
      exact same.map _
    · intro ordered
      rw [premises, unturned]
      rintro rfl
      exact ordered rfl

end Inference

/-- Different formulas in the places of a schema yield what it derives. -/
theorem Schema.yields {rule : InferenceRule} {cited known : List Formula} {f : Formula}
    (schema : Schema rule cited f) (other : rule ≠ .addition) (distinct : cited.Nodup)
    (stated : cited ⊆ known) : Inference.Yields rule known f := by
  rw [← map_formula_ofFormula cited] at schema
  obtain ⟨ws, perm, -, consumes⟩ := Inference.exists_consumes schema other
  have same := perm.map Wff.formula
  rw [map_formula_ofFormula] at same
  exact ⟨_, List.Subset.trans same.subset stated, consumes,
    (Inference.placesDiffer_iff_nodup consumes).mpr (same.nodup_iff.mpr distinct)⟩

end ProofPuzzles
