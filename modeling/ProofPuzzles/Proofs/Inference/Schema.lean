import Mathlib.Data.List.Basic
import ProofPuzzles.Proofs.Truth
import ProofPuzzles.Rule

/-! # The schemas of the rules of inference

A schema names the formulas that a line cites, in the order in which it cites them, and the
formula that it then states. What the schemas derive from true formulas is true.
-/

namespace ProofPuzzles

open Formula

theorem eq_or_swap_of_perm {α : Type} {a b : α} {other : List α} (perm : [a, b].Perm other) :
    other = [a, b] ∨ other = [b, a] := by
  obtain ⟨x, y, rfl⟩ := List.length_eq_two.mp perm.length_eq.symm
  rcases List.mem_pair.mp (perm.subset List.mem_cons_self) with rfl | rfl
  · exact .inl (by simpa using perm.symm)
  · exact .inr (by simpa using (perm.trans (.swap _ _ _)).symm)

/-- From the listed formulas, cited in this order, the rule derives the formula. One formula may
    stand in several places of a schema, and Addition may add anything. -/
inductive Schema : InferenceRule → List Formula → Formula → Prop where
  | modusPonens (a b : Formula) : Schema .modusPonens [impl a b, a] b
  | modusTollens (a b : Formula) : Schema .modusTollens [impl a b, neg b] (neg a)
  | hypotheticalSyllogism (a b c : Formula) :
    Schema .hypotheticalSyllogism [impl a b, impl b c] (impl a c)
  | denyLeft (a b : Formula) : Schema .disjunctiveSyllogism [disj a b, neg a] b
  | denyRight (a b : Formula) : Schema .disjunctiveSyllogism [disj a b, neg b] a
  | joinedDilemma (a b c d : Formula) :
    Schema .constructiveDilemma [conj (impl a b) (impl c d), disj a c] (disj b d)
  | separateDilemma (a b c d : Formula) :
    Schema .constructiveDilemma [impl a b, impl c d, disj a c] (disj b d)
  | absorption (a b : Formula) : Schema .absorption [impl a b] (impl a (conj a b))
  | simplifyLeft (a b : Formula) : Schema .simplification [conj a b] a
  | simplifyRight (a b : Formula) : Schema .simplification [conj a b] b
  | conjunction (a b : Formula) : Schema .conjunction [a, b] (conj a b)
  | conjunctionSwapped (a b : Formula) : Schema .conjunction [b, a] (conj a b)
  | addRight (a x : Formula) : Schema .addition [a] (disj a x)
  | addLeft (a x : Formula) : Schema .addition [a] (disj x a)

namespace Schema

variable {rule : InferenceRule} {cited : List Formula} {f : Formula}

/-- Conjunction is the only rule that does not care for the order of what it cites. -/
theorem conjunction_perm {other : List Formula} (h : Schema .conjunction cited f)
    (same : cited.Perm other) : Schema .conjunction other f := by
  cases h with
  | conjunction a b =>
      rcases eq_or_swap_of_perm same with rfl | rfl
      · exact .conjunction a b
      · exact .conjunctionSwapped a b
  | conjunctionSwapped a b =>
      rcases eq_or_swap_of_perm same with rfl | rfl
      · exact .conjunctionSwapped a b
      · exact .conjunction a b

/-- From true formulas a schema derives true ones. -/
theorem sound (h : Schema rule cited f) {v : Assignment} (given : ∀ g ∈ cited, g.eval v = true) :
    f.eval v = true := by
  cases h <;> simp only [List.forall_mem_cons, eval_neg, eval_conj, eval_disj, eval_impl] at given ⊢
    <;> grind

end Schema

/-- What an application of a rule consumes: what a line that states its conclusion would cite,
    save that Conjunction keeps the order and Addition consumes also the formula that it adds. -/
def Consumes (rule : InferenceRule) (premises : List Formula) (f : Formula) : Prop :=
  match rule with
  | .conjunction => ∃ a b, premises = [a, b] ∧ f = conj a b
  | .addition => ∃ a x, premises = [a, x] ∧ (f = disj a x ∨ f = disj x a)
  | rule => Schema rule premises f

theorem Consumes.schema {rule premises f} (h : Consumes rule premises f)
    (other : rule ≠ .addition) : Schema rule premises f := by
  cases rule with
  | addition => exact absurd rfl other
  | conjunction =>
      obtain ⟨a, b, rfl, rfl⟩ := h
      exact .conjunction a b
  | _ => exact h

/-- What an application consumes suffices to cite: Addition gets by without what it adds. -/
theorem Consumes.exists_schema {rule premises f} (h : Consumes rule premises f) :
    ∃ cited, cited ⊆ premises ∧ Schema rule cited f := by
  by_cases adds : rule = .addition
  · subst adds
    obtain ⟨a, x, rfl, rfl | rfl⟩ := h
    · exact ⟨[a], by simp, .addRight a x⟩
    · exact ⟨[a], by simp, .addLeft a x⟩
  · exact ⟨premises, List.Subset.refl _, h.schema adds⟩

theorem Consumes.ne_nil {rule premises f} (h : Consumes rule premises f) : premises ≠ [] := by
  obtain ⟨cited, subset, schema⟩ := h.exists_schema
  rintro rfl
  cases schema <;> simp at subset

end ProofPuzzles
