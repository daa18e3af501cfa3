import Mathlib.Data.List.Nodup
import ProofPuzzles.Commitments
import ProofPuzzles.Proofs.Firsts
import ProofPuzzles.Proofs.Inference.Schema

/-! # What commitments guarantee

Scanning the literals of a formula says little about its truth: `¬(p∧q)`, `p` and `q` assert no
letter with both signs. It suffices where negations stand before letters only. What rules derive
from such formulas is of the same kind, as nothing can be denied that has been asserted.
-/

namespace ProofPuzzles

open Formula

variable {used more : List Literal} {f : Formula} {v : Assignment}

/-- Every negation stands before a letter, and every literal has been asserted. -/
inductive Formula.Asserted (used : List Literal) : Formula → Prop where
  | letter {x : Letter} (member : ⟨x, true⟩ ∈ used) : Asserted used (.letter x)
  | negated {x : Letter} (member : ⟨x, false⟩ ∈ used) : Asserted used (.neg (.letter x))
  | bin {c : Connective} {l r : Formula} (left : Asserted used l) (right : Asserted used r) :
    Asserted used (.bin c l r)

/-- The assignment makes the literals true. -/
def Assignment.Models (v : Assignment) (used : List Literal) : Prop :=
  ∀ l ∈ used, l.formula.eval v = true

/-- No letter is asserted with both signs. -/
def OneSigned (used : List Literal) : Prop := ∀ l ∈ used, l.opposite ∉ used

namespace Formula.Asserted

theorem mono (asserted : f.Asserted used) (kept : used ⊆ more) : f.Asserted more := by
  induction asserted with
  | letter member => exact .letter (kept member)
  | negated member => exact .negated (kept member)
  | bin _ _ left right => exact .bin left right

theorem left {c : Connective} {l r : Formula} (asserted : (Formula.bin c l r).Asserted used) :
    l.Asserted used := by
  cases asserted with
  | bin left right => exact left

theorem right {c : Connective} {l r : Formula} (asserted : (Formula.bin c l r).Asserted used) :
    r.Asserted used := by
  cases asserted with
  | bin left right => exact right

/-- Each connective is true of two truths. -/
theorem eval (asserted : f.Asserted used) (models : v.Models used) : f.eval v = true := by
  induction asserted with
  | letter member => exact models _ member
  | negated member => exact models _ member
  | @bin c l r _ _ left right =>
      rw [Formula.eval, left, right]
      cases c <;> rfl

theorem occurrences (asserted : f.Asserted used) : f.occurrences ⊆ used := by
  induction asserted with
  | letter member => simpa [Formula.occurrences] using member
  | negated member => simpa [Formula.occurrences] using member
  | bin _ _ left right => exact List.append_subset.mpr ⟨left, right⟩

theorem exists_literal (asserted : f.Asserted used) {x : Letter} (occurs : x ∈ f.letters) :
    ∃ l ∈ used, l.letter = x := by
  induction asserted with
  | letter member =>
      cases List.mem_singleton.mp occurs
      exact ⟨_, member, rfl⟩
  | negated member =>
      cases List.mem_singleton.mp occurs
      exact ⟨_, member, rfl⟩
  | bin _ _ left right =>
      rcases List.mem_append.mp occurs with occurs | occurs
      · exact left occurs
      · exact right occurs

/-- A formula and its negation are not both asserted. -/
theorem not_neg (signs : OneSigned used) (asserted : f.Asserted used) : ¬(neg f).Asserted used := by
  intro denied
  cases denied with
  | negated negative =>
      cases asserted with
      | letter positive => exact signs _ positive negative

end Formula.Asserted

/-- What a rule derives from asserted formulas is asserted. Modus Tollens never applies. -/
theorem Consumes.asserted {rule : InferenceRule} {premises : List Formula}
    (consumes : Consumes rule premises f) (signs : OneSigned used)
    (given : ∀ g ∈ premises, g.Asserted used) : f.Asserted used := by
  by_cases adds : rule = .addition
  · subst adds
    obtain ⟨a, x, rfl, rfl | rfl⟩ := consumes <;> simp only [List.forall_mem_cons] at given
    · exact .bin given.1 given.2.1
    · exact .bin given.2.1 given.1
  · cases consumes.schema adds <;> simp only [List.forall_mem_cons] at given
    case modusPonens => exact given.1.right
    case modusTollens => exact absurd given.2.1 (given.1.right.not_neg signs)
    case hypotheticalSyllogism => exact .bin given.1.left given.2.1.right
    case denyLeft => exact given.1.right
    case denyRight => exact given.1.left
    case joinedDilemma => exact .bin given.1.left.right given.1.right.right
    case separateDilemma => exact .bin given.1.right given.2.1.right
    case absorption => exact .bin given.1.left (.bin given.1.left given.1.right)
    case simplifyLeft => exact given.1.left
    case simplifyRight => exact given.1.right
    case conjunction => exact .bin given.1 given.2.1
    case conjunctionSwapped => exact .bin given.2.1 given.1
    case addRight | addLeft => exact absurd rfl adds

/-- Literals of one sign each are jointly true where the positive ones are. -/
theorem OneSigned.exists_models (signs : OneSigned used) : ∃ v : Assignment, v.Models used := by
  refine ⟨fun x => decide (⟨x, true⟩ ∈ used), fun l member => ?_⟩
  obtain ⟨x, positive⟩ := l
  cases positive with
  | true => simpa [Literal.formula, Formula.eval] using member
  | false => simpa [Literal.formula, Literal.opposite, Formula.eval] using signs _ member

/-- No contradiction is found among asserted formulas. -/
theorem contradiction?_eq_none (signs : OneSigned used) {formulas : List Formula}
    (asserted : ∀ f ∈ formulas, f.Asserted used) : contradiction? formulas = none := by
  have within : formulas.flatMap Formula.literals ⊆ used := by
    intro l member
    obtain ⟨f, listed, occurs⟩ := List.mem_flatMap.mp member
    exact (asserted f listed).occurrences (mem_firstsBy_id.mp occurs)
  rw [contradiction?, List.find?_eq_none]
  intro x _ both
  simp only [Bool.and_eq_true, List.contains_iff_mem] at both
  exact signs _ (within both.1) (within both.2)

/-! ## Asserting literals -/

namespace Commitments

variable {c c' : Commitments} {l : Literal}

/-- Letters are free until they are asserted, with one sign. -/
structure Coherent (c : Commitments) : Prop where
  distinct : c.available.Nodup
  free : ∀ l ∈ c.used, l.letter ∉ c.available
  signs : OneSigned c.used

theorem coherent_ofLetters {letters : List Letter} (distinct : letters.Nodup) :
    (ofLetters letters).Coherent := ⟨distinct, nofun, nofun⟩

theorem mem_available {x : Letter} (fresh : c.fresh? = some x) : x ∈ c.available :=
  List.mem_of_head? fresh

theorem literal?_formula (l : Literal) : literal? l.formula = some l := by
  obtain ⟨x, positive⟩ := l
  cases positive <;> rfl

/-- A literal over a free letter that has not been asserted can be asserted. -/
theorem assert?_eq (new : ∀ k ∈ c.used, k.letter ≠ l.letter) (free : l.letter ∈ c.available) :
    c.assert? l.formula = some (l, ⟨c.available.erase l.letter, c.used ++ [l]⟩) := by
  have unasserted : l ∉ c.used := fun member => new l member rfl
  have undenied : l.opposite ∉ c.used := fun member => new _ member rfl
  simp [assert?, literal?_formula, unasserted, undenied, free]

/-- What asserting a formula leads to: nothing changes, or a free letter is taken. -/
theorem assert?_eq_some (asserts : c.assert? f = some (l, c')) : literal? f = some l ∧
    (l ∈ c.used ∧ c' = c ∨ l.opposite ∉ c.used ∧ l.letter ∈ c.available ∧
      c' = ⟨c.available.erase l.letter, c.used ++ [l]⟩) := by
  rw [assert?] at asserts
  split at asserts
  · cases asserts
  · rename_i k reads
    split at asserts
    · rename_i member
      cases asserts
      exact ⟨reads, .inl ⟨member, rfl⟩⟩
    · split at asserts
      · cases asserts
      · rename_i undenied
        split at asserts
        · rename_i free
          cases asserts
          exact ⟨reads, .inr ⟨undenied, free, rfl⟩⟩
        · cases asserts

theorem assert?_cases {k : Literal} (asserts : c.assert? l.formula = some (k, c')) :
    l ∈ c.used ∧ c' = c ∨
      l.opposite ∉ c.used ∧ c' = ⟨c.available.erase l.letter, c.used ++ [l]⟩ := by
  obtain ⟨reads, outcome⟩ := assert?_eq_some asserts
  cases (literal?_formula l).symm.trans reads
  rcases outcome with same | ⟨undenied, -, taken⟩
  · exact .inl same
  · exact .inr ⟨undenied, taken⟩

theorem opposite_opposite (l : Literal) : l.opposite.opposite = l := by
  simp [Literal.opposite]

theorem opposite_ne (l : Literal) : l.opposite ≠ l := by
  intro same
  simpa [Literal.opposite] using congrArg Literal.positive same

theorem Coherent.take (coherent : c.Coherent) (undenied : l.opposite ∉ c.used) :
    Coherent ⟨c.available.erase l.letter, c.used ++ [l]⟩ where
  distinct := coherent.distinct.erase _
  free k member again := by
    rcases List.mem_append.mp member with old | new
    · exact coherent.free k old (List.mem_of_mem_erase again)
    · rw [List.mem_singleton.mp new] at again
      exact coherent.distinct.not_mem_erase again
  signs k member denied := by
    rcases List.mem_append.mp member with old | new <;>
      rcases List.mem_append.mp denied with denied | denied
    · exact coherent.signs k old denied
    · rw [← List.mem_singleton.mp denied, opposite_opposite] at undenied
      exact undenied old
    · rw [List.mem_singleton.mp new] at denied
      exact undenied denied
    · rw [List.mem_singleton.mp new, List.mem_singleton] at denied
      exact opposite_ne l denied

theorem Coherent.assert? {k : Literal} (coherent : c.Coherent)
    (asserts : c.assert? l.formula = some (k, c')) :
    c'.Coherent ∧ c.used ⊆ c'.used ∧ l ∈ c'.used := by
  rcases assert?_cases asserts with ⟨member, rfl⟩ | ⟨undenied, rfl⟩
  · exact ⟨coherent, List.Subset.refl _, member⟩
  · exact ⟨coherent.take undenied, List.subset_append_left _ _, by simp⟩

theorem Coherent.assertLiterals {literals : List Literal} (coherent : c.Coherent)
    (asserts : assertLiterals literals c = (true, c')) :
    c'.Coherent ∧ c.used ⊆ c'.used ∧ literals ⊆ c'.used := by
  induction literals generalizing c with
  | nil =>
      cases asserts
      exact ⟨coherent, List.Subset.refl _, List.nil_subset _⟩
  | cons l literals ih =>
      rw [Commitments.assertLiterals] at asserts
      split at asserts
      · rename_i k next first
        obtain ⟨after, kept, member⟩ := coherent.assert? first
        obtain ⟨final, grown, others⟩ := ih after asserts
        exact ⟨final, List.Subset.trans kept grown, List.cons_subset.mpr ⟨grown member, others⟩⟩
      · cases asserts

/-- After all literals of the formulas could be asserted, each of them has been. -/
theorem Coherent.assertAll {formulas : List Formula} (coherent : c.Coherent)
    (asserts : c.assertAll formulas = (true, c')) :
    c'.Coherent ∧ c.used ⊆ c'.used ∧ ∀ f ∈ formulas, f.occurrences ⊆ c'.used := by
  obtain ⟨after, kept, literals⟩ := coherent.assertLiterals asserts
  refine ⟨after, kept, fun f listed l occurs => literals ?_⟩
  exact List.mem_flatMap.mpr ⟨f, listed, mem_firstsBy_id.mpr occurs⟩

end Commitments

end ProofPuzzles
