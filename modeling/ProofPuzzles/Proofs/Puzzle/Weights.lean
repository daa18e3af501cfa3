import ProofPuzzles.Bounds
import ProofPuzzles.Proofs.Decimal.Worth

/-! # When no rule can be chosen

A choice by weights fails if the weights of the candidates have no finite total, and for no other
reason, whatever is drawn. Rules become lighter when they are used. So if all of the rules have a
finite total at first, the candidates of each later choice have one too.
-/

namespace ProofPuzzles

open Decimal

/-! ## Sums of weights -/

section Sums

variable {s : Float} {a : ℕ∞} {choices : List (InferenceRule × Float)}

/-- The sum of the weights, one after the other, on top of a given sum. -/
def sumFrom (sum : Float) (choices : List (InferenceRule × Float)) : Float :=
  choices.foldl (fun sum c => sum + c.2) sum

theorem sumFrom_cons (sum : Float) (c : InferenceRule × Float)
    (choices : List (InferenceRule × Float)) :
    sumFrom sum (c :: choices) = sumFrom (sum + c.2) choices := rfl

theorem getLast?_runningSums (sum : Float) (choices : List (InferenceRule × Float)) :
    ((Random.runningSums sum choices).getLast?.map (·.2)).getD sum = sumFrom sum choices := by
  induction choices generalizing sum with
  | nil => rfl
  | cons c choices ih =>
      rw [Random.runningSums, sumFrom_cons, ← ih, List.getLast?_cons]
      cases (Random.runningSums (sum + c.2) choices).getLast? <;> rfl

theorem exists_worth_sumFrom (worth : Worth s a) (positive : ∀ c ∈ choices, 0.0 < c.2) :
    ∃ b, a ≤ b ∧ Worth (sumFrom s choices) b := by
  induction choices generalizing s a with
  | nil => exact ⟨a, le_refl a, worth⟩
  | cons c choices ih =>
      obtain ⟨above, positive⟩ := List.forall_mem_cons.mp positive
      obtain ⟨weight, -, weighs⟩ := exists_worth above
      obtain ⟨b, le, total⟩ := ih (worth.add weighs) positive
      exact ⟨b, (worth.le_settled_add weight).trans le, total⟩

end Sums

namespace RuleWeights

variable {weights limits : RuleWeights} {candidates rules : List InferenceRule}
  {rule : InferenceRule} {s t : Float} {a b : ℕ∞}

/-- The candidates that can be chosen, with their weights. -/
def choices (weights : RuleWeights) (candidates : List InferenceRule) :
    List (InferenceRule × Float) :=
  (candidates.map fun rule => (rule, weights.get rule)).filter fun c => 0.0 < c.2

/-- The total weight of the candidates that can be chosen. -/
def total (weights : RuleWeights) (candidates : List InferenceRule) : Float :=
  sumFrom 0.0 (weights.choices candidates)

theorem choices_cons_of_pos (above : 0.0 < weights.get rule) :
    weights.choices (rule :: candidates) =
      (rule, weights.get rule) :: weights.choices candidates :=
  List.filter_cons_of_pos (by simpa using above)

theorem choices_cons_of_not_pos (notAbove : ¬0.0 < weights.get rule) :
    weights.choices (rule :: candidates) = weights.choices candidates :=
  List.filter_cons_of_neg (by simpa using notAbove)

theorem pos_of_mem_choices {c : InferenceRule × Float} (member : c ∈ weights.choices candidates) :
    0.0 < c.2 := by
  simpa using (List.mem_filter.mp member).2

/-- Whatever is drawn, a choice fails where the total is not finite, and only there. -/
theorem choose_eq_error_iff {σ : Type} [RandomSource σ] {e : Random.WeightError} {source : σ} :
    weights.choose candidates source = .error e ↔
      e = .notFinite ∧ (weights.total candidates).isFinite = false := by
  rw [total, choose, ← choices]
  cases chosen : weights.choices candidates with
  | nil =>
      have finite : Float.isFinite 0.0 = true := worth_zero.isFinite_iff.mpr (by simp)
      simp [sumFrom, finite]
  | cons first others =>
      have positive : ∀ c ∈ first :: others, 0.0 < c.2 := fun c member =>
        pos_of_mem_choices (chosen ▸ member)
      obtain ⟨above, later⟩ := List.forall_mem_cons.mp positive
      obtain ⟨a, weight, weighs⟩ := exists_worth above
      obtain ⟨b, le, worth⟩ := exists_worth_sumFrom weighs later
      rw [sumFrom_cons, weighs.zero_add]
      simp only [Random.chooseByWeight, getLast?_runningSums, worth.add_zero,
        worth.not_nonpos (weight.trans_le le), if_false]
      cases (sumFrom first.2 others).isFinite <;> simp [eq_comm]

/-! ## Weights that become less -/

/-- A weight that counts for nothing, or for no more than it did. -/
def Lessened (x y : Float) : Prop := Naught x ∨ ∃ a b, a ≤ b ∧ Worth x a ∧ Worth y b

/-- Weights that count for no more than they did. -/
def Within (weights limits : RuleWeights) : Prop :=
  ∀ rule, Lessened (weights.get rule) (limits.get rule)

theorem Lessened.refl {x : Float} (notBelow : ¬x < 0.0) : Lessened x x := by
  rcases naught_or_pos notBelow with naught | above
  · exact .inl naught
  · obtain ⟨a, -, worth⟩ := exists_worth above
    exact .inr ⟨a, a, le_refl a, worth, worth⟩

theorem Lessened.mul {x y decay : Float} (lessened : Lessened x y)
    (share : Share decay.toModel.unpack) : Lessened (x * decay) y := by
  rcases lessened with naught | ⟨a, b, le, weighs, weighed⟩
  · exact .inl (naught.mul share)
  · obtain ⟨c, less, worth⟩ := weighs.mul share
    exact .inr ⟨c, b, less.trans le, worth, weighed⟩

theorem Lessened.exists_worth {x y : Float} (lessened : Lessened x y) (above : 0.0 < x) :
    0.0 < y ∧ ∃ a b, a ≤ b ∧ Worth x a ∧ Worth y b := by
  rcases lessened with naught | ⟨a, b, le, weighs, weighed⟩
  · exact absurd above naught.not_pos
  · have weight := weighs.pos_iff.mp above
    exact ⟨weighed.pos_iff.mpr (weight.trans_le le), a, b, le, weighs, weighed⟩

theorem index_injective : Function.Injective InferenceRule.index := by
  have listed : Function.LeftInverse (fun i : Fin 9 => InferenceRule.all.get i)
      InferenceRule.index := fun rule => by cases rule <;> rfl
  exact listed.injective

theorem get_markUsed (weights : RuleWeights) (decay : Float) (used rule : InferenceRule) :
    (weights.markUsed decay used).get rule =
      if used = rule then weights.get rule * decay else weights.get rule := by
  have changed : (weights.markUsed decay used).get rule =
      if (used.index : Nat) = rule.index then weights.get used * decay else weights.get rule :=
    Vector.getElem_set used.index.isLt rule.index.isLt
  rw [changed]
  by_cases same : used = rule
  · rw [if_pos same, if_pos (by rw [same]), same]
  · rw [if_neg same, if_neg fun index => same (index_injective (Fin.ext index))]

/-- A rule that is used becomes no heavier. -/
theorem Within.markUsed {decay : Float} (within : weights.Within limits)
    (share : Share decay.toModel.unpack) (used : InferenceRule) :
    (weights.markUsed decay used).Within limits := by
  intro rule
  rw [get_markUsed]
  split
  · exact (within rule).mul share
  · exact within rule

/-- One more rule makes a sum worth no less. -/
theorem exists_sumFrom_cons (worth : Worth s a) (weights : RuleWeights) (rule : InferenceRule) :
    ∃ t b, a ≤ b ∧ Worth t b ∧ ∀ rules,
      sumFrom s (weights.choices (rule :: rules)) = sumFrom t (weights.choices rules) := by
  by_cases above : 0.0 < weights.get rule
  · obtain ⟨weight, -, weighs⟩ := exists_worth above
    refine ⟨_, _, worth.le_settled_add weight, worth.add weighs, fun rules => ?_⟩
    rw [choices_cons_of_pos above, sumFrom_cons]
  · exact ⟨s, a, le_refl a, worth, fun rules => by rw [choices_cons_of_not_pos above]⟩

/-- Some of the rules, with lighter weights, are together worth no more. -/
theorem Within.exists_sumFrom_le (within : weights.Within limits)
    (listed : candidates.Sublist rules) (left : Worth s a) (right : Worth t b) (le : a ≤ b) :
    ∃ c d, c ≤ d ∧ Worth (sumFrom s (weights.choices candidates)) c ∧
      Worth (sumFrom t (limits.choices rules)) d := by
  -- a rule that is left out, or is too light to be chosen now, only adds to the sum on the right
  induction listed generalizing s t a b with
  | slnil => exact ⟨a, b, le, left, right⟩
  | cons rule listed ih =>
      obtain ⟨t', b', grows, right', same⟩ := exists_sumFrom_cons right limits rule
      rw [same]
      exact ih left right' (le.trans grows)
  | cons_cons rule listed ih =>
      by_cases above : 0.0 < weights.get rule
      · obtain ⟨before, c, d, less, weighs, weighed⟩ := (within rule).exists_worth above
        rw [choices_cons_of_pos above, choices_cons_of_pos before, sumFrom_cons, sumFrom_cons]
        exact ih (left.add weighs) (right.add weighed) (settled_mono (add_le_add le less))
      · obtain ⟨t', b', grows, right', same⟩ := exists_sumFrom_cons right limits rule
        rw [choices_cons_of_not_pos above, same]
        exact ih left right' (le.trans grows)

/-- Where a choice among some rules has no finite total, all of them had none at first. -/
theorem Within.isFinite_total (within : weights.Within limits)
    (listed : candidates.Sublist rules) (infinite : (weights.total candidates).isFinite = false) :
    (limits.total rules).isFinite = false := by
  obtain ⟨c, d, le, few, all⟩ := within.exists_sumFrom_le listed worth_zero worth_zero le_rfl
  rw [total, ← Bool.not_eq_true, few.isFinite_iff, not_not] at infinite
  rw [total, ← Bool.not_eq_true, all.isFinite_iff, not_not]
  exact top_le_iff.mp (infinite ▸ le)

end RuleWeights

namespace Bounds

variable (b : Bounds)

theorem share_weightDecay : Share b.weightDecay.toModel.unpack := by
  have accepted := b.accepted
  unfold Settings.complaint? at accepted
  have inside : 0.0 < b.weightDecay ∧ b.weightDecay ≤ 1.0 := by
    grind
  exact share_of_le_one inside.1 inside.2

theorem within_ruleWeights : b.ruleWeights.Within b.ruleWeights := by
  have accepted := b.accepted
  unfold Settings.complaint? at accepted
  have none : b.ruleWeights.values.toList.any (· < 0.0) = false := by
    grind
  intro rule
  have member : b.ruleWeights.get rule ∈ b.ruleWeights.values.toList :=
    Vector.mem_toList_iff.mpr (Vector.getElem_mem rule.index.isLt)
  exact .refl fun below => List.any_eq_false.mp none _ member (decide_eq_true below)

end Bounds

end ProofPuzzles
