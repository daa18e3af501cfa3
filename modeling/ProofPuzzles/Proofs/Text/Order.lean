import Mathlib.Data.List.Basic
import ProofPuzzles.Text.Order

/-! # What the order by text is

The texts that are computed before sorting are those of the elements afterwards.
-/

namespace ProofPuzzles.Text

variable {α : Type}

theorem pairwise_sortedBy (text : α → String) (xs : List α) :
    (sortedBy text xs).Pairwise fun a b => text a ≤ text b := by
  have ordered : ((xs.map fun a => (text a, a)).mergeSort fun a b => !decide (b.1 < a.1)).Pairwise
      fun a b => (!decide (b.1 < a.1)) = true := by
    refine List.pairwise_mergeSort (fun a b c ab bc => ?_) (fun a b => ?_) _
    · simp only [Bool.not_eq_true', decide_eq_false_iff_not, String.not_lt] at ab bc ⊢
      exact String.le_trans ab bc
    · simp only [Bool.or_eq_true, Bool.not_eq_true', decide_eq_false_iff_not, String.not_lt]
      exact String.le_total _ _
  have decorated : ∀ p ∈ (xs.map fun a => (text a, a)).mergeSort fun a b => !decide (b.1 < a.1),
      p.1 = text p.2 := by
    intro p member
    obtain ⟨a, -, rfl⟩ := List.mem_map.mp (List.mem_mergeSort.mp member)
    rfl
  rw [sortedBy, List.pairwise_map]
  refine ordered.imp_of_mem fun {p q} first second le => ?_
  simp only [Bool.not_eq_true', decide_eq_false_iff_not, String.not_lt] at le
  rwa [← decorated p first, ← decorated q second]

theorem sortedBy_eq_self {text : α → String} {xs : List α}
    (ordered : xs.Pairwise fun a b => text a ≤ text b) : sortedBy text xs = xs := by
  rw [sortedBy, List.mergeSort_of_pairwise, List.map_map]
  · exact List.map_id xs
  · rw [List.pairwise_map]
    refine ordered.imp fun le => ?_
    simpa only [Bool.not_eq_true', decide_eq_false_iff_not, String.not_lt] using le

/-- Texts in order say how often each text was there, and nothing else. -/
theorem sortedBy_self_eq_iff_perm {xs ys : List String} :
    sortedBy (fun text => text) xs = sortedBy (fun text => text) ys ↔ xs.Perm ys := by
  constructor
  · intro same
    exact (sortedBy_perm _ xs).symm.trans (same ▸ sortedBy_perm _ ys)
  · intro perm
    have rearranged := (sortedBy_perm (fun text => text) xs).trans
      (perm.trans (sortedBy_perm (fun text => text) ys).symm)
    exact rearranged.eq_of_pairwise (fun _ _ _ _ => String.le_antisymm)
      (pairwise_sortedBy _ xs) (pairwise_sortedBy _ ys)

end ProofPuzzles.Text
