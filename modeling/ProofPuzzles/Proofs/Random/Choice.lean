import Mathlib.Data.List.Basic
import ProofPuzzles.Random.Source

/-! # What random choices can come to

Whatever the source yields, a choice picks from what it is given and a shuffle only reorders.
-/

namespace ProofPuzzles.Random

variable {σ α : Type} [RandomSource σ]

theorem choose_mem {as : List α} (h : as ≠ []) (source : σ) : (choose as h source).1 ∈ as :=
  List.getElem_mem _

theorem le_between {low high : Int} (h : low ≤ high) (source : σ) :
    low ≤ (between low high h source).1 := by
  unfold between
  exact Int.le_add_of_nonneg_right (Int.natCast_nonneg _)

theorem perm_exchange (front back : List α) (x y : α) :
    (front ++ y :: back ++ [x]).Perm (front ++ x :: back ++ [y]) :=
  calc
    (front ++ y :: back ++ [x]).Perm (x :: (front ++ y :: back)) := List.perm_append_singleton _ _
    List.Perm _ (x :: y :: (front ++ back)) := List.perm_middle.cons x
    List.Perm _ (y :: x :: (front ++ back)) := .swap _ _ _
    List.Perm _ (y :: (front ++ x :: back)) := List.perm_middle.symm.cons y
    List.Perm _ (front ++ x :: back ++ [y]) := (List.perm_append_singleton _ _).symm

/-- Moving an element to the end and the last one into its place reorders the elements. -/
theorem perm_set_getLast {as : List α} {i : Nat} (inside : i < as.length) (nonempty : as ≠ []) :
    ((as.set i (as.getLast nonempty)).dropLast ++ [as[i]]).Perm as := by
  obtain ⟨init, last, rfl⟩ : ∃ init last, as = init ++ [last] :=
    ⟨as.dropLast, as.getLast nonempty, (List.dropLast_append_getLast nonempty).symm⟩
  rw [List.getLast_append_singleton]
  by_cases early : i < init.length
  · rw [List.set_append_left _ _ early, List.dropLast_concat, List.getElem_append_left early,
      List.set_eq_take_append_cons_drop, if_pos early]
    refine (perm_exchange _ _ _ _).trans ?_
    rw [List.getElem_cons_drop, List.take_append_drop]
  · rw [List.length_append, List.length_singleton] at inside
    have final : i = init.length := by omega
    subst final
    simp

theorem shuffle_perm (as : List α) (source : σ) : (shuffle as source).1.Perm as := by
  induction bound : as.length using Nat.strongRecOn generalizing as source with
  | ind n ih =>
      rw [shuffle]
      split
      · rename_i several
        refine List.Perm.trans (List.Perm.append_right _ (ih (n - 1) ?_ _ _ ?_))
          (perm_set_getLast _ ?_)
        · omega
        · rw [List.length_dropLast, List.length_set, bound]
        · exact List.ne_nil_of_length_pos (by omega)
      · exact .refl _

end ProofPuzzles.Random
