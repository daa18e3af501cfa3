import Mathlib.Data.Finset.Card
import Mathlib.Data.Finset.Range
import Mathlib.Order.Bounds.Basic
import ProofPuzzles.Proofs.Graph.Operations

/-! # The depth of a node

The depth is computed by heights that look one step further down each time. After as many steps as
there are nodes it is the length of the longest path to a leaf, since no path of an acyclic graph
comes to a place twice.
-/

namespace ProofPuzzles

open Relation

namespace Graph

variable {g : Graph} {node : GraphNode} {i p n : Nat}

/-- A path of so many steps leads from the place down to a leaf. -/
inductive Descent (g : Graph) : Nat → Nat → Prop where
  | leaf {i : Nat} {node : GraphNode} (there : g.At i node) (isLeaf : node.parents = []) :
    Descent g i 0
  | step {i p n : Nat} (rests : g.RestsOn i p) (path : Descent g p n) : Descent g i (n + 1)

theorem At.exists_restsOn (there : g.At i node) (nonempty : node.parents ≠ []) :
    ∃ p, g.RestsOn i p := by
  obtain ⟨p, parent⟩ := List.exists_mem_of_ne_nil _ nonempty
  exact ⟨p, node, there, parent⟩

theorem At.parents_ne_nil (there : g.At i node) (rests : g.RestsOn i p) : node.parents ≠ [] := by
  obtain ⟨other, found, parent⟩ := rests
  cases there.symm.trans found
  exact List.ne_nil_of_mem parent

theorem Descent.eq_zero (path : g.Descent i n) (isLeaf : ∀ p, ¬g.RestsOn i p) : n = 0 := by
  cases path with
  | leaf => rfl
  | step rests path => exact absurd rests (isLeaf _)

/-- The nodes on a path, its leaf apart, are all different. -/
theorem Descent.exists_derived (acyclic : g.Acyclic) (path : g.Descent i n) :
    ∃ places : List Nat, places.length = n ∧ places.Nodup ∧
      ∀ p ∈ places, g.Behind i p ∧ ∃ q, g.RestsOn p q := by
  induction path with
  | leaf there isLeaf => exact ⟨[], rfl, List.nodup_nil, nofun⟩
  | @step i p n rests path ih =>
      obtain ⟨places, length, distinct, derived⟩ := ih
      refine ⟨i :: places, by rw [List.length_cons, length], List.nodup_cons.mpr ⟨?_, distinct⟩, ?_⟩
      · intro again
        exact acyclic.circular i (.head' rests (derived i again).1)
      · intro q member
        rcases List.mem_cons.mp member with rfl | later
        · exact ⟨.refl, p, rests⟩
        · exact ⟨.head rests (derived q later).1, (derived q later).2⟩

/-- In an acyclic graph, parents have a lower rank. It is enough to count what a node rests on. -/
theorem Acyclic.exists_rank (acyclic : g.Acyclic) : ∃ rank : Nat → Nat,
    (∀ i p, g.RestsOn i p → rank p < rank i) ∧ ∀ i, rank i ≤ g.nodes.length := by
  classical
  let below (i : Nat) := (Finset.range g.nodes.length).filter (TransGen g.RestsOn i)
  refine ⟨fun i => (below i).card, fun i p rests => Finset.card_lt_card ?_, fun i => ?_⟩
  · have deeper : below p ⊆ below i :=
      Finset.monotone_filter_right _ fun q _ further => .head rests further
    refine (Finset.ssubset_iff_of_subset deeper).mpr ⟨p, ?_, ?_⟩
    · exact Finset.mem_filter.mpr ⟨Finset.mem_range.mpr (acyclic.inside i p rests), .single rests⟩
    · exact fun again => acyclic.circular p (Finset.mem_filter.mp again).2
  · exact (Finset.card_filter_le _ _).trans (Finset.card_range _).le

/-! ## Heights -/

/-- The height of the node at a place, as far as the given number of steps shows. -/
def heightAt (g : Graph) (n i : Nat) : Nat := (g.heights n).getD i 0

theorem heightAt_zero : g.heightAt 0 i = 0 := by
  simp only [heightAt, heights, List.getD_eq_getElem?_getD, List.getElem?_map]
  cases g.nodes[i]? <;> rfl

theorem heightAt_succ_of_leaf (there : g.At i node) (isLeaf : node.parents = []) :
    g.heightAt (n + 1) i = 0 := by
  have found : g.nodes[i]? = some node := there
  simp [heightAt, heights, found, GraphNode.isLeaf, isLeaf]

/-- A derived node is one higher than the highest of its parents. -/
theorem heightAt_succ_of_derived (there : g.At i node) (derived : node.parents ≠ []) :
    ∃ height, g.heightAt (n + 1) i = height + 1 ∧ (∃ p, g.RestsOn i p ∧ g.heightAt n p = height) ∧
      ∀ p, g.RestsOn i p → g.heightAt n p ≤ height := by
  have found : g.nodes[i]? = some node := there
  let height := node.parents.foldl (fun most p => max most (g.heightAt n p)) 0
  have largest : (0 :: node.parents.map (g.heightAt n)).max? = some height := by
    rw [List.max?_cons', List.foldl_map]
  obtain ⟨attained, bound⟩ := List.max?_eq_some_iff.mp largest
  have above : ∀ p ∈ node.parents, g.heightAt n p ≤ height := fun p parent =>
    bound _ (List.mem_cons_of_mem _ (List.mem_map_of_mem parent))
  refine ⟨height, ?_, ?_, ?_⟩
  · simp [heightAt, heights, found, GraphNode.isLeaf, derived, height, Nat.add_comm]
  · rcases List.mem_cons.mp attained with zero | member
    · -- where no parent is higher than zero, each of them is as high as the highest
      obtain ⟨p, parent⟩ := List.exists_mem_of_ne_nil _ derived
      have low := above p parent
      exact ⟨p, ⟨node, there, parent⟩, by omega⟩
    · obtain ⟨p, parent, same⟩ := List.mem_map.mp member
      exact ⟨p, ⟨node, there, parent⟩, same⟩
  · rintro p ⟨other, again, parent⟩
    cases there.symm.trans again
    exact above p parent

theorem Descent.isGreatest_zero (there : g.At i node) (isLeaf : node.parents = []) :
    IsGreatest {n | g.Descent i n} 0 := by
  refine ⟨.leaf there isLeaf, fun n path => ?_⟩
  rw [path.eq_zero fun p rests => there.parents_ne_nil rests isLeaf]

theorem isGreatest_heightAt (acyclic : g.Acyclic) {rank : Nat → Nat}
    (lower : ∀ i p, g.RestsOn i p → rank p < rank i) (inside : i < g.nodes.length)
    (enough : rank i ≤ n) : IsGreatest {m | g.Descent i m} (g.heightAt n i) := by
  induction n generalizing i with
  | zero =>
      obtain ⟨node, there, -⟩ := exists_node inside
      have isLeaf : node.parents = [] := by
        by_contra derived
        obtain ⟨p, rests⟩ := there.exists_restsOn derived
        have below := lower i p rests
        omega
      rw [heightAt_zero]
      exact Descent.isGreatest_zero there isLeaf
  | succ n ih =>
      obtain ⟨node, there, -⟩ := exists_node inside
      by_cases isLeaf : node.parents = []
      · rw [heightAt_succ_of_leaf there isLeaf]
        exact Descent.isGreatest_zero there isLeaf
      · obtain ⟨height, same, ⟨p, rests, attained⟩, above⟩ :=
          heightAt_succ_of_derived (n := n) there isLeaf
        have parents : ∀ q, g.RestsOn i q → IsGreatest {m | g.Descent q m} (g.heightAt n q) := by
          intro q rests
          have below := lower i q rests
          exact ih (acyclic.inside i q rests) (by omega)
        rw [same]
        refine ⟨Descent.step rests (attained ▸ (parents p rests).1), fun m path => ?_⟩
        cases path with
        | leaf found nothing =>
            cases there.symm.trans found
            exact absurd nothing isLeaf
        | @step _ q m rests path =>
            exact Nat.succ_le_succ (((parents q rests).2 path).trans (above q rests))

/-- The depth of a node is the length of the longest path from it to a leaf. -/
theorem Acyclic.exists_depth (acyclic : g.Acyclic) (inside : i < g.nodes.length) :
    ∃ depth, g.depth i = .ok depth ∧ IsGreatest {n | g.Descent i n} depth := by
  obtain ⟨rank, lower, bounded⟩ := acyclic.exists_rank
  obtain ⟨places, ancestors⟩ := exists_ancestors acyclic inside
  refine ⟨g.heightAt g.nodes.length i, ?_, isGreatest_heightAt acyclic lower inside (bounded i)⟩
  rw [depth, ancestors]
  rfl

end Graph

end ProofPuzzles
