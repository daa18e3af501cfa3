import Mathlib.Logic.Relation
import ProofPuzzles.Graph.Cut
import ProofPuzzles.Proofs.Firsts
import ProofPuzzles.Proofs.Graph.Soundness

/-! # What a cut hides and gives

A cut is made by visiting places layer by layer. At every moment, what the hidden nodes were
derived from has been seen: it is hidden itself, it is on the next frontier, or it is yet to be
visited. In the end nothing is left to visit, and the frontier is given.
-/

namespace ProofPuzzles

variable {g : Graph} {conclusion place budget : Nat} {pending : List Nat}

/-- The first place is the second one, or its node was derived from it, directly or not. -/
def Graph.Behind (g : Graph) : Nat → Nat → Prop :=
  Relation.ReflTransGen fun i p => ∃ node, g.At i node ∧ p ∈ node.parents

/-- In a sound graph, what lies behind a place has a lower rank. -/
theorem Graph.Behind.rank_le {rank : Nat → Nat} {i p : Nat}
    (lower : ∀ i node, g.At i node → ∀ p ∈ node.parents, rank p < rank i) (behind : g.Behind i p) :
    p = i ∨ rank p < rank i := by
  induction behind with
  | refl => exact .inl rfl
  | tail path edge ih =>
      obtain ⟨node, there, member⟩ := edge
      have lt := lower _ node there _ member
      rcases ih with rfl | above
      · exact .inr lt
      · exact .inr (Nat.lt_trans lt above)

namespace Cut

variable {layer : Layer}

/-- The place is hidden, on the next frontier, or yet to be visited. -/
def Seen (layer : Layer) (pending : List Nat) (place : Nat) : Prop :=
  place ∈ layer.hidden ∨ place ∈ layer.frontier ∨ place ∈ pending

/-- The state of a cut: hidden nodes were derived, and what they were derived from was seen. -/
structure Covers (g : Graph) (conclusion budget : Nat) (pending : List Nat) (layer : Layer) :
    Prop where
  distinct : layer.hidden.Nodup
  waiting : pending.Nodup
  apart : ∀ i ∈ pending, i ∉ layer.hidden
  derived : ∀ i ∈ layer.hidden, ∃ node, g.At i node ∧ node.parents ≠ []
  closed : ∀ i ∈ layer.hidden, ∀ node, g.At i node → ∀ p ∈ node.parents, Seen layer pending p
  reached : Seen layer pending conclusion
  behind : ∀ i, Seen layer pending i → g.Behind conclusion i
  spent : layer.budget + layer.hidden.length = budget

/-- A place is passed over. -/
def Layer.pass (layer : Layer) (place : Nat) : Layer :=
  { layer with frontier := layer.frontier ++ [place] }

/-- A place is hidden, and what it was derived from is put on the frontier. -/
def Layer.hide (layer : Layer) (place : Nat) (parents : List Nat) : Layer :=
  ⟨layer.budget - 1, layer.hidden ++ [place],
    layer.frontier ++ parents.filter (· ∉ layer.hidden ++ [place])⟩

theorem seen_pass {i : Nat} :
    Seen (layer.pass place) pending i ↔ Seen layer (place :: pending) i := by
  simp only [Seen, Layer.pass, List.mem_append, List.mem_cons, List.not_mem_nil, or_false]
  tauto

theorem seen_hide {parents : List Nat} {i : Nat} :
    Seen (layer.hide place parents) pending i ↔ Seen layer (place :: pending) i ∨ i ∈ parents := by
  simp only [Seen, Layer.hide, List.mem_append, List.mem_filter, List.mem_cons, List.not_mem_nil,
    or_false, decide_eq_true_eq]
  tauto

theorem Covers.pass (covers : Covers g conclusion budget (place :: pending) layer) :
    Covers g conclusion budget pending (layer.pass place) where
  distinct := covers.distinct
  waiting := (List.nodup_cons.mp covers.waiting).2
  apart i member := covers.apart i (List.mem_cons_of_mem _ member)
  derived := covers.derived
  closed i member node there p parent := seen_pass.mpr (covers.closed i member node there p parent)
  reached := seen_pass.mpr covers.reached
  behind i seen := covers.behind i (seen_pass.mp seen)
  spent := covers.spent

theorem Covers.hide (covers : Covers g conclusion budget (place :: pending) layer)
    {node : GraphNode} (there : g.At place node) (nonempty : node.parents ≠ [])
    (left : layer.budget ≠ 0) :
    Covers g conclusion budget pending (layer.hide place node.parents) where
  distinct := by
    refine List.nodup_append.mpr ⟨covers.distinct, List.pairwise_singleton _ _, ?_⟩
    intro i hidden j new same
    rw [same, List.mem_singleton.mp new] at hidden
    exact covers.apart place List.mem_cons_self hidden
  waiting := (List.nodup_cons.mp covers.waiting).2
  apart i member hidden := by
    rcases List.mem_append.mp hidden with old | new
    · exact covers.apart i (List.mem_cons_of_mem _ member) old
    · rw [List.mem_singleton.mp new] at member
      exact (List.nodup_cons.mp covers.waiting).1 member
  derived i hidden := by
    rcases List.mem_append.mp hidden with old | new
    · exact covers.derived i old
    · rw [List.mem_singleton.mp new]
      exact ⟨node, there, nonempty⟩
  closed i hidden other found p member := by
    rcases List.mem_append.mp hidden with old | new
    · exact seen_hide.mpr (.inl (covers.closed i old other found p member))
    · rw [List.mem_singleton.mp new] at found
      cases there.symm.trans found
      exact seen_hide.mpr (.inr member)
  reached := seen_hide.mpr (.inl covers.reached)
  behind i seen := by
    rcases seen_hide.mp seen with old | parent
    · exact covers.behind i old
    · exact (covers.behind place (.inr (.inr List.mem_cons_self))).tail ⟨node, there, parent⟩
  spent := by
    have total := covers.spent
    simp only [Layer.hide, List.length_append, List.length_singleton]
    omega

/-- One visit passes a place over or hides it. -/
theorem visit_cases (g : Graph) (layer : Layer) (place : Nat) :
    (isLeafAt g place = true ∨ layer.budget = 0) ∧ visit g layer place = layer.pass place ∨
      ∃ node, g.At place node ∧ node.parents ≠ [] ∧ layer.budget ≠ 0 ∧
        visit g layer place = layer.hide place node.parents := by
  unfold Cut.visit isLeafAt
  split
  · rename_i node there
    split
    · rename_i passes
      rw [Bool.or_eq_true, decide_eq_true_eq] at passes
      exact .inl ⟨passes, rfl⟩
    · rename_i hides
      rw [Bool.or_eq_true, not_or, decide_eq_true_eq] at hides
      have nonempty : node.parents ≠ [] := fun leaf => hides.1 (List.isEmpty_iff.mpr leaf)
      exact .inr ⟨node, there, nonempty, hides.2, rfl⟩
  · exact .inl ⟨.inl rfl, rfl⟩

theorem Covers.visit (covers : Covers g conclusion budget (place :: pending) layer) :
    Covers g conclusion budget pending (visit g layer place) := by
  rcases visit_cases g layer place with ⟨-, same⟩ | ⟨node, there, nonempty, left, same⟩
  · rw [same]
    exact covers.pass
  · rw [same]
    exact covers.hide there nonempty left

/-- A new layer visits the frontier, without repetitions and without what is hidden. -/
theorem seen_next {i : Nat} : Seen { layer with frontier := [] }
    ((firstsBy id layer.frontier).filter (· ∉ layer.hidden)) i ↔ Seen layer [] i := by
  simp only [Seen, List.mem_filter, mem_firstsBy_id, decide_eq_true_eq, List.not_mem_nil,
    or_false, false_or]
  tauto

theorem Covers.next (covers : Covers g conclusion budget [] layer) :
    Covers g conclusion budget ((firstsBy id layer.frontier).filter (· ∉ layer.hidden))
      { layer with frontier := [] } where
  distinct := covers.distinct
  waiting := (nodup_firstsBy_id _).filter _
  apart i member := by simpa using (List.mem_filter.mp member).2
  derived := covers.derived
  closed i member node there p parent := seen_next.mpr (covers.closed i member node there p parent)
  reached := seen_next.mpr covers.reached
  behind i seen := covers.behind i (seen_next.mp seen)
  spent := covers.spent

/-- The outcome of a cut: the hidden nodes and the premises derive the conclusion. -/
structure Severs (g : Graph) (conclusion budget : Nat) (cut : Cut) : Prop where
  hidden_nodup : cut.hidden.Nodup
  premises_nodup : cut.premises.Nodup
  apart : ∀ i ∈ cut.premises, i ∉ cut.hidden
  derived : ∀ i ∈ cut.hidden, ∃ node, g.At i node ∧ node.parents ≠ []
  closed : ∀ i ∈ cut.hidden, ∀ node, g.At i node → ∀ p ∈ node.parents,
    p ∈ cut.hidden ∨ p ∈ cut.premises
  reached : conclusion ∈ cut.hidden ∨ conclusion ∈ cut.premises
  behind : ∀ i, i ∈ cut.hidden ∨ i ∈ cut.premises → g.Behind conclusion i
  within : cut.hidden.length ≤ budget

theorem Covers.severs
    (covers : Covers g conclusion budget layer.frontier { layer with frontier := [] }) :
    Severs g conclusion budget ⟨layer.frontier, layer.hidden⟩ := by
  have same : ∀ i, Seen { layer with frontier := [] } layer.frontier i ↔
      i ∈ layer.hidden ∨ i ∈ layer.frontier := by
    simp [Seen]
  constructor
  · exact covers.distinct
  · exact covers.waiting
  · exact covers.apart
  · exact covers.derived
  · exact fun i member node there p parent =>
      (same p).mp (covers.closed i member node there p parent)
  · exact (same _).mp covers.reached
  · exact fun i seen => covers.behind i ((same i).mpr seen)
  · have total := covers.spent
    simp only at total ⊢
    omega

/-! ## Layer after layer -/

theorem budget_visit_le (g : Graph) (layer : Layer) (place : Nat) :
    (visit g layer place).budget ≤ layer.budget := by
  rcases visit_cases g layer place with ⟨-, same⟩ | ⟨node, -, -, -, same⟩
  · rw [same]
    exact Nat.le_refl _
  · rw [same]
    exact Nat.sub_le _ _

theorem budget_foldl_visit_le (g : Graph) (pending : List Nat) (layer : Layer) :
    (pending.foldl (visit g) layer).budget ≤ layer.budget := by
  induction pending generalizing layer with
  | nil => exact Nat.le_refl _
  | cons place pending ih => exact (ih _).trans (budget_visit_le g layer place)

/-- A layer in which something can be hidden uses up some of the budget. -/
theorem budget_foldl_visit_lt (left : layer.budget ≠ 0) (derived : ¬pending.all (isLeafAt g)) :
    (pending.foldl (visit g) layer).budget < layer.budget := by
  induction pending generalizing layer with
  | nil => exact absurd rfl derived
  | cons place pending ih =>
      rw [List.foldl_cons]
      rcases visit_cases g layer place with ⟨leaf | none, same⟩ | ⟨node, -, -, -, same⟩
      · have later : ¬pending.all (isLeafAt g) := by simpa [leaf] using derived
        rw [same]
        exact ih left later
      · exact absurd none left
      · rw [same]
        refine Nat.lt_of_le_of_lt (budget_foldl_visit_le g pending _) ?_
        exact Nat.sub_one_lt left

/-- The layer is visited, and the next one is what it has put on the frontier, without repetitions
and without what is hidden. -/
def Layer.next (g : Graph) (layer : Layer) : Layer :=
  let visited := layer.frontier.foldl (visit g) { layer with frontier := [] }
  { visited with frontier := (firstsBy id visited.frontier).filter (· ∉ visited.hidden) }

/-- Nothing more is to be hidden. -/
def Layer.Done (g : Graph) (layer : Layer) : Prop :=
  layer.budget = 0 ∨ layer.frontier.all (isLeafAt g)

theorem layers_of_done {bound : Nat} (done : layer.Done g) :
    layers g bound layer = ⟨layer.frontier, layer.hidden⟩ := by
  cases bound with
  | zero => rfl
  | succ bound =>
      rw [Cut.layers, if_pos]
      rwa [Bool.or_eq_true, decide_eq_true_eq]

theorem layers_of_not_done {bound : Nat} (goes : ¬layer.Done g) :
    layers g (bound + 1) layer = layers g bound (layer.next g) := by
  rw [Cut.layers, if_neg]
  · rfl
  · rwa [Bool.or_eq_true, decide_eq_true_eq]

theorem budget_next_lt (goes : ¬layer.Done g) : (layer.next g).budget < layer.budget :=
  budget_foldl_visit_lt (not_or.mp goes).1 (not_or.mp goes).2

/-- What every visit and the start of every layer keep holds of the last layer. A bound that is as
large as the budget does not stop the cut. -/
theorem exists_last {motive : List Nat → Layer → Prop} (layer : Layer) (bound : Nat)
    (visits : ∀ place pending layer, motive (place :: pending) layer →
      motive pending (visit g layer place))
    (starts : ∀ layer, motive [] layer →
      motive ((firstsBy id layer.frontier).filter (· ∉ layer.hidden)) { layer with frontier := [] })
    (start : motive layer.frontier { layer with frontier := [] }) :
    ∃ last : Layer, layers g bound layer = ⟨last.frontier, last.hidden⟩ ∧
      motive last.frontier { last with frontier := [] } ∧ (layer.budget ≤ bound → last.Done g) := by
  have folds : ∀ pending layer, motive pending layer →
      motive [] (pending.foldl (visit g) layer) := by
    intro pending
    induction pending with
    | nil => exact fun layer holds => holds
    | cons place pending ih => exact fun layer holds => ih _ (visits place pending layer holds)
  induction bound generalizing layer with
  | zero => exact ⟨layer, rfl, start, fun le => .inl (Nat.le_zero.mp le)⟩
  | succ bound ih =>
      by_cases done : layer.Done g
      · exact ⟨layer, layers_of_done done, start, fun _ => done⟩
      · have next : motive (layer.next g).frontier { layer.next g with frontier := [] } :=
          starts _ (folds _ _ start)
        obtain ⟨last, same, holds, ends⟩ := ih _ next
        have spends := budget_next_lt done
        exact ⟨last, (layers_of_not_done done).trans same, holds, fun le => ends (by omega)⟩

theorem Covers.layers {bound : Nat}
    (covers : Covers g conclusion budget layer.frontier { layer with frontier := [] }) :
    Severs g conclusion budget (layers g bound layer) := by
  obtain ⟨last, same, holds, -⟩ := exists_last (motive := Covers g conclusion budget) layer bound
    (fun _ _ _ covers => covers.visit) (fun _ covers => covers.next) covers
  rw [same]
  exact holds.severs

/-- At the start only the conclusion has been seen. -/
theorem covers_start (g : Graph) (conclusion budget : Nat) :
    Covers g conclusion budget [conclusion] ⟨budget, [], []⟩ where
  distinct := List.nodup_nil
  waiting := List.pairwise_singleton _ _
  apart := nofun
  derived := nofun
  closed := nofun
  reached := .inr (.inr List.mem_cons_self)
  behind i seen := by
    have same : i = conclusion := by simpa [Seen] using seen
    rw [same]
    exact .refl
  spent := rfl

end Cut

/-- Every cut severs the conclusion from what lies behind the premises, within its budget. -/
theorem Graph.cut_severs {difficulty : Int} {cut : Cut}
    (h : g.cut conclusion difficulty = .ok cut) :
    Cut.Severs g conclusion (max 1 difficulty).toNat cut := by
  unfold Graph.cut at h
  split at h
  · cases h
  · rename_i depth measured
    cases h
    let budget := min (max 1 difficulty).toNat depth
    have severs : Cut.Severs g conclusion budget (Cut.layers g budget ⟨budget, [], [conclusion]⟩) :=
      Cut.Covers.layers (Cut.covers_start g conclusion budget)
    exact { severs with within := Nat.le_trans severs.within (Nat.min_le_left _ _) }

end ProofPuzzles
