import ProofPuzzles.Proofs.Graph.Depth

/-! # What a cut hides

The hidden nodes derive the conclusion, and nothing is given that they do not need. A cut never
runs out of nodes to hide before its budget is spent: where only leaves are left, the whole of the
longest path has been hidden. With a larger budget the same nodes are hidden in the same order, and
then more.
-/

namespace ProofPuzzles

open Relation

variable {g : Graph} {conclusion place budget depth i p : Nat} {pending : List Nat}

namespace Cut

variable {layer short long : Layer} {cut : Cut} {bound : Nat}

theorem not_restsOn_of_isLeafAt (isLeaf : isLeafAt g i = true) : ¬g.RestsOn i p := by
  rintro ⟨node, there, parent⟩
  rw [there.parents_eq_nil isLeaf] at parent
  cases parent

/-- The hidden nodes derive the conclusion from the premises, and they need each of the premises.
A leaf is given itself. -/
structure Derives (g : Graph) (conclusion : Nat) (cut : Cut) : Prop where
  hidden_nodup : cut.hidden.Nodup
  premises_nodup : cut.premises.Nodup
  apart : ∀ i ∈ cut.premises, i ∉ cut.hidden
  concludes : (∃ p, g.RestsOn conclusion p) → conclusion ∈ cut.hidden
  leaf : (∀ p, ¬g.RestsOn conclusion p) → cut = ⟨[conclusion], []⟩
  derived : ∀ i ∈ cut.hidden, ∃ p, g.RestsOn i p
  closed : ∀ i ∈ cut.hidden, ∀ p, g.RestsOn i p → p ∈ cut.hidden ∨ p ∈ cut.premises
  needed : ∀ p ∈ cut.premises, p ≠ conclusion → ∃ i ∈ cut.hidden, g.RestsOn i p
  given : cut.premises ≠ []

/-! ## What is seen is needed -/

/-- Whatever has been seen is the conclusion, or something hidden rests on it. -/
def Needed (g : Graph) (conclusion : Nat) (pending : List Nat) (layer : Layer) : Prop :=
  ∀ i, Seen layer pending i → i = conclusion ∨ ∃ j ∈ layer.hidden, g.RestsOn j i

theorem Needed.visit (needed : Needed g conclusion (place :: pending) layer) :
    Needed g conclusion pending (visit g layer place) := by
  rcases visit_cases g layer place with ⟨-, same⟩ | ⟨node, there, -, -, same⟩
  · rw [same]
    exact fun i seen => needed i (seen_pass.mp seen)
  · rw [same]
    intro i seen
    rcases seen_hide.mp seen with old | parent
    · rcases needed i old with rfl | ⟨j, hidden, rests⟩
      · exact .inl rfl
      · exact .inr ⟨j, List.mem_append_left _ hidden, rests⟩
    · exact .inr ⟨place, List.mem_append_right _ (List.mem_singleton_self _), node, there, parent⟩

theorem Needed.next (needed : Needed g conclusion [] layer) :
    Needed g conclusion ((firstsBy id layer.frontier).filter (· ∉ layer.hidden))
      { layer with frontier := [] } :=
  fun i seen => needed i (seen_next.mp seen)

/-! ## The hidden nodes in order -/

theorem hidden_prefix_visit (g : Graph) (layer : Layer) (place : Nat) :
    layer.hidden <+: (visit g layer place).hidden := by
  rcases visit_cases g layer place with ⟨-, same⟩ | ⟨node, -, -, -, same⟩
  · rw [same]
    exact List.prefix_rfl
  · rw [same]
    exact List.prefix_append _ _

theorem hidden_prefix_layers (g : Graph) (layer : Layer) (bound : Nat) :
    layer.hidden <+: (layers g bound layer).hidden := by
  obtain ⟨last, same, grown, -⟩ := exists_last
    (motive := fun _ later => layer.hidden <+: later.hidden) layer bound
    (fun place _ later grown => grown.trans (hidden_prefix_visit g later place))
    (fun _ grown => grown) List.prefix_rfl
  rw [same]
  exact grown

/-- Of two cuts under way, either both have done the same, and the second one can go on longer, or
the first one has come to its end, and the second one has hidden the same and perhaps more. -/
inductive Trails (short long : Layer) : Prop where
  | abreast (hidden : short.hidden = long.hidden) (frontier : short.frontier = long.frontier)
    (le : short.budget ≤ long.budget)
  | ended (spent : short.budget = 0) (initial : short.hidden <+: long.hidden)

theorem Trails.visit (trails : Trails short long) (g : Graph) (place : Nat) :
    Trails (visit g short place) (visit g long place) := by
  cases trails with
  | ended spent initial =>
      rcases visit_cases g short place with ⟨-, same⟩ | ⟨node, -, -, left, -⟩
      · rw [same]
        exact .ended spent (initial.trans (hidden_prefix_visit g long place))
      · exact absurd spent left
  | abreast hidden frontier le =>
      rcases visit_cases g short place with ⟨passes, same⟩ | ⟨node, there, derived, left, same⟩ <;>
        rcases visit_cases g long place with
          ⟨goes, also⟩ | ⟨other, found, nonempty, more, also⟩ <;> rw [same, also]
      · exact .abreast hidden (congrArg (· ++ [place]) frontier) le
      · rcases passes with isLeaf | spent
        · exact absurd (found.parents_eq_nil isLeaf) nonempty
        · exact .ended spent (hidden ▸ List.prefix_append _ _)
      · rcases goes with isLeaf | spent
        · exact absurd (there.parents_eq_nil isLeaf) derived
        · omega
      · cases there.symm.trans found
        refine .abreast ?_ ?_ (Nat.sub_le_sub_right le 1)
        · simp only [Layer.hide, hidden]
        · simp only [Layer.hide, hidden, frontier]

theorem Trails.foldl_visit (trails : Trails short long) (g : Graph) (pending : List Nat) :
    Trails (pending.foldl (Cut.visit g) short) (pending.foldl (Cut.visit g) long) := by
  induction pending generalizing short long with
  | nil => exact trails
  | cons place pending ih => exact ih (trails.visit g place)

theorem Trails.next (trails : Trails short long) (goes : short.budget ≠ 0) (g : Graph) :
    Trails (short.next g) (long.next g) := by
  cases trails with
  | ended spent initial => exact absurd spent goes
  | abreast hidden frontier le =>
      have together : Trails { short with frontier := [] } { long with frontier := [] } :=
        .abreast hidden rfl le
      have visited := together.foldl_visit g long.frontier
      unfold Layer.next
      rw [frontier]
      cases visited with
      | ended spent initial => exact .ended spent initial
      | abreast hidden frontier le =>
          exact .abreast hidden (by simp only [hidden, frontier]) le

theorem Trails.hidden_prefix (trails : Trails short long) : short.hidden <+: long.hidden := by
  cases trails with
  | abreast hidden => exact hidden ▸ List.prefix_rfl
  | ended spent initial => exact initial

theorem Trails.goes_on (trails : Trails short long) (goes : ¬short.Done g) : ¬long.Done g := by
  obtain ⟨left, derived⟩ := not_or.mp goes
  cases trails with
  | ended spent initial => exact absurd spent left
  | abreast hidden frontier le => exact not_or.mpr ⟨by omega, frontier ▸ derived⟩

/-- The cut with the larger budget hides what the other one does first. -/
theorem Trails.layers {others : Nat} (trails : Trails short long) (enough : short.budget ≤ bound)
    (more : long.budget ≤ others) :
    (layers g bound short).hidden <+: (layers g others long).hidden := by
  induction bound generalizing short long others with
  | zero =>
      rw [layers_of_done (.inl (Nat.le_zero.mp enough))]
      exact trails.hidden_prefix.trans (hidden_prefix_layers g long others)
  | succ bound ih =>
      by_cases done : short.Done g
      · rw [layers_of_done done]
        exact trails.hidden_prefix.trans (hidden_prefix_layers g long others)
      · have goes := trails.goes_on done
        have spends := budget_next_lt done
        have spends_more := budget_next_lt goes
        obtain ⟨others, rfl⟩ := Nat.exists_eq_add_one.mpr (Nat.zero_lt_of_lt (spends_more.trans_le more))
        rw [layers_of_not_done done, layers_of_not_done goes]
        exact ih (trails.next (not_or.mp done).1 g) (by omega) (by omega)

/-! ## The last layer -/

/-- A cut of the conclusion before anything is hidden. -/
def Layer.start (conclusion budget : Nat) : Layer := ⟨budget, [], [conclusion]⟩

theorem exists_last_start (g : Graph) (conclusion budget : Nat) : ∃ last : Layer,
    layers g budget (.start conclusion budget) = ⟨last.frontier, last.hidden⟩ ∧ last.Done g ∧
      Covers g conclusion budget last.frontier { last with frontier := [] } ∧
      Needed g conclusion last.frontier { last with frontier := [] } := by
  have nothing : Needed g conclusion [conclusion] ⟨budget, [], []⟩ := by
    intro i seen
    exact .inl (by simpa [Seen] using seen)
  obtain ⟨last, same, ⟨covers, needed⟩, done⟩ := exists_last
    (motive := fun pending layer =>
      Covers g conclusion budget pending layer ∧ Needed g conclusion pending layer)
    (.start conclusion budget) budget
    (fun _ _ _ kept => ⟨kept.1.visit, kept.2.visit⟩) (fun _ kept => ⟨kept.1.next, kept.2.next⟩)
    ⟨covers_start g conclusion budget, nothing⟩
  exact ⟨last, same, done (Nat.le_refl _), covers, needed⟩

/-- What lies behind the conclusion is hidden up to the frontier, if that is made of leaves. -/
theorem Severs.hidden_of_behind (severs : Severs g conclusion budget cut)
    (leaves : ∀ i ∈ cut.premises, ∀ p, ¬g.RestsOn i p) (behind : g.Behind conclusion i) :
    i ∈ cut.hidden ∨ i ∈ cut.premises := by
  induction behind with
  | refl => exact severs.reached
  | tail path edge ih =>
      rcases ih with hidden | given
      · obtain ⟨node, there, parent⟩ := edge
        exact severs.closed _ hidden node there _ parent
      · exact absurd edge (leaves _ given _)

theorem length_hidden (acyclic : g.Acyclic) (descends : g.Descent conclusion depth)
    (le : budget ≤ depth) :
    (layers g budget (.start conclusion budget)).hidden.length = budget := by
  obtain ⟨last, same, done, covers, -⟩ := exists_last_start g conclusion budget
  have spent := covers.spent
  have severs := covers.severs
  rw [same]
  rcases done with none | leaves
  · simp only at spent ⊢
    omega
  · -- the whole of the longest path is hidden, so that the budget has been used up
    obtain ⟨places, length, distinct, derived⟩ := descends.exists_derived acyclic
    have ends : ∀ i ∈ last.frontier, ∀ p, ¬g.RestsOn i p := fun i member p =>
      not_restsOn_of_isLeafAt (List.all_eq_true.mp leaves i member)
    have hidden : places ⊆ last.hidden := by
      intro i member
      obtain ⟨behind, p, rests⟩ := derived i member
      exact (severs.hidden_of_behind ends behind).resolve_right fun given => ends i given p rests
    have long := (distinct.subperm hidden).length_le
    simp only at spent ⊢
    omega

/-! ## The conclusion -/

/-- A derived conclusion is the first node to be hidden. -/
theorem conclusion_mem_hidden (rests : g.RestsOn conclusion p) (left : budget ≠ 0) :
    conclusion ∈ (layers g budget (.start conclusion budget)).hidden := by
  obtain ⟨budget, rfl⟩ := Nat.exists_eq_add_one_of_ne_zero left
  let first := Layer.start conclusion (budget + 1)
  have hides : conclusion ∈ (first.next g).hidden := by
    rcases visit_cases g { first with frontier := [] } conclusion with
      ⟨isLeaf | spent, -⟩ | ⟨node, -, -, -, same⟩
    · exact absurd rests (not_restsOn_of_isLeafAt isLeaf)
    · exact absurd spent left
    · change conclusion ∈ (visit g { first with frontier := [] } conclusion).hidden
      rw [same]
      exact List.mem_append_right _ (List.mem_singleton_self _)
  have goes : ¬first.Done g := by
    rintro (spent | isLeaf)
    · exact left spent
    · have leaf := List.all_eq_true.mp isLeaf conclusion (List.mem_singleton_self _)
      exact not_restsOn_of_isLeafAt leaf rests
  rw [layers_of_not_done goes]
  exact (hidden_prefix_layers g _ _).subset hides

/-- A path from a hidden node down to a leaf passes through a premise. -/
theorem Severs.premises_ne_nil {n : Nat} (severs : Severs g conclusion budget cut)
    (path : g.Descent i n) (kept : i ∈ cut.hidden ∨ i ∈ cut.premises) : cut.premises ≠ [] := by
  induction path with
  | leaf there isLeaf =>
      rcases kept with hidden | given
      · obtain ⟨node, found, derived⟩ := severs.derived _ hidden
        cases there.symm.trans found
        exact absurd isLeaf derived
      · exact List.ne_nil_of_mem given
  | step rests path ih =>
      rcases kept with hidden | given
      · obtain ⟨node, there, parent⟩ := rests
        exact ih (severs.closed _ hidden node there _ parent)
      · exact List.ne_nil_of_mem given

theorem derives_layers (descends : g.Descent conclusion depth) (le : budget ≤ depth)
    (positive : depth ≠ 0 → budget ≠ 0) :
    (layers g budget (.start conclusion budget)).Derives g conclusion := by
  obtain ⟨last, same, -, covers, needs⟩ := exists_last_start g conclusion budget
  have severs := covers.severs
  have first : (∃ p, g.RestsOn conclusion p) → conclusion ∈ last.hidden := by
    rintro ⟨p, rests⟩
    have deep : depth ≠ 0 := by
      cases descends with
      | leaf there isLeaf => exact absurd isLeaf (there.parents_ne_nil rests)
      | step => exact Nat.succ_ne_zero _
    have hidden := conclusion_mem_hidden rests (positive deep)
    rwa [same] at hidden
  have alone : (∀ p, ¬g.RestsOn conclusion p) →
      (⟨last.frontier, last.hidden⟩ : Cut) = ⟨[conclusion], []⟩ := by
    intro isLeaf
    have shallow := descends.eq_zero isLeaf
    obtain rfl : budget = 0 := by omega
    exact same.symm
  rw [same]
  exact {
    hidden_nodup := severs.hidden_nodup
    premises_nodup := severs.premises_nodup
    apart := severs.apart
    concludes := first
    leaf := alone
    derived := fun i hidden =>
      have ⟨_, there, derived⟩ := severs.derived i hidden
      there.exists_restsOn derived
    closed := fun i hidden p ⟨node, there, parent⟩ => severs.closed i hidden node there p parent
    needed := fun p given other => (needs p (.inr (.inr given))).resolve_left other
    given := severs.premises_ne_nil descends severs.reached }

end Cut

namespace Graph

theorem cut_eq {difficulty : Int} (measured : g.depth conclusion = .ok depth) :
    g.cut conclusion difficulty = .ok (Cut.layers g (min (max 1 difficulty).toNat depth)
      (.start conclusion (min (max 1 difficulty).toNat depth))) := by
  rw [Graph.cut, measured]
  rfl

/-- At every difficulty, the hidden nodes derive the conclusion from the premises, and they need
each of the premises. -/
theorem exists_cut_derives (acyclic : g.Acyclic) (inside : conclusion < g.size)
    (difficulty : Int) :
    ∃ cut, g.cut conclusion difficulty = .ok cut ∧ cut.Derives g conclusion := by
  obtain ⟨depth, measured, longest⟩ := acyclic.exists_depth inside
  refine ⟨_, cut_eq measured, Cut.derives_layers longest.1 (Nat.min_le_right _ _) ?_⟩
  intro deep
  omega

/-- One letter is used to detach another, and once more to be joined with it. -/
def Shared.nodes (x y : Letter) : List GraphNode := [
  ⟨.ofFormula (.letter x), none, []⟩,
  ⟨.ofFormula (.bin .implies (.letter x) (.letter y)), none, []⟩,
  ⟨.ofFormula (.letter y), some .modusPonens, [1, 0]⟩,
  ⟨.ofFormula (.bin .and (.letter x) (.letter y)), some .conjunction, [0, 2]⟩]

theorem Shared.exists_graph {x y : Letter} (differ : x ≠ y) :
    ∃ g : Graph, g.nodes = nodes x y ∧ g.Acyclic ∧ 3 < g.size := by
  have distinct : ((nodes x y).map (·.statement.identity)).Nodup := by
    simp [nodes, Statement.identity, differ]
  obtain ⟨g, same⟩ := Graph.exists_graph (nodes x y) distinct
  refine ⟨g, same, acyclic_of_earlier ?_, ?_⟩
  · rw [same]
    simp [nodes]
  · rw [Graph.size, same]
    exact Nat.lt_add_one 3

theorem exists_cut_derives_shared : ∃ g : Graph, g.nodes = Shared.nodes ⟨15⟩ ⟨16⟩ ∧ g.Acyclic ∧
    3 < g.size ∧ ∃ cut, g.cut 3 1 = .ok cut ∧ cut.Derives g 3 := by
  have differ : (⟨15⟩ : Letter) ≠ ⟨16⟩ := by decide
  obtain ⟨g, same, acyclic, inside⟩ := Shared.exists_graph differ
  exact ⟨g, same, acyclic, inside, exists_cut_derives acyclic inside 1⟩

/-- As many nodes are hidden as the difficulty asks for, but at least one and no more than the
longest path has steps. What is hidden at a difficulty is hidden first at a higher one. -/
theorem exists_cut_prefix (acyclic : g.Acyclic) (inside : conclusion < g.size)
    {difficulty higher : Int} (le : difficulty ≤ higher) :
    ∃ depth easy hard, g.depth conclusion = .ok depth ∧
      IsGreatest {n | g.Descent conclusion n} depth ∧
      g.cut conclusion difficulty = .ok easy ∧ g.cut conclusion higher = .ok hard ∧
      (easy.hidden.length : Int) = min (max 1 difficulty) depth ∧
      (hard.hidden.length : Int) = min (max 1 higher) depth ∧ easy.hidden <+: hard.hidden := by
  obtain ⟨depth, measured, longest⟩ := acyclic.exists_depth inside
  let budget (difficulty : Int) := min (max 1 difficulty).toNat depth
  have hides : ∀ difficulty, ((Cut.layers g (budget difficulty)
      (.start conclusion (budget difficulty))).hidden.length : Int) =
        min (max 1 difficulty) depth := by
    intro difficulty
    rw [Cut.length_hidden acyclic longest.1 (Nat.min_le_right _ _)]
    omega
  have less : budget difficulty ≤ budget higher := by
    simp only [budget]
    omega
  have trails : Cut.Trails (.start conclusion (budget difficulty))
      (.start conclusion (budget higher)) := .abreast rfl rfl less
  exact ⟨depth, _, _, measured, longest, cut_eq measured, cut_eq measured, hides difficulty,
    hides higher, trails.layers (Nat.le_refl _) (Nat.le_refl _)⟩

theorem exists_cut_prefix_shared : ∃ g : Graph, g.nodes = Shared.nodes ⟨15⟩ ⟨16⟩ ∧ g.Acyclic ∧
    3 < g.size ∧ (1 : Int) ≤ 2 ∧ ∃ depth easy hard, g.depth 3 = .ok depth ∧
      IsGreatest {n | g.Descent 3 n} depth ∧ g.cut 3 1 = .ok easy ∧ g.cut 3 2 = .ok hard ∧
      (easy.hidden.length : Int) = min (max (1 : Int) 1) depth ∧
      (hard.hidden.length : Int) = min (max (1 : Int) 2) depth ∧ easy.hidden <+: hard.hidden := by
  have differ : (⟨15⟩ : Letter) ≠ ⟨16⟩ := by decide
  obtain ⟨g, same, acyclic, inside⟩ := Shared.exists_graph differ
  have harder : (1 : Int) ≤ 2 := by decide
  exact ⟨g, same, acyclic, inside, harder, exists_cut_prefix acyclic inside harder⟩

end Graph

end ProofPuzzles
