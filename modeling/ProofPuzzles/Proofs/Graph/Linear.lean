import ProofPuzzles.Proofs.Graph.Cut
import ProofPuzzles.Proofs.Validation.Building

/-! # Derivations line by line

The hidden nodes of a cut can be put in an order in which each comes after its parents, by their
rank. Stated in this order they extend a proof of the premises, and the conclusion comes last.
-/

namespace ProofPuzzles

variable {g : Graph} {conclusion budget : Nat} {cut : Cut}

/-- The hidden nodes can be listed after their parents, the conclusion at the end. -/
theorem Cut.Severs.exists_order (severs : Severs g conclusion budget cut) (sound : g.Sound)
    (hidden : conclusion ∈ cut.hidden) :
    ∃ init : List Nat, (init ++ [conclusion]).Perm cut.hidden ∧
      ∀ before i after, init ++ [conclusion] = before ++ i :: after →
        ∀ node, g.At i node → ∀ p ∈ node.parents, p ∈ before ∨ p ∈ cut.premises := by
  obtain ⟨rank, lower⟩ := sound.acyclic
  let init := (cut.hidden.erase conclusion).mergeSort fun i j => rank i ≤ rank j
  have perm : (init ++ [conclusion]).Perm cut.hidden :=
    ((List.mergeSort_perm _ _).append_right _).trans
      ((List.perm_append_singleton _ _).trans (List.perm_cons_erase hidden).symm)
  have ordered : (init ++ [conclusion]).Pairwise fun i j => rank i ≤ rank j := by
    refine List.pairwise_append.mpr ⟨?_, List.pairwise_singleton _ _, fun i member j last => ?_⟩
    · have sorted : init.Pairwise fun i j => decide (rank i ≤ rank j) = true :=
        List.pairwise_mergeSort (by simpa using fun a b c => Nat.le_trans)
          (by simpa using fun a b => Nat.le_total _ _) _
      simpa using sorted
    · -- whatever is hidden lies behind the conclusion, so it ranks no higher
      rw [List.mem_singleton.mp last]
      have inside := perm.mem_iff.mp (List.mem_append_left _ member)
      rcases (severs.behind i (.inl inside)).rank_le lower with rfl | lt
      · exact Nat.le_refl _
      · exact Nat.le_of_lt lt
  refine ⟨init, perm, fun before i after split node there p member => ?_⟩
  rw [split] at perm ordered
  have placed := perm.mem_iff.mp (List.mem_append_right before List.mem_cons_self)
  rcases severs.closed i placed node there p member with parent | premise
  · have lt := lower i node there p member
    rcases List.mem_append.mp (perm.mem_iff.mpr parent) with earlier | later
    · exact .inl earlier
    -- a hidden parent further back would rank at least as high as its child
    · rcases List.mem_cons.mp later with rfl | later
      · exact absurd lt (Nat.lt_irrefl _)
      · have le := (List.pairwise_cons.mp (List.pairwise_append.mp ordered).2.1).1 p later
        omega
  · exact .inr premise

/-- The statement at a place. -/
def Graph.statementAt? (g : Graph) (place : Nat) : Option Statement :=
  g.nodes[place]?.map (·.statement)

/-- A derived node can be stated where its parents are. -/
theorem Graph.Sound.exists_step (sound : g.Sound) {i : Nat} {node : GraphNode}
    (there : g.At i node) (nonempty : node.parents ≠ []) {stated : List Formula}
    (parents : ∀ p ∈ node.parents, ∀ f, g.formulaAt? p = some f → f ∈ stated) :
    ∃ step : ProofStep, step.statement = node.statement ∧ step.Ready stated := by
  obtain ⟨f, reads⟩ := sound.reads i node there
  obtain ⟨rule, -, premises, same, consumes⟩ := sound.follows i node f there nonempty reads
  obtain ⟨cited, subset, schema⟩ := consumes.exists_schema
  have restated : (cited.map Wff.ofFormula).map Wff.formula = cited := by
    rw [List.map_map]
    exact List.map_id _
  refine ⟨⟨node.statement, ⟨rule, cited.map .ofFormula, .ofFormula f⟩⟩, rfl,
    ⟨f, reads, by rwa [restated]⟩, fun w member => ?_⟩
  obtain ⟨g', needed, rfl⟩ := List.mem_map.mp member
  have there : some g' ∈ node.parents.map g.formulaAt? :=
    same ▸ List.mem_map_of_mem (subset needed)
  obtain ⟨p, parent, states⟩ := List.mem_map.mp there
  exact parents p parent g' states

/-- Derived nodes extend a proof, if each comes after its parents or finds them stated. -/
theorem Graph.Sound.exists_extension (sound : g.Sound) {start : Proof} (counted : start.Counted)
    {premises order : List Nat}
    (given : ∀ p ∈ premises, ∀ f, g.formulaAt? p = some f → f ∈ start.formulas)
    (derived : ∀ i ∈ order, ∃ node, g.At i node ∧ node.parents ≠ [])
    (ordered : ∀ before i after, order = before ++ i :: after →
      ∀ node, g.At i node → ∀ p ∈ node.parents, p ∈ before ∨ p ∈ premises) :
    ∃ steps : List ProofStep, (start.extend steps).Counted ∧
      order.map g.statementAt? = steps.map fun step => some step.statement := by
  -- from the back: the last node is stated where all that stands before it has been
  induction order using List.reverseRecOn with
  | nil => exact ⟨[], counted, rfl⟩
  | append_singleton order i ih =>
      rw [List.forall_mem_append] at derived
      obtain ⟨before, last⟩ := splits_append_singleton.mp ordered
      obtain ⟨steps, built, statements⟩ := ih derived.1 before
      obtain ⟨node, there, nonempty⟩ := derived.2 i (List.mem_singleton_self i)
      have stated : ∀ p ∈ node.parents, ∀ f, g.formulaAt? p = some f →
          f ∈ (start.extend steps).formulas := by
        intro p member f states
        rw [Proof.formulas_extend]
        rcases last node there p member with earlier | premise
        · obtain ⟨parent, found, reads⟩ := Graph.formulaAt?_eq_some.mp states
          have placed : some parent.statement ∈ order.map g.statementAt? :=
            List.mem_map.mpr ⟨p, earlier, by rw [statementAt?, found]; rfl⟩
          rw [statements] at placed
          obtain ⟨step, taken, same⟩ := List.mem_map.mp placed
          rw [← Option.some.inj same] at reads
          exact List.mem_append_right _ (List.mem_filterMap.mpr ⟨step, taken, reads⟩)
        · exact List.mem_append_left _ (given p premise f states)
      obtain ⟨step, same, ready⟩ := sound.exists_step there nonempty stated
      refine ⟨steps ++ [step], ?_, ?_⟩
      · rw [Proof.extend_append_singleton]
        exact built.append_lineFor ready
      · rw [List.map_append, List.map_append, statements, List.map_singleton, List.map_singleton,
          statementAt?, there, same]
        rfl

end ProofPuzzles
