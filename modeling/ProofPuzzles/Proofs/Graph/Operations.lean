import Mathlib.Data.List.Induction
import Mathlib.Data.List.Nodup
import ProofPuzzles.Proofs.Graph.Cut

/-! # When operations on graphs succeed

Nodes can be added as long as their statements are new, and each leaf can be derived once. What
the nodes state only grows at the end. In an acyclic graph every parent has a node, so nothing that
follows parents goes astray.
-/

namespace ProofPuzzles

namespace Graph

variable {g h : Graph} {node : GraphNode} {s : Statement} {f : Formula} {place i : Nat}
  {rule : InferenceRule} {rule? : Option InferenceRule} {parents places : List Nat}
  {statements : List Statement}

/-! ## Statements -/

theorem contains_iff : g.contains s = true ↔ s.identity ∈ g.statements.map Statement.identity := by
  simp [contains, find?_eq, Graph.statements]

theorem not_contains_iff :
    g.contains s = false ↔ s.identity ∉ g.statements.map Statement.identity := by
  rw [← contains_iff, Bool.not_eq_true]

theorem find?_eq_none (new : g.contains s = false) : g.find? s = none := by
  simpa [contains] using new

theorem statement_mem (there : g.At i node) : node.statement ∈ g.statements :=
  List.mem_map_of_mem (List.mem_of_getElem? there)

theorem statements_addDerived (added : g.addDerived s rule? parents = .ok (place, h)) :
    h.statements = g.statements ++ [s] := by
  rw [Graph.statements, (addDerived_eq_ok added).2.2, List.map_append]
  rfl

theorem statements_addLeaves (added : g.addLeaves statements = (.ok places, h)) :
    h.statements = g.statements ++ statements := by
  rw [Graph.statements, (addLeaves_eq_ok added).1, List.map_append, List.map_map]
  simp [Graph.statements, Function.comp_def]

theorem statements_deriveLeaf (derived : g.deriveLeaf place rule parents = .ok h) :
    h.statements = g.statements := by
  obtain ⟨node, there, -, changed⟩ := deriveLeaf_eq_ok derived
  have same : (g.statements)[place]? = some node.statement := by
    rw [Graph.statements, List.getElem?_map, there]
    rfl
  rw [Graph.statements, changed, List.map_set]
  obtain ⟨inside, get⟩ := List.getElem?_eq_some_iff.mp same
  exact get ▸ List.set_getElem_self inside

/-! ## Nodes -/

theorem node_eq_ok : g.node i = .ok node ↔ g.At i node := by
  unfold Graph.node At
  cases g.nodes[i]? <;> simp

theorem At.parents_eq_nil (there : g.At i node) (isLeaf : Cut.isLeafAt g i = true) :
    node.parents = [] := by
  have found : g.nodes[i]? = some node := there
  simpa [Cut.isLeafAt, found, GraphNode.isLeaf] using isLeaf

theorem At.addLeaves (there : g.At i node) (added : g.addLeaves statements = (.ok places, h)) :
    h.At i node := by
  rw [At, (addLeaves_eq_ok added).1, List.getElem?_append_left there.lt]
  exact there

section

variable {kept : GraphNode → Prop} (all : ∀ node ∈ g.nodes, kept node)

include all

/-- What holds of each node on its own is kept if it holds of the new one. -/
theorem forall_node_addDerived (added : g.addDerived s rule? parents = .ok (place, h))
    (new : kept ⟨s, rule?, parents⟩) : ∀ node ∈ h.nodes, kept node := by
  rw [(addDerived_eq_ok added).2.2, List.forall_mem_append, List.forall_mem_singleton]
  exact ⟨all, new⟩

theorem forall_node_addLeaves (added : g.addLeaves statements = (.ok places, h))
    (new : ∀ s ∈ statements, kept ⟨s, none, []⟩) : ∀ node ∈ h.nodes, kept node := by
  rw [(addLeaves_eq_ok added).1, List.forall_mem_append, List.forall_mem_map]
  exact ⟨all, new⟩

theorem forall_node_deriveLeaf (derived : g.deriveLeaf place rule parents = .ok h)
    (new : ∀ node, g.At place node → node.parents = [] →
      kept ⟨node.statement, some rule, parents⟩) : ∀ node ∈ h.nodes, kept node := by
  obtain ⟨old, there, leaf, changed⟩ := deriveLeaf_eq_ok derived
  rw [changed]
  intro node member
  rcases List.mem_or_eq_of_mem_set member with same | rfl
  · exact all node same
  · exact new old there leaf

end

/-! ## Success -/

theorem exists_addLeaf (new : g.contains s = false) :
    ∃ h, g.addLeaf s = .ok (g.nodes.length, h) ∧ h.statements = g.statements ++ [s] := by
  obtain ⟨h, added, -⟩ := exists_addDerived (find?_eq_none new) none []
  exact ⟨h, added, statements_addDerived added⟩

/-- Leaves that are new and differ from each other can all be added. -/
theorem exists_addLeaves (new : ∀ s ∈ statements, g.contains s = false)
    (distinct : (statements.map Statement.identity).Nodup) :
    ∃ places h, g.addLeaves statements = (.ok places, h) := by
  induction statements generalizing g with
  | nil => exact ⟨[], g, rfl⟩
  | cons s statements ih =>
      rw [List.map_cons, List.nodup_cons] at distinct
      rw [List.forall_mem_cons] at new
      obtain ⟨grown, added, longer⟩ := exists_addLeaf new.1
      have later : ∀ t ∈ statements, grown.contains t = false := by
        intro t member
        rw [not_contains_iff, longer, List.map_append, List.mem_append, not_or]
        refine ⟨not_contains_iff.mp (new.2 t member), fun same => distinct.1 ?_⟩
        rw [List.map_singleton, List.mem_singleton] at same
        exact same ▸ List.mem_map_of_mem member
      obtain ⟨places, h, others⟩ := ih later distinct.2
      refine ⟨g.nodes.length :: places, h, ?_⟩
      rw [addLeaves, added]
      simp only [others]

/-- Nodes with different statements make up a graph. -/
theorem exists_graph (nodes : List GraphNode)
    (distinct : (nodes.map (·.statement.identity)).Nodup) : ∃ g : Graph, g.nodes = nodes := by
  induction nodes using List.reverseRecOn with
  | nil => exact ⟨empty, rfl⟩
  | append_singleton nodes node ih =>
      rw [List.map_append, List.nodup_append] at distinct
      obtain ⟨g, rfl⟩ := ih distinct.1
      have new : g.contains node.statement = false := by
        rw [not_contains_iff, Graph.statements, List.map_map]
        exact fun member => distinct.2.2 _ member _ (List.mem_singleton_self _) rfl
      exact ⟨g.push node (find?_eq_none new), rfl⟩

theorem exists_deriveLeaf (there : g.At place node) (leaf : node.parents = [])
    (rule : InferenceRule) (parents : List Nat) :
    ∃ h, g.deriveLeaf place rule parents = .ok h := by
  have isLeaf : node.isLeaf = true := by simp [GraphNode.isLeaf, leaf]
  unfold deriveLeaf
  split
  · rename_i missing
    cases missing.symm.trans there
  · rename_i other found
    cases found.symm.trans there
    exact ⟨_, if_pos isLeaf⟩

/-! ## Following parents -/

theorem exists_node (inside : place < g.nodes.length) :
    ∃ node, g.At place node ∧ g.node place = .ok node := by
  have there := List.getElem?_eq_getElem inside
  exact ⟨g.nodes[place], there, by rw [Graph.node, there]⟩

theorem exists_reach (acyclic : g.Acyclic) {bound : Nat} {pending reached : List Nat}
    (inside : ∀ p ∈ pending, p < g.nodes.length) :
    ∃ places, g.reach bound pending reached = .ok places := by
  induction bound generalizing pending reached with
  | zero => exact ⟨reached, rfl⟩
  | succ bound ih =>
      cases pending with
      | nil => exact ⟨reached, rfl⟩
      | cons place pending =>
          rw [List.forall_mem_cons] at inside
          rw [reach]
          split
          · exact ih inside.2
          · obtain ⟨node, there, found⟩ := exists_node inside.1
            rw [found]
            refine ih fun p member => ?_
            rcases List.mem_append.mp member with parent | later
            · exact acyclic.inside place p ⟨node, there, parent⟩
            · exact inside.2 p later

theorem exists_ancestors (acyclic : g.Acyclic) (inside : place < g.nodes.length) :
    ∃ places, g.ancestors place = .ok places :=
  exists_reach acyclic fun _ member => List.mem_singleton.mp member ▸ inside

theorem behind_of_reach {bound : Nat} {pending reached : List Nat}
    (reaches : g.reach bound pending reached = .ok places)
    (waiting : ∀ p ∈ pending, g.Behind place p) (before : ∀ p ∈ reached, g.Behind place p) :
    ∀ p ∈ places, g.Behind place p := by
  induction bound generalizing pending reached with
  | zero =>
      cases reaches
      exact before
  | succ bound ih =>
      cases pending with
      | nil =>
          cases reaches
          exact before
      | cons p pending =>
          rw [List.forall_mem_cons] at waiting
          rw [reach] at reaches
          split at reaches
          · exact ih reaches waiting.2 before
          · split at reaches
            · cases reaches
            · rename_i node found
              refine ih reaches (fun q member => ?_)
                (List.forall_mem_cons.mpr ⟨waiting.1, before⟩)
              rcases List.mem_append.mp member with parent | later
              · exact waiting.1.tail ⟨node, node_eq_ok.mp found, parent⟩
              · exact waiting.2 q later

/-- Ancestors of a place lie behind it. -/
theorem behind_of_ancestors (ancestors : g.ancestors place = .ok places) :
    ∀ p ∈ places, g.Behind place p :=
  behind_of_reach ancestors (fun _ member => List.mem_singleton.mp member ▸ .refl) nofun

/-- Every node of an acyclic graph can be cut. -/
theorem exists_cut (acyclic : g.Acyclic) (inside : place < g.nodes.length) (difficulty : Int) :
    ∃ cut, g.cut place difficulty = .ok cut := by
  obtain ⟨places, ancestors⟩ := exists_ancestors acyclic inside
  rw [cut, depth, ancestors]
  exact ⟨_, rfl⟩

end Graph

end ProofPuzzles
