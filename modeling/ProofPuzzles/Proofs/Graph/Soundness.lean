import Mathlib.Algebra.Order.BigOperators.Group.List
import Mathlib.Algebra.Order.Group.Nat
import Mathlib.Logic.Relation
import ProofPuzzles.Graph.Basic
import ProofPuzzles.Proofs.Inference.Schema
import ProofPuzzles.Proofs.WellFormed

/-! # What derivation graphs derive

Each derived statement of a sound graph follows by its rule from its parents, in their order, and
no statement rests on itself. A step backwards derives a leaf from leaves that are newer, so
places are in no order of derivation: acyclicity is witnessed by a rank of its own.
-/

namespace ProofPuzzles

namespace Graph

variable {g h : Graph} {node : GraphNode} {s : Statement} {rule : InferenceRule} {f : Formula}
  {place i : Nat} {parents : List Nat} {rule? : Option InferenceRule}

/-- The place holds the node. -/
def At (g : Graph) (place : Nat) (node : GraphNode) : Prop := g.nodes[place]? = some node

/-- The formula that the node at a place states. -/
def formulaAt? (g : Graph) (place : Nat) : Option Formula :=
  g.nodes[place]?.bind (·.statement.formula?)

/-- The formula follows by the rule from what the places state. -/
def Follows (g : Graph) (rule : InferenceRule) (parents : List Nat) (f : Formula) : Prop :=
  ∃ premises, parents.map g.formulaAt? = premises.map some ∧ Consumes rule premises f

/-- What is at a place was derived from what is at another place. -/
def RestsOn (g : Graph) (i p : Nat) : Prop := ∃ node, g.At i node ∧ p ∈ node.parents

/-- Every parent has a node, and nothing rests on itself. -/
structure Acyclic (g : Graph) : Prop where
  inside : ∀ i p, g.RestsOn i p → p < g.nodes.length
  circular : ∀ i, ¬Relation.TransGen g.RestsOn i i

/-- What was derived follows from what it was derived from, and nothing rests on itself. -/
structure Sound (g : Graph) : Prop where
  reads : ∀ i node, g.At i node → ∃ f, node.statement.formula? = some f
  follows : ∀ i node f, g.At i node → node.parents ≠ [] → node.statement.formula? = some f →
    ∃ rule, node.rule? = some rule ∧ g.Follows rule node.parents f
  acyclic : ∃ rank : Nat → Nat, ∀ i node, g.At i node → ∀ p ∈ node.parents, rank p < rank i

theorem sound_empty : empty.Sound := ⟨nofun, nofun, fun _ => 0, nofun⟩

theorem At.lt (there : g.At i node) : i < g.nodes.length :=
  (List.getElem?_eq_some_iff.mp there).1

theorem formulaAt?_eq_some : g.formulaAt? i = some f ↔
    ∃ node, g.At i node ∧ node.statement.formula? = some f := Option.bind_eq_some_iff

theorem lt_of_formulaAt? (states : g.formulaAt? i = some f) : i < g.nodes.length := by
  obtain ⟨node, there, -⟩ := formulaAt?_eq_some.mp states
  exact there.lt

theorem Follows.exists_formula (follows : g.Follows rule parents f) {p : Nat}
    (member : p ∈ parents) : ∃ f, g.formulaAt? p = some f := by
  obtain ⟨premises, same, -⟩ := follows
  have stated : g.formulaAt? p ∈ premises.map some := same ▸ List.mem_map_of_mem member
  obtain ⟨f, -, states⟩ := List.mem_map.mp stated
  exact ⟨f, states.symm⟩

theorem Sound.exists_formula (sound : g.Sound) (there : g.At i node) {p : Nat}
    (member : p ∈ node.parents) : ∃ f, g.formulaAt? p = some f := by
  obtain ⟨f, reads⟩ := sound.reads i node there
  obtain ⟨rule, -, follows⟩ := sound.follows i node f there (List.ne_nil_of_mem member) reads
  exact follows.exists_formula member

/-- Along parents a rank falls, so they never lead back. -/
theorem not_restsOn_self_of_rank {rank : Nat → Nat}
    (lower : ∀ i p, g.RestsOn i p → rank p < rank i) : ¬Relation.TransGen g.RestsOn i i := by
  have falls : ∀ {i p}, Relation.TransGen g.RestsOn i p → rank p < rank i := by
    intro i p rests
    induction rests with
    | single direct => exact lower _ _ direct
    | tail _ direct ih => exact Nat.lt_trans (lower _ _ direct) ih
  exact fun circle => Nat.lt_irrefl _ (falls circle)

/-- A graph whose nodes were derived in their order is acyclic. -/
theorem acyclic_of_earlier
    (earlier : ∀ node ∈ g.nodes.zipIdx, ∀ p ∈ node.1.parents, p < node.2) : g.Acyclic := by
  have falls : ∀ i p, g.RestsOn i p → p < i := by
    rintro i p ⟨node, there, parent⟩
    exact earlier (node, i) (List.mk_mem_zipIdx_iff_getElem?.mpr there) p parent
  refine ⟨?_, fun i => @not_restsOn_self_of_rank g i id falls⟩
  rintro i p ⟨node, there, parent⟩
  exact (falls i p ⟨node, there, parent⟩).trans there.lt

theorem Sound.isAcyclic (sound : g.Sound) : g.Acyclic where
  inside i p rests := by
    obtain ⟨node, there, parent⟩ := rests
    obtain ⟨f, states⟩ := sound.exists_formula there parent
    exact lt_of_formulaAt? states
  circular i := by
    obtain ⟨rank, lower⟩ := sound.acyclic
    have falls : ∀ i p, g.RestsOn i p → rank p < rank i := by
      rintro i p ⟨node, there, parent⟩
      exact lower i node there p parent
    exact not_restsOn_self_of_rank falls

theorem Follows.mono (follows : g.Follows rule parents f)
    (kept : ∀ i f, g.formulaAt? i = some f → h.formulaAt? i = some f) :
    h.Follows rule parents f := by
  have all := fun p member => follows.exists_formula (p := p) member
  obtain ⟨premises, same, consumes⟩ := follows
  refine ⟨premises, ?_, consumes⟩
  rw [← same]
  refine List.map_congr_left fun p member => ?_
  obtain ⟨f, states⟩ := all p member
  rw [states, kept p f states]

/-- The place that is found for a statement states its formula. -/
theorem exists_find? (member : s ∈ g.statements) (reads : s.formula? = some f) :
    ∃ i, g.find? s = some i ∧ g.formulaAt? i = some f := by
  obtain ⟨node, there, rfl⟩ := List.mem_map.mp member
  rw [find?_eq]
  cases found : g.nodes.findIdx? (·.statement.identity = node.statement.identity) with
  | none => simpa using List.findIdx?_eq_none_iff.mp found node there
  | some i =>
      obtain ⟨inside, same, -⟩ := List.findIdx?_eq_some_iff_getElem.mp found
      rw [decide_eq_true_eq, Statement.identity_eq reads, Statement.identity_eq_formula_iff] at same
      exact ⟨i, rfl, formulaAt?_eq_some.mpr ⟨_, List.getElem?_eq_getElem inside, same⟩⟩

/-! ## Adding nodes -/

/-- What adding a node does. -/
theorem addDerived_eq_ok (added : g.addDerived s rule? parents = .ok (place, h)) :
    g.find? s = none ∧ place = g.nodes.length ∧ h.nodes = g.nodes ++ [⟨s, rule?, parents⟩] := by
  unfold addDerived at added
  split at added
  · rename_i fresh
    cases added
    exact ⟨fresh, rfl, rfl⟩
  · cases added

theorem exists_addDerived (fresh : g.find? s = none) (rule? : Option InferenceRule)
    (parents : List Nat) : ∃ h, g.addDerived s rule? parents = .ok (g.nodes.length, h) ∧
      h.nodes = g.nodes ++ [⟨s, rule?, parents⟩] := by
  rw [addDerived, dif_pos fresh]
  exact ⟨_, rfl, rfl⟩

theorem formulaAt?_append {more : List GraphNode} (longer : h.nodes = g.nodes ++ more)
    (states : g.formulaAt? i = some f) : h.formulaAt? i = some f := by
  rw [formulaAt?, longer, List.getElem?_append_left (lt_of_formulaAt? states)]
  exact states

theorem at_append (longer : h.nodes = g.nodes ++ [node]) {other : GraphNode} :
    h.At i other ↔ g.At i other ∨ i = g.nodes.length ∧ other = node := by
  unfold At
  rw [longer, List.getElem?_append]
  constructor
  · intro there
    split at there
    · exact .inl there
    · rename_i behind
      rw [List.getElem?_singleton] at there
      split at there
      · exact .inr ⟨by omega, (Option.some.inj there).symm⟩
      · cases there
  · intro there
    rcases there with old | ⟨rfl, rfl⟩
    · rwa [if_pos (At.lt old)]
    · rw [if_neg (Nat.lt_irrefl _), Nat.sub_self]
      rfl

theorem Sound.append (sound : g.Sound) (longer : h.nodes = g.nodes ++ [⟨s, rule?, parents⟩])
    (reads : s.formula? = some f)
    (follows : parents ≠ [] → ∃ rule, rule? = some rule ∧ g.Follows rule parents f) :
    h.Sound := by
  have kept : ∀ i f, g.formulaAt? i = some f → h.formulaAt? i = some f :=
    fun i f => formulaAt?_append longer
  constructor
  · intro i node there
    rcases (at_append longer).mp there with old | ⟨-, rfl⟩
    · exact sound.reads i node old
    · exact ⟨f, reads⟩
  · intro i node e there derived states
    rcases (at_append longer).mp there with old | ⟨-, rfl⟩
    · obtain ⟨rule, carried, follows⟩ := sound.follows i node e old derived states
      exact ⟨rule, carried, follows.mono kept⟩
    · obtain ⟨rule, carried, follows⟩ := follows derived
      cases reads.symm.trans states
      exact ⟨rule, carried, follows.mono kept⟩
  · obtain ⟨rank, lower⟩ := sound.acyclic
    -- the new node ranks above its parents, and no old node has it as a parent
    let above := (parents.map rank).sum + 1
    have unchanged : ∀ {p}, p < g.nodes.length →
        Function.update rank g.nodes.length above p = rank p :=
      fun lt => Function.update_of_ne (Nat.ne_of_lt lt) _ _
    refine ⟨Function.update rank g.nodes.length above, fun i node there p member => ?_⟩
    rcases (at_append longer).mp there with old | ⟨rfl, rfl⟩
    · obtain ⟨e, states⟩ := sound.exists_formula old member
      rw [unchanged old.lt, unchanged (lt_of_formulaAt? states)]
      exact lower i node old p member
    · obtain ⟨rule, -, follows⟩ := follows (List.ne_nil_of_mem member)
      obtain ⟨e, states⟩ := follows.exists_formula member
      rw [Function.update_self, unchanged (lt_of_formulaAt? states)]
      have bound := List.le_sum_of_mem (List.mem_map_of_mem member : rank p ∈ parents.map rank)
      omega

theorem Sound.addLeaf (sound : g.Sound) (reads : s.formula? = some f)
    (added : g.addLeaf s = .ok (place, h)) : h.Sound :=
  sound.append (addDerived_eq_ok added).2.2 reads fun derived => absurd rfl derived

/-- Adding leaves appends them, and the places told are those of the new nodes. -/
theorem addLeaves_eq_ok {statements : List Statement} {places : List Nat}
    (added : g.addLeaves statements = (.ok places, h)) :
    h.nodes = g.nodes ++ statements.map (⟨·, none, []⟩) ∧
      places = List.range' g.nodes.length statements.length := by
  induction statements generalizing g places with
  | nil =>
      cases added
      exact ⟨(List.append_nil _).symm, rfl⟩
  | cons s statements ih =>
      rw [addLeaves] at added
      split at added
      · cases added
      · rename_i place g' first
        obtain ⟨-, rfl, longer⟩ := addDerived_eq_ok first
        split at added
        · cases added
        · rename_i rest last others
          cases added
          obtain ⟨nodes, rfl⟩ := ih others
          rw [longer] at nodes ⊢
          refine ⟨by rw [nodes, List.append_assoc]; rfl, ?_⟩
          rw [List.length_append, List.length_singleton, List.length_cons, List.range'_succ]

theorem Sound.addLeaves (sound : g.Sound) {statements : List Statement} {places : List Nat}
    (reads : ∀ s ∈ statements, ∃ f, s.formula? = some f)
    (added : g.addLeaves statements = (.ok places, h)) : h.Sound := by
  induction statements generalizing g places with
  | nil =>
      cases added
      exact sound
  | cons s statements ih =>
      rw [List.forall_mem_cons] at reads
      obtain ⟨f, first_reads⟩ := reads.1
      rw [Graph.addLeaves] at added
      split at added
      · cases added
      · rename_i place g' first
        split at added
        · cases added
        · rename_i rest last others
          cases added
          exact ih (sound.addLeaf first_reads first) reads.2 others

/-! ## Deriving leaves -/

/-- What deriving a leaf does. -/
theorem deriveLeaf_eq_ok (derived : g.deriveLeaf place rule parents = .ok h) :
    ∃ node, g.At place node ∧ node.parents = [] ∧
      h.nodes = g.nodes.set place ⟨node.statement, some rule, parents⟩ := by
  unfold deriveLeaf at derived
  split at derived
  · cases derived
  · rename_i node there
    split at derived
    · rename_i leaf
      cases derived
      exact ⟨node, there, List.isEmpty_iff.mp leaf, rfl⟩
    · cases derived

theorem at_set (inside : place < g.nodes.length) (changed : h.nodes = g.nodes.set place node)
    {other : GraphNode} :
    h.At i other ↔ i ≠ place ∧ g.At i other ∨ i = place ∧ other = node := by
  unfold At
  rw [changed, List.getElem?_set]
  by_cases same : place = i
  · subst same
    simp [inside, eq_comm]
  · simp [same, Ne.symm same]

theorem Sound.deriveLeaf (sound : g.Sound) (outside : place ∉ parents)
    (leaves : ∀ p ∈ parents, ∀ node, g.At p node → node.parents = [])
    (states : g.formulaAt? place = some f) (follows : g.Follows rule parents f)
    (derived : g.deriveLeaf place rule parents = .ok h) : h.Sound := by
  obtain ⟨old, there, -, changed⟩ := deriveLeaf_eq_ok derived
  obtain ⟨node, same, reads⟩ := formulaAt?_eq_some.mp states
  cases there.symm.trans same
  have kept : ∀ i f, g.formulaAt? i = some f → h.formulaAt? i = some f := by
    intro i f states
    obtain ⟨node, found, reads⟩ := formulaAt?_eq_some.mp states
    by_cases same : i = place
    · subst same
      cases there.symm.trans found
      exact formulaAt?_eq_some.mpr ⟨_, (at_set there.lt changed).mpr (.inr ⟨rfl, rfl⟩), reads⟩
    · exact formulaAt?_eq_some.mpr
        ⟨node, (at_set there.lt changed).mpr (.inl ⟨same, found⟩), reads⟩
  constructor
  · intro i node found
    rcases (at_set there.lt changed).mp found with ⟨-, found⟩ | ⟨rfl, rfl⟩
    · exact sound.reads i node found
    · exact ⟨f, reads⟩
  · intro i node e found nonempty reads'
    rcases (at_set there.lt changed).mp found with ⟨-, found⟩ | ⟨rfl, rfl⟩
    · obtain ⟨rule, carried, follows⟩ := sound.follows i node e found nonempty reads'
      exact ⟨rule, carried, follows.mono kept⟩
    · cases reads.symm.trans reads'
      exact ⟨rule, rfl, follows.mono kept⟩
  · obtain ⟨rank, lower⟩ := sound.acyclic
    -- the new parents go to the bottom, and all other nodes go up by one
    refine ⟨fun i => if i ∈ parents then 0 else rank i + 1, fun i node found p member => ?_⟩
    rcases (at_set there.lt changed).mp found with ⟨-, found⟩ | ⟨rfl, rfl⟩
    · have other : i ∉ parents := fun leaf => by
        rw [leaves i leaf node found] at member
        cases member
      have lt := lower i node found p member
      simp only [if_neg other]
      split <;> omega
    · have new : p ∈ parents := member
      simp only [if_pos new, if_neg outside]
      omega

end Graph

end ProofPuzzles
