import ProofPuzzles.Proofs.Puzzle.Tidy
import ProofPuzzles.Proofs.Puzzle.Solvable
import ProofPuzzles.Proofs.Search.Outline
import ProofPuzzles.Proofs.Search.Prove

/-! # The search solves generated puzzles

What a cut hides is an outline of a derivation from the premises: each hidden statement follows in
one step from different statements that are hidden or given. So a search finds the conclusion of a
puzzle in two rounds for each unit of the difficulty, if it may know that much.
-/

namespace ProofPuzzles

namespace Graph

variable {g : Graph} {limit : Int} {f : Formula} {i conclusion budget : Nat} {cut : Cut}

theorem Tidy.find?_eq (tidy : g.Tidy limit) (states : g.formulaAt? i = some f) :
    g.find? (.ofFormula f) = some i := by
  obtain ⟨node, there, reads⟩ := formulaAt?_eq_some.mp states
  obtain ⟨j, found, same⟩ := exists_find? (statement_mem there) reads
  have identity : (Statement.ofFormula f).identity = node.statement.identity :=
    (Statement.identity_eq reads).symm
  rw [Graph.find?, identity]
  rw [Graph.find?] at found
  rw [found, tidy.eq_of_formulaAt? same states]

/-- The premises of a tidy node are different formulas. -/
theorem Tidy.nodup_premises (tidy : g.Tidy limit) {parents : List Nat} {premises : List Formula}
    (distinct : parents.Nodup) (states : parents.map g.formulaAt? = premises.map some) :
    premises.Nodup := by
  refine List.Nodup.of_map some ?_
  rw [← states]
  refine distinct.map_on fun p first q _ same => ?_
  have stated : g.formulaAt? p ∈ premises.map some := states ▸ List.mem_map_of_mem first
  obtain ⟨e, -, reads⟩ := List.mem_map.mp stated
  exact tidy.eq_of_formulaAt? reads.symm (same ▸ reads.symm)

/-- A formula has the rank of the place that states it. -/
def rankOf (g : Graph) (rank : Nat → Nat) (f : Formula) : Nat :=
  rank ((g.find? (.ofFormula f)).getD 0)

theorem Tidy.rankOf_eq (tidy : g.Tidy limit) (rank : Nat → Nat) (states : g.formulaAt? i = some f) :
    g.rankOf rank f = rank i := by
  rw [rankOf, tidy.find?_eq states]
  rfl

theorem exists_derived (severs : cut.Severs g conclusion budget)
    (member : f ∈ cut.hidden.filterMap g.formulaAt?) :
    ∃ i ∈ cut.hidden, ∃ node, g.At i node ∧ node.parents ≠ [] ∧
      node.statement.formula? = some f := by
  obtain ⟨i, hidden, states⟩ := List.mem_filterMap.mp member
  obtain ⟨node, there, nonempty⟩ := severs.derived i hidden
  obtain ⟨node', there', reads⟩ := formulaAt?_eq_some.mp states
  cases there.symm.trans there'
  exact ⟨i, hidden, node, there, nonempty, reads⟩

theorem Sound.exists_outlineStep (sound : g.Sound) (tidy : g.Tidy limit)
    (severs : cut.Severs g conclusion budget) {rank : Nat → Nat}
    (lower : ∀ i node, g.At i node → ∀ p ∈ node.parents, rank p < rank i)
    (member : f ∈ cut.hidden.filterMap g.formulaAt?) :
    ∃ rule premises, OutlineStep (g.rankOf rank) (cut.premises.filterMap g.formulaAt?)
      (cut.hidden.filterMap g.formulaAt?) rule premises f := by
  obtain ⟨i, hidden, node, there, nonempty, reads⟩ := exists_derived severs member
  have states := formulaAt?_eq_some.mpr ⟨node, there, reads⟩
  obtain ⟨rule, -, premises, cited, consumes⟩ := sound.follows i node f there nonempty reads
  have placed : ∀ e ∈ premises, ∃ p ∈ node.parents, g.formulaAt? p = some e := by
    intro e listed
    have stated : some e ∈ node.parents.map g.formulaAt? := cited ▸ List.mem_map_of_mem listed
    exact List.mem_map.mp stated
  refine ⟨rule, premises, consumes, tidy.nodup_premises (tidy.at there).parents cited, ?_, ?_⟩
  · intro e listed
    obtain ⟨p, parent, stated⟩ := placed e listed
    rcases severs.closed i hidden node there p parent with inside | given
    · exact .inl (List.mem_filterMap.mpr ⟨p, inside, stated⟩)
    · exact .inr (List.mem_filterMap.mpr ⟨p, given, stated⟩)
  · intro e listed
    obtain ⟨p, parent, stated⟩ := placed e listed
    rw [tidy.rankOf_eq rank stated, tidy.rankOf_eq rank states]
    exact lower i node there p parent

/-- What a cut hides is an outline of a derivation from its premises. -/
theorem Sound.exists_outline (sound : g.Sound) (tidy : g.Tidy limit)
    (severs : cut.Severs g conclusion budget) :
    Nonempty (Outline limit (cut.premises.filterMap g.formulaAt?)
      (cut.hidden.filterMap g.formulaAt?)) := by
  obtain ⟨rank, lower⟩ := sound.acyclic
  refine ⟨⟨g.rankOf rank, fun f => sound.exists_outlineStep tidy severs lower, ?_, ?_⟩⟩
  · intro f member
    obtain ⟨i, -, node, there, nonempty, reads⟩ := exists_derived severs member
    rcases (tidy.at there).short f reads with short | ⟨leaf, -⟩
    · exact short
    · exact absurd leaf nonempty
  · intro f member
    obtain ⟨i, -, states⟩ := List.mem_filterMap.mp member
    obtain ⟨node, there, reads⟩ := formulaAt?_eq_some.mp states
    rcases (tidy.at there).short f reads with short | ⟨-, literal⟩
    · exact .inl short
    · exact .inr literal

end Graph

namespace Puzzle

section

variable {g : Graph} {limit : Int} {conclusion budget : Nat} {cut : Cut} {node : GraphNode}

/-- What the places of the premises state is known from the start. -/
theorem subset_ofPremises (g : Graph) (places : List Nat) :
    places.filterMap g.formulaAt? ⊆ (Derivation.ofPremises (premisesOf g places)).formulas := by
  intro f member
  obtain ⟨p, place, states⟩ := List.mem_filterMap.mp member
  obtain ⟨s, listed, reads⟩ := exists_mem_premisesOf place states
  obtain ⟨w, rfl, rfl⟩ := Statement.exists_wff reads
  rw [formulas_ofPremises]
  exact mem_map_firstsBy.mpr (List.mem_map_of_mem (mem_wellFormed.mpr listed))

/-- The pool of a search reaches the conclusion of a cut. -/
theorem mem_searchPool (sound : g.Sound) (tidy : g.Tidy limit)
    (severs : cut.Severs g conclusion budget) (hidden : conclusion ∈ cut.hidden)
    (there : g.At conclusion node) {f : Formula} (reads : node.statement.formula? = some f) :
    f ∈ (searchPool (premisesOf g cut.premises) node.statement limit
      (2 * cut.hidden.length)).formulas := by
  obtain ⟨outline⟩ := sound.exists_outline tidy severs
  have member : f ∈ cut.hidden.filterMap g.formulaAt? :=
    List.mem_filterMap.mpr ⟨conclusion, hidden, Graph.formulaAt?_eq_some.mpr ⟨node, there, reads⟩⟩
  have wff : node.statement.wff? = some ⟨node.statement, f, reads⟩ :=
    Statement.wff?_eq_some.mpr rfl
  have within := Search.le_admittedLength limit ⟨node.statement, f, reads⟩
    (Derivation.ofPremises (premisesOf g cut.premises))
  have found := outline.goal_mem_pool within (nodup_ofPremises _)
    (subset_ofPremises g cut.premises) member
  rw [searchPool_eq wff]
  exact Search.pool_subset (Nat.mul_le_mul_left 2 (List.length_filterMap_le _ _)) found

end

variable {σ : Type} [RandomSource σ] {b : Bounds} {difficulty : Int} {problem : Problem}
  {source source' : σ}

/-- Whatever is drawn, a search that has two rounds for each unit of the difficulty and two more,
and that may know what it comes to know, proves the conclusion of a generated puzzle. -/
theorem generate_searchable (h : generate b difficulty source = (.ok (some problem), source'))
    {limits : SearchLimits} (tiles : limits.maxTiles = b.maxFormulaTiles)
    (rounds : 2 * (problem.difficulty : Int) + 2 ≤ limits.maxRounds)
    (bounded : ∀ n : Nat, (n : Int) ≤ limits.maxRounds →
      ((searchPool problem.premises problem.conclusion limits.maxTiles n).length : Int) ≤
        limits.maxFormulas) :
    ∃ proof, prove problem.premises problem.conclusion limits = some proof := by
  obtain ⟨_, _, attempted⟩ := generateWithin_eq_some h
  obtain ⟨a, moves, made⟩ := attempt_eq_some attempted
  obtain ⟨latest, cut, node, cuts, there, -, premises, concludes, hides, apart⟩ :=
    ofAttempt_eq_some made
  have sound := moves.sound Graph.sound_empty
  have tidy := moves.tidy Graph.tidy_empty
  have severs := Graph.cut_severs cuts
  have hidden := hidden_of_apart sound severs there (premises ▸ concludes ▸ apart)
  obtain ⟨f, reads⟩ := sound.reads latest node there
  have found := mem_searchPool sound tidy severs hidden there reads
  rw [← premises, ← concludes, ← hides, ← tiles] at found
  rw [← concludes] at reads
  refine exists_prove reads (search_isSome reads found (by omega) fun n lt _ => ?_)
  exact bounded (n + 1) (by omega)

/-! ## A search over two letters -/

namespace Pair

def start : Derivation := [⟨p, none⟩, ⟨q, none⟩]

theorem ofPremises_eq : Derivation.ofPremises [p.statement, q.statement] = start := by
  have known : wellFormed [p.statement, q.statement] = [p, q] := rfl
  rw [Derivation.ofPremises, known, firstsBy_eq]
  rfl

/-- The letters have five parts together with the goal, and nothing else is considered. -/
theorem length_candidates_le :
    (Search.candidates joined.conclusion.formula start).length ≤ 5 := by
  have closed : Search.closedApplications (start.map (·.wff)) = [] := by
    show Search.closedApplications [p, q] = []
    simp only [Search.closedApplications, Inference.applications, ofDistinct_eq]
    rfl
  have joins : Search.antecedentDisjunctions (.ofList start.formulas)
      (Search.antecedents start.formulas) = [] := rfl
  rw [Search.candidates, closed, joins, List.nil_append, List.append_nil]
  exact Nat.le_trans (List.length_filterMap_le _ _) (Search.length_parts_le _ _)

theorem length_searchPool_le (n : Nat) :
    (searchPool [p.statement, q.statement] joined.conclusion.statement 31 n).length ≤ 7 := by
  rw [searchPool_eq (w := joined.conclusion) rfl, ofPremises_eq]
  cases n with
  | zero => decide
  | succ n =>
      have known : joined.conclusion.formula ∈ (Search.next joined.conclusion.formula
          (Search.admittedLength 31 joined.conclusion start) start).formulas :=
        Search.conj_mem_next (by decide) ⟨_, List.mem_cons_self, List.mem_cons_self⟩ (by decide)
          (by decide) (by decide) (Int.le_trans (by decide) (Search.le_admittedLength _ _ _))
      rw [← Search.pool_next, Search.pool_of_knows (Derivation.knows_iff.mpr known)]
      exact Nat.le_trans Search.length_next_le (Nat.add_le_add_left length_candidates_le 2)

end Pair

theorem generate_searchable_conjunction :
    ∃ problem, generate Pair.bounds 1 () = (.ok (some problem), ()) ∧
      ∃ proof, prove problem.premises problem.conclusion {} = some proof := by
  obtain ⟨problem, made, premises, conclusion, difficulty⟩ := Pair.exists_generated
  refine ⟨problem, made, generate_searchable made rfl (by rw [difficulty]; decide) fun n _ => ?_⟩
  rw [premises, conclusion]
  exact Int.ofNat_le.mpr (Nat.le_trans (Pair.length_searchPool_le n) (by decide))

end Puzzle

end ProofPuzzles
