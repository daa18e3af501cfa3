import ProofPuzzles.Proofs.Inference.Matching
import ProofPuzzles.Proofs.Puzzle.Solvable
import ProofPuzzles.Proofs.Puzzle.Tidy

/-! # What holds in every state of an attempt

Turns are followed here also where they end with an error, and the literals to start from are
counted. They come first, so the places after them hold what the turns have added, and that is never
longer than the bound. Whatever has been derived matches its rule, in the order of its parents.
-/

namespace ProofPuzzles

open Relation

variable {limit : Int} {seeds : Nat} {g h : Graph} {node : GraphNode} {s : Statement} {i place : Nat}

namespace Graph

/-- A graph that can be relied on, of which the first statements are literals to start from. -/
structure Intact (limit : Int) (seeds : Nat) (g : Graph) : Prop where
  distinct : (g.statements.map Statement.identity).Nodup
  index : ∀ s i, g.find? s = some i ↔
    ∃ node, g.node i = .ok node ∧ node.statement.identity = s.identity
  acyclic : ∀ i, ¬TransGen g.RestsOn i i
  counted : seeds ≤ g.size
  literals : ∀ s ∈ g.statements.take seeds, ∃ l : Literal, s = .ofFormula l.formula
  short : ∀ s ∈ g.statements.drop seeds, (s.length : Int) ≤ limit
  valid : ∀ i node, g.node i = .ok node → node.isLeaf = false → ∃ rule cited,
    node.rule? = some rule ∧ node.parents.map g.statementAt? = cited.map some ∧
      Inference.matching rule cited node.statement ≠ []

theorem Tidy.find?_eq_some_iff (tidy : g.Tidy limit) : g.find? s = some i ↔
    ∃ node, g.At i node ∧ node.statement.identity = s.identity := by
  rw [find?_eq, List.findIdx?_eq_some_iff_getElem]
  constructor
  · rintro ⟨inside, same, -⟩
    exact ⟨g.nodes[i], List.getElem?_eq_getElem inside, of_decide_eq_true same⟩
  · rintro ⟨node, there, same⟩
    obtain ⟨inside, rfl⟩ := List.getElem?_eq_some_iff.mp there
    refine ⟨inside, decide_eq_true same, fun j earlier again => ?_⟩
    -- two places of one statement would be two places of one identity
    have distinct := tidy.distinct
    rw [Graph.statements, List.map_map, List.nodup_iff_getElem?_ne_getElem?] at distinct
    refine distinct j i earlier (by simpa using inside) ?_
    have before : j < g.nodes.length := Nat.lt_trans earlier inside
    simp only [List.getElem?_map, List.getElem?_eq_getElem before,
      List.getElem?_eq_getElem inside, Option.map_some, Function.comp_apply]
    rw [of_decide_eq_true again, same]

/-- Places that state formulas hold statements that read as these. -/
theorem exists_cited {parents : List Nat} {premises : List Formula}
    (states : parents.map g.formulaAt? = premises.map some) :
    ∃ cited : List Statement, parents.map g.statementAt? = cited.map some ∧
      cited.map Statement.formula? = premises.map some := by
  induction parents generalizing premises with
  | nil => exact ⟨[], rfl, states⟩
  | cons p parents ih =>
      obtain ⟨f, premises, rfl, first, others⟩ := List.map_eq_cons_iff.mp states.symm
      obtain ⟨cited, places, reads⟩ := ih others.symm
      obtain ⟨node, there, read⟩ := formulaAt?_eq_some.mp first.symm
      refine ⟨node.statement :: cited, ?_, ?_⟩
      · rw [List.map_cons, List.map_cons, places, statementAt?, there]
        rfl
      · rw [List.map_cons, List.map_cons, reads, read]

/-- In a sound graph what has been derived matches its rule. -/
theorem Sound.valid (sound : g.Sound) (there : g.At i node) (derived : node.parents ≠ []) :
    ∃ rule cited, node.rule? = some rule ∧ node.parents.map g.statementAt? = cited.map some ∧
      Inference.matching rule cited node.statement ≠ [] := by
  obtain ⟨f, reads⟩ := sound.reads i node there
  obtain ⟨rule, carried, premises, states, consumes⟩ := sound.follows i node f there derived reads
  obtain ⟨cited, places, given⟩ := exists_cited states
  exact ⟨rule, cited, carried, places, Inference.matching_ne_nil given reads consumes⟩

end Graph

namespace Attempt

variable {σ : Type} {b : Bounds} {a a' : Attempt σ}

/-- What the turns of an attempt keep, once so many literals have been added to start from. -/
structure Regular (b : Bounds) (seeds : Nat) (a : Attempt σ) : Prop where
  sound : a.graph.Sound
  tidy : a.graph.Tidy b.maxFormulaTiles
  latest : ∀ place, a.latest? = some place → ∃ node, a.graph.At place node ∧ node.parents ≠ []
  statements : ∃ (literals : List Literal) (others : List Statement),
    a.graph.statements = literals.map (fun l => .ofFormula l.formula) ++ others ∧
      literals.length = seeds ∧ ∀ s ∈ others, (s.length : Int) ≤ b.maxFormulaTiles

theorem Regular.inside (regular : Regular b seeds a) (place : Nat)
    (newest : a.latest? = some place) : place < a.graph.nodes.length := by
  obtain ⟨node, there, -⟩ := regular.latest place newest
  exact there.lt

theorem Regular.draw (regular : Regular b seeds a) (source : σ) :
    Regular b seeds { a with source } := { regular with }

/-- Statements that are added later count among the others. -/
theorem Regular.grow (regular : Regular b seeds a) {more : List Statement}
    (longer : a'.graph.statements = a.graph.statements ++ more)
    (short : ∀ s ∈ more, (s.length : Int) ≤ b.maxFormulaTiles) :
    ∃ (literals : List Literal) (others : List Statement),
      a'.graph.statements = literals.map (fun l => .ofFormula l.formula) ++ others ∧
        literals.length = seeds ∧ ∀ s ∈ others, (s.length : Int) ≤ b.maxFormulaTiles := by
  obtain ⟨literals, others, same, count, within⟩ := regular.statements
  refine ⟨literals, others ++ more, ?_, count, fun s member => ?_⟩
  · rw [longer, same, List.append_assoc]
  · rcases List.mem_append.mp member with old | new
    · exact within s old
    · exact short s new

theorem Regular.seeding {result : Except AttemptError Unit}
    (regular : Regular b a.graph.size a) (turn : Seeding a result a') :
    Regular b a'.graph.size a' := by
  cases turn with
  | idle exhausted => exact regular
  | present source fresh failed => exact { regular with }
  | @added l place graph source fresh added =>
      have moves : Moves b a _ := (Seeding.added source fresh added).moves
      obtain ⟨-, -, longer⟩ := Graph.addDerived_eq_ok added
      refine ⟨moves.sound regular.sound, moves.tidy regular.tidy, fun place newest => ?_, ?_⟩
      · obtain ⟨node, there, derived⟩ := regular.latest place newest
        exact ⟨node, (Graph.at_append longer).mpr (.inl there), derived⟩
      · obtain ⟨literals, others, same, count, -⟩ := regular.statements
        -- as many statements as literals leave room for no others
        have none_left : others = [] := by
          have lengths := congrArg List.length same
          rw [Graph.statements, List.length_map, List.length_append, List.length_map] at lengths
          rw [Graph.size] at count
          exact List.eq_nil_of_length_eq_zero (by omega)
        refine ⟨literals ++ [l], [], ?_, ?_, List.forall_mem_nil _⟩
        · rw [Graph.statements_addDerived added, same, none_left]
          simp
        · rw [Graph.size, longer, List.length_append, List.length_append, count, Graph.size]
          rfl

theorem Regular.forwards [RandomSource σ] {result : Except AttemptError Bool}
    (regular : Regular b seeds a) (went : Forwards b a result a') : Regular b seeds a' := by
  cases went with
  | idle source => exact regular.draw source
  | undecided source listed failed => exact regular.draw source
  | @derived rule application place graph source found admitted added =>
      have moves : Moves b a _ := (Forwards.derived source found admitted added).moves
      obtain ⟨-, rfl, longer⟩ := Graph.addDerived_eq_ok added
      refine ⟨moves.sound regular.sound, moves.tidy regular.tidy, fun place newest => ?_, ?_⟩
      · cases newest
        exact ⟨_, (Graph.at_append longer).mpr (.inr ⟨rfl, rfl⟩), parentsOf_ne_nil found⟩
      · refine regular.grow (Graph.statements_addDerived added) fun s member => ?_
        rw [List.mem_singleton.mp member]
        exact (admits_iff.mp admitted).2

/-- What has been derived stays as it is where a leaf is derived from new leaves. -/
theorem at_expanded {leaf : Nat} {statements : List Statement} {places : List Nat}
    {grown graph : Graph} {rule : InferenceRule} (there : g.At i node) (derived : node.parents ≠ [])
    (isLeaf : Cut.isLeafAt g leaf = true)
    (added : g.addLeaves statements = (.ok places, grown))
    (derives : grown.deriveLeaf leaf rule places = .ok graph) : graph.At i node := by
  obtain ⟨old, held, -, changed⟩ := Graph.deriveLeaf_eq_ok derives
  refine (Graph.at_set held.lt changed).mpr (.inl ⟨fun same => derived ?_, there.addLeaves added⟩)
  exact (same ▸ there : g.At leaf node).parents_eq_nil isLeaf

theorem Regular.backwards {result : Except AttemptError Bool} (regular : Regular b seeds a)
    (went : Backwards b a result a') : Regular b seeds a' := by
  obtain ⟨derived, rfl⟩ := went.exists_ok regular.sound regular.tidy regular.inside
  have moves := went.moves
  cases went with
  | idle source => exact regular.draw source
  | expands source newest ancestors behind isLeaf states expands =>
      cases expands with
      | idle => exact regular.draw source
      | @derived strategy step commitments places grown graph proposes added derives =>
          refine ⟨moves.sound regular.sound, moves.tidy regular.tidy, fun place newest => ?_, ?_⟩
          · obtain ⟨node, there, derived⟩ := regular.latest place newest
            exact ⟨node, at_expanded there derived isLeaf added derives, derived⟩
          · have longer := (Graph.statements_deriveLeaf derives).trans
              (Graph.statements_addLeaves added)
            refine regular.grow longer fun s member => ?_
            obtain ⟨f, listed, rfl⟩ := List.mem_map.mp member
            exact proposes.short f listed

theorem Regular.intact (regular : Regular b seeds a) :
    a.graph.Intact b.maxFormulaTiles seeds := by
  obtain ⟨literals, others, same, count, short⟩ := regular.statements
  have started : (literals.map fun l => Statement.ofFormula l.formula).length = seeds := by
    rw [List.length_map, count]
  constructor
  case distinct => exact regular.tidy.distinct
  case index =>
    intro s i
    simp only [Graph.node_eq_ok]
    exact regular.tidy.find?_eq_some_iff
  case acyclic => exact regular.sound.isAcyclic.circular
  case counted =>
    have lengths := congrArg List.length same
    rw [Graph.statements, List.length_map, List.length_append, started] at lengths
    rw [Graph.size]
    omega
  case literals =>
    intro s member
    rw [same, List.take_left' started] at member
    obtain ⟨l, -, rfl⟩ := List.mem_map.mp member
    exact ⟨l, rfl⟩
  case short =>
    rw [same, List.drop_left' started]
    exact short
  case valid =>
    intro i node found derived
    refine regular.sound.valid (Graph.node_eq_ok.mp found) fun bare => ?_
    rw [GraphNode.isLeaf, bare] at derived
    cases derived

variable [RandomSource σ]

/-- The states that an attempt passes through, with the number of literals that it has started from:
at first there is nothing, then literals come in, and then steps forwards and backwards take turns.
A turn that ends with an error passes through the state that it leaves, too. -/
inductive Passed (b : Bounds) : Nat → Attempt σ → Prop where
  | start (source : σ) : Passed b 0 (start b source)
  | draw {seeds : Nat} {a : Attempt σ} (before : Passed b seeds a) (source : σ) :
    Passed b seeds { a with source }
  | seed {a : Attempt σ} (before : Passed b a.graph.size a) :
    Passed b (seedFrom b 1 a).2.graph.size (seedFrom b 1 a).2
  | forward {seeds : Nat} {a : Attempt σ} (before : Passed b seeds a) :
    Passed b seeds (forward b a).2
  | backward {seeds : Nat} {a : Attempt σ} (before : Passed b seeds a) :
    Passed b seeds (backward b a).2

theorem Passed.regular (passed : Passed b seeds a) : Regular b seeds a := by
  induction passed with
  | start source =>
      exact ⟨Graph.sound_empty, Graph.tidy_empty, nofun, [], [], rfl, rfl, nofun⟩
  | draw _ source ih => exact ih.draw source
  | @seed a _ ih => exact ih.seeding (seedFrom_one b a)
  | @forward seeds a _ ih => exact ih.forwards (forward_forwards b a)
  | @backward seeds a _ ih => exact ih.backwards (backward_backwards b a)

/-! ## Every state of an attempt is passed -/

theorem Passed.seedFrom (before : Passed b a.graph.size a) (count : Nat) :
    Passed b (seedFrom b count a).2.graph.size (seedFrom b count a).2 := by
  induction count generalizing a with
  | zero => exact before
  | succ count ih =>
      have first := before.seed
      rw [seedFrom_succ]
      split
      · rename_i e after failed
        rwa [failed] at first
      · rename_i after seeded
        rw [seeded] at first
        exact ih first

theorem Passed.step (before : Passed b seeds a) : Passed b seeds (step b a).2 := by
  obtain ⟨first, source, same⟩ := exists_step_eq b a
  have turned : Passed b seeds (if first = true then Attempt.backward b { a with source }
      else (.ok false, { a with source })).2 := by
    split
    · exact (before.draw source).backward
    · exact before.draw source
  rw [same]
  split
  · rename_i back
    rwa [back] at turned
  · rename_i back
    rwa [back] at turned
  · rename_i back
    rw [back] at turned
    have went := turned.forward
    split
    · rename_i stuck
      rw [stuck] at went
      exact went.backward
    · exact went

theorem Passed.buildFrom (before : Passed b seeds a) {wanted steps : Int} {tries : Nat} :
    Passed b seeds (buildFrom b wanted tries steps a).2 := by
  induction tries generalizing steps a with
  | zero => exact before
  | succ tries ih =>
      have stepped := before.step
      rw [Attempt.buildFrom]
      split
      · exact before
      · split
        · rename_i failed
          rwa [failed] at stepped
        · rename_i taken
          rw [taken] at stepped
          exact ih stepped
        · rename_i stuck
          rwa [stuck] at stepped

theorem passed_seed (b : Bounds) (source : σ) :
    let seeded := ((start b source).seed b).2
    Passed b seeded.graph.size seeded :=
  Passed.seedFrom ((Passed.start source).draw _) _

/-- All of what an attempt does is passed, whatever it ends with. -/
theorem passed_build (b : Bounds) (difficulty : Int) (source : σ) :
    let seeded := ((start b source).seed b).2
    Passed b seeded.graph.size (seeded.build b difficulty).2 :=
  (passed_seed b source).buildFrom

/-- In every state that an attempt passes through the graph can be relied on, and the latest
statement has been derived. -/
theorem intact_of_passed (passed : Passed b seeds a) :
    a.graph.Intact b.maxFormulaTiles seeds ∧
      ∀ place, a.latest? = some place →
        ∃ node, a.graph.node place = .ok node ∧ node.isLeaf = false := by
  refine ⟨passed.regular.intact, fun place newest => ?_⟩
  obtain ⟨node, there, derived⟩ := passed.regular.latest place newest
  exact ⟨node, Graph.node_eq_ok.mpr there, List.isEmpty_eq_false_iff.mpr derived⟩

/-- Two letters have come in. -/
theorem exists_passed_letters : ∃ (graph : Graph) (commitments : Commitments),
    Passed Puzzle.Pair.bounds 2 (Puzzle.Pair.seeded graph commitments) ∧
      graph.nodes = Puzzle.Pair.leaves := by
  obtain ⟨graph, commitments, seeds, leaves⟩ := Puzzle.Pair.seed_eq
  have passed := passed_seed Puzzle.Pair.bounds ()
  have two : graph.size = 2 := congrArg List.length leaves
  rw [seeds] at passed
  exact ⟨graph, commitments, two ▸ passed, leaves⟩

/-- Two letters have come in and have been joined. -/
theorem exists_passed_conjunction : ∃ a : Attempt Unit,
    Passed Puzzle.Pair.bounds 2 a ∧ a.latest? = some 2 ∧
      a.graph.nodes = Puzzle.Pair.leaves ++ [Puzzle.Pair.derived] := by
  obtain ⟨graph, commitments, started, leaves⟩ := exists_passed_letters
  obtain ⟨grown, weights, stepped, nodes⟩ := Puzzle.Pair.forward_eq (c := commitments) leaves
  have passed := started.forward
  rw [stepped] at passed
  exact ⟨_, passed, rfl, nodes⟩

theorem intact_of_passed_conjunction : ∃ a : Attempt Unit,
    Passed Puzzle.Pair.bounds 2 a ∧ a.latest? = some 2 ∧
      a.graph.nodes = Puzzle.Pair.leaves ++ [Puzzle.Pair.derived] ∧
      a.graph.Intact Puzzle.Pair.bounds.maxFormulaTiles 2 ∧
      ∀ place, a.latest? = some place →
        ∃ node, a.graph.node place = .ok node ∧ node.isLeaf = false := by
  obtain ⟨a, passed, newest, nodes⟩ := exists_passed_conjunction
  exact ⟨a, passed, newest, nodes, intact_of_passed passed⟩

end Attempt

end ProofPuzzles
