import ProofPuzzles.Proofs.Graph.Linear
import ProofPuzzles.Proofs.Puzzle.Soundness
import ProofPuzzles.Proofs.Text.Order

/-! # Generated puzzles can be solved

The hidden nodes of a cut, one line for each, derive the conclusion from the premises. As the graph
behind a puzzle is sound whatever was drawn, each puzzle has a solution of its own difficulty.
-/

namespace ProofPuzzles

/-- A solution that states the premises and then derives the conclusion, one line for each unit of
the difficulty. -/
structure Problem.SolvedBy (problem : Problem) (given derived : Proof) : Prop where
  accepted : (given ++ derived).validate = .valid
  premises : given.map (·.statement) = problem.premises
  granted : ∀ line ∈ given, line.justification = .premise
  inferred : ∀ line ∈ derived, ∃ rule references, line.justification = .inference rule references
  length : derived.length = problem.difficulty
  concludes : ∃ line, derived.getLast? = some line ∧ line.statement = problem.conclusion

namespace Puzzle

variable {g : Graph} {places : List Nat} {s : Statement} {f : Formula}

/-- The statements at the places, each once, in the order of their texts. -/
def premisesOf (g : Graph) (places : List Nat) : List Statement :=
  Text.sortedBy Statement.text (firstsBy Statement.identity (places.filterMap g.statementAt?))

theorem exists_place_of_mem_premisesOf (member : s ∈ premisesOf g places) :
    ∃ p ∈ places, g.statementAt? p = some s :=
  List.mem_filterMap.mp ((firstsBy_sublist _ _).subset (Text.mem_sortedBy.mp member))

theorem exists_mem_premisesOf {p : Nat} (place : p ∈ places) (states : g.formulaAt? p = some f) :
    ∃ s ∈ premisesOf g places, s.formula? = some f := by
  obtain ⟨node, there, reads⟩ := Graph.formulaAt?_eq_some.mp states
  have listed : node.statement ∈ places.filterMap g.statementAt? :=
    List.mem_filterMap.mpr ⟨p, place, by rw [Graph.statementAt?, there]; rfl⟩
  have kept := mem_map_firstsBy.mpr (List.mem_map_of_mem (f := Statement.identity) listed)
  obtain ⟨s, member, same⟩ := List.mem_map.mp kept
  rw [Statement.identity_eq reads, Statement.identity_eq_formula_iff] at same
  exact ⟨s, Text.mem_sortedBy.mpr member, same⟩

theorem nodup_premisesOf (g : Graph) (places : List Nat) :
    ((premisesOf g places).map Statement.identity).Nodup :=
  ((Text.sortedBy_perm _ _).map _).nodup_iff.mpr (nodup_map_firstsBy _ _)

theorem reads_of_mem_premisesOf (sound : g.Sound) (member : s ∈ premisesOf g places) :
    ∃ f, s.formula? = some f := by
  obtain ⟨p, -, states⟩ := exists_place_of_mem_premisesOf member
  obtain ⟨node, there, rfl⟩ := Option.map_eq_some_iff.mp states
  exact sound.reads p node there

/-! ## Solving what a cut leaves -/

section

variable {conclusion budget : Nat} {cut : Cut} {node : GraphNode}

/-- The first hidden node in order of derivation rests on premises. -/
theorem premisesOf_ne_nil (sound : g.Sound) (severs : cut.Severs g conclusion budget)
    (hidden : conclusion ∈ cut.hidden) : premisesOf g cut.premises ≠ [] := by
  obtain ⟨init, perm, ordered⟩ := severs.exists_order sound hidden
  cases order : init ++ [conclusion] with
  | nil => simp at order
  | cons i rest =>
      have first : i ∈ init ++ [conclusion] := order ▸ List.mem_cons_self
      obtain ⟨node, there, nonempty⟩ := severs.derived i (perm.mem_iff.mp first)
      obtain ⟨p, parent⟩ := List.exists_mem_of_ne_nil _ nonempty
      obtain ⟨f, states⟩ := sound.exists_formula there parent
      rcases ordered [] i rest order node there p parent with earlier | premise
      · cases earlier
      · obtain ⟨s, member, -⟩ := exists_mem_premisesOf premise states
        exact List.ne_nil_of_mem member

/-- A conclusion that is not given is hidden. -/
theorem hidden_of_apart (sound : g.Sound) (severs : cut.Severs g conclusion budget)
    (there : g.At conclusion node)
    (apart : ∀ s ∈ premisesOf g cut.premises, s.identity ≠ node.statement.identity) :
    conclusion ∈ cut.hidden := by
  rcases severs.reached with hidden | premise
  · exact hidden
  · obtain ⟨f, reads⟩ := sound.reads conclusion node there
    obtain ⟨s, member, same⟩ := exists_mem_premisesOf premise
      (Graph.formulaAt?_eq_some.mpr ⟨node, there, reads⟩)
    refine absurd ?_ (apart s member)
    rw [Statement.identity_eq same, Statement.identity_eq reads]

/-- The hidden nodes solve a puzzle that gives the premises of the cut. -/
theorem exists_solution {problem : Problem} (sound : g.Sound)
    (severs : cut.Severs g conclusion budget) (hidden : conclusion ∈ cut.hidden)
    (there : g.At conclusion node) (premises : problem.premises = premisesOf g cut.premises)
    (concludes : problem.conclusion = node.statement)
    (difficulty : problem.difficulty = cut.hidden.length) :
    ∃ given derived, problem.SolvedBy given derived := by
  obtain ⟨init, perm, ordered⟩ := severs.exists_order sound hidden
  let start := Proof.ofPremises (wellFormed problem.premises)
  have given : ∀ p ∈ cut.premises, ∀ f, g.formulaAt? p = some f → f ∈ start.formulas := by
    intro p place f states
    obtain ⟨s, member, reads⟩ := exists_mem_premisesOf place states
    obtain ⟨w, rfl, rfl⟩ := Statement.exists_wff reads
    rw [Proof.formulas_ofPremises, premises]
    exact List.mem_map_of_mem (mem_wellFormed.mpr member)
  obtain ⟨steps, counted, statements⟩ := sound.exists_extension
    (Proof.counted_ofPremises (wellFormed problem.premises)) given
    (fun i member => severs.derived i (perm.mem_iff.mp member)) ordered
  obtain ⟨derived, built, stated, inferred⟩ := Proof.extend_eq_append start steps
  refine ⟨start, derived, ?_⟩
  exact {
    accepted := built ▸ counted.valid
    premises := by
      rw [Proof.statements_ofPremises, map_statement_wellFormed, List.filter_eq_self]
      intro s member
      obtain ⟨f, reads⟩ := reads_of_mem_premisesOf sound (premises ▸ member)
      rw [reads]
      rfl
    granted := Proof.premise_of_mem_ofPremises
    inferred := inferred
    length := by
      have lines := congrArg List.length stated
      have nodes := congrArg List.length statements
      rw [List.length_map, List.length_map] at lines nodes
      rw [lines, ← nodes, perm.length_eq, difficulty]
    concludes := by
      have same : derived.map (fun line => some line.statement) =
          init.map g.statementAt? ++ [g.statementAt? conclusion] :=
        calc
          derived.map (fun line => some line.statement)
              = (derived.map (·.statement)).map some := by rw [List.map_map]; rfl
          _ = (steps.map (·.statement)).map some := by rw [stated]
          _ = (init ++ [conclusion]).map g.statementAt? := by rw [statements, List.map_map]; rfl
          _ = init.map g.statementAt? ++ [g.statementAt? conclusion] := List.map_append
      obtain ⟨front, back, rfl, -, last⟩ := List.map_eq_append_iff.mp same
      obtain ⟨line, rfl, final⟩ := List.map_eq_singleton_iff.mp last
      rw [Graph.statementAt?, there] at final
      exact ⟨line, List.getLast?_concat, by rw [concludes]; exact Option.some.inj final⟩ }

end

/-! ## What an attempt comes to -/

section

variable {σ : Type} {a : Attempt σ} {difficulty : Int} {problem : Problem}

/-- A puzzle shows the premises of a cut, and what the cut hides is its difficulty. -/
theorem ofAttempt_eq_some (h : ofAttempt difficulty a = .ok (some problem)) :
    ∃ latest cut node, a.graph.cut latest difficulty = .ok cut ∧ a.graph.At latest node ∧
      cut.hidden ≠ [] ∧ problem.premises = premisesOf a.graph cut.premises ∧
      problem.conclusion = node.statement ∧ problem.difficulty = cut.hidden.length ∧
      ∀ p ∈ problem.premises, p.identity ≠ problem.conclusion.identity := by
  unfold ofAttempt at h
  split at h
  · cases h
  · rename_i latest newest
    split at h
    · cases h
    · cases h
    · rename_i cut node cuts found
      simp only at h
      split at h
      · cases h
      · rename_i shown
        split at h
        · cases h
        · cases h
          simp only [Bool.or_eq_true, decide_eq_true_eq, not_or] at shown
          refine ⟨latest, cut, node, cuts, ?_, ?_, rfl, rfl, rfl, ?_⟩
          · unfold Graph.node at found
            split at found
            · rename_i other there
              cases found
              exact there
            · cases found
          · exact fun empty => shown.1 (List.length_eq_zero_iff.mpr empty)
          · simpa using shown.2

/-- The puzzle of an attempt with a sound graph can be solved in its own difficulty. -/
theorem solvable_of_ofAttempt (sound : a.graph.Sound)
    (h : ofAttempt difficulty a = .ok (some problem)) :
    problem.premises ≠ [] ∧ (problem.premises.map Statement.identity).Nodup ∧
      problem.premises.Pairwise (fun s t => s.text ≤ t.text) ∧
      (∀ p ∈ problem.premises, p.identity ≠ problem.conclusion.identity) ∧
      1 ≤ problem.difficulty ∧ (problem.difficulty : Int) ≤ max 1 difficulty ∧
      ∃ given derived, problem.SolvedBy given derived := by
  obtain ⟨latest, cut, node, cuts, there, nonempty, premises, concludes, hides, apart⟩ :=
    ofAttempt_eq_some h
  have severs := Graph.cut_severs cuts
  have hidden : latest ∈ cut.hidden :=
    hidden_of_apart sound severs there (premises ▸ concludes ▸ apart)
  have positive := List.length_pos_iff.mpr nonempty
  have within := severs.within
  refine ⟨?_, ?_, ?_, apart, by omega, by omega,
    exists_solution sound severs hidden there premises concludes hides⟩
  · rw [premises]
    exact premisesOf_ne_nil sound severs hidden
  · rw [premises]
    exact nodup_premisesOf _ _
  · rw [premises]
    exact Text.pairwise_sortedBy _ _

end

section

variable {σ : Type} [RandomSource σ] {b : Bounds} {difficulty : Int} {problem : Problem}
  {source source' : σ}

/-- A puzzle that is made comes from an attempt that has moved from the empty graph. -/
theorem attempt_eq_some (h : attempt b difficulty source = (.ok (some problem), source')) :
    ∃ a, Attempt.Moves b (Attempt.start b source) a ∧
      ofAttempt difficulty a = .ok (some problem) := by
  unfold attempt at h
  split at h
  · cases h
  · rename_i seeded seeds
    split at h
    · cases h
    · rename_i built builds
      exact ⟨built, (Attempt.seed_moves seeds).trans (Attempt.build_moves builds),
        congrArg Prod.fst h⟩

theorem generateWithin_eq_some {attempts : Nat}
    (h : generateWithin b difficulty attempts source = (.ok (some problem), source')) :
    ∃ source source' : σ, attempt b difficulty source = (.ok (some problem), source') := by
  induction attempts generalizing source with
  | zero => cases h
  | succ attempts ih =>
      rw [generateWithin] at h
      split at h
      · exact ih h
      · exact ⟨_, _, h⟩

end

/-! ## A puzzle over two letters -/

/-- A source that always draws a half and the least number. -/
instance steadySource : RandomSource Unit where
  unit _ := (0.5, ())
  below _ positive _ := (⟨0, positive⟩, ())

namespace Pair

/-- Two letters are asserted, and the one step that is taken joins them. -/
def bounds : Bounds where
  letterNames := ["q", "p"]
  maxSeeds := 2
  seedNegationChance := 0.0
  stepsPerDifficulty := 0
  ruleWeights := ⟨#v[0.0, 0.0, 0.0, 0.0, 0.0, 0.0, 0.0, 1.0, 0.0]⟩
  accepted := by decide +kernel

def p : Wff := .ofFormula (.letter ⟨⟨15, by decide⟩⟩)

def q : Wff := .ofFormula (.letter ⟨⟨16, by decide⟩⟩)

def joined : Application := ⟨.conjunction, [p, q], .ofFormula (.conj p.formula q.formula)⟩

theorem firstsBy_eq : firstsBy Wff.formula [p, q] = [p, q] := firstsBy_eq_self (by decide +kernel)

theorem ofDistinct_eq : Known.ofDistinct [p, q] = .ofList [p, q] := congrArg Known.ofList firstsBy_eq

def swapped : Application := ⟨.conjunction, [q, p], .ofFormula (.conj q.formula p.formula)⟩

def leaves : List GraphNode := [⟨p.statement, none, []⟩, ⟨q.statement, none, []⟩]

def derived : GraphNode := ⟨joined.conclusion.statement, some .conjunction, [0, 1]⟩

/-- The state with the two letters, before the step. -/
def seeded (graph : Graph) (commitments : Commitments) : Attempt Unit :=
  ⟨graph, commitments, bounds.ruleWeights, none, ()⟩

theorem seed_eq : ∃ graph commitments,
    (Attempt.start bounds ()).seed bounds = (.ok (), seeded graph commitments) ∧
      graph.nodes = leaves := by
  have letters : Random.shuffle bounds.letters () = ([⟨15⟩, ⟨16⟩], ()) := by decide +kernel
  have count : Random.between bounds.minSeeds bounds.maxSeeds bounds.minSeeds_le_maxSeeds () =
      (2, ()) := rfl
  have chance : decide ((0.5 : Float) < 0.0) = false := by decide +kernel
  have positive : ∀ a : Attempt Unit, a.happens bounds.seedNegationChance = (false, a) :=
    fun a => congrArg (·, a) chance
  obtain ⟨g, first, one⟩ := Attempt.exists_seedFrom_succ (x := ⟨15⟩) (n := 1)
    (a := seeded .empty (.ofLetters [⟨15⟩, ⟨16⟩])) rfl (positive _)
    (by rw [Graph.find?_eq]; rfl)
  obtain ⟨h, second, two⟩ := Attempt.exists_seedFrom_succ (x := ⟨16⟩) (n := 0)
    (a := seeded g (Attempt.committed (.ofLetters [⟨15⟩, ⟨16⟩]) p.formula)) rfl (positive _)
    (by rw [Graph.find?_eq, seeded, one]; rfl)
  rw [Attempt.start, letters, Attempt.seed, count]
  refine ⟨h, _, first.trans second, ?_⟩
  rw [two, seeded, one]
  rfl

section

variable {graph : Graph} {c : Commitments} {w : RuleWeights}

theorem forward_eq (nodes : graph.nodes = leaves) : ∃ grown weights,
    (seeded graph c).forward bounds = (.ok true, ⟨grown, c, weights, some 2, ()⟩) ∧
      grown.nodes = leaves ++ [derived] := by
  -- hashing does not compute in proofs, so look-ups and first occurrences go by their lemmas
  have known : wellFormed graph.statements = [p, q] := by
    rw [Graph.statements, nodes]
    rfl
  have candidates : InferenceRule.all.filter (Inference.applies · [p, q]) =
      [.conjunction, .addition] := by
    simp only [Inference.applies, ofDistinct_eq]
    rfl
  have chosen : bounds.ruleWeights.choose [.conjunction, .addition] () =
      .ok (some .conjunction, ()) := rfl
  have applications : Inference.applications .conjunction [p, q] = [joined, swapped] := by
    rw [Inference.applications, ofDistinct_eq]
    exact firstsBy_eq_self (by decide +kernel)
  have new : graph.find? joined.conclusion.statement = none := by
    rw [Graph.find?_eq, nodes]
    rfl
  have admitted : (seeded graph c).admits bounds joined = true := by
    rw [Attempt.admits, seeded, Graph.contains, new]
    decide +kernel
  have found : (Inference.applications .conjunction [p, q]).filter
      ((seeded graph c).admits bounds) =
        joined :: [swapped].filter ((seeded graph c).admits bounds) := by
    rw [applications, List.filter_cons_of_pos admitted]
  have parents : joined.premises.filterMap (fun w => graph.find? w.statement) = [0, 1] := by
    simp only [Graph.find?_eq, nodes]
    rfl
  obtain ⟨grown, added, longer⟩ := Graph.exists_addDerived new (some joined.rule) [0, 1]
  refine ⟨grown, bounds.ruleWeights.markUsed bounds.weightDecay .conjunction, ?_, ?_⟩
  · rw [Attempt.forward, seeded, known, candidates]
    refine (Attempt.forwardFrom_succ rfl chosen found).trans ?_
    show Attempt.record bounds joined (seeded graph c) = _
    rw [Attempt.record, seeded, parents, added, nodes]
    rfl
  · rw [longer, nodes]
    rfl

theorem cut_eq (nodes : graph.nodes = leaves ++ [derived]) : graph.cut 2 1 = .ok ⟨[0, 1], [2]⟩ := by
  obtain ⟨_, places, places_eq⟩ := graph
  cases nodes
  have kept : firstsBy id [0, 1] = [0, 1] := firstsBy_eq_self (by decide)
  exact congrArg (fun frontier => Except.ok (Cut.mk (frontier.filter (· ∉ [2])) [2])) kept

theorem exists_ofAttempt (nodes : graph.nodes = leaves ++ [derived]) :
    ∃ problem, ofAttempt 1 (⟨graph, c, w, some 2, ()⟩ : Attempt Unit) = .ok (some problem) ∧
      problem.premises = [p.statement, q.statement] ∧
      problem.conclusion = joined.conclusion.statement ∧ problem.difficulty = 1 := by
  have node : graph.node 2 = .ok derived := by
    rw [Graph.node, nodes]
    rfl
  have statements : [0, 1].filterMap (fun i => (graph.nodes[i]?).map (·.statement)) =
      [p.statement, q.statement] := by
    rw [nodes]
    rfl
  have distinct : firstsBy Statement.identity [p.statement, q.statement] =
      [p.statement, q.statement] := firstsBy_eq_self (by decide +kernel)
  have sorted : Text.sortedBy Statement.text [p.statement, q.statement] =
      [p.statement, q.statement] := Text.sortedBy_eq_self (by decide +kernel)
  have formulas : [p.statement, q.statement].filterMap Statement.formula? =
      [p.formula, q.formula] := rfl
  have consistent : contradiction? [p.formula, q.formula] = none := by
    simp only [contradiction?, List.flatMap_cons, Formula.literals, firstsBy_eq_eraseDupsBy]
    rfl
  simp only [ofAttempt, cut_eq nodes, node, statements, distinct, sorted, formulas, consistent]
  exact ⟨_, rfl, rfl, rfl, rfl⟩

end

/-- The puzzle that is made asks for the conjunction of the two letters. -/
theorem exists_generated : ∃ problem, generate bounds 1 () = (.ok (some problem), ()) ∧
    problem.premises = [p.statement, q.statement] ∧
    problem.conclusion = joined.conclusion.statement ∧ problem.difficulty = 1 := by
  obtain ⟨graph, commitments, seeds, nodes⟩ := seed_eq
  obtain ⟨grown, weights, stepped, nodes⟩ := forward_eq (c := commitments) nodes
  obtain ⟨problem, made, shown⟩ :=
    exists_ofAttempt (c := commitments) (w := weights) nodes
  have built : (seeded graph commitments).build bounds 1 =
      (.ok (), ⟨grown, commitments, weights, some 2, ()⟩) := by
    show Attempt.buildFrom bounds 1 (7 + 1) 0 _ = _
    rw [Attempt.buildFrom, Attempt.step]
    simp only [seeded, Option.isSome_none, Bool.false_eq_true, if_false]
    rw [← seeded, stepped]
    rfl
  have attempted : attempt bounds 1 () = (.ok (some problem), ()) := by
    rw [attempt, seeds]
    simp only [built, made]
  refine ⟨problem, ?_, shown⟩
  show generateWithin bounds 1 (49 + 1) () = _
  rw [generateWithin, attempted]

theorem exists_generate : ∃ problem, generate bounds 1 () = (.ok (some problem), ()) := by
  obtain ⟨problem, made, -⟩ := exists_generated
  exact ⟨problem, made⟩

end Pair

/-! ## Every generated puzzle -/

variable {σ : Type} [RandomSource σ] {b : Bounds} {difficulty : Int} {problem : Problem}
  {source source' : σ}

/-- Whatever is drawn, the premises of a generated puzzle are distinct, in order and without the
conclusion, and they lead to the conclusion in as many steps as the difficulty says. -/
theorem generate_solvable (h : generate b difficulty source = (.ok (some problem), source')) :
    problem.premises ≠ [] ∧ (problem.premises.map Statement.identity).Nodup ∧
      problem.premises.Pairwise (fun s t => s.text ≤ t.text) ∧
      (∀ p ∈ problem.premises, p.identity ≠ problem.conclusion.identity) ∧
      1 ≤ problem.difficulty ∧ (problem.difficulty : Int) ≤ max 1 difficulty ∧
      ∃ given derived, problem.SolvedBy given derived := by
  obtain ⟨_, _, attempted⟩ := generateWithin_eq_some h
  obtain ⟨a, moves, made⟩ := attempt_eq_some attempted
  have solvable := solvable_of_ofAttempt (moves.sound Graph.sound_empty) made
  rwa [max_eq_right (le_max_left 1 difficulty)] at solvable

theorem generate_solvable_conjunction :
    ∃ problem, generate Pair.bounds 1 () = (.ok (some problem), ()) ∧ problem.premises ≠ [] ∧
      (problem.premises.map Statement.identity).Nodup ∧
      problem.premises.Pairwise (fun s t => s.text ≤ t.text) ∧
      (∀ p ∈ problem.premises, p.identity ≠ problem.conclusion.identity) ∧
      1 ≤ problem.difficulty ∧ (problem.difficulty : Int) ≤ max 1 1 ∧
      ∃ given derived, problem.SolvedBy given derived := by
  obtain ⟨problem, made⟩ := Pair.exists_generate
  exact ⟨problem, made, generate_solvable made⟩

end Puzzle

end ProofPuzzles
