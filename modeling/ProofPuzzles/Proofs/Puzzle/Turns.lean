import ProofPuzzles.Proofs.Graph.Operations
import ProofPuzzles.Proofs.Random.Choice
import ProofPuzzles.Puzzle.Generator

/-! # What a turn of an attempt results in

A literal to start from, a step forwards and a step backwards each have few ways to end. For each
there is one relation of results to the states that are left, with everything that has been checked
on the way, and also for the results that are errors: the state is left as it was when the error came
up.
-/

namespace ProofPuzzles

theorem Literal.formula_cases (l : Literal) :
    l.formula = .letter l.letter ∨ l.formula = .neg (.letter l.letter) := by
  obtain ⟨x, positive⟩ := l
  cases positive
  · exact .inr rfl
  · exact .inl rfl

namespace Attempt

variable {σ : Type} {b : Bounds} {a a' : Attempt σ}

/-! ## Starting literals -/

/-- The commitments after a literal, whether or not it could be asserted. -/
def committed (c : Commitments) (literal : Formula) : Commitments :=
  match c.assert? literal with
  | some (_, c) => c
  | none => c

/-- A turn for one literal to start from. -/
inductive Seeding (a : Attempt σ) : Except AttemptError Unit → Attempt σ → Prop where
  | idle (exhausted : a.commitments.fresh? = none) : Seeding a (.ok ()) a
  | present {l : Literal} {e : GraphError} (source : σ)
    (fresh : a.commitments.fresh? = some l.letter)
    (failed : a.graph.addLeaf (.ofFormula l.formula) = .error e) :
    Seeding a (.error (.graph e))
      { a with source, commitments := committed a.commitments l.formula }
  | added {l : Literal} {place : Nat} {graph : Graph} (source : σ)
    (fresh : a.commitments.fresh? = some l.letter)
    (added : a.graph.addLeaf (.ofFormula l.formula) = .ok (place, graph)) :
    Seeding a (.ok ())
      { a with graph, source, commitments := committed a.commitments l.formula }

section

variable [RandomSource σ]

/-- Where there is a fresh letter, a literal over it is asserted and added. -/
theorem exists_drawn {x : Letter} (fresh : a.commitments.fresh? = some x) :
    ∃ (l : Literal) (source : σ), l.letter = x ∧ ∀ seeds, seedFrom b (seeds + 1) a =
      match a.graph.addLeaf (.ofFormula l.formula) with
      | .error e => (.error (.graph e),
          { a with source, commitments := committed a.commitments l.formula })
      | .ok (_, graph) => seedFrom b seeds
          { a with graph, source, commitments := committed a.commitments l.formula } := by
  refine ⟨⟨x, !(a.happens b.seedNegationChance).1⟩, (a.happens b.seedNegationChance).2.source,
    rfl, fun seeds => ?_⟩
  have literal : (if (a.happens b.seedNegationChance).1 = true then Formula.neg (.letter x)
      else .letter x) = Literal.formula ⟨x, !(a.happens b.seedNegationChance).1⟩ := by
    cases (a.happens b.seedNegationChance).1 <;> rfl
  rw [seedFrom, fresh, ← literal]
  rfl

theorem seedFrom_one (b : Bounds) (a : Attempt σ) :
    Seeding a (seedFrom b 1 a).1 (seedFrom b 1 a).2 := by
  cases fresh : a.commitments.fresh? with
  | none =>
      rw [seedFrom, fresh]
      exact .idle fresh
  | some x =>
      obtain ⟨l, source, rfl, drawn⟩ := exists_drawn (b := b) fresh
      rw [drawn]
      split
      · rename_i e failed
        exact .present source fresh failed
      · rename_i place graph added
        exact .added source fresh added

/-- Seeds are added one at a time. -/
theorem seedFrom_succ (b : Bounds) (seeds : Nat) (a : Attempt σ) : seedFrom b (seeds + 1) a =
    match seedFrom b 1 a with
    | (.error e, a) => (.error e, a)
    | (.ok (), a) => seedFrom b seeds a := by
  cases fresh : a.commitments.fresh? with
  | none =>
      rw [seedFrom, seedFrom, fresh]
      cases seeds with
      | zero => rfl
      | succ seeds => simp only [seedFrom, fresh]
  | some x =>
      obtain ⟨l, source, rfl, drawn⟩ := exists_drawn (b := b) fresh
      rw [drawn, drawn]
      cases a.graph.addLeaf (.ofFormula l.formula) <;> rfl

end

/-! ## Steps forwards -/

/-- The places of what an application consumes. -/
def parentsOf (g : Graph) (application : Application) : List Nat :=
  application.premises.filterMap fun p => g.find? p.statement

theorem admits_iff {application : Application} : a.admits b application = true ↔
    a.graph.contains application.conclusion.statement = false ∧
      (application.conclusion.length : Int) ≤ b.maxFormulaTiles := by
  simp [admits]

/-- A step forwards. -/
inductive Forwards [RandomSource σ] (b : Bounds) (a : Attempt σ) :
    Except AttemptError Bool → Attempt σ → Prop where
  | idle (source : σ) : Forwards b a (.ok false) { a with source }
  | undecided {candidates : List InferenceRule} {e : Random.WeightError} (source : σ)
    (listed : candidates.Sublist InferenceRule.all)
    (failed : a.weights.choose candidates source = .error e) :
    Forwards b a (.error (.weights e)) { a with source }
  | derived {rule : InferenceRule} {application : Application} {place : Nat} {graph : Graph}
    (source : σ) (found : application ∈ Inference.applications rule (wellFormed a.graph.statements))
    (admitted : a.admits b application = true)
    (added : a.graph.addDerived application.conclusion.statement (some application.rule)
      (parentsOf a.graph application) = .ok (place, graph)) :
    Forwards b a (.ok true) { a with
      graph, source
      weights := a.weights.markUsed b.weightDecay application.rule
      latest? := some place }

/-- Drawing first makes no difference to what a step forwards can do. -/
theorem Forwards.of_draw [RandomSource σ] {source : σ} {result : Except AttemptError Bool}
    (went : Forwards b { a with source } result a') : Forwards b a result a' := by
  cases went with
  | idle source => exact .idle source
  | undecided source listed failed => exact .undecided source listed failed
  | derived source found admitted added => exact .derived source found admitted added

/-- What may be derived can be added. -/
theorem exists_record {application : Application} (admitted : a.admits b application = true) :
    ∃ place graph, a.graph.addDerived application.conclusion.statement (some application.rule)
        (parentsOf a.graph application) = .ok (place, graph) ∧
      record b application a = (.ok true, { a with
        graph
        weights := a.weights.markUsed b.weightDecay application.rule
        latest? := some place }) := by
  obtain ⟨graph, added, -⟩ := Graph.exists_addDerived
    (Graph.find?_eq_none (admits_iff.mp admitted).1) (some application.rule)
    (parentsOf a.graph application)
  refine ⟨_, graph, added, ?_⟩
  rw [parentsOf] at added
  rw [record, added]

section

variable [RandomSource σ]

theorem prefer_spec (found : List Application) (a : Attempt σ) :
    ∃ preferred source, a.prefer b found = (preferred, { a with source }) ∧ preferred ⊆ found := by
  have chosen : ∀ {c : Prop} [Decidable c] {some : List Application}, some ⊆ found →
      (if c then some else found) ⊆ found := by
    intro c decides some subset
    split
    · exact subset
    · exact List.Subset.refl _
  unfold prefer
  split
  · exact ⟨found, a.source, rfl, List.Subset.refl _⟩
  · simp only [happens]
    exact ⟨_, _, rfl, chosen List.filter_sublist.subset⟩

theorem choose_forwards {rule : InferenceRule} {preferred : List Application}
    (subset : preferred ⊆
      (Inference.applications rule (wellFormed a.graph.statements)).filter (a.admits b))
    (nonempty : preferred ≠ []) {result : Except AttemptError Bool}
    (h : record b (Random.choose preferred nonempty a.source).1
      { a with source := (Random.choose preferred nonempty a.source).2 } = (result, a')) :
    Forwards b a result a' := by
  obtain ⟨found, admitted⟩ := List.mem_filter.mp (subset (Random.choose_mem nonempty a.source))
  obtain ⟨place, graph, added, recorded⟩ := exists_record
    (a := { a with source := (Random.choose preferred nonempty a.source).2 }) admitted
  cases recorded.symm.trans h
  exact .derived _ found admitted added

theorem forwardFrom_forwards {bound : Nat} {candidates : List InferenceRule}
    {result : Except AttemptError Bool} (listed : candidates.Sublist InferenceRule.all)
    (h : forwardFrom b (wellFormed a.graph.statements) bound candidates a = (result, a')) :
    Forwards b a result a' := by
  induction bound generalizing candidates a with
  | zero =>
      cases h
      exact .idle a'.source
  | succ bound ih =>
      rw [forwardFrom] at h
      split at h
      · rename_i e failed
        cases h
        exact .undecided a'.source listed failed
      · cases h
        exact .idle a'.source
      · rename_i rule source chosen
        simp only at h
        split at h
        · exact (ih (a := { a with source }) (List.erase_sublist.trans listed) h).of_draw
        · obtain ⟨preferred, drawn, prefers, subset⟩ := prefer_spec (b := b)
            ((Inference.applications rule (wellFormed a.graph.statements)).filter
              (Attempt.admits b { a with source })) { a with source }
          rw [prefers] at h
          split at h
          · cases h
            exact .idle drawn
          · rename_i nonempty
            exact (choose_forwards (a := { a with source := drawn }) subset nonempty h).of_draw

theorem forward_forwards (b : Bounds) (a : Attempt σ) :
    Forwards b a (forward b a).1 (forward b a).2 :=
  forwardFrom_forwards List.filter_sublist rfl

end

/-! ## Steps backwards -/

/-- A strategy proposes new leaves for a goal, not too long, and their literals can be asserted. -/
structure Proposes (b : Bounds) (a : Attempt σ) (goal : Formula) (strategy : Strategy)
    (step : BackwardStep) (commitments : Commitments) : Prop where
  proposed : strategy.step? goal a.commitments = some step
  fresh : ∀ f ∈ step.antecedents, a.graph.contains (.ofFormula f) = false
  short : ∀ f ∈ step.antecedents, ((Statement.ofFormula f).length : Int) ≤ b.maxFormulaTiles
  asserted : a.commitments.assertAll step.antecedents = (true, commitments)

/-- A leaf that states the goal, with the new leaves behind it if there are any. -/
inductive Expands (b : Bounds) (a : Attempt σ) (leaf : Nat) (goal : Formula) :
    Except AttemptError Bool → Attempt σ → Prop where
  | idle : Expands b a leaf goal (.ok false) a
  | present {strategy : Strategy} {step : BackwardStep} {commitments : Commitments}
    {grown : Graph} {e : GraphError} (proposes : Proposes b a goal strategy step commitments)
    (failed : a.graph.addLeaves (step.antecedents.map .ofFormula) = (.error e, grown)) :
    Expands b a leaf goal (.error (.graph e)) { a with graph := grown, commitments }
  | underivable {strategy : Strategy} {step : BackwardStep} {commitments : Commitments}
    {places : List Nat} {grown : Graph} {e : GraphError}
    (proposes : Proposes b a goal strategy step commitments)
    (added : a.graph.addLeaves (step.antecedents.map .ofFormula) = (.ok places, grown))
    (failed : grown.deriveLeaf leaf strategy.rule places = .error e) :
    Expands b a leaf goal (.error (.graph e)) { a with graph := grown, commitments }
  | derived {strategy : Strategy} {step : BackwardStep} {commitments : Commitments}
    {places : List Nat} {grown graph : Graph}
    (proposes : Proposes b a goal strategy step commitments)
    (added : a.graph.addLeaves (step.antecedents.map .ofFormula) = (.ok places, grown))
    (derives : grown.deriveLeaf leaf strategy.rule places = .ok graph) :
    Expands b a leaf goal (.ok true) { a with graph, commitments }

/-- A step backwards. -/
inductive Backwards (b : Bounds) (a : Attempt σ) : Except AttemptError Bool → Attempt σ → Prop where
  | idle (source : σ) : Backwards b a (.ok false) { a with source }
  | lost {latest : Nat} {e : GraphError} (source : σ) (newest : a.latest? = some latest)
    (failed : a.graph.ancestors latest = .error e) :
    Backwards b a (.error (.graph e)) { a with source }
  | expands {latest leaf : Nat} {reached : List Nat} {goal : Formula}
    {result : Except AttemptError Bool} {a' : Attempt σ} (source : σ)
    (newest : a.latest? = some latest) (ancestors : a.graph.ancestors latest = .ok reached)
    (behind : leaf ∈ reached) (isLeaf : Cut.isLeafAt a.graph leaf = true)
    (states : a.graph.formulaAt? leaf = some goal)
    (expands : Expands b { a with source } leaf goal result a') : Backwards b a result a'

theorem Backwards.of_draw {source : σ} {result : Except AttemptError Bool}
    (went : Backwards b { a with source } result a') : Backwards b a result a' := by
  cases went with
  | idle source => exact .idle source
  | lost source newest failed => exact .lost source newest failed
  | expands source newest ancestors behind isLeaf states expands =>
      exact .expands source newest ancestors behind isLeaf states expands

section

variable {latest leaf : Nat} {reached : List Nat} {goal : Formula}
  {result : Except AttemptError Bool}

theorem tryStrategy_expands {strategy : Strategy}
    (h : tryStrategy b leaf goal strategy a = (result, a')) : Expands b a leaf goal result a' := by
  rw [tryStrategy] at h
  split at h
  · cases h
    exact .idle
  · rename_i step proposed
    simp only at h
    split at h
    · cases h
      exact .idle
    · rename_i fresh
      split at h
      · cases h
        exact .idle
      · rename_i short
        split at h
        · cases h
          exact .idle
        · rename_i commitments asserted
          have proposes : Proposes b a goal strategy step commitments :=
            ⟨proposed, by simpa using fresh, by simpa using short, asserted⟩
          split at h
          · rename_i e grown failed
            cases h
            exact .present proposes failed
          · rename_i places grown added
            split at h
            · rename_i e failed
              cases h
              exact .underivable proposes added failed
            · rename_i graph derives
              cases h
              exact .derived proposes added derives

/-- A strategy that comes to nothing leaves everything as it was. -/
theorem Expands.eq_of_false (expands : Expands b a leaf goal (.ok false) a') : a' = a := by
  cases expands
  rfl

theorem tryStrategies_expands {strategies : List Strategy}
    (h : tryStrategies b leaf goal strategies a = (result, a')) :
    Expands b a leaf goal result a' := by
  induction strategies with
  | nil =>
      cases h
      exact .idle
  | cons strategy strategies ih =>
      rw [tryStrategies] at h
      split at h
      · rename_i after tried
        obtain rfl := (tryStrategy_expands tried).eq_of_false
        exact ih h
      · exact tryStrategy_expands h

variable [RandomSource σ]

theorem tryLeaves_backwards {leaves : List Nat} (h : tryLeaves b leaves a = (result, a'))
    (newest : a.latest? = some latest) (ancestors : a.graph.ancestors latest = .ok reached)
    (behind : ∀ leaf ∈ leaves, leaf ∈ reached ∧ Cut.isLeafAt a.graph leaf = true) :
    Backwards b a result a' := by
  induction leaves generalizing a with
  | nil =>
      cases h
      exact .idle a'.source
  | cons leaf leaves ih =>
      rw [List.forall_mem_cons] at behind
      rw [tryLeaves] at h
      split at h
      · exact ih h newest ancestors behind.2
      · rename_i goal states
        simp only at h
        split at h
        · rename_i after tried
          obtain rfl := (tryStrategies_expands tried).eq_of_false
          exact (ih h newest ancestors behind.2).of_draw
        · exact .expands _ newest ancestors behind.1.1 behind.1.2 states (tryStrategies_expands h)

theorem backward_backwards (b : Bounds) (a : Attempt σ) :
    Backwards b a (backward b a).1 (backward b a).2 := by
  rw [backward]
  split
  · exact .idle a.source
  · rename_i latest newest
    split
    · rename_i e failed
      exact .lost a.source newest failed
    · rename_i reached ancestors
      simp only
      refine Backwards.of_draw (tryLeaves_backwards rfl newest ancestors fun leaf member => ?_)
      have listed := (Random.shuffle_perm _ _).mem_iff.mp member
      simpa using (List.mem_filter.mp listed).2

end

end Attempt

end ProofPuzzles
