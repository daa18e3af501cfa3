import ProofPuzzles.Proofs.Puzzle.Consistency
import ProofPuzzles.Proofs.Puzzle.Tidy
import ProofPuzzles.Proofs.Puzzle.Weights
import ProofPuzzles.Random.Twister

/-! # What making a puzzle can fail at

With different letters a fresh literal is always new to the graph, so no addition to it fails. What
is left are the weights: a choice of a rule fails only if the configured weights have no finite
total. A letter that is named twice stays free after it has been asserted, and then it cannot be
added again: with enough literals to start from, each attempt fails, whatever is drawn.
-/

namespace ProofPuzzles

/-- If there is no result, the configured weights of the rules have no finite total. -/
def Unhindered {α : Type} (b : Bounds) (r : Except AttemptError α) : Prop :=
  ∀ e, r = .error e →
    e = .weights .notFinite ∧ (b.ruleWeights.total InferenceRule.all).isFinite = false

section

variable {α β : Type} {b : Bounds}

theorem unhindered_ok {x : α} : Unhindered b (.ok x) := nofun

theorem Unhindered.cases {r : Except AttemptError α} (unhindered : Unhindered b r) :
    (∃ x, r = .ok x) ∨ r = .error (.weights .notFinite) ∧
      (b.ruleWeights.total InferenceRule.all).isFinite = false := by
  rcases r with e | x
  · obtain ⟨rfl, infinite⟩ := unhindered e rfl
    exact .inr ⟨rfl, infinite⟩
  · exact .inl ⟨x, rfl⟩

theorem Unhindered.exists_ok {r : Except AttemptError α} (unhindered : Unhindered b r)
    (finite : (b.ruleWeights.total InferenceRule.all).isFinite = true) : ∃ x, r = .ok x := by
  rcases unhindered.cases with made | ⟨-, infinite⟩
  · exact made
  · exact absurd finite (Bool.eq_false_iff.mp infinite)

theorem Unhindered.of_error {e : AttemptError}
    (unhindered : Unhindered b (.error e : Except AttemptError α)) :
    Unhindered b (.error e : Except AttemptError β) := by
  intro cause same
  cases same
  exact unhindered e rfl

end

namespace Attempt

variable {σ : Type} {b : Bounds} {a a' : Attempt σ}

/-- What holds in every state that an attempt over different letters reaches. -/
structure Healthy (b : Bounds) (a : Attempt σ) : Prop where
  sound : a.graph.Sound
  tidy : a.graph.Tidy b.maxFormulaTiles
  consistent : a.Consistent
  latest : ∀ place, a.latest? = some place → place < a.graph.nodes.length
  weights : a.weights.Within b.ruleWeights

theorem Move.latest_lt (move : Move b a a')
    (inside : ∀ place, a.latest? = some place → place < a.graph.nodes.length) :
    ∀ place, a'.latest? = some place → place < a'.graph.nodes.length := by
  cases move with
  | draw source => exact inside
  | seed fresh literally added =>
      intro place newest
      have lt := inside place newest
      simp only [(Graph.addDerived_eq_ok added).2.2, List.length_append]
      omega
  | derive found admitted added =>
      intro place newest
      cases newest
      obtain ⟨-, rfl, longer⟩ := Graph.addDerived_eq_ok added
      simp [longer]
  | expand newest ancestors behind isLeaf states proposed fresh short asserted added derives =>
      intro place newest
      have lt := inside place newest
      obtain ⟨node, there, -, changed⟩ := Graph.deriveLeaf_eq_ok derives
      simp only [changed, List.length_set, (Graph.addLeaves_eq_ok added).1, List.length_append]
      omega

theorem Move.within (move : Move b a a') (within : a.weights.Within b.ruleWeights) :
    a'.weights.Within b.ruleWeights := by
  cases move with
  | draw source => exact within
  | seed fresh literally added => exact within
  | derive found admitted added => exact within.markUsed b.share_weightDecay _
  | expand newest ancestors behind isLeaf states proposed fresh short asserted added derives =>
      exact within

theorem Healthy.draw (healthy : Healthy b a) (source : σ) : Healthy b { a with source } :=
  { healthy with consistent := ⟨healthy.consistent.coherent, healthy.consistent.asserted⟩ }

theorem Moves.healthy (moves : Moves b a a') (healthy : Healthy b a) : Healthy b a' := by
  induction moves with
  | refl => exact healthy
  | tail _ move ih =>
      exact {
        sound := move.sound ih.sound
        tidy := move.tidy ih.tidy
        consistent := move.consistent ih.consistent
        latest := move.latest_lt ih.latest
        weights := move.within ih.weights }

variable [RandomSource σ]

theorem Healthy.backward_unhindered (healthy : Healthy b a) : Unhindered b (backward b a).1 := by
  obtain ⟨derived, ended⟩ :=
    (backward_backwards b a).exists_ok healthy.sound healthy.tidy healthy.latest
  rw [ended]
  exact unhindered_ok

/-! ## Starting literals and steps forwards -/

/-- A fresh literal is new to the graph. -/
theorem Healthy.exists_seedFrom (healthy : Healthy b a) (seeds : Nat) :
    ∃ a', seedFrom b seeds a = (.ok (), a') := by
  induction seeds generalizing a with
  | zero => exact ⟨a, rfl⟩
  | succ seeds ih =>
      cases fresh : a.commitments.fresh? with
      | none =>
          rw [seedFrom, fresh]
          exact ⟨a, rfl⟩
      | some x =>
          obtain ⟨l, source, rfl, drawn⟩ := exists_drawn (b := b) fresh
          have occurs : l.letter ∈ l.formula.letters := by
            rcases Literal.formula_cases l with same | same <;> simp [same, Formula.letters]
          obtain ⟨graph, added, -⟩ := Graph.exists_addLeaf
            (healthy.consistent.not_contains (Commitments.mem_available fresh) occurs)
          have moved : Move b { a with source }
              { a with graph, source, commitments := committed a.commitments l.formula } :=
            .seed fresh (Literal.formula_cases l) added
          rw [drawn, added]
          exact ih (Moves.healthy (.single moved) (healthy.draw source))

theorem Healthy.forward_unhindered (healthy : Healthy b a) : Unhindered b (forward b a).1 := by
  generalize ended : forward b a = outcome
  have went := forward_forwards b a
  rw [ended] at went
  obtain ⟨result, after⟩ := outcome
  cases went with
  | idle source => exact unhindered_ok
  | undecided source listed failed =>
      obtain ⟨rfl, infinite⟩ := RuleWeights.choose_eq_error_iff.mp failed
      intro e same
      cases same
      exact ⟨rfl, healthy.weights.isFinite_total listed infinite⟩
  | derived source found admitted added => exact unhindered_ok

/-! ## Growing the graph -/

theorem Healthy.step_unhindered (healthy : Healthy b a) : Unhindered b (step b a).1 := by
  obtain ⟨first, source, same⟩ := exists_step_eq b a
  have started := healthy.draw source
  have turned : Unhindered b (if first = true then backward b { a with source }
      else (.ok false, { a with source })).1 := by
    split
    · exact started.backward_unhindered
    · exact unhindered_ok
  have kept : ∀ {c}, (if first = true then backward b { a with source }
      else (.ok false, { a with source })) = (.ok false, c) → Healthy b c := by
    intro c h
    split at h
    · exact (backward_moves h).healthy started
    · cases h
      exact started
  rw [same]
  split
  · rename_i back
    rwa [back] at turned
  · exact unhindered_ok
  · rename_i back
    split
    · rename_i went
      exact ((forward_moves went).healthy (kept back)).backward_unhindered
    · exact (kept back).forward_unhindered

theorem Healthy.buildFrom_unhindered (healthy : Healthy b a) {wanted steps : Int} {tries : Nat} :
    Unhindered b (buildFrom b wanted tries steps a).1 := by
  induction tries generalizing steps a with
  | zero => exact unhindered_ok
  | succ tries ih =>
      rw [buildFrom]
      split
      · exact unhindered_ok
      · split
        · rename_i e c stepped
          have unhindered := healthy.step_unhindered
          rw [stepped] at unhindered
          exact unhindered.of_error
        · rename_i c stepped
          have moves := (keeps_moves b a).step .refl stepped
          exact ih (moves.healthy healthy)
        · exact unhindered_ok

theorem healthy_start (distinct : b.letterNames.Nodup) (source : σ) :
    Healthy b (start b source) where
  sound := Graph.sound_empty
  tidy := Graph.tidy_empty
  consistent := consistent_start distinct source
  latest := nofun
  weights := b.within_ruleWeights

end Attempt

namespace Puzzle

variable {σ : Type} {b : Bounds} {a : Attempt σ}

theorem ofAttempt_unhindered (healthy : a.Healthy b) (difficulty : Int) :
    Unhindered b (ofAttempt difficulty a) := by
  unfold ofAttempt
  split
  · exact unhindered_ok
  · rename_i latest newest
    have inside := healthy.latest latest newest
    obtain ⟨cut, cuts⟩ := Graph.exists_cut healthy.sound.isAcyclic inside difficulty
    obtain ⟨node, -, found⟩ := Graph.exists_node inside
    rw [cuts, found]
    simp only
    split
    · exact unhindered_ok
    · split
      · exact unhindered_ok
      · exact unhindered_ok

variable [RandomSource σ]

theorem attempt_unhindered (distinct : b.letterNames.Nodup) (difficulty : Int) (source : σ) :
    Unhindered b (attempt b difficulty source).1 := by
  have started := (Attempt.healthy_start distinct source).draw
    (Random.between b.minSeeds b.maxSeeds b.minSeeds_le_maxSeeds
      (Attempt.start b source).source).2
  obtain ⟨seeded, seeds⟩ := started.exists_seedFrom (Random.between b.minSeeds b.maxSeeds
    b.minSeeds_le_maxSeeds (Attempt.start b source).source).1.toNat
  have healthy := (Attempt.seedFrom_moves seeds).healthy started
  rw [attempt, Attempt.seed]
  simp only [seeds]
  split
  · rename_i e c built
    have unhindered : Unhindered b (Attempt.build b difficulty seeded).1 :=
      healthy.buildFrom_unhindered
    rw [built] at unhindered
    exact unhindered.of_error
  · rename_i c built
    exact ofAttempt_unhindered ((Attempt.build_moves built).healthy healthy) difficulty

theorem generateWithin_unhindered (distinct : b.letterNames.Nodup) {difficulty : Int}
    {attempts : Nat} {source : σ} :
    Unhindered b (generateWithin b difficulty attempts source).1 := by
  induction attempts generalizing source with
  | zero => exact unhindered_ok
  | succ attempts ih =>
      rw [generateWithin]
      split
      · exact ih
      · exact attempt_unhindered distinct difficulty source

/-- Over different letters, making a puzzle comes to an end with a puzzle or without one, unless
the configured weights of the rules have no finite total. -/
theorem generate_unhindered (distinct : b.letterNames.Nodup) (difficulty : Int) (source : σ) :
    (∃ problem?, (generate b difficulty source).1 = .ok problem?) ∨
      (generate b difficulty source).1 = .error (.weights .notFinite) ∧
        (b.ruleWeights.total InferenceRule.all).isFinite = false :=
  (generateWithin_unhindered distinct).cases

theorem generate_unhindered_pair : Pair.bounds.letterNames.Nodup ∧
    (Pair.bounds.ruleWeights.total InferenceRule.all).isFinite = true ∧
      ∃ problem?, (generate Pair.bounds 1 ()).1 = .ok problem? := by
  have distinct : Pair.bounds.letterNames.Nodup := by decide
  have finite : (Pair.bounds.ruleWeights.total InferenceRule.all).isFinite = true := by
    decide +kernel
  refine ⟨distinct, finite, ?_⟩
  rcases generate_unhindered distinct 1 () with made | ⟨-, infinite⟩
  · exact made
  · exact absurd finite (Bool.eq_false_iff.mp infinite)

/-- Over different letters, and with a finite total of the weights, making a puzzle never fails. -/
theorem exists_generate_of_finite (distinct : b.letterNames.Nodup)
    (finite : (b.ruleWeights.total InferenceRule.all).isFinite = true) (difficulty : Int)
    (source : σ) : ∃ problem?, (generate b difficulty source).1 = .ok problem? := by
  have unhindered : Unhindered b (generate b difficulty source).1 :=
    generateWithin_unhindered distinct
  exact unhindered.exists_ok finite

theorem exists_generate_usual (difficulty : Int) (source : σ) :
    ∃ problem?, (generate .usual difficulty source).1 = .ok problem? :=
  exists_generate_of_finite (by decide) (by decide +kernel) difficulty source

end Puzzle

/-! ## Letters that are named twice -/

theorem Literal.eq_or_eq_opposite {k l : Literal} (same : k.letter = l.letter) :
    k = l ∨ k = l.opposite := by
  obtain ⟨x, positive⟩ := k
  obtain ⟨y, sign⟩ := l
  cases same
  cases positive <;> cases sign <;> simp [Literal.opposite]

namespace Graph

variable {g h : Graph} {s t : Statement} {place : Nat}

theorem addLeaf_eq_error (present : g.contains s = true) :
    g.addLeaf s = .error (.alreadyPresent s.text) := by
  have found : g.find? s ≠ none := by simpa [contains, Option.isSome_iff_ne_none] using present
  rw [addLeaf, addDerived, dif_neg found]

theorem contains_addLeaf (added : g.addLeaf s = .ok (place, h)) :
    h.contains t = true ↔ g.contains t = true ∨ t.identity = s.identity := by
  simp [contains_iff, statements_addDerived added]

end Graph

namespace Attempt

variable {σ : Type} [RandomSource σ] {b : Bounds} {a : Attempt σ} {seeds : Nat}

theorem committed_of_used {c : Commitments} {k l : Literal} (used : l ∈ c.used)
    (same : k.letter = l.letter) : committed c k.formula = c := by
  rw [committed, Commitments.assert?, Commitments.literal?_formula]
  rcases Literal.eq_or_eq_opposite same with rfl | rfl
  · simp [used]
  · by_cases both : l.opposite ∈ c.used <;> simp [both, used, Commitments.opposite_opposite]

/-- Once the next free letter has been asserted, two more literals over it are too many. -/
theorem seedFrom_of_used {l : Literal} (used : l ∈ a.commitments.used)
    (next : a.commitments.fresh? = some l.letter)
    (placed : a.graph.contains (.ofFormula l.formula) = true) :
    ∃ text a', seedFrom b (seeds + 2) a = (.error (.graph (.alreadyPresent text)), a') := by
  obtain ⟨k, source, same, drawn⟩ := exists_drawn (b := b) next
  rw [drawn, committed_of_used used same]
  by_cases present : a.graph.contains (.ofFormula k.formula) = true
  · rw [Graph.addLeaf_eq_error present]
    exact ⟨_, _, rfl⟩
  · -- the first one is the opposite literal, and then both of them are there
    obtain ⟨grown, added, -⟩ := Graph.exists_addLeaf (Bool.eq_false_iff.mpr present)
    have opposite : k = l.opposite := by
      rcases Literal.eq_or_eq_opposite same with rfl | opposite
      · exact absurd placed present
      · exact opposite
    have both : ∀ m : Literal, m.letter = l.letter →
        grown.contains (.ofFormula m.formula) = true := by
      intro m letter
      rcases Literal.eq_or_eq_opposite letter with rfl | rfl
      · exact (Graph.contains_addLeaf added).mpr (.inl placed)
      · exact (Graph.contains_addLeaf added).mpr (.inr (opposite ▸ rfl))
    rw [added]
    simp only
    obtain ⟨m, _, letter, again⟩ := exists_drawn (b := b)
      (a := { a with graph := grown, source }) next
    rw [again, Graph.addLeaf_eq_error (both m letter)]
    exact ⟨_, _, rfl⟩

/-- Where a free letter is repeated or has been asserted, more literals than there are free letters
cannot be added. -/
theorem seedFrom_of_repeated {letters : List Letter} (free : a.commitments.available = letters)
    (repeated : ¬letters.Nodup ∨ ∃ l ∈ a.commitments.used, l.letter ∈ letters)
    (placed : ∀ l ∈ a.commitments.used, a.graph.contains (.ofFormula l.formula) = true)
    (enough : letters.length < seeds) :
    ∃ text a', seedFrom b seeds a = (.error (.graph (.alreadyPresent text)), a') := by
  induction letters generalizing a seeds with
  | nil => simp at repeated
  | cons x letters ih =>
      have next : a.commitments.fresh? = some x := by rw [Commitments.fresh?, free]; rfl
      rw [List.length_cons] at enough
      by_cases used : ∃ l ∈ a.commitments.used, l.letter = x
      · obtain ⟨l, member, rfl⟩ := used
        obtain ⟨others, rfl⟩ : ∃ others, seeds = others + 2 := ⟨seeds - 2, by omega⟩
        exact seedFrom_of_used member next (placed l member)
      · have new : ∀ l ∈ a.commitments.used, l.letter ≠ x := fun l member same =>
          used ⟨l, member, same⟩
        obtain ⟨others, rfl⟩ : ∃ others, seeds = others + 1 := ⟨seeds - 1, by omega⟩
        obtain ⟨k, source, rfl, drawn⟩ := exists_drawn (b := b) next
        have taken : committed a.commitments k.formula = ⟨letters, a.commitments.used ++ [k]⟩ := by
          rw [committed_eq new (by rw [free]; exact List.mem_cons_self), free,
            List.erase_cons_head]
        rw [drawn, taken]
        by_cases present : a.graph.contains (.ofFormula k.formula) = true
        · rw [Graph.addLeaf_eq_error present]
          exact ⟨_, _, rfl⟩
        · obtain ⟨grown, added, -⟩ := Graph.exists_addLeaf (Bool.eq_false_iff.mpr present)
          rw [added]
          refine ih rfl ?_ (fun l member => (Graph.contains_addLeaf added).mpr ?_) (by omega)
          · rcases repeated with twice | ⟨l, member, occurs⟩
            · by_cases later : k.letter ∈ letters
              · exact .inr ⟨k, by simp, later⟩
              · exact .inl fun nodup => twice (List.nodup_cons.mpr ⟨later, nodup⟩)
            · rcases List.mem_cons.mp occurs with same | later
              · exact absurd same (new l member)
              · exact .inr ⟨l, List.mem_append_left _ member, later⟩
          · rcases List.mem_append.mp member with old | last
            · exact .inl (placed l old)
            · exact .inr (by rw [List.mem_singleton.mp last])

end Attempt

namespace Puzzle

variable {b : Bounds}

/-- If a letter is named twice and there are more literals to start from than names, no puzzle is
ever made, and there is no end without one either. -/
theorem generate_of_repeated {σ : Type} [RandomSource σ] (repeated : ¬b.letterNames.Nodup)
    (enough : (b.letterNames.length : Int) < b.minSeeds) (difficulty : Int) (source : σ) :
    ∃ text, (generate b difficulty source).1 = .error (.graph (.alreadyPresent text)) := by
  have perm := Random.shuffle_perm b.letters source
  have many := Random.le_between b.minSeeds_le_maxSeeds (Random.shuffle b.letters source).2
  have names : b.letters.length = b.letterNames.length := by simp [Bounds.letterNames_eq]
  have free : (Attempt.start b source).commitments.available =
    (Random.shuffle b.letters source).1 := rfl
  obtain ⟨text, a, stuck⟩ : ∃ text a, (Attempt.start b source).seed b =
      (.error (.graph (.alreadyPresent text)), a) :=
    Attempt.seedFrom_of_repeated free
      (.inl fun nodup => repeated (Bounds.nodup_letters_iff.mp (perm.nodup_iff.mp nodup))) nofun
      (by rw [perm.length_eq, names]; exact Int.lt_toNat.mpr (Int.lt_of_lt_of_le enough many))
  have attempted : ∀ difficulty,
      attempt b difficulty source = (.error (.graph (.alreadyPresent text)), a.source) := by
    intro difficulty
    rw [attempt, stuck]
  obtain ⟨n, tries⟩ : ∃ n, b.maxAttempts.toNat = n + 1 := by
    have positive : 1 ≤ b.maxAttempts := by
      have accepted := b.accepted
      unfold Settings.complaint? at accepted
      grind
    exact ⟨b.maxAttempts.toNat - 1, by omega⟩
  refine ⟨text, ?_⟩
  rw [generate, tries, generateWithin, attempted]

/-- One letter is named twice, and there are four literals to start from. -/
def Pair.repeated : Bounds where
  letterNames := ["p", "p", "q"]
  minSeeds := 4
  baseSteps := 0
  stepsPerDifficulty := 0
  maxAttempts := 1
  accepted := by decide +kernel

theorem not_generate_total : ¬∀ (b : Bounds) (seed difficulty : Int),
    ∃ problem?, (generate b difficulty (Twister.ofSeed seed)).1 = .ok problem? := by
  intro total
  obtain ⟨problem?, made⟩ := total Pair.repeated 0 1
  obtain ⟨text, failed⟩ := generate_of_repeated (b := Pair.repeated) (by decide) (by decide) 1
    (Twister.ofSeed 0)
  rw [made] at failed
  cases failed

end Puzzle

end ProofPuzzles
