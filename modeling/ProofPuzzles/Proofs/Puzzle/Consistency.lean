import ProofPuzzles.Proofs.Commitments
import ProofPuzzles.Proofs.Graph.Operations
import ProofPuzzles.Proofs.Puzzle.Solvable

/-! # Generated puzzles are consistent

The letters that are free do not occur in the graph of an attempt, and what the graph states is
true wherever the asserted literals are. So the premises of a puzzle never contradict each other,
and the scan for a contradiction is never what an attempt fails at.
-/

namespace ProofPuzzles

theorem Settings.name_of_letter? {name : String} {x : Letter} (found : letter? name = some x) :
    name = x.char.toString := by
  unfold letter? Letter.ofName at found
  split at found
  · rename_i c single
    split at found
    · rename_i y letter
      cases found
      apply String.toList_injective
      rw [single, ← Letter.char_of_ofChar? letter]
      simp
    · cases found
  · cases found

namespace Bounds

variable {b : Bounds}

/-- Every name is the name of a letter. -/
theorem letterNames_eq (b : Bounds) : b.letterNames = b.letters.map (·.char.toString) := by
  have known : ∀ name ∈ b.letterNames, (Settings.letter? name).isSome := by
    have accepted := b.accepted
    unfold Settings.complaint? at accepted
    simp only [ne_eq] at accepted
    split at accepted
    · cases accepted
    · rename_i unknown
      simpa [Option.isSome_iff_ne_none] using unknown
  rw [letters]
  generalize b.letterNames = names at known
  induction names with
  | nil => rfl
  | cons name names ih =>
      rw [List.forall_mem_cons] at known
      obtain ⟨x, found⟩ := Option.isSome_iff_exists.mp known.1
      rw [List.filterMap_cons_some found, List.map_cons, ← ih known.2,
        ← Settings.name_of_letter? found]

theorem nodup_letters_iff : b.letters.Nodup ↔ b.letterNames.Nodup := by
  rw [letterNames_eq]
  refine (List.nodup_map_iff fun x y same => Letter.char_injective ?_).symm
  simpa using congrArg String.toList same

end Bounds

/-- What a strategy proposes for an asserted goal is asserted with the literals in it. -/
theorem Strategy.asserted {strategy : Strategy} {goal f : Formula} {c : Commitments}
    {step : BackwardStep} {used : List Literal} (proposed : strategy.step? goal c = some step)
    (given : goal.Asserted used) (literals : ∀ f ∈ step.antecedents, f.occurrences ⊆ used)
    (member : f ∈ step.antecedents) : f.Asserted used := by
  cases proposal_of_step? proposed with
  | conjunction =>
      rcases List.mem_pair.mp member with rfl | rfl
      · exact given.left
      · exact given.right
  | hypotheticalSyllogism =>
      simp [BackwardStep.antecedents, Formula.occurrences] at literals member
      rcases member with rfl | rfl
      · exact .bin given.left (.letter literals.2.1)
      · exact .bin (.letter literals.2.1) given.right
  | modusPonens =>
      simp [BackwardStep.antecedents, Formula.occurrences] at literals member
      rcases member with rfl | rfl
      · exact .bin (.letter literals.2) given
      · exact .letter literals.2
  | disjunctiveSyllogism =>
      simp [BackwardStep.antecedents, Formula.occurrences] at literals member
      rcases member with rfl | rfl
      · exact .bin (.letter literals.1.1) given
      · exact .negated literals.2

namespace Attempt

variable {σ : Type} {b : Bounds} {a a' : Attempt σ}

/-- The commitments are coherent, and the graph states only what is asserted through them. -/
structure Consistent (a : Attempt σ) : Prop where
  coherent : a.commitments.Coherent
  asserted : ∀ s ∈ a.graph.statements,
    ∃ f, s.formula? = some f ∧ f.Asserted a.commitments.used

namespace Consistent

variable {s : Statement} {f : Formula}

theorem asserted_of_formulaAt? (consistent : a.Consistent) {i : Nat}
    (states : a.graph.formulaAt? i = some f) : f.Asserted a.commitments.used := by
  obtain ⟨node, there, reads⟩ := Graph.formulaAt?_eq_some.mp states
  obtain ⟨g, same, asserted⟩ := consistent.asserted _ (Graph.statement_mem there)
  cases same.symm.trans reads
  exact asserted

/-- Free letters do not occur in the graph. -/
theorem not_available (consistent : a.Consistent) {x : Letter}
    (asserted : f.Asserted a.commitments.used) (occurs : x ∈ f.letters) :
    x ∉ a.commitments.available := by
  obtain ⟨l, member, rfl⟩ := asserted.exists_literal occurs
  exact consistent.coherent.free l member

theorem not_contains (consistent : a.Consistent) {x : Letter}
    (free : x ∈ a.commitments.available) (occurs : x ∈ f.letters) :
    a.graph.contains (.ofFormula f) = false := by
  rw [Graph.not_contains_iff]
  intro present
  obtain ⟨s, member, same⟩ := List.mem_map.mp present
  obtain ⟨g, reads, asserted⟩ := consistent.asserted s member
  rw [Statement.identity_eq (Statement.formula?_ofFormula f),
    Statement.identity_eq_formula_iff] at same
  cases same.symm.trans reads
  exact consistent.not_available asserted occurs free

/-- More statements are taken in when they are asserted, together with what was asserted. -/
theorem extend (consistent : a.Consistent) (coherent : a'.commitments.Coherent)
    (kept : a.commitments.used ⊆ a'.commitments.used) {more : List Statement}
    (longer : a'.graph.statements = a.graph.statements ++ more)
    (asserted : ∀ s ∈ more, ∃ f, s.formula? = some f ∧ f.Asserted a'.commitments.used) :
    a'.Consistent := by
  refine ⟨coherent, fun s member => ?_⟩
  rw [longer, List.mem_append] at member
  rcases member with old | new
  · obtain ⟨f, reads, asserted⟩ := consistent.asserted s old
    exact ⟨f, reads, asserted.mono kept⟩
  · exact asserted s new

end Consistent

theorem committed_eq {c : Commitments} {l : Literal} (new : ∀ k ∈ c.used, k.letter ≠ l.letter)
    (free : l.letter ∈ c.available) :
    committed c l.formula = ⟨c.available.erase l.letter, c.used ++ [l]⟩ := by
  rw [committed, Commitments.assert?_eq new free]

theorem Consistent.seed (consistent : a.Consistent) {l : Literal} {place : Nat} {graph : Graph}
    (free : l.letter ∈ a.commitments.available)
    (added : a.graph.addLeaf (.ofFormula l.formula) = .ok (place, graph)) :
    Consistent { a with graph, commitments := committed a.commitments l.formula } := by
  have new : ∀ k ∈ a.commitments.used, k.letter ≠ l.letter := fun k member same =>
    consistent.coherent.free k member (same ▸ free)
  rw [committed_eq new free]
  refine consistent.extend (consistent.coherent.take fun member => new _ member rfl)
    (List.subset_append_left _ _) (Graph.statements_addDerived added) fun s member => ?_
  rw [List.mem_singleton.mp member]
  refine ⟨l.formula, rfl, ?_⟩
  obtain ⟨x, positive⟩ := l
  cases positive with
  | true => exact .letter (List.mem_append_right _ List.mem_cons_self)
  | false => exact .negated (List.mem_append_right _ List.mem_cons_self)

/-- What an application over the graph consumes is asserted. -/
theorem Consistent.consumes (consistent : a.Consistent) {rule : InferenceRule}
    {application : Application}
    (found : application ∈ Inference.applications rule (wellFormed a.graph.statements)) :
    ∃ premises, Consumes application.rule premises application.conclusion.formula ∧
      ∀ f ∈ premises, f.Asserted a.commitments.used := by
  obtain ⟨premises, states, consumes⟩ := follows_parentsOf found
  refine ⟨premises, consumes, fun f member => ?_⟩
  have stated : some f ∈ (parentsOf a.graph application).map a.graph.formulaAt? :=
    states ▸ List.mem_map_of_mem member
  obtain ⟨p, -, placed⟩ := List.mem_map.mp stated
  exact consistent.asserted_of_formulaAt? placed

theorem Consistent.conclusion (consistent : a.Consistent) {rule : InferenceRule}
    {application : Application}
    (found : application ∈ Inference.applications rule (wellFormed a.graph.statements)) :
    application.conclusion.formula.Asserted a.commitments.used := by
  obtain ⟨premises, consumes, given⟩ := consistent.consumes found
  exact consumes.asserted consistent.coherent.signs given

theorem Move.consistent (consistent : a.Consistent) (move : Move b a a') : a'.Consistent := by
  cases move with
  | draw source => exact ⟨consistent.coherent, consistent.asserted⟩
  | @seed x literal place graph fresh literally added =>
      have free := Commitments.mem_available fresh
      rcases literally with rfl | rfl
      · exact consistent.seed (l := ⟨x, true⟩) free added
      · exact consistent.seed (l := ⟨x, false⟩) free added
  | @derive rule application place graph found admitted added =>
      refine consistent.extend consistent.coherent (List.Subset.refl _)
        (Graph.statements_addDerived added) fun s member => ?_
      rw [List.mem_singleton.mp member]
      exact ⟨_, application.conclusion.reads, consistent.conclusion found⟩
  | @expand latest leaf reached places goal strategy step commitments grown graph newest ancestors
      behind isLeaf states proposed fresh short asserted added derives =>
      obtain ⟨coherent, kept, literals⟩ := consistent.coherent.assertAll asserted
      have given := (consistent.asserted_of_formulaAt? states).mono kept
      refine consistent.extend coherent kept ((Graph.statements_deriveLeaf derives).trans
        (Graph.statements_addLeaves added)) fun s member => ?_
      obtain ⟨f, listed, rfl⟩ := List.mem_map.mp member
      exact ⟨f, rfl, Strategy.asserted proposed given literals listed⟩

theorem Moves.consistent (moves : Moves b a a') (consistent : a.Consistent) :
    a'.Consistent := by
  induction moves with
  | refl => exact consistent
  | tail _ move ih => exact move.consistent ih

variable [RandomSource σ]

theorem consistent_start (distinct : b.letterNames.Nodup) (source : σ) :
    (start b source).Consistent where
  coherent := Commitments.coherent_ofLetters
    ((Random.shuffle_perm b.letters source).nodup_iff.mpr (Bounds.nodup_letters_iff.mpr distinct))
  asserted := nofun

end Attempt

namespace Puzzle

open Attempt

/-- No scan of premises fires that are taken from the graph of a consistent attempt. -/
theorem contradiction?_premisesOf {σ : Type} {a : Attempt σ} (consistent : a.Consistent)
    (places : List Nat) :
    contradiction? ((premisesOf a.graph places).filterMap Statement.formula?) = none := by
  refine contradiction?_eq_none consistent.coherent.signs fun f member => ?_
  obtain ⟨s, listed, reads⟩ := List.mem_filterMap.mp member
  obtain ⟨p, -, states⟩ := exists_place_of_mem_premisesOf listed
  obtain ⟨node, there, rfl⟩ := Option.map_eq_some_iff.mp states
  exact consistent.asserted_of_formulaAt? (Graph.formulaAt?_eq_some.mpr ⟨node, there, reads⟩)

variable {σ : Type} [RandomSource σ] {b : Bounds}

/-- In every state of an attempt the free letters are new to the graph, and whatever makes the
asserted literals true makes the whole graph true. So no puzzle is turned down for contradicting
itself, and the premises of each one can hold together. -/
theorem generate_consistent (distinct : b.letterNames.Nodup) :
    (∀ a : Attempt σ, Reached b a →
      (∀ s ∈ a.graph.statements, ∃ f, s.formula? = some f ∧
        ∀ x ∈ f.letters, x ∉ a.commitments.available) ∧
      (∃ v : Assignment, v.Models a.commitments.used) ∧
      (∀ v : Assignment, v.Models a.commitments.used → ∀ s ∈ a.graph.statements, s.Holds v) ∧
      ∀ conclusion difficulty cut, a.graph.cut conclusion difficulty = .ok cut →
        contradiction? ((premisesOf a.graph cut.premises).filterMap Statement.formula?) = none) ∧
    ∀ (difficulty : Int) (source source' : σ) (problem : Problem),
      generate b difficulty source = (.ok (some problem), source') →
        ∃ v : Assignment, ∀ s ∈ problem.premises, s.Holds v := by
  have everywhere : ∀ a : Attempt σ, Reached b a → a.Consistent := by
    intro a reached
    obtain ⟨source, moves⟩ := reached.exists_moves
    exact moves.consistent (consistent_start distinct source)
  have holds : ∀ {a : Attempt σ}, a.Consistent → ∀ v : Assignment,
      v.Models a.commitments.used → ∀ s ∈ a.graph.statements, s.Holds v := by
    intro a consistent v models s member
    obtain ⟨f, reads, asserted⟩ := consistent.asserted s member
    exact ⟨f, reads, asserted.eval models⟩
  constructor
  · intro a reached
    have consistent := everywhere a reached
    refine ⟨fun s member => ?_, consistent.coherent.signs.exists_models, holds consistent,
      fun _ _ cut _ => contradiction?_premisesOf consistent cut.premises⟩
    obtain ⟨f, reads, asserted⟩ := consistent.asserted s member
    exact ⟨f, reads, fun x occurs => consistent.not_available asserted occurs⟩
  · intro difficulty source source' problem made
    obtain ⟨_, _, attempted⟩ := generateWithin_eq_some made
    obtain ⟨a, reached, comes⟩ := reached_of_attempt attempted
    have consistent := everywhere a reached
    obtain ⟨_, cut, _, -, -, -, premises, -⟩ := ofAttempt_eq_some comes
    obtain ⟨v, models⟩ := consistent.coherent.signs.exists_models
    refine ⟨v, fun s member => ?_⟩
    obtain ⟨p, -, states⟩ := exists_place_of_mem_premisesOf (premises ▸ member)
    obtain ⟨node, there, rfl⟩ := Option.map_eq_some_iff.mp states
    exact holds consistent v models _ (Graph.statement_mem there)

theorem generate_consistent_conjunction :
    Pair.bounds.letterNames.Nodup ∧
      ∃ (a : Attempt Unit) (problem : Problem), Reached Pair.bounds a ∧
        ofAttempt 1 a = .ok (some problem) ∧
        (∃ v : Assignment, v.Models a.commitments.used ∧
          ∀ s ∈ a.graph.statements, s.Holds v) ∧
        generate Pair.bounds 1 () = (.ok (some problem), ()) ∧
        ∃ v : Assignment, ∀ s ∈ problem.premises, s.Holds v := by
  have distinct : Pair.bounds.letterNames.Nodup := by decide
  obtain ⟨problem, made⟩ := Pair.exists_generate
  obtain ⟨states, problems⟩ := generate_consistent (σ := Unit) distinct
  obtain ⟨_, _, attempted⟩ := generateWithin_eq_some made
  obtain ⟨a, reached, comes⟩ := reached_of_attempt attempted
  obtain ⟨-, ⟨v, models⟩, holds, -⟩ := states a reached
  exact ⟨distinct, a, problem, reached, comes, ⟨v, models, holds v models⟩, made,
    problems 1 () () problem made⟩

end Puzzle

end ProofPuzzles
