import ProofPuzzles.Proofs.Commitments.Copies
import ProofPuzzles.Proofs.Puzzle.Denials

/-! # Which steps backwards can be asserted

Literals can all be asserted exactly when each of them is asserted already or over a free letter,
and no letter is asserted with both signs. What a step backwards adds to the literals of its goal is
one free letter. Three of the strategies assert it as it stands. The fourth one needs its negation as
well, and so its steps are always refused.
-/

namespace ProofPuzzles

open Formula

variable {letters : List Letter} {c c' : Commitments} {l : Literal} {used literals : List Literal}
  {formulas : List Formula} {goal : Formula} {step : BackwardStep} {strategy : Strategy}

theorem OneSigned.mono (signs : OneSigned literals) (fewer : used ⊆ literals) : OneSigned used :=
  fun l member denied => signs l (fewer member) (fewer denied)

theorem Formula.literals_subset_iff : goal.literals ⊆ used ↔ goal.occurrences ⊆ used := by
  simp only [List.subset_def, Formula.literals, mem_firstsBy_id]

namespace Commitments

theorem assert?_of_mem (member : l ∈ c.used) : c.assert? l.formula = some (l, c) := by
  simp [assert?, literal?_formula, member]

/-- The literals can be asserted next to each other and to what has been asserted. -/
structure Admits (c : Commitments) (literals : List Literal) : Prop where
  signs : OneSigned (c.used ++ literals)
  within : ∀ l ∈ literals, l ∈ c.used ∨ l.letter ∈ c.available

theorem Admits.tail (admits : c.Admits (l :: literals)) : c.Admits literals where
  signs := admits.signs.mono (by simp)
  within := (List.forall_mem_cons.mp admits.within).2

theorem Admits.assert (admits : c.Admits (l :: literals)) :
    ∃ after, c.assert? l.formula = some (l, after) ∧ after.Admits literals := by
  by_cases member : l ∈ c.used
  · exact ⟨c, assert?_of_mem member, admits.tail⟩
  · have free := (admits.within l List.mem_cons_self).resolve_left member
    have undenied : l.opposite ∉ c.used := fun denied =>
      admits.signs l (by simp) (List.mem_append_left _ denied)
    refine ⟨⟨c.available.erase l.letter, c.used ++ [l]⟩, ?_, ?_, ?_⟩
    · simp [assert?, literal?_formula, member, undenied, free]
    · simpa using admits.signs
    · intro k later
      rcases admits.tail.within k later with old | other
      · exact .inl (List.mem_append_left _ old)
      · -- a letter that has just been taken occurs again with the same sign only
        by_cases same : k.letter = l.letter
        · rcases Literal.eq_or_eq_opposite same with rfl | rfl
          · exact .inl (List.mem_append_right _ (List.mem_singleton_self _))
          · exact absurd (by simp [later]) (admits.signs l (by simp))
        · exact .inr ((List.mem_erase_of_ne same).mpr other)

theorem Admits.assertLiterals (admits : c.Admits literals) :
    (assertLiterals literals c).1 = true := by
  induction literals generalizing c with
  | nil => rfl
  | cons l literals ih =>
      obtain ⟨after, asserts, rest⟩ := admits.assert
      rw [Commitments.assertLiterals, asserts]
      exact ih rest

theorem within_of_assertLiterals (asserts : (assertLiterals literals c).1 = true) :
    ∀ l ∈ literals, l ∈ c.used ∨ l.letter ∈ c.available := by
  induction literals generalizing c with
  | nil => nofun
  | cons l literals ih =>
      rw [Commitments.assertLiterals] at asserts
      split at asserts
      · rename_i k after first
        obtain ⟨reads, outcome⟩ := assert?_eq_some first
        cases (literal?_formula l).symm.trans reads
        rw [List.forall_mem_cons]
        rcases outcome with ⟨member, rfl⟩ | ⟨-, free, rfl⟩
        · exact ⟨.inl member, ih asserts⟩
        · refine ⟨.inr free, fun k later => ?_⟩
          rcases ih asserts k later with old | other
          · rcases List.mem_append.mp old with old | new
            · exact .inl old
            · rw [List.mem_singleton.mp new]
              exact .inr free
          · exact .inr (List.mem_of_mem_erase other)
      · cases asserts

/-- All formulas can be asserted exactly when nothing stands against their literals. -/
theorem Coherent.assertAll_iff (coherent : c.Coherent) :
    (c.assertAll formulas).1 = true ↔ c.Admits (formulas.flatMap Formula.literals) := by
  constructor
  · intro asserts
    obtain ⟨after, kept, literals⟩ := coherent.assertLiterals (Prod.ext asserts rfl)
    exact ⟨after.signs.mono (List.append_subset.mpr ⟨kept, literals⟩),
      within_of_assertLiterals asserts⟩
  · exact Admits.assertLiterals

theorem coherent_of_mem_run {σ : Type} [RandomSource σ] (distinct : letters.Nodup)
    {source? : Option σ} {operations : List Operation}
    (member : c ∈ run operations [create letters source?]) : c.Coherent := by
  obtain ⟨start, initial, taken⟩ := mem_run member
  rw [List.mem_singleton.mp initial] at taken
  have partition := (perm_of_takes taken).trans (create_perm letters source?)
  exact (guards_of_perm distinct partition).coherent distinct

end Commitments

open Commitments

namespace Strategy

/-- Besides the literals of its goal, a step asserts a free letter as it stands. -/
theorem mem_literals (proposed : strategy.step? goal c = some step)
    (other : strategy ≠ .reverseDisjunctiveSyllogism)
    (occurs : l ∈ step.antecedents.flatMap Formula.literals) :
    l ∈ goal.literals ∨ ∃ x, c.fresh? = some x ∧ l = ⟨x, true⟩ := by
  simp only [List.mem_flatMap, Formula.literals, mem_firstsBy_id] at occurs ⊢
  obtain ⟨f, listed, occurs⟩ := occurs
  cases proposal_of_step? proposed with
  | conjunction =>
      rcases List.mem_pair.mp listed with rfl | rfl
      · exact .inl (List.mem_append_left _ occurs)
      · exact .inl (List.mem_append_right _ occurs)
  | hypotheticalSyllogism fresh =>
      rcases List.mem_pair.mp listed with rfl | rfl
      · rcases List.mem_append.mp occurs with left | middle
        · exact .inl (List.mem_append_left _ left)
        · exact .inr ⟨_, fresh, List.mem_singleton.mp middle⟩
      · rcases List.mem_append.mp occurs with middle | right
        · exact .inr ⟨_, fresh, List.mem_singleton.mp middle⟩
        · exact .inl (List.mem_append_right _ right)
  | modusPonens fresh =>
      rcases List.mem_pair.mp listed with rfl | rfl
      · rcases List.mem_append.mp occurs with letter | goal
        · exact .inr ⟨_, fresh, List.mem_singleton.mp letter⟩
        · exact .inl goal
      · exact .inr ⟨_, fresh, List.mem_singleton.mp occurs⟩
  | disjunctiveSyllogism => exact absurd rfl other

/-- Next to the literals of its goal, a step can be asserted unless it needs the letter with both
signs. -/
theorem admits (coherent : c.Coherent) (given : goal.literals ⊆ c.used)
    (proposed : strategy.step? goal c = some step)
    (other : strategy ≠ .reverseDisjunctiveSyllogism) :
    c.Admits (step.antecedents.flatMap Formula.literals) := by
  have sources := fun l => mem_literals (l := l) proposed other
  refine ⟨?_, fun l occurs => ?_⟩
  · cases fresh : c.fresh? with
    | none =>
        refine coherent.signs.mono (List.append_subset.mpr ⟨List.Subset.refl _, fun l occurs => ?_⟩)
        rcases sources l occurs with old | ⟨x, drawn, -⟩
        · exact given old
        · cases fresh.symm.trans drawn
    | some x =>
        have free := mem_available fresh
        have undenied : (⟨x, false⟩ : Literal) ∉ c.used := fun denied => coherent.free _ denied free
        have taken := coherent.take (l := ⟨x, true⟩) undenied
        refine taken.signs.mono (List.append_subset.mpr
          ⟨List.subset_append_left _ _, fun l occurs => ?_⟩)
        rcases sources l occurs with old | ⟨y, drawn, rfl⟩
        · exact List.mem_append_left _ (given old)
        · cases fresh.symm.trans drawn
          exact List.mem_append_right _ (List.mem_singleton_self _)
  · rcases sources l occurs with old | ⟨x, fresh, rfl⟩
    · exact .inl (given old)
    · exact .inr (mem_available fresh)

/-- The letter cannot be asserted together with its negation. -/
theorem refuses (coherent : c.Coherent)
    (proposed : Strategy.step? .reverseDisjunctiveSyllogism goal c = some step) :
    (c.assertAll step.antecedents).1 = false := by
  rw [← Bool.not_eq_true]
  intro asserts
  have admits := coherent.assertAll_iff.mp asserts
  refine not_denies proposed admits.signs (fun f listed l occurs => ?_) (.inr rfl)
  exact List.mem_append_right _ (List.mem_flatMap.mpr ⟨f, listed, mem_firstsBy_id.mpr occurs⟩)

/-- Whatever has been asked of commitments over different letters and of their copies, a step for a
goal whose literals are asserted can be asserted as well, unless it reads Disjunctive Syllogism
backwards: such a step is always refused. -/
theorem asserts_iff {σ : Type} [RandomSource σ] (distinct : letters.Nodup) (source? : Option σ)
    (operations : List Operation) (reached : c ∈ run operations [create letters source?])
    (given : goal.literals ⊆ c.used) (proposed : strategy.step? goal c = some step) :
    (c.assertAll step.antecedents).1 = true ↔ strategy ≠ .reverseDisjunctiveSyllogism := by
  have coherent := coherent_of_mem_run distinct reached
  constructor
  · rintro asserts rfl
    rw [refuses coherent proposed] at asserts
    cases asserts
  · exact fun other => coherent.assertAll_iff.mpr (admits coherent given proposed other)

/-- From a letter that is asserted, Modus Ponens is read backwards with the other one. -/
theorem asserts_iff_modusPonens :
    let p : Letter := ⟨15⟩
    let q : Letter := ⟨16⟩
    let operations : List Operation := [.ask 0 (.assert (.ofFormula (.letter p)))]
    let c : Commitments := ⟨[q], [⟨p, true⟩]⟩
    let step : BackwardStep := ⟨[impl (.letter q) (.letter p)], [.letter q]⟩
    [p, q].Nodup ∧ c ∈ run operations [create [p, q] (none : Option Twister)] ∧
      (Formula.letter p).literals ⊆ c.used ∧
      Strategy.reverseModusPonens.step? (.letter p) c = some step ∧
      (c.assertAll step.antecedents).1 = true := by
  intro p q operations c step
  have distinct : [p, q].Nodup := by decide
  have reached : c ∈ run operations [create [p, q] (none : Option Twister)] := by decide
  have given : (Formula.letter p).literals ⊆ c.used := literals_subset_iff.mpr (by decide)
  have proposed : Strategy.reverseModusPonens.step? (.letter p) c = some step := rfl
  have asserts := asserts_iff distinct (none : Option Twister) operations reached given proposed
  exact ⟨distinct, reached, given, proposed, asserts.mpr (by decide)⟩

/-- The strategies do not all propose what can be asserted. -/
theorem not_asserts : ¬∀ (letters : List Letter), letters.Nodup → ∀ (source? : Option Twister)
    (operations : List Operation), ∀ c ∈ run operations [create letters source?],
    ∀ (strategy : Strategy) (goal : Formula) (step : BackwardStep), goal.literals ⊆ c.used →
      strategy.step? goal c = some step → (c.assertAll step.antecedents).1 = true := by
  intro all
  let p : Letter := ⟨15⟩
  let q : Letter := ⟨16⟩
  let operations : List Operation := [.ask 0 (.assert (.ofFormula (.letter q)))]
  let step : BackwardStep := ⟨[disj (.letter p) (.letter q)], [neg (.letter p)]⟩
  have distinct : [p, q].Nodup := by decide
  have reached : ⟨[p], [⟨q, true⟩]⟩ ∈ run operations [create [p, q] (none : Option Twister)] := by
    decide
  have given : (Formula.letter q).literals ⊆ [⟨q, true⟩] := literals_subset_iff.mpr (by decide)
  have proposed : Strategy.reverseDisjunctiveSyllogism.step? (.letter q) ⟨[p], [⟨q, true⟩]⟩ =
      some step := rfl
  have asserts := all [p, q] distinct none operations _ reached _ _ step given proposed
  rw [refuses (coherent_of_mem_run distinct reached) proposed] at asserts
  cases asserts

end Strategy

end ProofPuzzles
