import ProofPuzzles.Proofs.Search.Respelling

/-! # Searching with higher limits

The rounds end when the goal is known, when nothing is added, when too much is known or when there
are no more of them. In each of these cases what has been found is returned only if it knows the
goal. So higher limits change nothing about it: where the rounds would go on, they find the goal
known and end there.
-/

namespace ProofPuzzles

namespace Search

variable {goal : Formula} {derivation found : Derivation} {cap few many maxFormulas : Int}
  {n m : Nat}

/-- What the rounds come to while the goal is unknown. -/
theorem rounds_succ (unknown : ¬derivation.knows goal = true) :
    rounds goal cap maxFormulas (n + 1) derivation =
      if fresh goal cap derivation = [] then none
      else if maxFormulas < (next goal cap derivation).length then
        rounds goal cap maxFormulas 0 (next goal cap derivation)
      else rounds goal cap maxFormulas n (next goal cap derivation) := by
  simp only [rounds, if_neg unknown, next_of_not_knows unknown, List.isEmpty_map,
    List.isEmpty_iff]

theorem rounds_mono (fewer : n ≤ m) (smaller : few ≤ many)
    (h : rounds goal cap few n derivation = some found) :
    rounds goal cap many m derivation = some found := by
  induction n generalizing m derivation with
  | zero =>
      rw [rounds] at h
      split at h
      · rename_i knows
        rw [rounds_of_knows knows, h]
      · cases h
  | succ n ih =>
      by_cases knows : derivation.knows goal = true
      · rw [rounds_of_knows knows] at h
        rw [rounds_of_knows knows, h]
      · cases m with
        | zero => exact absurd fewer (Nat.not_succ_le_zero n)
        | succ m =>
            rw [rounds_succ knows] at h ⊢
            split at h
            · cases h
            · rename_i added
              rw [if_neg added]
              split at h
              · -- the lower limit ends the rounds here; the goal does so as well
                rw [rounds] at h
                split at h
                · rename_i learned
                  rw [rounds_of_knows learned, rounds_of_knows learned, ite_self, h]
                · cases h
              · rename_i within
                rw [if_neg (by omega)]
                exact ih (Nat.le_of_succ_le_succ fewer) h

end Search

/-- With more rounds, with room for more formulas or with both, a search that has found something
finds the same, and the same proof comes of it. -/
theorem search_of_higher_limits {premises : List Statement} {goal : Statement}
    {limits higher : SearchLimits} {found : Derivation}
    (rounds : limits.maxRounds ≤ higher.maxRounds)
    (formulas : limits.maxFormulas ≤ higher.maxFormulas)
    (tiles : limits.maxTiles = higher.maxTiles)
    (h : search premises goal limits = some found) :
    search premises goal higher = some found ∧
      ∃ proof, prove premises goal limits = some proof ∧
        prove premises goal higher = some proof := by
  obtain ⟨f, reads, -⟩ := search_spec h
  have same : search premises goal higher = some found := by
    rw [search] at h ⊢
    split at h
    · cases h
    · rw [← tiles]
      exact Search.rounds_mono (Int.toNat_le_toNat rounds) formulas h
  obtain ⟨proof, proved⟩ := exists_prove reads (Option.isSome_of_eq_some h)
  refine ⟨same, proof, proved, ?_⟩
  rw [prove, reads, h] at proved
  rw [prove, reads, same]
  exact proved

/-- A search that ends because it knows too much, with the goal among it, and one that goes on. -/
theorem search_of_higher_limits_detachment :
    let premises : List Statement :=
      [.ofFormula Detachment.conditional, .ofFormula Detachment.p]
    let goal := Statement.ofFormula Detachment.q
    let limits : SearchLimits := { maxRounds := 1, maxFormulas := 0 }
    limits.maxRounds ≤ ({} : SearchLimits).maxRounds ∧
      limits.maxFormulas ≤ ({} : SearchLimits).maxFormulas ∧
      limits.maxTiles = ({} : SearchLimits).maxTiles ∧
      ∃ found, search premises goal limits = some found ∧ search premises goal {} = some found ∧
        ∃ proof, prove premises goal limits = some proof ∧ prove premises goal {} = some proof := by
  intro premises goal limits
  have given : givenWffs premises =
      [.ofFormula Detachment.conditional, .ofFormula Detachment.p] := by
    rw [givenWffs, firstsBy_eq_eraseDupsBy]
    decide +kernel
  have derives : derivable premises goal limits = true :=
    Detachment.derivable_of_given rfl given rfl rfl (by decide)
      (Search.goal_le_admittedLength _ _ _)
  obtain ⟨found, h⟩ := Option.isSome_iff_exists.mp derives
  exact ⟨by decide, by decide, rfl, found, h,
    search_of_higher_limits (by decide) (by decide) rfl h⟩

end ProofPuzzles
