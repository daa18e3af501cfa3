import Mathlib.Data.List.Basic
import ProofPuzzles.Statement

/-! # Well-formed statements

Well-formed statements carry the formula that they read as. Among them, the same statement means
the same formula.
-/

namespace ProofPuzzles

namespace Statement

variable {s t : Statement} {w : Wff} {f g : Formula}

theorem wff?_eq_some : s.wff? = some w ↔ w.statement = s := by
  unfold wff?
  constructor
  · intro found
    split at found
    · cases found
      rfl
    · cases found
  · rintro rfl
    split
    · rename_i f reads
      exact congrArg some (Wff.eq_of_statement_eq rfl)
    · rename_i unread
      simp [w.reads] at unread

theorem map_formula_wff? (s : Statement) : s.wff?.map Wff.formula = s.formula? := by
  unfold wff?
  split
  · rename_i f reads
    exact reads.symm
  · rename_i unread
    exact unread.symm

theorem exists_wff (reads : s.formula? = some f) : ∃ w : Wff, w.statement = s ∧ w.formula = f :=
  ⟨⟨s, f, reads⟩, rfl, rfl⟩

theorem identity_eq (reads : s.formula? = some f) : s.identity = .formula f := by
  rw [identity, reads]

theorem identity_eq_formula_iff : s.identity = .formula f ↔ s.formula? = some f := by
  unfold identity
  split
  · rename_i g reads
    rw [reads, Identity.formula.injEq, Option.some.injEq]
  · rename_i unread
    simp [unread]

end Statement

theorem mem_wellFormed {statements : List Statement} {w : Wff} :
    w ∈ wellFormed statements ↔ w.statement ∈ statements := by
  rw [wellFormed, List.mem_filterMap]
  constructor
  · rintro ⟨s, member, reads⟩
    rwa [Statement.wff?_eq_some.mp reads]
  · intro member
    exact ⟨w.statement, member, Statement.wff?_eq_some.mpr rfl⟩

theorem map_formula_ofFormula (formulas : List Formula) :
    (formulas.map Wff.ofFormula).map Wff.formula = formulas := by
  rw [List.map_map]
  exact List.map_id formulas

theorem map_formula_wellFormed (statements : List Statement) :
    (wellFormed statements).map Wff.formula = statements.filterMap Statement.formula? := by
  rw [wellFormed, List.map_filterMap]
  exact List.filterMap_congr fun s _ => s.map_formula_wff?

/-- Statements that all read as formulas are all well-formed. -/
theorem exists_mapM_wff? {statements : List Statement} {formulas : List Formula}
    (reads : statements.map Statement.formula? = formulas.map some) :
    ∃ ws, statements.mapM Statement.wff? = some ws ∧ ws.map Wff.formula = formulas := by
  induction statements generalizing formulas with
  | nil =>
      rw [List.map_nil, eq_comm, List.map_eq_nil_iff] at reads
      exact ⟨[], rfl, reads.symm⟩
  | cons s statements ih =>
      obtain ⟨f, formulas, rfl, first, others⟩ := List.map_eq_cons_iff.mp reads.symm
      obtain ⟨ws, found, rfl⟩ := ih others.symm
      have wff : s.wff? = some ⟨s, f, first.symm⟩ := Statement.wff?_eq_some.mpr rfl
      exact ⟨⟨s, f, first.symm⟩ :: ws, by simp [List.mapM_cons, wff, found], rfl⟩

theorem map_statement_wellFormed (statements : List Statement) :
    (wellFormed statements).map Wff.statement = statements.filter (·.formula?.isSome) := by
  induction statements with
  | nil => rfl
  | cons s statements ih =>
      cases reads : s.formula? with
      | none =>
          have unread : s.wff? = none := by
            rw [Option.eq_none_iff_forall_ne_some]
            intro w found
            rw [← Statement.wff?_eq_some.mp found, w.reads] at reads
            cases reads
          rw [wellFormed, List.filterMap_cons_none unread,
            List.filter_cons_of_neg (by simp [reads])]
          exact ih
      | some f =>
          have found : s.wff? = some ⟨s, f, reads⟩ := Statement.wff?_eq_some.mpr rfl
          rw [wellFormed, List.filterMap_cons_some found, List.map_cons,
            List.filter_cons_of_pos (by simp [reads])]
          exact congrArg (s :: ·) ih

end ProofPuzzles
