import ProofPuzzles.Proofs.WellFormed

/-! # Full forms and keys

A well-formed statement can be restated in full. The full form reads as the same formula, so
restating changes nothing but the tiles, and once is enough. Keys compare statements as texts: full
forms of different formulas are different texts, and none of them looks like the key of a row that
reads as nothing.
-/

namespace ProofPuzzles

namespace Wff

variable {v w : Wff}

/-- The same formula, written in full. -/
def full (w : Wff) : Wff := .ofFormula w.formula

@[simp] theorem formula_full (w : Wff) : w.full.formula = w.formula := rfl

theorem parse_tiles (w : Wff) : Formula.parse w.statement.tiles = some w.formula := by
  rw [← w.statement.formula?_eq, w.reads]

end Wff

theorem Tile.char_ne_mark (t : Tile) : t.char ≠ '!' := by
  cases t with
  | letter x =>
      obtain ⟨i⟩ := x
      revert i
      decide
  | connective c => cases c <;> decide
  | negation | opening | closing => decide

theorem Tile.marked_injective {ts us : List Tile}
    (same : "!" ++ Tile.text ts = "!" ++ Tile.text us) : ts = us := by
  apply Tile.text_injective
  apply String.toList_injective
  simpa [String.toList_append] using congrArg String.toList same

/-- No full form starts with the mark of the keys of rows that read as nothing. -/
theorem Formula.text_ne_marked (f : Formula) (rest : String) : f.text ≠ "!" ++ rest := by
  intro same
  have marked : '!' ∈ f.text.toList := by
    rw [same, String.toList_append]
    exact List.mem_append_left _ List.mem_cons_self
  rw [Formula.text, Tile.text, String.toList_ofList] at marked
  obtain ⟨t, -, mark⟩ := List.mem_map.mp marked
  exact t.char_ne_mark mark

namespace Identity

/-- The key of the statements with this identity. -/
def key : Identity → String
  | .formula f => f.text
  | .tiles ts => "!" ++ Tile.text ts

theorem key_injective : Function.Injective key := by
  intro i j same
  cases i with
  | formula f =>
      cases j with
      | formula g => exact congrArg formula (Formula.text_injective same)
      | tiles us => exact absurd same (f.text_ne_marked _)
  | tiles ts =>
      cases j with
      | formula g => exact absurd same.symm (g.text_ne_marked _)
      | tiles us => exact congrArg tiles (Tile.marked_injective same)

end Identity

namespace Statement

variable {s t : Statement} {f g : Formula}

theorem key_of_formula (reads : s.formula? = some f) : s.key = f.text := by rw [key, reads]

theorem key_eq (s : Statement) : s.key = s.identity.key := by
  unfold key identity
  cases s.formula? <;> rfl

/-- Statements have the same key if and only if they are the same statement. -/
theorem key_eq_iff_identity_eq : s.key = t.key ↔ s.identity = t.identity := by
  rw [key_eq, key_eq, Identity.key_injective.eq_iff]

theorem identity_eq_iff : s.identity = t.identity ↔
    (∃ f, s.formula? = some f ∧ t.formula? = some f) ∨
      s.formula? = none ∧ t.formula? = none ∧ s.tiles = t.tiles := by
  unfold identity
  cases s.formula? <;> cases t.formula? <;> simp [eq_comm]

theorem formula?_eq_of_identity_eq (same : s.identity = t.identity) : s.formula? = t.formula? := by
  rcases identity_eq_iff.mp same with ⟨f, hs, ht⟩ | ⟨hs, ht, -⟩
  · rw [hs, ht]
  · rw [hs, ht]

/-- Keys decide what a statement says. They are equal where both rows read as one formula, or where
neither reads as any and the rows are equal, and never where only one of them reads as a formula. -/
theorem key_exact (s t : Statement) :
    (s.key = t.key ↔
      (∃ f, Formula.parse s.tiles = some f ∧ Formula.parse t.tiles = some f) ∨
        Formula.parse s.tiles = none ∧ Formula.parse t.tiles = none ∧ s.tiles = t.tiles) ∧
      (s.key = t.key ↔ s.identity = t.identity) ∧
      ¬((Formula.parse s.tiles).isSome ∧ Formula.parse t.tiles = none ∧ s.key = t.key) := by
  rw [← s.formula?_eq, ← t.formula?_eq, ← identity_eq_iff]
  refine ⟨key_eq_iff_identity_eq, key_eq_iff_identity_eq, fun ⟨reads, unread, same⟩ => ?_⟩
  rcases identity_eq_iff.mp (key_eq_iff_identity_eq.mp same) with ⟨f, -, other⟩ | ⟨none, -, -⟩
  · rw [unread] at other
    cases other
  · rw [none] at reads
    cases reads

end Statement

/-- The full form of a formula reads as the formula, and restating a statement in full keeps its key
and what it reads as; in full there is only one way to write it. -/
theorem Wff.full_round_trip :
    (∀ f : Formula, Formula.parse (Statement.ofFormula f).tiles = some f) ∧
      ∀ w : Wff, w.full.statement.key = w.statement.key ∧
        Formula.parse w.full.statement.tiles = Formula.parse w.statement.tiles ∧
        w.full.full.statement.tiles = w.full.statement.tiles := by
  refine ⟨Formula.parse_tiles, fun w => ⟨?_, ?_, rfl⟩⟩
  · rw [Statement.key_of_formula w.reads, Statement.key_of_formula w.full.reads, formula_full]
  · rw [w.full.parse_tiles, w.parse_tiles, formula_full]

end ProofPuzzles
