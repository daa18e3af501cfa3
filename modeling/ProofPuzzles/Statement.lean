import ProofPuzzles.Formula.Parser
import ProofPuzzles.Formula.Spelling

/-!
# Statements

A statement is a row of tiles as somebody wrote it, together with the formula it reads as, if
it reads as one. Two statements are the same when they read as the same formula, so redundant
parentheses do not matter; rows that read as no formula are the same only when their tiles are.
-/

namespace ProofPuzzles

/-- What decides whether two statements are the same. -/
inductive Identity where
  | formula (f : Formula)
  | tiles (ts : List Tile)
  deriving Repr, DecidableEq, Hashable

/-- A row of tiles and the formula that it reads as. -/
structure Statement where
  tiles : List Tile
  formula? : Option Formula
  formula?_eq : formula? = Formula.parse tiles

namespace Statement

/-- The statement written with the given tiles. -/
def ofTiles (tiles : List Tile) : Statement := ⟨tiles, Formula.parse tiles, rfl⟩

/-- The statement that writes a formula in full. -/
def ofFormula (f : Formula) : Statement := ⟨f.tiles, some f, (Formula.parse_tiles f).symm⟩

/-- The statement that a text spells. -/
def ofText (text : String) : Except FormulaError Statement :=
  (Spelling.tiles text).map ofTiles

/-- The symbols of the statement. -/
def text (s : Statement) : String := Tile.text s.tiles

/-- The number of tiles. -/
def length (s : Statement) : Nat := s.tiles.length

/-- The formula if there is one, else the tiles. -/
def identity (s : Statement) : Identity :=
  match s.formula? with
  | some f => .formula f
  | none => .tiles s.tiles

/-- A text that is equal for the same statements: the full form of the formula, or an
    exclamation mark, which no full form has, and the symbols. -/
def key (s : Statement) : String :=
  match s.formula? with
  | some f => f.text
  | none => "!" ++ s.text

theorem eq_of_tiles_eq {s t : Statement} (h : s.tiles = t.tiles) : s = t := by
  obtain ⟨ts, f?, hf⟩ := s
  obtain ⟨us, g?, hg⟩ := t
  cases h
  cases hf
  cases hg
  rfl

instance : DecidableEq Statement := fun s t =>
  if h : s.tiles = t.tiles then isTrue (eq_of_tiles_eq h)
  else isFalse fun hst => h (congrArg tiles hst)

@[simp] theorem tiles_ofFormula (f : Formula) : (ofFormula f).tiles = f.tiles := rfl

@[simp] theorem formula?_ofFormula (f : Formula) : (ofFormula f).formula? = some f := rfl

end Statement

/-- A statement that reads as a formula. -/
structure Wff where
  statement : Statement
  formula : Formula
  reads : statement.formula? = some formula

namespace Wff

/-- A formula written in full. -/
def ofFormula (f : Formula) : Wff := ⟨.ofFormula f, f, rfl⟩

/-- The symbols of the statement. -/
def text (w : Wff) : String := w.statement.text

/-- The number of tiles as written. -/
def length (w : Wff) : Nat := w.statement.length

theorem eq_of_statement_eq {v w : Wff} (h : v.statement = w.statement) : v = w := by
  obtain ⟨s, f, hf⟩ := v
  obtain ⟨t, g, hg⟩ := w
  cases h
  cases hf.symm.trans hg
  rfl

instance : DecidableEq Wff := fun v w =>
  if h : v.statement = w.statement then isTrue (eq_of_statement_eq h)
  else isFalse fun hvw => h (congrArg statement hvw)

@[simp] theorem formula_ofFormula (f : Formula) : (ofFormula f).formula = f := rfl

end Wff

namespace Statement

/-- The statement with its formula, if it reads as one. -/
def wff? (s : Statement) : Option Wff :=
  match h : s.formula? with
  | some f => some ⟨s, f, h⟩
  | none => none

/-- The statement with its formula, or the complaint that it reads as none. -/
def wff (s : Statement) : Except FormulaError Wff :=
  match s.wff? with
  | some w => .ok w
  | none => .error (.notWellFormed s.text)

end Statement

/-- The statements that read as formulas, in order. -/
def wellFormed (statements : List Statement) : List Wff := statements.filterMap Statement.wff?

end ProofPuzzles
