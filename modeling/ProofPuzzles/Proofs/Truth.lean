import ProofPuzzles.Statement

/-! # Truth

What the formulas mean: each letter is true or false, and the connectives are read classically.
Neither the checker nor the search ever computes a truth value, so statements about truth say
something about them from outside.
-/

namespace ProofPuzzles

/-- A truth value for each letter. -/
abbrev Assignment := Letter → Bool

/-- The truth table of a connective. -/
def Connective.eval : Connective → Bool → Bool → Bool
  | .and, x, y => x && y
  | .or, x, y => x || y
  | .implies, x, y => !x || y
  | .iff, x, y => x == y

/-- The truth value of a formula. -/
def Formula.eval (v : Assignment) : Formula → Bool
  | .letter x => v x
  | .neg f => !f.eval v
  | .bin c l r => c.eval (l.eval v) (r.eval v)

/-- The statement reads as a formula, and that formula is true. -/
def Statement.Holds (v : Assignment) (s : Statement) : Prop :=
  ∃ f, s.formula? = some f ∧ f.eval v = true

namespace Formula

variable (v : Assignment) (f g : Formula)

theorem eval_neg : (neg f).eval v = !f.eval v := rfl

theorem eval_conj : (conj f g).eval v = (f.eval v && g.eval v) := rfl

theorem eval_disj : (disj f g).eval v = (f.eval v || g.eval v) := rfl

theorem eval_impl : (impl f g).eval v = (!f.eval v || g.eval v) := rfl

theorem eval_iff : (iff f g).eval v = (f.eval v == g.eval v) := rfl

end Formula

end ProofPuzzles
