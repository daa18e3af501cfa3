import ProofPuzzles.Firsts
import ProofPuzzles.Statement
import Std.Data.HashMap.Lemmas

/-!
# Known statements

A list of well-formed statements from which rules derive more, with an index that finds the
statements that read as a given formula.
-/

namespace ProofPuzzles

/-- Well-formed statements in order, and for each formula those that read as it. -/
structure Known where
  entries : List Wff
  index : Std.HashMap Formula (List Wff)
  index_eq : ∀ f, index.getD f [] = entries.filter (·.formula = f)

namespace Known

/-- Nothing is known. -/
def empty : Known := ⟨[], ∅, by simp⟩

/-- One more statement, in front of the others. -/
def cons (w : Wff) (known : Known) : Known where
  entries := w :: known.entries
  index := known.index.insert w.formula (w :: known.index.getD w.formula [])
  index_eq f := by
    by_cases h : w.formula = f
    · subst h
      simp [known.index_eq]
    · simp [Std.HashMap.getD_insert, h, known.index_eq]

/-- The statements of a list, repetitions included. -/
def ofList : List Wff → Known
  | [] => empty
  | w :: ws => cons w (ofList ws)

/-- The statements of a list, the first one for each formula. -/
def ofDistinct (ws : List Wff) : Known := ofList (firstsBy Wff.formula ws)

/-- The known statements that read as the formula, in order. -/
def copies (known : Known) (f : Formula) : List Wff := known.index.getD f []

/-- The first known statement that reads as the formula. -/
def first? (known : Known) (f : Formula) : Option Wff := (known.copies f).head?

@[simp] theorem entries_ofList (ws : List Wff) : (ofList ws).entries = ws := by
  induction ws with
  | nil => rfl
  | cons w ws ih => simp [ofList, cons, ih]

@[simp] theorem entries_ofDistinct (ws : List Wff) :
    (ofDistinct ws).entries = firstsBy Wff.formula ws := entries_ofList _

theorem copies_eq (known : Known) (f : Formula) :
    known.copies f = known.entries.filter (·.formula = f) := known.index_eq f

theorem first?_eq (known : Known) (f : Formula) :
    known.first? f = known.entries.find? (·.formula = f) := by
  simp [first?, copies_eq]

end Known

end ProofPuzzles
