import ProofPuzzles.Firsts
import ProofPuzzles.Formula.Error
import ProofPuzzles.Formula.Tile
import ProofPuzzles.Text.Order

/-!
# Letters and tiles by name, and sets of them in order
-/

namespace ProofPuzzles

/-- The letter whose name is the whole text. -/
def Letter.ofName (name : String) : Except FormulaError Letter :=
  match name.toList with
  | [c] =>
    match Letter.ofChar? c with
    | some x => .ok x
    | none => .error (.notALetter name)
  | _ => .error (.notALetter name)

/-- The tile whose symbol is the whole text. -/
def Tile.ofSymbol (symbol : String) : Except FormulaError Tile :=
  match symbol.toList with
  | [c] =>
    match Tile.ofChar? c with
    | some t => .ok t
    | none => .error (.unknownSymbol symbol)
  | _ => .error (.unknownSymbol symbol)

namespace Formula

/-- The letters of the formula in alphabetical order. -/
def letterSet (f : Formula) : List Letter :=
  let letters := f.letters
  Letter.all.filter (letters.contains ·)

/-- The distinct subformulas in the order of their texts. -/
def subformulaSet (f : Formula) : List Formula :=
  Text.sortedBy Formula.text (firstsBy id f.subformulas)

end Formula

end ProofPuzzles
