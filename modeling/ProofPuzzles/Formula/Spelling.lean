import ProofPuzzles.Formula.Error
import ProofPuzzles.Formula.Tile
import ProofPuzzles.Text.Blank

/-!
# Spellings of the signs

A sign can be typed with other characters than its own: `->` for `→`, `&` for `∧`. Before a
text is cut into tiles every such spelling is replaced by the sign. The spellings are replaced
one after the other over the whole text, longer ones before the shorter ones that they end in.
-/

namespace ProofPuzzles.Spelling

/-- The other spellings and the signs they stand for, in the order in which they are replaced. -/
def table : List (List Char × Tile) := [
  (['<', '-', '>'], .connective .iff),
  (['<', '=', '>'], .connective .iff),
  (['-', '>'], .connective .implies),
  (['=', '>'], .connective .implies),
  (['~'], .negation),
  (['!'], .negation),
  (['&'], .connective .and),
  (['/', '\\'], .connective .and),
  (['\\', '/'], .connective .or),
  (['|'], .connective .or),
  (['⇔'], .connective .iff),
  (['⇒'], .connective .implies),
  (['⋀'], .connective .and),
  (['⋁'], .connective .or)]

/-- Drops the given number of characters and then replaces every occurrence of the spelling by
    the sign, from left to right and without overlaps. -/
def replaceAfter (spelling : List Char) (sign : Char) : Nat → List Char → List Char
  | _, [] => []
  | skip + 1, _ :: cs => replaceAfter spelling sign skip cs
  | 0, c :: cs =>
    if spelling.isPrefixOf (c :: cs) then
      sign :: replaceAfter spelling sign (spelling.length - 1) cs
    else c :: replaceAfter spelling sign 0 cs

/-- Replaces every occurrence of the spelling by the sign. -/
def replace (spelling : List Char) (sign : Char) (cs : List Char) : List Char :=
  replaceAfter spelling sign 0 cs

/-- Replaces every other spelling by its sign. -/
def normalize (cs : List Char) : List Char :=
  table.foldl (fun cs (spelling, tile) => replace spelling tile.char cs) cs

/-- Cuts characters into tiles and skips blanks. The first character is counted as the given
    position. -/
def tilesFrom : Nat → List Char → Except FormulaError (List Tile)
  | _, [] => .ok []
  | position, c :: cs =>
    if Text.isBlank c then tilesFrom (position + 1) cs
    else match Tile.ofChar? c with
      | some t => (tilesFrom (position + 1) cs).map (t :: ·)
      | none => .error (.unexpectedCharacter position c)

def tiles (text : String) : Except FormulaError (List Tile) :=
  tilesFrom 0 (normalize text.toList)

end ProofPuzzles.Spelling
