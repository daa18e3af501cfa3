import ProofPuzzles.Formula.Basic

/-!
# Tiles

A formula is written as a row of tiles, one symbol each. The full form of a formula puts
parentheses around every pair joined by a connective, the outermost one included, and writes
a negation bare in front of what it negates.
-/

namespace ProofPuzzles

/-- A written symbol. -/
inductive Tile where
  | letter (x : Letter)
  | negation
  | connective (c : Connective)
  | opening
  | closing
  deriving Repr, DecidableEq, Hashable

/-- The part a tile can play in a formula. -/
inductive TileKind where
  | letter
  | unary
  | binary
  | opening
  | closing
  deriving Repr, DecidableEq

/-- The sign of a connective. -/
def Connective.char : Connective → Char
  | .and => '∧'
  | .or => '∨'
  | .implies => '→'
  | .iff => '↔'

/-- The connectives in the order in which they are offered. -/
def Connective.all : List Connective := [.and, .or, .implies, .iff]

namespace Tile

/-- The symbol on the tile. -/
def char : Tile → Char
  | .letter x => x.char
  | .negation => '¬'
  | .connective c => c.char
  | .opening => '('
  | .closing => ')'

/-- The part that the tile plays. -/
def kind : Tile → TileKind
  | .letter _ => .letter
  | .negation => .unary
  | .connective _ => .binary
  | .opening => .opening
  | .closing => .closing

/-- The tiles that are no letters, in the order in which they are offered. -/
def signs : List Tile :=
  .negation :: (Connective.all.map .connective ++ [.opening, .closing])

/-- The tile that bears the symbol, if there is one. -/
def ofChar? (c : Char) : Option Tile :=
  match Letter.ofChar? c with
  | some x => some (.letter x)
  | none => signs.find? (·.char == c)

/-- The tiles offered to someone who builds formulas over the given letters. -/
def palette (letters : List Letter) : List Tile := letters.map .letter ++ signs

theorem ofChar?_char (t : Tile) : ofChar? t.char = some t := by
  cases t with
  | letter x => simp [ofChar?, char, Letter.ofChar?_char]
  | connective c => cases c <;> rfl
  | negation | opening | closing => rfl

theorem char_of_ofChar? {c : Char} {t : Tile} (h : ofChar? c = some t) : t.char = c := by
  unfold ofChar? at h
  split at h
  next x hx => cases h; exact Letter.char_of_ofChar? hx
  next => simpa using List.find?_some h

theorem char_injective {s t : Tile} (h : s.char = t.char) : s = t := by
  simpa [ofChar?_char] using congrArg ofChar? h

end Tile

/-- The symbols of a row of tiles as one text. -/
def Tile.text (tiles : List Tile) : String := String.ofList (tiles.map Tile.char)

theorem Tile.text_injective {ts us : List Tile} (h : Tile.text ts = Tile.text us) : ts = us := by
  have hmap : ts.map Tile.char = us.map Tile.char := by
    simpa [Tile.text] using congrArg String.toList h
  exact (List.map_inj_right fun _ _ => Tile.char_injective).mp hmap

namespace Formula

/-- The full form of the formula, followed by more tiles. -/
def tilesThen : Formula → List Tile → List Tile
  | .letter x, rest => .letter x :: rest
  | .neg f, rest => .negation :: f.tilesThen rest
  | .bin c l r, rest =>
    .opening :: l.tilesThen (.connective c :: r.tilesThen (.closing :: rest))

/-- The full form of the formula. -/
def tiles (f : Formula) : List Tile := f.tilesThen []

/-- The full form of the formula as a text. -/
def text (f : Formula) : String := Tile.text f.tiles

theorem tilesThen_eq (f : Formula) (rest : List Tile) : f.tilesThen rest = f.tiles ++ rest := by
  unfold tiles
  induction f generalizing rest with
  | letter x => rfl
  | neg f ih => simp [tilesThen, ih rest]
  | bin c l r ihl ihr =>
    simp only [tilesThen]
    rw [ihl, ihr, ihl (.connective c :: r.tilesThen [.closing]), ihr [.closing]]
    simp

theorem tiles_letter (x : Letter) : (Formula.letter x).tiles = [.letter x] := rfl

theorem tiles_neg (f : Formula) : (Formula.neg f).tiles = .negation :: f.tiles := rfl

theorem tiles_bin (c : Connective) (l r : Formula) :
    (Formula.bin c l r).tiles
      = .opening :: (l.tiles ++ .connective c :: (r.tiles ++ [.closing])) := by
  simp only [tiles, tilesThen]
  rw [tilesThen_eq l, tilesThen_eq r]
  rfl

theorem tiles_length_pos (f : Formula) : 0 < f.tiles.length := by
  cases f with
  | letter x => simp [tiles_letter]
  | neg f => simp [tiles_neg]
  | bin c l r => simp [tiles_bin]

end Formula

end ProofPuzzles
