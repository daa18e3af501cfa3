import ProofPuzzles.Formula.Tile

/-!
# Reading formulas from tiles

From the loosest to the tightest, the connectives are `↔`, `→`, `∨`, `∧` and then negation.
A row of `→` groups to the right, a row of any other connective to the left:

* a biconditional is a row of conditionals joined by `↔`;
* a conditional is a disjunction, or a disjunction, `→` and a conditional;
* a disjunction is a row of conjunctions joined by `∨`;
* a conjunction is a row of negations joined by `∧`;
* a negation is `¬` and a negation, a letter, or a biconditional between parentheses.

Main statement: `Formula.parse_tiles`, the full form of a formula reads as that formula.
-/

namespace ProofPuzzles.Formula

/-- Reads a formula from the front of a row of tiles and returns what follows it. -/
abbrev Reader := List Tile → Option (Formula × List Tile)

/-- Reads a negation, with a reader for what stands between parentheses. -/
def readNegation (nested : Reader) : Reader
  | .negation :: ts =>
    match readNegation nested ts with
    | some (f, rest) => some (.neg f, rest)
    | none => none
  | .letter x :: ts => some (.letter x, ts)
  | .opening :: ts =>
    match nested ts with
    | some (f, .closing :: rest) => some (f, rest)
    | _ => none
  | _ => none

/-- Goes on with a row of operands joined by `c`, grouping to the left; `f` is the formula so
    far. No more operands are read than the bound says. -/
def extendLeft (c : Connective) (operand : Reader) : Nat → Formula → Reader
  | bound + 1, f, .connective d :: ts =>
    if d = c then
      match operand ts with
      | some (g, rest) => extendLeft c operand bound (.bin c f g) rest
      | none => none
    else some (f, .connective d :: ts)
  | _, f, ts => some (f, ts)

/-- Reads a row of operands joined by `c`, grouping to the left. -/
def readLeft (c : Connective) (operand : Reader) (bound : Nat) : Reader := fun ts =>
  match operand ts with
  | some (f, rest) => extendLeft c operand bound f rest
  | none => none

/-- Reads a row of operands joined by `c`, grouping to the right. -/
def readRight (c : Connective) (operand : Reader) : Nat → Reader
  | 0, _ => none
  | bound + 1, ts =>
    match operand ts with
    | some (f, .connective d :: rest) =>
      if d = c then
        match readRight c operand bound rest with
        | some (g, rest) => some (.bin c f g, rest)
        | none => none
      else some (f, .connective d :: rest)
    | other => other

/-- Reads a biconditional in which parentheses are nested less deeply than the bound, and rows
    have no more operands than the bound. Every parenthesis and every operand takes a tile, so
    a bound above the number of tiles is none. -/
def readIff : Nat → Reader
  | 0 => fun _ => none
  | bound + 1 =>
    let conjunction := readLeft .and (readNegation (readIff bound)) (bound + 1)
    let disjunction := readLeft .or conjunction (bound + 1)
    let conditional := readRight .implies disjunction (bound + 1)
    readLeft .iff conditional (bound + 1)

/-- The formula that a row of tiles reads as, if the whole row is a formula. -/
def parse (ts : List Tile) : Option Formula :=
  match readIff (ts.length + 1) ts with
  | some (f, []) => some f
  | _ => none

/-! ## The full form reads back -/

/-- A row that does not go on with `c`. -/
def NotNext (c : Connective) : List Tile → Prop
  | .connective d :: _ => d ≠ c
  | _ => True

theorem extendLeft_of_notNext {c : Connective} {operand : Reader} {n : Nat} {f : Formula}
    {ts : List Tile} (h : NotNext c ts) : extendLeft c operand n f ts = some (f, ts) := by
  unfold extendLeft
  split
  next d ts => simp [show d ≠ c from h]
  next => rfl

theorem readLeft_of_notNext {c : Connective} {operand : Reader} {n : Nat} {f : Formula}
    {ts rest : List Tile} (hf : operand ts = some (f, rest)) (h : NotNext c rest) :
    readLeft c operand n ts = some (f, rest) := by
  simp [readLeft, hf, extendLeft_of_notNext h]

theorem readRight_of_notNext {c : Connective} {operand : Reader} {n : Nat} {f : Formula}
    {ts rest : List Tile} (hf : operand ts = some (f, rest)) (h : NotNext c rest) :
    readRight c operand (n + 1) ts = some (f, rest) := by
  simp only [readRight, hf]
  split
  next d rest heq =>
    cases heq
    simp [show d ≠ c from h]
  next => rfl

theorem readLeft_pair {c : Connective} {operand : Reader} {n : Nat} {f g : Formula}
    {ts us rest : List Tile} (hf : operand ts = some (f, .connective c :: us))
    (hg : operand us = some (g, rest)) (h : NotNext c rest) :
    readLeft c operand (n + 1) ts = some (.bin c f g, rest) := by
  simp [readLeft, hf, extendLeft, hg, extendLeft_of_notNext h]

theorem readRight_pair {c : Connective} {operand : Reader} {n : Nat} {f g : Formula}
    {ts us rest : List Tile} (hf : operand ts = some (f, .connective c :: us))
    (hg : operand us = some (g, rest)) (h : NotNext c rest) :
    readRight c operand (n + 2) ts = some (.bin c f g, rest) := by
  rw [readRight, hf]
  simp [readRight_of_notNext hg h]

/-- Two operands joined by a connective and closed by a parenthesis are read as one pair. -/
theorem readIff_pair {c : Connective} {n : Nat} {f g : Formula} {ts us rest : List Tile}
    (hf : readNegation (readIff (n + 1)) ts = some (f, .connective c :: us))
    (hg : readNegation (readIff (n + 1)) us = some (g, .closing :: rest)) :
    readIff (n + 2) ts = some (.bin c f g, .closing :: rest) := by
  have closed : ∀ d, NotNext d (.closing :: rest) := fun _ => trivial
  have other : ∀ {d}, c ≠ d → NotNext d (.connective c :: us) := fun h => h
  simp only [readIff]
  cases c with
  | and =>
    have h := readLeft_pair (n := n + 1) hf hg (closed _)
    have h := readLeft_of_notNext (n := n + 2) h (closed .or)
    have h := readRight_of_notNext (n := n + 1) h (closed .implies)
    exact readLeft_of_notNext h (closed .iff)
  | or =>
    have hf := readLeft_of_notNext (n := n + 2) hf (other (d := .and) (by decide))
    have hg := readLeft_of_notNext (n := n + 2) hg (closed .and)
    have h := readLeft_pair (n := n + 1) hf hg (closed _)
    have h := readRight_of_notNext (n := n + 1) h (closed .implies)
    exact readLeft_of_notNext h (closed .iff)
  | implies =>
    have hf := readLeft_of_notNext (n := n + 2) hf (other (d := .and) (by decide))
    have hf := readLeft_of_notNext (n := n + 2) hf (other (d := .or) (by decide))
    have hg := readLeft_of_notNext (n := n + 2) hg (closed .and)
    have hg := readLeft_of_notNext (n := n + 2) hg (closed .or)
    have h := readRight_pair (n := n) hf hg (closed _)
    exact readLeft_of_notNext h (closed .iff)
  | iff =>
    have hf := readLeft_of_notNext (n := n + 2) hf (other (d := .and) (by decide))
    have hf := readLeft_of_notNext (n := n + 2) hf (other (d := .or) (by decide))
    have hf := readRight_of_notNext (n := n + 1) hf (other (d := .implies) (by decide))
    have hg := readLeft_of_notNext (n := n + 2) hg (closed .and)
    have hg := readLeft_of_notNext (n := n + 2) hg (closed .or)
    have hg := readRight_of_notNext (n := n + 1) hg (closed .implies)
    exact readLeft_pair (n := n + 1) hf hg (closed _)

/-- The full form reads as a negation, whatever follows it. -/
theorem readNegation_tilesThen {f : Formula} {n : Nat} (h : f.tiles.length ≤ n)
    (rest : List Tile) : readNegation (readIff n) (f.tilesThen rest) = some (f, rest) := by
  induction f generalizing n rest with
  | letter x => rfl
  | neg f ih =>
    rw [tiles_neg, List.length_cons] at h
    simp [tilesThen, readNegation, ih (n := n) (by omega)]
  | bin c l r ihl ihr =>
    rw [tiles_bin] at h
    simp only [List.length_cons, List.length_append, List.length_nil] at h
    obtain ⟨m, rfl⟩ : ∃ m, n = m + 2 := ⟨n - 2, by omega⟩
    have hl := ihl (n := m + 1) (by omega) (.connective c :: r.tilesThen (.closing :: rest))
    have hr := ihr (n := m + 1) (by omega) (.closing :: rest)
    simp [tilesThen, readNegation, readIff_pair hl hr]

/-- The full form of a formula reads as that formula. -/
theorem parse_tiles (f : Formula) : parse f.tiles = some f := by
  have h := readNegation_tilesThen (Nat.le_refl f.tiles.length) []
  have ended : ∀ d, NotNext d [] := fun _ => trivial
  have h := readLeft_of_notNext (n := f.tiles.length + 1) h (ended .and)
  have h := readLeft_of_notNext (n := f.tiles.length + 1) h (ended .or)
  have h := readRight_of_notNext (n := f.tiles.length) h (ended .implies)
  have h := readLeft_of_notNext (n := f.tiles.length + 1) h (ended .iff)
  simp only [parse, readIff]
  rw [show f.tiles = f.tilesThen [] from rfl] at *
  rw [h]

theorem tiles_injective {f g : Formula} (h : f.tiles = g.tiles) : f = g := by
  simpa [parse_tiles] using congrArg parse h

theorem text_injective {f g : Formula} (h : f.text = g.text) : f = g :=
  tiles_injective (Tile.text_injective h)

end ProofPuzzles.Formula
