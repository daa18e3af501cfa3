/-!
# Blank characters

The characters that separate symbols without being symbols: the control characters that
move the cursor or separate records, and the spaces and line ends of Unicode. Zero-width
characters are not blank.
-/

namespace ProofPuzzles.Text

/-- A blank is a cursor or separator control, or a Unicode space or line end of positive width. -/
def isBlank (c : Char) : Bool :=
  let n := c.toNat
  (0x09 ≤ n && n ≤ 0x0d) || (0x1c ≤ n && n ≤ 0x20) || n == 0x85 || n == 0xa0 || n == 0x1680
    || (0x2000 ≤ n && n ≤ 0x200a) || n == 0x2028 || n == 0x2029 || n == 0x202f || n == 0x205f
    || n == 0x3000

/-- The characters between those at both ends that are skipped. -/
def trimBy (skipped : Char → Bool) (cs : List Char) : List Char :=
  ((cs.dropWhile skipped).reverse.dropWhile skipped).reverse

/-- The characters between the blanks at both ends. -/
def trim (cs : List Char) : List Char := trimBy isBlank cs

theorem isBlank_of_isWhitespace {c : Char} (h : c.isWhitespace) : isBlank c := by
  simp only [Char.isWhitespace, Bool.or_eq_true, decide_eq_true_eq] at h
  rcases h with ((rfl | rfl) | rfl) | rfl <;> decide

end ProofPuzzles.Text
