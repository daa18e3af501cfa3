/-!
# Propositional formulas

Formulas as trees over the letters `a` to `z`, negation and four binary connectives. The tree
says nothing about parentheses: how a formula is written belongs to its tiles.
-/

namespace ProofPuzzles

/-- A propositional letter, given by its place in the alphabet. -/
structure Letter where
  index : Fin 26
  deriving Repr, DecidableEq, Hashable

namespace Letter

/-- The letters in alphabetical order. -/
def all : List Letter := (List.finRange 26).map (⟨·⟩)

/-- The character that stands for the letter. -/
def char (x : Letter) : Char := Char.ofNat ('a'.toNat + x.index)

/-- The letter that a character stands for, if it is a lowercase ASCII letter. -/
def ofChar? (c : Char) : Option Letter :=
  if h : 'a'.toNat ≤ c.toNat ∧ c.toNat < 'a'.toNat + 26 then
    some ⟨⟨c.toNat - 'a'.toNat, by omega⟩⟩
  else none

/-- The letters that puzzles are built from unless others are asked for, `p` to `w`. -/
def puzzleLetters : List Letter := all.filter fun x => 'p' ≤ x.char && x.char ≤ 'w'

theorem mem_all (x : Letter) : x ∈ all := by simp [all]

theorem ofChar?_char : ∀ x : Letter, ofChar? x.char = some x
  | ⟨i⟩ => by revert i; decide

theorem char_of_ofChar? {c : Char} {x : Letter} (h : ofChar? c = some x) : x.char = c := by
  unfold ofChar? at h
  split at h
  next hc =>
    cases h
    simp only [char]
    rw [Nat.add_sub_cancel' hc.1, Char.ofNat_toNat]
  next => cases h

theorem char_injective {x y : Letter} (h : x.char = y.char) : x = y := by
  simpa [ofChar?_char] using congrArg ofChar? h

end Letter

/-- A binary connective. -/
inductive Connective where
  /-- Both sides hold. -/
  | and
  /-- At least one side holds. -/
  | or
  /-- The right side holds if the left one does. -/
  | implies
  /-- Both sides hold or neither does. -/
  | iff
  deriving Repr, DecidableEq, Hashable

/-- A formula: a letter, a negation, or two formulas joined by a connective. -/
inductive Formula where
  | letter (x : Letter)
  | neg (f : Formula)
  | bin (c : Connective) (l r : Formula)
  deriving Repr, DecidableEq, Hashable

namespace Formula

/-- The conjunction of two formulas. -/
@[match_pattern] abbrev conj (l r : Formula) : Formula := .bin .and l r

/-- The disjunction of two formulas. -/
@[match_pattern] abbrev disj (l r : Formula) : Formula := .bin .or l r

/-- The conditional from the first formula to the second. -/
@[match_pattern] abbrev impl (l r : Formula) : Formula := .bin .implies l r

/-- The biconditional of two formulas. -/
@[match_pattern] abbrev iff (l r : Formula) : Formula := .bin .iff l r

/-- The number of connectives, negations included, on the longest way from the root to a
    letter. -/
def depth : Formula → Nat
  | .letter _ => 0
  | .neg f => f.depth + 1
  | .bin _ l r => max l.depth r.depth + 1

/-- The formula and all formulas inside it, each before its own parts and the left part before
    the right one. -/
def subformulas : Formula → List Formula
  | .letter x => [.letter x]
  | .neg f => .neg f :: f.subformulas
  | .bin c l r => .bin c l r :: (l.subformulas ++ r.subformulas)

/-- The letters in the order in which they occur, with repetitions. -/
def letters : Formula → List Letter
  | .letter x => [x]
  | .neg f => f.letters
  | .bin _ l r => l.letters ++ r.letters

/-- The formula under all leading negations. -/
def core : Formula → Formula
  | .neg f => f.core
  | f => f

def leadingNegations : Formula → Nat
  | .neg f => f.leadingNegations + 1
  | _ => 0

/-- The letter under the leading negations, if nothing else stands there. -/
def base? (f : Formula) : Option Letter :=
  match f.core with
  | .letter x => some x
  | _ => none

/-- A letter or the negation of a letter. -/
def isLiteral : Formula → Bool
  | .letter _ => true
  | .neg (.letter _) => true
  | _ => false

theorem self_mem_subformulas (f : Formula) : f ∈ f.subformulas := by
  cases f <;> simp [subformulas]

end Formula

end ProofPuzzles
