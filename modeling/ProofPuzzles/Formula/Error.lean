import ProofPuzzles.Text.Quoted

/-!
# What can be wrong with a written formula
-/

namespace ProofPuzzles

/-- A reason why a text, a symbol or a name is refused. -/
inductive FormulaError where
  /-- A character of the text, counted from zero after spellings are replaced, is no symbol. -/
  | unexpectedCharacter (position : Nat) (c : Char)
  /-- No tile bears this symbol. -/
  | unknownSymbol (symbol : String)
  /-- No letter has this name. -/
  | notALetter (name : String)
  /-- The text consists of symbols but is not a formula. -/
  | notWellFormed (text : String)
  deriving Repr, DecidableEq

/-- The wording of each reason. -/
def FormulaError.message : FormulaError → String
  | .unexpectedCharacter position c =>
    "Unexpected character at position " ++ toString position ++ ": " ++ Text.quoted (c.toString)
  | .unknownSymbol symbol => "Unknown symbol: " ++ Text.quoted symbol
  | .notALetter name => "Not a variable name: " ++ Text.quoted name
  | .notWellFormed text => "Not a well-formed formula: " ++ Text.quoted text

end ProofPuzzles
