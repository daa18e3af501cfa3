import ProofPuzzles.Digest.Sha256
import ProofPuzzles.Statement
import ProofPuzzles.Text.Order

/-!
# Puzzles

A puzzle gives premises and asks for a derivation of a conclusion. Its fingerprint depends
neither on the order of the premises nor on how its statements are written.
-/

namespace ProofPuzzles

/-- A puzzle, with the number of derivation steps that it hides. -/
structure Problem where
  premises : List Statement
  conclusion : Statement
  difficulty : Nat
  id : String
  name : String

namespace Problem

/-- The premises and the conclusion on one line. -/
def text (problem : Problem) : String :=
  ", ".intercalate (problem.premises.map Statement.text) ++ " ⊢ " ++ problem.conclusion.text

/-- What a fingerprint is taken of: the keys of the premises in order, and the key of the
    conclusion. -/
def payload (premises : List Statement) (conclusion : Statement) : String :=
  let keys := Text.sortedBy (fun key => key) (premises.map Statement.key)
  "|".intercalate keys ++ "=>" ++ conclusion.key

/-- The first twelve digits of the digest of the payload. -/
def fingerprint (premises : List Statement) (conclusion : Statement) : String :=
  String.ofList ((Sha256.hexDigest (payload premises conclusion)).toList.take 12)

end Problem

end ProofPuzzles
