import ProofPuzzles.Puzzle.Problem

/-!
# Chapters

Puzzles made by hand, grouped by the rules that they practise.
-/

namespace ProofPuzzles

/-- A group of puzzles. -/
structure Chapter where
  title : String
  description : String
  problems : List Problem

namespace Chapter

def p : Formula := .letter ⟨15⟩

def q : Formula := .letter ⟨16⟩

def r : Formula := .letter ⟨17⟩

def s : Formula := .letter ⟨18⟩

/-- A puzzle whose statements are written in full. -/
def problem (id name : String) (premises : List Formula) (conclusion : Formula)
    (difficulty : Nat) : Problem where
  premises := premises.map .ofFormula
  conclusion := .ofFormula conclusion
  difficulty := difficulty
  id := id
  name := name

/-- Detaching consequents. -/
def first : Chapter where
  title := "Chapter 1: Modus Ponens"
  description := "Affirm the antecedent to detach the consequent."
  problems := [
    problem "1-1" "Simple Modus Ponens" [.impl p q, p] q 1,
    problem "1-2" "Modus Ponens with Negation" [.impl (.neg r) s, .neg r] s 1,
    problem "1-3" "Chained Modus Ponens" [.impl p q, .impl q r, p] r 2,
    problem "1-4" "Compound Antecedent" [.impl (.conj p q) r, p, q] r 2]

/-- Denying consequents, chaining conditionals, eliminating disjuncts. -/
def second : Chapter where
  title := "Chapter 2: Modus Tollens and Syllogisms"
  description := "Deny the consequent, chain implications, eliminate disjuncts."
  problems := [
    problem "2-1" "Simple Modus Tollens" [.impl p q, .neg q] (.neg p) 1,
    problem "2-2" "Hypothetical Syllogism" [.impl p q, .impl q r] (.impl p r) 1,
    problem "2-3" "Disjunctive Syllogism" [.disj p q, .neg p] q 1,
    problem "2-4" "Tollens then Syllogism" [.impl p q, .neg q, .disj p r] r 2]

/-- The other rules, and several rules together. -/
def third : Chapter where
  title := "Chapter 3: Combining Rules"
  description :=
    "Conjunction, Simplification, Addition, Absorption and Constructive Dilemma."
  problems := [
    problem "3-1" "Simplify and Detach" [.conj p q, .impl p r] r 2,
    problem "3-2" "Build a Conjunction" [.impl p q, p, r] (.conj q r) 2,
    problem "3-3" "Constructive Dilemma" [.impl p q, .impl r s, p] (.disj q s) 2,
    problem "3-4" "Absorption" [.impl p q, p] (.conj p q) 2,
    problem "3-5" "Addition then Syllogism" [.impl p q, p, .impl (.disj q r) s] s 3]

/-- The chapters in order. -/
def all : List Chapter := [first, second, third]

/-- The puzzle with the given identifier. -/
def findProblem? (id : String) : Option Problem :=
  (all.flatMap Chapter.problems).find? (·.id = id)

end Chapter

end ProofPuzzles
