import ProofPuzzles.Firsts
import ProofPuzzles.Formula.Basic
import ProofPuzzles.Rule
import ProofPuzzles.Statement

/-!
# Applying the rules of replacement

For each rule, the forms by which it can replace a whole formula, and from them all formulas
that arise when one part of a formula is replaced.
-/

namespace ProofPuzzles.Replacement

/-- `¬(A∧B)` and `¬A∨¬B`; `¬(A∨B)` and `¬A∧¬B`. -/
def deMorgan : Formula → List Formula
  | .neg (.conj a b) => [.disj (.neg a) (.neg b)]
  | .neg (.disj a b) => [.conj (.neg a) (.neg b)]
  | .disj (.neg a) (.neg b) => [.neg (.conj a b)]
  | .conj (.neg a) (.neg b) => [.neg (.disj a b)]
  | _ => []

/-- `A∧B` and `B∧A`; `A∨B` and `B∨A`. -/
def commutation : Formula → List Formula
  | .conj a b => [.conj b a]
  | .disj a b => [.disj b a]
  | _ => []

/-- Rows of three conjuncts or of three disjuncts can be grouped either way. -/
def association : Formula → List Formula
  | .conj l r => group .and l r
  | .disj l r => group .or l r
  | _ => []
where
  group (c : Connective) (l r : Formula) : List Formula :=
    (match r with
      | .bin d m n => if d = c then [.bin c (.bin c l m) n] else []
      | _ => []) ++
    (match l with
      | .bin d k m => if d = c then [.bin c k (.bin c m r)] else []
      | _ => [])

/-- `A∧(B∨C)` and `(A∧B)∨(A∧C)`; `A∨(B∧C)` and `(A∨B)∧(A∨C)`. -/
def distribution (f : Formula) : List Formula :=
  (match f with
    | .conj a (.disj b c) => [.disj (.conj a b) (.conj a c)]
    | .disj a (.conj b c) => [.conj (.disj a b) (.disj a c)]
    | _ => []) ++
  (match f with
    | .disj (.conj a b) (.conj d c) => if a = d then [.conj a (.disj b c)] else []
    | .conj (.disj a b) (.disj d c) => if a = d then [.disj a (.conj b c)] else []
    | _ => [])

/-- `A` and `¬¬A`. -/
def doubleNegation (f : Formula) : List Formula :=
  .neg (.neg f) ::
    match f with
    | .neg (.neg a) => [a]
    | _ => []

/-- `A→B` and `¬B→¬A`. -/
def transposition : Formula → List Formula
  | .impl l r =>
    .impl (.neg r) (.neg l) ::
      match l, r with
      | .neg a, .neg b => [.impl b a]
      | _, _ => []
  | _ => []

/-- `A→B` and `¬A∨B`. -/
def materialImplication : Formula → List Formula
  | .impl a b => [.disj (.neg a) b]
  | .disj (.neg a) b => [.impl a b]
  | _ => []

/-- `A↔B` and `(A→B)∧(B→A)`; `A↔B` and `(A∧B)∨(¬A∧¬B)`. -/
def materialEquivalence : Formula → List Formula
  | .iff a b => [.conj (.impl a b) (.impl b a), .disj (.conj a b) (.conj (.neg a) (.neg b))]
  | .conj (.impl a b) (.impl c d) => if a = d ∧ b = c then [.iff a b] else []
  | .disj (.conj a b) (.conj c d) => if c = .neg a ∧ d = .neg b then [.iff a b] else []
  | _ => []

/-- `(A∧B)→C` and `A→(B→C)`. -/
def exportation : Formula → List Formula
  | .impl l r =>
    (match l with
      | .conj a b => [.impl a (.impl b r)]
      | _ => []) ++
    (match r with
      | .impl b c => [.impl (.conj l b) c]
      | _ => [])
  | _ => []

/-- `A` and `A∧A`; `A` and `A∨A`. -/
def tautology (f : Formula) : List Formula :=
  .conj f f :: .disj f f ::
    match f with
    | .conj a b => if a = b then [a] else []
    | .disj a b => if a = b then [a] else []
    | _ => []

/-- The forms by which a rule replaces a whole formula. -/
def rootForms : ReplacementRule → Formula → List Formula
  | .deMorgan => deMorgan
  | .commutation => commutation
  | .association => association
  | .distribution => distribution
  | .doubleNegation => doubleNegation
  | .transposition => transposition
  | .materialImplication => materialImplication
  | .materialEquivalence => materialEquivalence
  | .exportation => exportation
  | .tautology => tautology

/-- The formulas that arise when `replace` is used on the whole formula or on one of its parts. -/
def everywhere (replace : Formula → List Formula) : Formula → List Formula
  | .letter x => replace (.letter x)
  | .neg f => replace (.neg f) ++ (everywhere replace f).map .neg
  | .bin c l r =>
    replace (.bin c l r) ++ (everywhere replace l).map (.bin c · r)
      ++ (everywhere replace r).map (.bin c l ·)

/-- The distinct formulas that arise when a rule replaces one part of a formula. -/
def variants (rule : ReplacementRule) (f : Formula) : List Formula :=
  firstsBy id (everywhere (rootForms rule) f)

/-- The distinct statements, written in full, that arise when a rule replaces one part of what a
    statement reads as. A statement that reads as no formula has no parts. -/
def outcomes (rule : ReplacementRule) (s : Statement) : List Statement :=
  match s.formula? with
  | some f => (variants rule f).map .ofFormula
  | none => []

/-- Whether the second statement is the first one with one part replaced by the rule. -/
def follows (rule : ReplacementRule) (source target : Statement) : Bool :=
  match source.formula?, target.formula? with
  | some f, some g => (variants rule f).contains g
  | _, _ => false

end ProofPuzzles.Replacement
