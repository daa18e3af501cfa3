import ProofPuzzles.Known
import ProofPuzzles.Rule

/-!
# Applying the rules of inference

For each rule, the ways in which it applies to known statements: which statements it consumes,
in the order in which a proof cites them, and what it derives. What is derived is written in
full.
-/

namespace ProofPuzzles

/-- One way of applying a rule. -/
structure Application where
  rule : InferenceRule
  premises : List Wff
  conclusion : Wff
  deriving DecidableEq

/-- The results of `f` on every two elements that stand at different places. -/
def forEachPair {α β : Type} (f : α → α → List β) (as : List α) : List β :=
  as.zipIdx.flatMap fun (a, i) =>
    as.zipIdx.flatMap fun (b, j) => if i = j then [] else f a b

namespace Inference

/-- A known conditional with its two sides. -/
structure Conditional where
  source : Wff
  antecedent : Formula
  consequent : Formula

def conditionals (known : Known) : List Conditional :=
  known.entries.filterMap fun w =>
    match w.formula with
    | .impl a b => some ⟨w, a, b⟩
    | _ => none

/-- From `A→B` and `A`, derive `B`. -/
def modusPonens (known : Known) : List Application :=
  (conditionals known).filterMap fun c =>
    (known.first? c.antecedent).map fun v =>
      ⟨.modusPonens, [c.source, v], .ofFormula c.consequent⟩

/-- From `A→B` and `¬B`, derive `¬A`. -/
def modusTollens (known : Known) : List Application :=
  (conditionals known).filterMap fun c =>
    (known.first? (.neg c.consequent)).map fun v =>
      ⟨.modusTollens, [c.source, v], .ofFormula (.neg c.antecedent)⟩

/-- From `A→B` and `B→C`, derive `A→C`. -/
def hypotheticalSyllogism (known : Known) : List Application :=
  forEachPair (fun c d =>
    if c.consequent = d.antecedent then
      [⟨.hypotheticalSyllogism, [c.source, d.source], .ofFormula (.impl c.antecedent d.consequent)⟩]
    else []) (conditionals known)

/-- From `A∨B` and `¬A`, derive `B`; from `A∨B` and `¬B`, derive `A`. -/
def disjunctiveSyllogism (known : Known) : List Application :=
  known.entries.flatMap fun w =>
    match w.formula with
    | .disj a b =>
      [(a, b), (b, a)].filterMap fun (denied, remaining) =>
        (known.first? (.neg denied)).map fun v =>
          ⟨.disjunctiveSyllogism, [w, v], .ofFormula remaining⟩
    | _ => []

/-- From `(A→B)∧(C→D)` and `A∨C`, derive `B∨D`. -/
def joinedDilemma (known : Known) : List Application :=
  known.entries.flatMap fun w =>
    match w.formula with
    | .conj (.impl a b) (.impl c d) =>
      (known.copies (.disj a c)).map fun v =>
        ⟨.constructiveDilemma, [w, v], .ofFormula (.disj b d)⟩
    | _ => []

/-- From `A→B`, `C→D` and `A∨C`, derive `B∨D`. -/
def separateDilemma (known : Known) : List Application :=
  forEachPair (fun c d =>
    (known.copies (.disj c.antecedent d.antecedent)).map fun v =>
      ⟨.constructiveDilemma, [c.source, d.source, v],
        .ofFormula (.disj c.consequent d.consequent)⟩) (conditionals known)

/-- Both forms of the dilemma, the one with a conjunction of conditionals first. -/
def constructiveDilemma (known : Known) : List Application :=
  joinedDilemma known ++ separateDilemma known

/-- From `A→B`, derive `A→(A∧B)`. -/
def absorption (known : Known) : List Application :=
  (conditionals known).map fun c =>
    ⟨.absorption, [c.source], .ofFormula (.impl c.antecedent (.conj c.antecedent c.consequent))⟩

/-- From `A∧B`, derive `A` and `B`. -/
def simplification (known : Known) : List Application :=
  known.entries.flatMap fun w =>
    match w.formula with
    | .conj a b =>
      [⟨.simplification, [w], .ofFormula a⟩, ⟨.simplification, [w], .ofFormula b⟩]
    | _ => []

/-- From `A` and `B`, derive `A∧B`, in both orders. -/
def conjunction (known : Known) : List Application :=
  forEachPair (fun v w =>
    [⟨.conjunction, [v, w], .ofFormula (.conj v.formula w.formula)⟩]) known.entries

/-- From `A`, with any other known `X`, derive `A∨X` and `X∨A`. -/
def addition (known : Known) : List Application :=
  forEachPair (fun v w =>
    [⟨.addition, [v, w], .ofFormula (.disj v.formula w.formula)⟩,
     ⟨.addition, [v, w], .ofFormula (.disj w.formula v.formula)⟩]) known.entries

/-- The ways in which a rule applies to known statements. -/
def instances : InferenceRule → Known → List Application
  | .modusPonens => modusPonens
  | .modusTollens => modusTollens
  | .hypotheticalSyllogism => hypotheticalSyllogism
  | .disjunctiveSyllogism => disjunctiveSyllogism
  | .constructiveDilemma => constructiveDilemma
  | .absorption => absorption
  | .simplification => simplification
  | .conjunction => conjunction
  | .addition => addition

/-- The ways in which a rule applies to the distinct ones of the statements, one for each
    conclusion. -/
def applications (rule : InferenceRule) (known : List Wff) : List Application :=
  firstsBy (·.conclusion.formula) (instances rule (.ofDistinct known))

/-- What the applications of a rule derive from the statements. -/
def conclusions (rule : InferenceRule) (known : List Wff) : List Wff :=
  (applications rule known).map (·.conclusion)

/-- Whether a rule applies to the statements at all. -/
def applies (rule : InferenceRule) (known : List Wff) : Bool :=
  !(instances rule (.ofDistinct known)).isEmpty

/-- The applications of all rules, in catalog order. -/
def allApplications (known : List Wff) : List Application :=
  InferenceRule.all.flatMap (applications · known)

/-- The applications of a rule that consume exactly the given statements, in any order, and
    derive the given one. A statement that is given twice can fill two places of a rule.
    Addition from a single statement may add any formula. -/
def matchingWff (rule : InferenceRule) (premises : List Wff) (conclusion : Wff) :
    List Application :=
  match rule, premises with
  | .addition, [base] =>
    match conclusion.formula with
    | .disj a b =>
      if base.formula = a ∨ base.formula = b then [⟨.addition, [base], conclusion⟩] else []
    | _ => []
  | _, _ =>
    (instances rule (.ofList premises)).filter fun application =>
      application.conclusion.formula = conclusion.formula
        && (application.premises.map Wff.formula).isPerm (premises.map Wff.formula)

/-- The applications of a rule that consume exactly the given statements and derive the given
    one. There is none if any of them reads as no formula. -/
def matching (rule : InferenceRule) (premises : List Statement) (conclusion : Statement) :
    List Application :=
  match premises.mapM Statement.wff?, conclusion.wff? with
  | some premises, some conclusion => matchingWff rule premises conclusion
  | _, _ => []

end Inference

end ProofPuzzles
