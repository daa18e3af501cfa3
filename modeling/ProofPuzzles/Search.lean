import ProofPuzzles.Inference
import ProofPuzzles.Proof
import ProofPuzzles.Text.Order

/-!
# Searching for proofs

Starting from the premises, each round adds everything that one more application of a rule
derives, until the goal is among the known statements. Conjunction and Addition could go on
forever, so they only build formulas that occur inside the goal or inside something known, and
disjunctions of the antecedents of known conditionals, which a dilemma needs. Statements that
are longer than the goal, the premises and a given length are left out.
-/

namespace ProofPuzzles

/-- The bounds of a search. -/
structure SearchLimits where
  /-- How many rounds there are at most. -/
  maxRounds : Int := 8
  /-- More known statements than this end the search. -/
  maxFormulas : Int := 5000
  /-- The length that statements may have in any case, in tiles. -/
  maxTiles : Int := 31

/-- A known statement and the application that derived it; a premise has none. -/
structure Derived where
  wff : Wff
  origin? : Option Application

/-- The known statements in the order in which they became known. -/
abbrev Derivation := List Derived

namespace Derivation

/-- The known formulas. -/
def formulas (derivation : Derivation) : List Formula := derivation.map (·.wff.formula)

/-- Whether the formula is known. -/
def knows (derivation : Derivation) (f : Formula) : Bool :=
  derivation.any (·.wff.formula = f)

/-- How the formula became known. -/
def entry? (derivation : Derivation) (f : Formula) : Option Derived :=
  derivation.find? (·.wff.formula = f)

/-- The derivation that knows the distinct well-formed premises. -/
def ofPremises (premises : List Statement) : Derivation :=
  (firstsBy Wff.formula (wellFormed premises)).map (⟨·, none⟩)

end Derivation

namespace Search

/-- The rules that only take apart or join what is known: all but Conjunction and Addition. -/
def closedRules : List InferenceRule :=
  InferenceRule.all.filter fun r => r ≠ .conjunction ∧ r ≠ .addition

/-- What the closed rules derive. -/
def closedApplications (known : List Wff) : List Application :=
  closedRules.flatMap (Inference.applications · known)

/-- The formulas inside the goal and inside what is known, in the order of their texts. -/
def parts (goal : Formula) (known : List Formula) : List Formula :=
  Text.sortedBy Formula.text (firstsBy id ((goal :: known).flatMap Formula.subformulas))

/-- The application of Conjunction or Addition that builds the formula from what is known. -/
def buildingApplication? (known : Std.HashSet Formula) : Formula → Option Application
  | .conj a b =>
    if a ≠ b ∧ known.contains a ∧ known.contains b then
      some ⟨.conjunction, [.ofFormula a, .ofFormula b], .ofFormula (.conj a b)⟩
    else none
  | .disj a b =>
    if known.contains a then some ⟨.addition, [.ofFormula a], .ofFormula (.disj a b)⟩
    else if known.contains b then some ⟨.addition, [.ofFormula b], .ofFormula (.disj a b)⟩
    else none
  | _ => none

/-- The distinct antecedents of the known conditionals. -/
def antecedents (known : List Formula) : List Formula :=
  firstsBy id <| known.filterMap fun f =>
    match f with
    | .impl a _ => some a
    | _ => none

/-- The disjunctions of a known antecedent and another antecedent, in both orders. -/
def antecedentDisjunctions (known : Std.HashSet Formula) (antecedents : List Formula) :
    List Application :=
  (antecedents.filter (known.contains ·)).flatMap fun a =>
    (antecedents.filter (a ≠ ·)).flatMap fun b =>
      [⟨.addition, [.ofFormula a], .ofFormula (.disj a b)⟩,
       ⟨.addition, [.ofFormula a], .ofFormula (.disj b a)⟩]

/-- The applications that one round considers, in order. -/
def candidates (goal : Formula) (derivation : Derivation) : List Application :=
  let formulas := derivation.formulas
  let known := Std.HashSet.ofList formulas
  closedApplications (derivation.map (·.wff))
    ++ (parts goal formulas).filterMap (buildingApplication? known)
    ++ antecedentDisjunctions known (antecedents formulas)

/-- The applications that one round adds: for each new formula of admitted length the first
    one. -/
def fresh (goal : Formula) (cap : Int) (derivation : Derivation) : List Application :=
  firstsAfter (·.conclusion.formula) (.ofList derivation.formulas)
    ((candidates goal derivation).filter fun a => (a.conclusion.length : Int) ≤ cap)

/-- At most the given number of rounds. The result knows the goal. -/
def rounds (goal : Formula) (cap maxFormulas : Int) : Nat → Derivation → Option Derivation
  | 0, derivation => if derivation.knows goal then some derivation else none
  | n + 1, derivation =>
    if derivation.knows goal then some derivation
    else
      let added := (fresh goal cap derivation).map fun a => ⟨a.conclusion, some a⟩
      if added.isEmpty then none
      else
        let derivation := derivation ++ added
        if maxFormulas < derivation.length then
          if derivation.knows goal then some derivation else none
        else rounds goal cap maxFormulas n derivation

/-- The length up to which statements are admitted: the given one or, if it is greater, that of
    the goal or of the longest premise. -/
def admittedLength (maxTiles : Int) (goal : Wff) (premises : Derivation) : Int :=
  premises.foldl (fun cap d => max cap d.wff.length) (max maxTiles goal.length)

end Search

/-- Derives statements from the premises until the goal is among them. -/
def search (premises : List Statement) (goal : Statement) (limits : SearchLimits) :
    Option Derivation :=
  match goal.wff? with
  | none => none
  | some goal =>
    let start := Derivation.ofPremises premises
    let cap := Search.admittedLength limits.maxTiles goal start
    Search.rounds goal.formula cap limits.maxFormulas limits.maxRounds.toNat start

/-- Whether the search finds the goal. -/
def derivable (premises : List Statement) (goal : Statement) (limits : SearchLimits) : Bool :=
  (search premises goal limits).isSome

namespace Derivation

/-- Appends to `done` the derived statements that the formula rests on and the formula itself,
    each after those it rests on, unless they are there already. The bound limits how long a
    chain of applications is followed. -/
def collect (derivation : Derivation) : Nat → List Derived → Formula → List Derived
  | 0, done, _ => done
  | bound + 1, done, f =>
    if done.any (·.wff.formula = f) then done
    else match derivation.entry? f with
      | some ⟨w, some a⟩ =>
        a.premises.foldl (fun done p => derivation.collect bound done p.formula) done
          ++ [⟨w, some a⟩]
      | _ => done

/-- The derived statements that the goal rests on, each after those it rests on itself. -/
def support (derivation : Derivation) (goal : Formula) : List Derived :=
  derivation.collect derivation.length [] goal

end Derivation

namespace Proof

/-- The number of the first line that states the formula, zero if there is none. -/
def numberOf (proof : Proof) (f : Formula) : Int :=
  match proof.find? (·.statement.formula? = some f) with
  | some line => line.number
  | none => 0

/-- A proof that states the given well-formed statements as premises. -/
def ofPremises (premises : List Wff) : Proof :=
  premises.foldl (fun proof w => proof.append w.statement .premise) []

/-- One more line, derived by the application from lines that are there. -/
def appendApplication (proof : Proof) (statement : Statement) (a : Application) : Proof :=
  proof.append statement (.inference a.rule (a.premises.map fun p => proof.numberOf p.formula))

end Proof

/-- Searches for a proof of the goal that first states the distinct well-formed premises and
    then cites rules of inference only. The goal is stated as it was given. -/
def prove (premises : List Statement) (goal : Statement) (limits : SearchLimits) :
    Option Proof :=
  match goal.formula?, search premises goal limits with
  | some f, some derivation =>
    let start := Proof.ofPremises (firstsBy Wff.formula (wellFormed premises))
    some <| (derivation.support f).foldl (fun proof d =>
      match d.origin? with
      | some a =>
        let statement := if d.wff.formula = f then goal else d.wff.statement
        proof.appendApplication statement a
      | none => proof) start
  | _, _ => none

end ProofPuzzles
