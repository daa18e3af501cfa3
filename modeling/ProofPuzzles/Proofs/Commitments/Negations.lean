import ProofPuzzles.Proofs.Commitments.Copies

/-! # Literals under several negations

A letter under negations can be asserted on its own, and then two negations cancel. It can also be
asserted in a list of formulas, and then the negation directly before the letter decides, as it does
in every formula. The two ways agree where there is no negation or an odd number of them. Under two
of them, or four, the list asserts the negated letter and the formula on its own the plain one.
-/

namespace ProofPuzzles

open Formula

variable {f g : Formula} {x : Letter} {l k : Literal}

/-- The one literal of a letter under negations is negative as soon as there is a negation. -/
theorem Formula.occurrences_of_base? (base : f.base? = some x) :
    f.occurrences = [⟨x, f.leadingNegations == 0⟩] := by
  induction f with
  | letter y =>
      cases base
      rfl
  | neg f ih =>
      cases f with
      | letter y =>
          cases base
          rfl
      | neg f => exact ih base
      | bin => cases base
  | bin => cases base

theorem Formula.literals_of_base? (base : f.base? = some x) :
    f.literals = [⟨x, f.leadingNegations == 0⟩] := by
  rw [Formula.literals, Formula.occurrences_of_base? base]
  exact firstsBy_eq_self (List.nodup_singleton _)

namespace Commitments

variable {c after : Commitments} {s t : Statement}

/-- The first statement can be asserted in a list of its own exactly when the second one can be
asserted, and the commitments that this leads to are the same. -/
def Agrees (c : Commitments) (s t : Statement) : Prop :=
  ∀ after, c.serve (.assertAll [s]) = (.all true, after) ↔
    ∃ l, c.serve (.assert t) = (.literal (some l), after)

/-- The commitments that asserting a literal leads to, if it can be asserted. -/
def asserted? (c : Commitments) (l : Literal) : Option Commitments :=
  (c.assert? l.formula).map Prod.snd

theorem asserted?_eq (c : Commitments) (l : Literal) : c.asserted? l =
    if l ∈ c.used then some c
    else if l.opposite ∈ c.used then none
    else if l.letter ∈ c.available then
      some ⟨c.available.erase l.letter, c.used ++ [l]⟩
    else none := by
  rw [asserted?, assert?, literal?_formula]
  simp only
  split_ifs <;> rfl

theorem serve_assertAll_iff (reads : s.formula? = some f) (literals : f.literals = [l]) :
    c.serve (.assertAll [s]) = (.all true, after) ↔ c.asserted? l = some after := by
  have single : c.serve (.assertAll [s]) =
      (.all (assertLiterals [l] c).1, (assertLiterals [l] c).2) := by
    simp [serve, reads, assertAll, literals]
  rw [single, assertLiterals, asserted?]
  cases c.assert? l.formula with
  | none => simp
  | some asserted => simp [assertLiterals]

theorem serve_assert_iff (reads : t.formula? = some g) (comes : literal? g = some k) :
    (∃ l, c.serve (.assert t) = (.literal (some l), after)) ↔ c.asserted? k = some after := by
  have same : c.assert? g = c.assert? k.formula := by
    rw [assert?, assert?, comes, literal?_formula]
  rw [serve, reads, Option.bind_some, same, asserted?]
  cases c.assert? k.formula with
  | none => simp
  | some asserted => simp

theorem agrees_iff_asserted? (first : s.formula? = some f) (literals : f.literals = [l])
    (second : t.formula? = some g) (comes : literal? g = some k) :
    c.Agrees s t ↔ c.asserted? l = c.asserted? k := by
  simp only [Agrees, serve_assertAll_iff first literals, serve_assert_iff second comes]
  exact Option.ext_iff.symm

theorem asserted?_signs_iff (x : Letter) : c.asserted? ⟨x, false⟩ = c.asserted? ⟨x, true⟩ ↔
    (⟨x, true⟩ ∈ c.used ↔ ⟨x, false⟩ ∈ c.used) ∧ (⟨x, true⟩ ∈ c.used ∨ x ∉ c.available) := by
  rw [asserted?_eq, asserted?_eq]
  by_cases plain : ⟨x, true⟩ ∈ c.used <;> by_cases denied : ⟨x, false⟩ ∈ c.used <;>
    by_cases free : x ∈ c.available <;> simp [Literal.opposite, plain, denied, free]

/-- Asserted in a list, a letter under negations agrees with the same formula asserted on its own
where there is no negation or an odd number of them. Under any other number of negations they come
to opposite literals, and agree only where neither changes anything: both literals or none are
asserted already, and the letter is not taken. What the list asserts under negations is always the
negated letter. -/
theorem assertAll_agrees_iff (reads : s.formula? = some f) (base : f.base? = some x) :
    (c.Agrees s s ↔ f.leadingNegations = 0 ∨ f.leadingNegations % 2 = 1 ∨
      ((⟨x, true⟩ ∈ c.used ↔ ⟨x, false⟩ ∈ c.used) ∧
        (⟨x, true⟩ ∈ c.used ∨ x ∉ c.available))) ∧
    (f.leadingNegations ≠ 0 → c.Agrees s (.ofFormula (.neg (.letter x)))) := by
  have comes : literal? f = some ⟨x, f.leadingNegations % 2 == 0⟩ := by
    rw [literal?, base, Option.map_some]
  by_cases plain : f.leadingNegations = 0
  · have literals : f.literals = [⟨x, true⟩] := by
      rw [Formula.literals_of_base? base, plain]
      rfl
    rw [plain] at comes
    have agrees : c.Agrees s s := (agrees_iff_asserted? reads literals reads comes).mpr rfl
    exact ⟨iff_of_true agrees (.inl plain), fun negated => absurd plain negated⟩
  · have literals : f.literals = [⟨x, false⟩] := by
      rw [Formula.literals_of_base? base, beq_false_of_ne plain]
    refine ⟨?_, fun _ =>
      (agrees_iff_asserted? reads literals (Statement.formula?_ofFormula _) rfl).mpr rfl⟩
    rw [agrees_iff_asserted? reads literals reads comes]
    by_cases odd : f.leadingNegations % 2 = 1
    · simp [odd]
    · have even : f.leadingNegations % 2 = 0 := by omega
      simpa [plain, even] using asserted?_signs_iff x

theorem assertAll_agrees_iff_doubled :
    let c := ofLetters [⟨15⟩, ⟨16⟩]
    let s := Statement.ofFormula (.neg (.neg (.letter ⟨15⟩)))
    ¬c.Agrees s s ∧ c.Agrees s (.ofFormula (.neg (.letter ⟨15⟩))) := by
  intro c s
  have agrees := assertAll_agrees_iff (c := c) (s := s) (x := ⟨15⟩) rfl rfl
  exact ⟨fun same => absurd (agrees.1.mp same) (by decide), agrees.2 (by decide)⟩

/-- Under two negations the list takes the negated letter, and the formula on its own the letter. -/
theorem not_assertAll_agrees : ¬∀ (c : Commitments) (s : Statement) (f : Formula) (x : Letter),
    s.formula? = some f → f.base? = some x → c.Agrees s s := by
  intro agree
  have agrees := agree (ofLetters [⟨15⟩, ⟨16⟩]) (.ofFormula (.neg (.neg (.letter ⟨15⟩)))) _ ⟨15⟩
    rfl rfl
  rw [agrees_iff_asserted? rfl (Formula.literals_of_base? rfl) rfl rfl] at agrees
  exact absurd agrees (by decide)

end Commitments

end ProofPuzzles
