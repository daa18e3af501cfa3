import Mathlib.Data.List.Forall2
import ProofPuzzles.Proofs.Inference.Respelling
import ProofPuzzles.Proofs.Validation.Exact

/-! # Checking proofs and spellings

A check compares what the lines read as. The text of a line is told only where the line reads as
nothing, and then it has no other spelling. So a proof may be restated in full, or in any other way
in which its lines read as the same, and the check comes to the same verdict.
-/

namespace ProofPuzzles

/-- The statement is written in full if it reads as a formula, else it stays as it is. -/
def Statement.full (s : Statement) : Statement :=
  match s.formula? with
  | some f => .ofFormula f
  | none => s

namespace Statement

variable {s t : Statement}

theorem wff?_full (s : Statement) : s.full.wff? = s.wff?.map Wff.full := by
  cases reads : s.formula? with
  | some f =>
      have found : s.wff? = some ⟨s, f, reads⟩ := wff?_eq_some.mpr rfl
      rw [found, full, reads]
      exact wff?_eq_some.mpr rfl
  | none =>
      have unread : s.wff? = none := by
        rw [← Option.map_eq_none_iff (f := Wff.formula), map_formula_wff?, reads]
      rw [full, reads]
      simp only [unread, Option.map_none]

theorem full_of_unread (unread : s.wff? = none) : s.full = s := by
  have reads := s.map_formula_wff?
  rw [unread, Option.map_none] at reads
  rw [full, ← reads]

/-- In full, statements with one key are one statement. -/
theorem full_eq_of_key_eq (same : s.key = t.key) : s.full = t.full := by
  rw [key_eq_iff_identity_eq, identity_eq_iff] at same
  rcases same with ⟨f, hs, ht⟩ | ⟨hs, ht, tiles⟩
  · rw [full, full, hs, ht]
  · rw [full, full, hs, ht]
    exact eq_of_tiles_eq tiles

end Statement

namespace Inference

theorem Restates.ofList (ws : List Wff) : Restates (.ofList (ws.map Wff.full)) (.ofList ws) := by
  rw [Restates, Known.entries_ofList, Known.entries_ofList]

theorem map_formula_full (ws : List Wff) :
    (ws.map Wff.full).map Wff.formula = ws.map Wff.formula := List.map_map

/-- Everything but Addition from one statement goes by what the rule enumerates. -/
theorem matchingWff_of_several {rule : InferenceRule} {ws : List Wff}
    (several : ∀ base, ws = [base] → rule ≠ .addition) (w : Wff) :
    matchingWff rule ws w = (instances rule (.ofList ws)).filter fun a =>
      a.conclusion.formula = w.formula
        && (a.premises.map Wff.formula).isPerm (ws.map Wff.formula) := by
  unfold matchingWff
  split
  · exact absurd rfl (several _ rfl)
  · rfl

theorem matchingWff_full (rule : InferenceRule) (ws : List Wff) (w : Wff) :
    matchingWff rule (ws.map Wff.full) w.full = (matchingWff rule ws w).map Application.full := by
  by_cases single : rule = .addition ∧ ∃ base, ws = [base]
  · obtain ⟨rfl, base, rfl⟩ := single
    simp only [List.map_singleton, matchingWff, Wff.formula_full]
    split
    · rw [apply_ite (List.map Application.full)]
      rfl
    · rfl
  · have several : ∀ base, ws = [base] → rule ≠ .addition :=
      fun base one adds => single ⟨adds, base, one⟩
    have restated : ∀ base, ws.map Wff.full = [base] → rule ≠ .addition := by
      intro base one
      obtain ⟨v, rfl, -⟩ := List.map_eq_singleton_iff.mp one
      exact several v rfl
    rw [matchingWff_of_several restated, matchingWff_of_several several,
      (Restates.ofList ws).instances, List.filter_map]
    refine congrArg _ (List.filter_congr fun a _ => ?_)
    simp only [Function.comp_apply, Application.full, map_formula_full]
    rfl

end Inference

/-- The same lines are accepted, and what they state is written in full. -/
def Accepted.full (accepted : Accepted) : Accepted := accepted.map fun (n, w) => (n, w.full)

namespace Accepted

variable (accepted : Accepted)

theorem line?_full (n : Int) : accepted.full.line? n = (accepted.line? n).map Wff.full := by
  rw [line?, line?, full, List.find?_map, Option.map_map, Option.map_map]
  rfl

theorem line_full (n : Int) : accepted.full.line n = (accepted.line n).map Wff.full := by
  rw [line, line, line?_full]
  cases accepted.line? n <;> rfl

theorem lines_full (references : List Int) :
    accepted.full.lines references = (accepted.lines references).map (List.map Wff.full) := by
  induction references with
  | nil => rfl
  | cons n references ih =>
      rw [lines, lines, line_full, ih]
      cases accepted.line n with
      | error => rfl
      | ok => cases accepted.lines references <;> rfl

end Accepted

/-- The line states in full what it states. -/
def ProofLine.full (line : ProofLine) : ProofLine := { line with statement := line.statement.full }

namespace Validation

variable (accepted : Accepted)

theorem checkInference_full (w : Wff) (rule : InferenceRule) (references : List Int) :
    checkInference accepted.full w.full rule references =
      checkInference accepted w rule references := by
  rw [checkInference, checkInference, Accepted.lines_full]
  cases accepted.lines references with
  | error => rfl
  | ok cited =>
      simp only [Except.map, Inference.matchingWff_full, List.isEmpty_map, List.any_map,
        Function.comp_def, Application.full, Inference.map_formula_full]

theorem checkJustification_full (w : Wff) (justification : Justification) :
    checkJustification accepted.full w.full justification =
      checkJustification accepted w justification := by
  cases justification with
  | premise | assumption | conditionalProof | reductio => rfl
  | inference rule references => exact checkInference_full accepted w rule references
  | replacement rule n =>
      rw [checkJustification, checkJustification, Accepted.line_full]
      cases accepted.line n with
      | error => rfl
      | ok source =>
          simp only [Except.map, Replacement.follows, w.reads, source.reads, w.full.reads,
            source.full.reads, Wff.formula_full]
  | reiteration n =>
      rw [checkJustification, checkJustification, Accepted.line_full]
      cases accepted.line n <;> rfl

theorem checkLine_full (previous : Int) (line : ProofLine) :
    checkLine previous accepted.full line.full =
      (checkLine previous accepted line).map Wff.full := by
  rw [checkLine, checkLine]
  simp only [ProofLine.full, Statement.wff?_full]
  cases unread : line.statement.wff? with
  | none =>
      rw [Statement.full_of_unread unread]
      split <;> rfl
  | some w =>
      simp only [Option.map_some, checkJustification_full]
      split
      · rfl
      · split
        · rfl
        · cases checkJustification accepted w line.justification <;> rfl

theorem validateFrom_full (previous : Int) (lines : Proof) :
    validateFrom previous accepted.full (lines.map ProofLine.full) =
      validateFrom previous accepted lines := by
  induction lines generalizing previous accepted with
  | nil => rfl
  | cons line lines ih =>
      rw [List.map_cons, validateFrom, validateFrom, checkLine_full]
      cases checkLine previous accepted line with
      | error => rfl
      | ok w => exact ih ((line.number, w) :: accepted) line.number

end Validation

/-- The lines differ in nothing but how their statements are spelled. -/
structure ProofLine.Respells (line other : ProofLine) : Prop where
  number : line.number = other.number
  statement : line.statement.key = other.statement.key
  justification : line.justification = other.justification
  depth : line.depth = other.depth

theorem ProofLine.Respells.full_eq {line other : ProofLine} (respells : line.Respells other) :
    line.full = other.full := by
  obtain ⟨n, s, j, d⟩ := line
  obtain ⟨rfl, same, rfl, rfl⟩ := respells
  rw [full, Statement.full_eq_of_key_eq same]
  rfl

namespace Proof

theorem validate_full (proof : Proof) :
    validate (proof.map ProofLine.full) = proof.validate :=
  Validation.validateFrom_full [] 0 proof

/-- Whichever lines of a proof are spelled in another way, the check accepts it as before or finds
the same fault with the same line. -/
theorem validate_respelled {proof other : Proof}
    (respells : List.Forall₂ ProofLine.Respells proof other) :
    proof.validate = other.validate := by
  have restated : proof.map ProofLine.full = other.map ProofLine.full := by
    induction respells with
    | nil => rfl
    | cons line _ ih => rw [List.map_cons, List.map_cons, line.full_eq, ih]
  rw [← validate_full proof, restated, validate_full]

/-- A detachment without outer parentheses, and with parentheses around its letters. -/
theorem validate_respelled_detachment :
    let p : Letter := ⟨15⟩
    let q : Letter := ⟨16⟩
    let bare : Statement := .ofTiles [.letter p, .connective .implies, .letter q]
    let wrapped (x : Letter) : Statement := .ofTiles [.opening, .letter x, .closing]
    let proof : Proof := [⟨1, bare, .premise, 0⟩, ⟨2, wrapped p, .premise, 0⟩,
      ⟨3, wrapped q, .inference .modusPonens [1, 2], 0⟩]
    let given : Proof := [⟨1, .ofFormula (.impl (.letter p) (.letter q)), .premise, 0⟩,
      ⟨2, .ofFormula (.letter p), .premise, 0⟩]
    let last : ProofLine := ⟨3, .ofFormula (.letter q), .inference .modusPonens [1, 2], 0⟩
    List.Forall₂ ProofLine.Respells proof (given ++ [last]) ∧
      proof.validate = validate (given ++ [last]) ∧ validate (given ++ [last]) = .valid := by
  intro p q bare wrapped proof given last
  have respells : List.Forall₂ ProofLine.Respells proof (given ++ [last]) := by
    refine .cons ⟨rfl, ?_, rfl, rfl⟩ (.cons ⟨rfl, ?_, rfl, rfl⟩ (.cons ⟨rfl, ?_, rfl, rfl⟩ .nil))
    · exact Statement.key_eq_iff_identity_eq.mpr (by decide +kernel)
    · exact Statement.key_eq_iff_identity_eq.mpr (by decide +kernel)
    · exact Statement.key_eq_iff_identity_eq.mpr (by decide +kernel)
  refine ⟨respells, validate_respelled respells, ?_⟩
  rw [validate_append_singleton]
  refine ⟨rfl, nofun, by decide, rfl, .letter q, rfl,
    .inference ?_ (.modusPonens (.letter p) (.letter q))⟩
  exact .cons ⟨_, List.mem_cons_self, rfl, rfl⟩
    (.cons ⟨_, List.mem_cons_of_mem _ List.mem_cons_self, rfl, rfl⟩ .nil)

end Proof

end ProofPuzzles
