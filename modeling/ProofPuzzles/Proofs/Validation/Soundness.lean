import ProofPuzzles.Proofs.Validation.Exact

/-! # What an accepted proof establishes

The lines of an accepted proof are true wherever the premises and the assumptions on it are true.
Each justification passes truth on from the cited lines, so this goes by induction on the place of
the line.
-/

namespace ProofPuzzles

variable {earlier proof : Proof} {v : Assignment} {f : Formula} {justification : Justification}

/-- The formula of the line is taken for granted. -/
def ProofLine.Given (line : ProofLine) : Prop :=
  line.justification = .premise ∨ line.justification = .assumption

theorem Proof.States.eval {n : Int} (states : earlier.States n f)
    (holds : ∀ line ∈ earlier, line.statement.Holds v) : f.eval v = true := by
  obtain ⟨line, member, -, reads⟩ := states
  obtain ⟨g, same, true_⟩ := holds line member
  rw [reads] at same
  cases same
  exact true_

theorem Proof.States.eval_all {references : List Int} {gs : List Formula}
    (cited : List.Forall₂ earlier.States references gs)
    (holds : ∀ line ∈ earlier, line.statement.Holds v) : ∀ g ∈ gs, g.eval v = true := by
  induction cited with
  | nil => exact fun g member => absurd member List.not_mem_nil
  | cons states rest ih =>
      intro g member
      rcases List.mem_cons.mp member with rfl | later
      · exact states.eval holds
      · exact ih g later

/-- A justification that takes nothing for granted passes truth on. -/
theorem Justified.sound (justified : Justified earlier f justification)
    (granted : justification = .premise ∨ justification = .assumption → f.eval v = true)
    (holds : ∀ line ∈ earlier, line.statement.Holds v) : f.eval v = true := by
  cases justified with
  | premise => exact granted (.inl rfl)
  | assumption => exact granted (.inr rfl)
  | reiteration same => exact same.eval holds
  | replacement source rewritten =>
      rw [← rewritten.eval_eq v]
      exact source.eval holds
  | inference cited schema => exact schema.sound (Proof.States.eval_all cited holds)

theorem ProofLine.Extends.holds {line : ProofLine} (extension : line.Extends earlier)
    (granted : line.Given → line.statement.Holds v)
    (holds : ∀ other ∈ earlier, other.statement.Holds v) : line.statement.Holds v := by
  obtain ⟨f, states, justified⟩ := extension.justified
  refine ⟨f, states, justified.sound (fun given => ?_) holds⟩
  obtain ⟨g, same, true_⟩ := granted given
  rw [states] at same
  cases same
  exact true_

/-- If what is taken for granted on the lines of an accepted proof is true, so are the lines. -/
theorem Proof.holds_of_valid (valid : proof.validate = .valid)
    (granted : ∀ line ∈ proof, line.Given → line.statement.Holds v) :
    ∀ line ∈ proof, line.statement.Holds v := by
  induction proof using List.reverseRecOn with
  | nil => exact fun line member => absurd member List.not_mem_nil
  | append_singleton earlier last ih =>
      obtain ⟨before, extension⟩ := Proof.validate_append_singleton.mp valid
      have holds := ih before fun line member => granted line (List.mem_append_left _ member)
      intro line member
      rcases List.mem_append.mp member with old | new
      · exact holds line old
      · rw [List.mem_singleton.mp new]
        exact extension.holds (granted last (by simp)) holds

/-- A line of an accepted proof is true wherever the premises and the assumptions on it and on the
lines before it are true. -/
theorem Proof.validate_sound {before after : Proof} {line : ProofLine}
    (valid : validate (before ++ line :: after) = .valid) (v : Assignment)
    (granted : ∀ other ∈ before ++ [line], other.Given → other.statement.Holds v) :
    line.statement.Holds v := by
  have front : validate (before ++ [line]) = .valid := by
    by_contra invalid
    have start : before ++ [line] <+: before ++ line :: after := ⟨after, by simp⟩
    exact invalid (Proof.validate_eq_of_initial start invalid ▸ valid)
  exact Proof.holds_of_valid front granted line (by simp)

/-- With a conditional and its antecedent granted, the check of Modus Ponens tells the truth. -/
theorem Proof.validate_sound_detachment :
    let p := Formula.letter ⟨15⟩
    let q := Formula.letter ⟨16⟩
    let given : Proof := [⟨1, .ofFormula (.impl p q), .premise, 0⟩, ⟨2, .ofFormula p, .premise, 0⟩]
    let last : ProofLine := ⟨3, .ofFormula q, .inference .modusPonens [1, 2], 0⟩
    let v : Assignment := fun _ => true
    validate (given ++ [last]) = .valid ∧
      (∀ other ∈ given ++ [last], other.Given → other.statement.Holds v) ∧
      last.statement.Holds v := by
  intro p q given last v
  have valid : validate (given ++ [last]) = .valid := by
    rw [validate_append_singleton]
    refine ⟨rfl, nofun, by decide, rfl, q, rfl, .inference ?_ (.modusPonens p q)⟩
    exact .cons ⟨_, List.mem_cons_self, rfl, rfl⟩
      (.cons ⟨_, List.mem_cons_of_mem _ List.mem_cons_self, rfl, rfl⟩ .nil)
  have granted : ∀ other ∈ given ++ [last], other.Given → other.statement.Holds v := by
    simp only [given, last, List.cons_append, List.nil_append, List.forall_mem_cons]
    exact ⟨fun _ => ⟨_, rfl, rfl⟩, fun _ => ⟨_, rfl, rfl⟩, fun _ => ⟨_, rfl, rfl⟩, nofun⟩
  exact ⟨valid, granted, validate_sound valid v granted⟩

end ProofPuzzles
