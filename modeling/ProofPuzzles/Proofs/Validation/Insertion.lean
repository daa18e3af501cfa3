import Mathlib.Data.List.Sort
import ProofPuzzles.Proofs.Validation.Exact

/-! # Inserting a line

Whether a line may stand behind other lines depends on nothing but the lines that it cites. They are
still there when a line comes in between, and they keep their numbers if that line has a new one.
-/

namespace ProofPuzzles

variable {proof before after : Proof} {line last : ProofLine}

/-- A line that may follow others may follow them with a line in between that has a smaller number. -/
theorem ProofLine.Extends.insert (next : last.Extends (before ++ after))
    (below : line.number < last.number) : last.Extends (before ++ line :: after) where
  first none := by simp at none
  later other member := by
    rcases List.mem_append.mp member with front | behind
    · exact next.later other (List.mem_append_left _ front)
    · rcases List.mem_cons.mp behind with rfl | behind
      · exact below
      · exact next.later other (List.mem_append_right _ behind)
  unnested := next.unnested
  justified := by
    obtain ⟨f, states, justified⟩ := next.justified
    have longer := (List.sublist_cons_self line after).append_left before
    exact ⟨f, states, justified.mono longer.subset⟩

namespace Proof

/-- The lines with smaller numbers. -/
def linesBelow (proof : Proof) (n : Int) : Proof := proof.filter (·.number < n)

/-- The proof with one more line, in front of the first line whose number is not smaller. -/
def insertLine (proof : Proof) (line : ProofLine) : Proof :=
  proof.orderedInsert (fun l m => l.number ≤ m.number) line

theorem validate_append_cons (valid : validate (before ++ after) = .valid)
    (accepted : validate (before ++ [line]) = .valid)
    (later : ∀ other ∈ after, line.number < other.number) :
    validate (before ++ line :: after) = .valid := by
  induction after using List.reverseRecOn with
  | nil => exact accepted
  | append_singleton after last ih =>
      rw [List.forall_mem_append, List.forall_mem_singleton] at later
      rw [← List.append_assoc, validate_append_singleton] at valid
      rw [← List.cons_append, ← List.append_assoc, validate_append_singleton]
      exact ⟨ih valid.1 later.1, valid.2.insert later.2⟩

/-- Where the numbers increase and this one is new, its place is between the smaller ones and the
larger ones. -/
theorem exists_place (increasing : proof.Pairwise fun l m => l.number < m.number)
    (unused : ∀ other ∈ proof, other.number ≠ line.number) :
    ∃ after : Proof, proof = proof.linesBelow line.number ++ after ∧
      proof.insertLine line = proof.linesBelow line.number ++ line :: after ∧
      ∀ other ∈ after, line.number < other.number := by
  induction proof with
  | nil => exact ⟨[], rfl, rfl, nofun⟩
  | cons first rest ih =>
      obtain ⟨bound, increasing⟩ := List.pairwise_cons.mp increasing
      obtain ⟨differs, unused⟩ := List.forall_mem_cons.mp unused
      by_cases smaller : first.number < line.number
      · obtain ⟨after, split, placed, later⟩ := ih increasing unused
        have kept : linesBelow (first :: rest) line.number =
            first :: linesBelow rest line.number := List.filter_cons_of_pos (by simpa)
        have behind : insertLine (first :: rest) line = first :: insertLine rest line :=
          List.orderedInsert_of_not_le _ _ (Int.not_le.mpr smaller)
        refine ⟨after, ?_, ?_, later⟩
        · rw [kept, List.cons_append, ← split]
        · rw [kept, behind, placed, List.cons_append]
      · have larger : ∀ other ∈ first :: rest, line.number < other.number := by
          intro other member
          rcases List.mem_cons.mp member with rfl | member
          · omega
          · have increases := bound other member
            omega
        have none : linesBelow (first :: rest) line.number = [] := by
          refine List.filter_eq_nil_iff.mpr fun other member => ?_
          have above := larger other member
          simp only [decide_eq_true_eq]
          omega
        have front : insertLine (first :: rest) line = line :: first :: rest :=
          List.orderedInsert_cons_of_le _ _ (Int.not_lt.mp smaller)
        exact ⟨first :: rest, by rw [none]; rfl, by rw [none, front]; rfl, larger⟩

/-- A line with a new number that is accepted behind the lines with smaller numbers can be inserted
at its place: the lines behind it are accepted as before. -/
theorem validate_insertLine (valid : proof.validate = .valid)
    (unused : ∀ other ∈ proof, other.number ≠ line.number)
    (accepted : validate (proof.linesBelow line.number ++ [line]) = .valid) :
    (proof.insertLine line).validate = .valid := by
  have increasing := (validate_eq_valid_iff_wellBuilt.mp valid).increasing
  obtain ⟨after, split, placed, later⟩ := exists_place increasing unused
  rw [split] at valid
  rw [placed]
  exact validate_append_cons valid accepted later

/-- Between a line and a detachment that cites it, and with numbers left free, a disjunction comes
in. -/
theorem validate_insertLine_disjunction :
    let p := Formula.letter ⟨15⟩
    let q := Formula.letter ⟨16⟩
    let given : Proof := [⟨1, .ofFormula (.impl p q), .premise, 0⟩, ⟨3, .ofFormula p, .premise, 0⟩]
    let last : ProofLine := ⟨7, .ofFormula q, .inference .modusPonens [1, 3], 0⟩
    let line : ProofLine := ⟨5, .ofFormula (.disj p q), .inference .addition [3], 0⟩
    let proof : Proof := given ++ [last]
    proof.validate = .valid ∧ (∀ other ∈ proof, other.number ≠ 5) ∧
      validate (proof.linesBelow 5 ++ [line]) = .valid ∧
      proof.insertLine line = given ++ [line, last] ∧ (proof.insertLine line).validate = .valid := by
  intro p q given last line proof
  have first : given.States 1 (.impl p q) := ⟨_, List.mem_cons_self, rfl, rfl⟩
  have second : given.States 3 p := ⟨_, List.mem_cons_of_mem _ List.mem_cons_self, rfl, rfl⟩
  have valid : proof.validate = .valid := by
    refine validate_append_singleton.mpr ⟨rfl, nofun, by decide, rfl, q, rfl, ?_⟩
    exact .inference (.cons first (.cons second .nil)) (.modusPonens p q)
  have unused : ∀ other ∈ proof, other.number ≠ 5 := by decide
  have accepted : validate (proof.linesBelow 5 ++ [line]) = .valid := by
    have smaller : proof.linesBelow 5 = given := rfl
    rw [smaller]
    refine validate_append_singleton.mpr ⟨rfl, nofun, by decide, rfl, .disj p q, rfl, ?_⟩
    exact .inference (.cons second .nil) (.addRight p q)
  exact ⟨valid, unused, accepted, rfl, validate_insertLine valid unused accepted⟩

end Proof

end ProofPuzzles
