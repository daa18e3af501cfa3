import Mathlib.Data.List.Induction
import Mathlib.Data.List.Nodup
import ProofPuzzles.Proofs.Validation.Lines

/-! # Which proofs are accepted

A proof is accepted exactly when each of its lines may follow the lines before it. The check stops
at the first line that may not, so nothing behind that line has a say in the verdict.
-/

namespace ProofPuzzles

/-- A split of a longer list is a split of the list or cuts off the new element. -/
theorem splits_append_singleton {α : Type} {as : List α} {a : α}
    {motive : List α → α → Prop} :
    (∀ before b after, as ++ [a] = before ++ b :: after → motive before b) ↔
      (∀ before b after, as = before ++ b :: after → motive before b) ∧ motive as a := by
  constructor
  · intro all
    refine ⟨fun before b after split => ?_, all as a [] rfl⟩
    exact all before b (after ++ [a]) (by simp [split])
  · rintro ⟨all, last⟩ before b after split
    rcases List.eq_nil_or_concat after with rfl | ⟨after, final, rfl⟩
    · obtain ⟨rfl, same⟩ := List.append_inj' split rfl
      cases same
      exact last
    · rw [List.concat_eq_append, ← List.cons_append, ← List.append_assoc] at split
      exact all before b after (List.append_inj' split rfl).1

namespace Validation

variable {previous : Int} {accepted : Accepted} {earlier lines : Proof}

/-- Every line of the list may follow the earlier lines and those of the list before it. -/
theorem validateFrom_eq_valid (tracks : Tracks previous accepted earlier) :
    validateFrom previous accepted lines = .valid ↔
      ∀ before line after, lines = before ++ line :: after → line.Extends (earlier ++ before) := by
  induction lines generalizing previous accepted earlier with
  | nil => simp [validateFrom]
  | cons line lines ih =>
      rw [validateFrom]
      cases checked : checkLine previous accepted line with
      | error fault =>
          simp only [reduceCtorEq, false_iff]
          intro all
          obtain ⟨f, states, -⟩ := (all [] line lines rfl).justified
          have extends_ := all [] line lines rfl
          rw [List.append_nil] at extends_
          have ok := (checkLine_iff (w := ⟨_, f, states⟩) tracks).mpr
            ⟨extends_, Statement.wff?_eq_some.mpr rfl⟩
          rw [checked] at ok
          cases ok
      | ok w =>
          obtain ⟨extends_, reads⟩ := (checkLine_iff tracks).mp checked
          -- the first line moves from the lines to be checked to the earlier ones
          simp only [ih (tracks.snoc extends_ reads)]
          constructor
          · intro rest before other after split
            cases before with
            | nil =>
                cases split
                rwa [List.append_nil]
            | cons first before =>
                obtain ⟨rfl, rfl⟩ := List.cons.inj split
                simpa using rest before other after rfl
          · intro all before other after split
            simpa using all (line :: before) other after (by rw [split, List.cons_append])

/-- What a faulty line is told does not depend on the lines behind it. -/
theorem validateFrom_append (more : Proof)
    (invalid : validateFrom previous accepted lines ≠ .valid) :
    validateFrom previous accepted (lines ++ more) = validateFrom previous accepted lines := by
  induction lines generalizing previous accepted with
  | nil => exact absurd rfl invalid
  | cons line lines ih =>
      rw [List.cons_append, validateFrom, validateFrom]
      rw [validateFrom] at invalid
      split
      · rfl
      · rename_i checked
        rw [checked] at invalid
        exact ih invalid

end Validation

namespace Proof

variable {proof earlier : Proof} {line : ProofLine} {n : Int} {f g : Formula}

theorem validate_eq_valid_iff :
    proof.validate = .valid ↔
      ∀ before line after, proof = before ++ line :: after → line.Extends before := by
  simpa only [validate, List.nil_append] using
    Validation.validateFrom_eq_valid Validation.tracks_nil

/-- One more line keeps a proof valid exactly when it may stand at its end. -/
theorem validate_append_singleton :
    validate (earlier ++ [line]) = .valid ↔ earlier.validate = .valid ∧ line.Extends earlier := by
  simp only [validate_eq_valid_iff]
  exact splits_append_singleton

theorem validate_eq_of_initial {part : Proof} (initial : part <+: proof)
    (invalid : part.validate ≠ .valid) : proof.validate = part.validate := by
  obtain ⟨more, rfl⟩ := initial
  exact Validation.validateFrom_append more invalid

/-- What a proof has to be like, said of the proof as a whole. -/
structure WellBuilt (proof : Proof) : Prop where
  first : ∀ line ∈ proof.head?, line.number = 1
  increasing : proof.Pairwise fun l m => l.number < m.number
  wellFormed : ∀ line ∈ proof, line.statement.formula? ≠ none
  unnested : ∀ line ∈ proof, line.depth = 0
  justified : ∀ before line after, proof = before ++ line :: after →
    ∀ f, line.statement.formula? = some f → Justified before f line.justification

theorem WellBuilt.init (built : WellBuilt (earlier ++ [line])) : earlier.WellBuilt where
  first l head := by
    refine built.first l ?_
    cases earlier with
    | nil => cases head
    | cons start rest => exact head
  increasing := (List.pairwise_append.mp built.increasing).1
  wellFormed l member := built.wellFormed l (List.mem_append_left _ member)
  unnested l member := built.unnested l (List.mem_append_left _ member)
  justified := (splits_append_singleton.mp built.justified).1

theorem WellBuilt.extends (built : WellBuilt (earlier ++ [line])) : line.Extends earlier where
  first none := by
    subst none
    exact built.first line rfl
  later l member := (List.pairwise_append.mp built.increasing).2.2 l member line (by simp)
  unnested := built.unnested line (by simp)
  justified := by
    obtain ⟨f, states⟩ := Option.ne_none_iff_exists'.mp (built.wellFormed line (by simp))
    exact ⟨f, states, (splits_append_singleton.mp built.justified).2 f states⟩

theorem WellBuilt.append (built : earlier.WellBuilt) (next : line.Extends earlier) :
    WellBuilt (earlier ++ [line]) where
  first := by
    cases earlier with
    | nil =>
        intro l head
        cases head
        exact next.first rfl
    | cons start rest => exact built.first
  increasing := by
    rw [List.pairwise_append]
    refine ⟨built.increasing, List.pairwise_singleton _ _, fun l member m last => ?_⟩
    rw [List.mem_singleton.mp last]
    exact next.later l member
  wellFormed := by
    obtain ⟨f, states, -⟩ := next.justified
    rw [List.forall_mem_append, List.forall_mem_singleton, states]
    exact ⟨built.wellFormed, Option.some_ne_none f⟩
  unnested := by
    rw [List.forall_mem_append, List.forall_mem_singleton]
    exact ⟨built.unnested, next.unnested⟩
  justified := by
    refine splits_append_singleton.mpr ⟨built.justified, fun g same => ?_⟩
    obtain ⟨f, states, reason⟩ := next.justified
    rw [states] at same
    cases same
    exact reason

theorem wellBuilt_append_singleton :
    WellBuilt (earlier ++ [line]) ↔ earlier.WellBuilt ∧ line.Extends earlier :=
  ⟨fun built => ⟨built.init, built.extends⟩, fun ⟨built, next⟩ => built.append next⟩

theorem validate_eq_valid_iff_wellBuilt : proof.validate = .valid ↔ proof.WellBuilt := by
  induction proof using List.reverseRecOn with
  | nil => exact ⟨fun _ => ⟨by simp, .nil, by simp, by simp, by simp⟩, fun _ => rfl⟩
  | append_singleton earlier line ih =>
      rw [validate_append_singleton, wellBuilt_append_singleton, ih]

/-- A number stands for one formula. -/
theorem WellBuilt.states_unique (built : proof.WellBuilt) (first : proof.States n f)
    (second : proof.States n g) : f = g := by
  have numbers : (proof.map ProofLine.number).Nodup :=
    List.pairwise_map.mpr (built.increasing.imp Int.ne_of_lt)
  obtain ⟨line, member, rfl, reads⟩ := first
  obtain ⟨other, listed, same, also⟩ := second
  cases List.inj_on_of_nodup_map numbers listed member same
  exact Option.some.inj (reads.symm.trans also)

theorem WellBuilt.cited_unique {references : List Int} {gs hs : List Formula}
    (built : proof.WellBuilt) (first : List.Forall₂ proof.States references gs)
    (second : List.Forall₂ proof.States references hs) : gs = hs := by
  have unique : Relator.RightUnique (List.Forall₂ proof.States) :=
    Relator.RightUnique.forall₂ fun _ _ _ one other => built.states_unique one other
  exact unique first second

/-- A rejected proof has a shortest rejected beginning. -/
theorem exists_shortest_invalid (invalid : proof.validate ≠ .valid) :
    ∃ part : Proof, part <+: proof ∧ part.validate ≠ .valid ∧
      ∀ other : Proof, other <+: proof → other.validate ≠ .valid →
        part.length ≤ other.length := by
  induction proof using List.reverseRecOn with
  | nil => exact absurd rfl invalid
  | append_singleton earlier line ih =>
      by_cases before : validate earlier = .valid
      · refine ⟨earlier ++ [line], List.prefix_rfl, invalid, fun other initial bad => ?_⟩
        rcases List.prefix_concat_iff.mp initial with rfl | shorter
        · exact Nat.le_refl _
        · exact absurd (validate_eq_of_initial shorter bad ▸ before) bad
      · obtain ⟨part, initial, bad, least⟩ := ih before
        refine ⟨part, initial.trans (List.prefix_append _ _), bad, fun other start other_bad => ?_⟩
        rcases List.prefix_concat_iff.mp start with rfl | shorter
        · exact Nat.le_trans initial.length_le (by simp)
        · exact least other shorter other_bad

/-- The verdict is `valid` for the well-built proofs alone, and a rejection is that of the shortest
rejected beginning. -/
theorem validate_exact (proof : Proof) :
    (proof.validate = .valid ↔ proof.WellBuilt) ∧
      (proof.validate ≠ .valid → ∃ part : Proof, part <+: proof ∧ part.validate ≠ .valid ∧
        (∀ other : Proof, other <+: proof → other.validate ≠ .valid →
          part.length ≤ other.length) ∧
        proof.validate = part.validate) := by
  refine ⟨validate_eq_valid_iff_wellBuilt, fun invalid => ?_⟩
  obtain ⟨part, initial, bad, least⟩ := exists_shortest_invalid invalid
  exact ⟨part, initial, bad, least, validate_eq_of_initial initial bad⟩

end Proof

end ProofPuzzles
