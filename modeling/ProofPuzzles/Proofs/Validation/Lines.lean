import Mathlib.Data.List.Forall2
import ProofPuzzles.Proofs.Inference.Matching
import ProofPuzzles.Proofs.Replacement.Context
import ProofPuzzles.Proofs.WellFormed

/-! # Which line may follow which lines

The check keeps a table of accepted lines. What it decides about the next line can be said without
the table: the number goes on, the line stands in no sub-proof, and the formula is justified by
formulas that earlier lines state.
-/

namespace ProofPuzzles

/-- One of the lines has this number and states this formula. -/
def Proof.States (proof : Proof) (number : Int) (f : Formula) : Prop :=
  ∃ line ∈ proof, line.number = number ∧ line.statement.formula? = some f

/-- Why a formula may be stated after the earlier lines. Sub-proofs justify nothing. -/
inductive Justified (earlier : Proof) (f : Formula) : Justification → Prop where
  | premise : Justified earlier f .premise
  | assumption : Justified earlier f .assumption
  | reiteration {n : Int} (same : earlier.States n f) : Justified earlier f (.reiteration n)
  | replacement {rule : ReplacementRule} {n : Int} {g : Formula} (source : earlier.States n g)
    (rewritten : Rewrites rule g f) : Justified earlier f (.replacement rule n)
  | inference {rule : InferenceRule} {references : List Int} {gs : List Formula}
    (cited : List.Forall₂ earlier.States references gs) (schema : Schema rule gs f) :
    Justified earlier f (.inference rule references)

section

variable {lines more : Proof} {n : Int} {f : Formula} {justification : Justification}

theorem Proof.States.mono (states : lines.States n f) (kept : lines ⊆ more) : more.States n f := by
  obtain ⟨line, member, same⟩ := states
  exact ⟨line, kept member, same⟩

theorem Proof.cited_mono {references : List Int} {gs : List Formula}
    (cited : List.Forall₂ lines.States references gs) (kept : lines ⊆ more) :
    List.Forall₂ more.States references gs :=
  cited.imp fun _ _ states => states.mono kept

/-- What justifies a formula among some lines does so among more. -/
theorem Justified.mono (justified : Justified lines f justification) (kept : lines ⊆ more) :
    Justified more f justification := by
  cases justified with
  | premise => exact .premise
  | assumption => exact .assumption
  | reiteration same => exact .reiteration (same.mono kept)
  | replacement source rewritten => exact .replacement (source.mono kept) rewritten
  | inference cited schema => exact .inference (Proof.cited_mono cited kept) schema

end

/-- The line may stand directly behind the earlier ones. -/
structure ProofLine.Extends (line : ProofLine) (earlier : Proof) : Prop where
  first : earlier = [] → line.number = 1
  later : ∀ other ∈ earlier, other.number < line.number
  unnested : line.depth = 0
  justified : ∃ f, line.statement.formula? = some f ∧ Justified earlier f line.justification

namespace Validation

/-- The table of the check holds the earlier lines, and the last of them has the given number. -/
structure Tracks (previous : Int) (accepted : Accepted) (earlier : Proof) : Prop where
  empty : earlier = [] → previous = 0
  positive : earlier ≠ [] → 0 < previous
  bounded : ∀ line ∈ earlier, line.number ≤ previous
  reached : earlier ≠ [] → ∃ line ∈ earlier, line.number = previous
  found : ∀ n w, accepted.line? n = some w ↔
    ∃ line ∈ earlier, line.number = n ∧ line.statement.wff? = some w

theorem tracks_nil : Tracks 0 [] [] :=
  ⟨by simp, by simp, by simp, by simp, by simp [Accepted.line?]⟩

section

variable {previous : Int} {accepted : Accepted} {earlier : Proof} {line : ProofLine} {w : Wff}

theorem number_ok_iff (tracks : Tracks previous accepted earlier) :
    ¬(line.number ≤ previous ∨ previous = 0 ∧ line.number ≠ 1) ↔
      (earlier = [] → line.number = 1) ∧ ∀ other ∈ earlier, other.number < line.number := by
  constructor
  · intro ok
    refine ⟨fun none => ?_, fun other member => ?_⟩
    · have start := tracks.empty none
      omega
    · have bound := tracks.bounded other member
      omega
  · rintro ⟨first, later⟩
    by_cases none : earlier = []
    · have start := tracks.empty none
      have one := first none
      omega
    · obtain ⟨last, member, same⟩ := tracks.reached none
      have increases := later last member
      have started := tracks.positive none
      omega

theorem Tracks.number_pos (tracks : Tracks previous accepted earlier)
    (h : line.Extends earlier) : 0 < line.number := by
  by_cases none : earlier = []
  · have one := h.first none
    omega
  · obtain ⟨last, member, same⟩ := tracks.reached none
    have increases := h.later last member
    have started := tracks.positive none
    omega

theorem Tracks.snoc (tracks : Tracks previous accepted earlier) (h : line.Extends earlier)
    (reads : line.statement.wff? = some w) :
    Tracks line.number ((line.number, w) :: accepted) (earlier ++ [line]) where
  empty := by simp
  positive _ := tracks.number_pos h
  bounded other member := by
    rcases List.mem_append.mp member with old | new
    · exact Int.le_of_lt (h.later other old)
    · exact Int.le_of_eq (by rw [List.mem_singleton.mp new])
  reached _ := ⟨line, by simp, rfl⟩
  found n v := by
    by_cases same : line.number = n
    · subst same
      simp only [Accepted.line?, List.find?_cons, decide_true, Option.map_some, Option.some.injEq]
      constructor
      · rintro rfl
        exact ⟨line, by simp, rfl, reads⟩
      · rintro ⟨other, member, number, states⟩
        rcases List.mem_append.mp member with old | new
        · exact absurd number (Int.ne_of_lt (h.later other old))
        · rw [List.mem_singleton.mp new, reads] at states
          exact Option.some.inj states
    · have skipped : Accepted.line? ((line.number, w) :: accepted) n = accepted.line? n := by
        simp [Accepted.line?, same]
      rw [skipped, tracks.found]
      constructor
      · rintro ⟨other, member, states⟩
        exact ⟨other, List.mem_append_left _ member, states⟩
      · rintro ⟨other, member, number, states⟩
        rcases List.mem_append.mp member with old | new
        · exact ⟨other, old, number, states⟩
        · exact absurd (List.mem_singleton.mp new ▸ number) same

theorem states_iff (tracks : Tracks previous accepted earlier) {n : Int} {f : Formula} :
    earlier.States n f ↔ ∃ w, accepted.line? n = some w ∧ w.formula = f := by
  constructor
  · rintro ⟨line, member, number, reads⟩
    exact ⟨⟨line.statement, f, reads⟩,
      (tracks.found _ _).mpr ⟨line, member, number, Statement.wff?_eq_some.mpr rfl⟩, rfl⟩
  · rintro ⟨w, found, rfl⟩
    obtain ⟨line, member, number, reads⟩ := (tracks.found _ _).mp found
    refine ⟨line, member, number, ?_⟩
    rw [← Statement.wff?_eq_some.mp reads, w.reads]

theorem line_eq_ok {n : Int} : accepted.line n = .ok w ↔ accepted.line? n = some w := by
  unfold Accepted.line
  split <;> simp_all

theorem lines_eq_ok {references : List Int} {ws : List Wff} :
    accepted.lines references = .ok ws ↔
      List.Forall₂ (fun n w => accepted.line? n = some w) references ws := by
  induction references generalizing ws with
  | nil =>
      rw [List.forall₂_nil_left_iff]
      simp [Accepted.lines, eq_comm]
  | cons n references ih =>
      rw [Accepted.lines, List.forall₂_cons_left_iff]
      simp only [← ih]
      simp only [← line_eq_ok]
      cases accepted.line n with
      | error => simp
      | ok v =>
          cases accepted.lines references with
          | error => simp
          | ok vs => simp [eq_comm]

theorem lines_states_iff (tracks : Tracks previous accepted earlier) {references : List Int}
    {gs : List Formula} : List.Forall₂ earlier.States references gs ↔
      ∃ ws, accepted.lines references = .ok ws ∧ ws.map Wff.formula = gs := by
  induction references generalizing gs with
  | nil => simp [Accepted.lines, List.forall₂_nil_left_iff, eq_comm]
  | cons n references ih =>
      simp only [List.forall₂_cons_left_iff, states_iff tracks, ih, lines_eq_ok]
      constructor
      · rintro ⟨f, fs, ⟨w, found, rfl⟩, ⟨ws, cited, rfl⟩, rfl⟩
        exact ⟨w :: ws, ⟨w, ws, found, cited, rfl⟩, rfl⟩
      · rintro ⟨vs, ⟨w, ws, found, cited, rfl⟩, rfl⟩
        exact ⟨_, _, ⟨w, found, rfl⟩, ⟨ws, cited, rfl⟩, rfl⟩

theorem found_in_order_iff {found : List Application} {order : Option (List String)}
    {inOrder : Application → Bool} {absent : LineFault} {turned : List String → LineFault} :
    (if found.isEmpty then Except.error absent
      else match order with
        | some parts => if found.any inOrder then Except.ok () else .error (turned parts)
        | none => .ok ()) = .ok () ↔
      ∃ a, a ∈ found ∧ (order ≠ none → inOrder a = true) := by
  cases found with
  | nil => simp
  | cons a found =>
      cases order with
      | none => simp
      | some parts =>
          have some_in_order := List.any_eq_true (p := inOrder) (l := a :: found)
          cases checked : (a :: found).any inOrder <;> simp_all

theorem checkInference_iff {rule : InferenceRule} {references : List Int} :
    checkInference accepted w rule references = .ok () ↔
      ∃ cited, accepted.lines references = .ok cited ∧
        Schema rule (cited.map Wff.formula) w.formula := by
  cases lines : accepted.lines references with
  | error fault =>
      rw [checkInference, lines]
      split <;> simp
  | ok cited =>
      have length : references.length = cited.length := (lines_eq_ok.mp lines).length_eq
      rw [checkInference, lines, length]
      by_cases count : cited.length ∈ rule.referenceCounts
      · simp only [Except.ok.injEq, exists_eq_left']
        rw [if_neg (not_not_intro count)]
        refine found_in_order_iff.trans ?_
        simp only [decide_eq_true_eq]
        exact ⟨Inference.schema_of_accepts count, Inference.accepts_of_schema⟩
      · have unfit : ¬Schema rule (cited.map Wff.formula) w.formula := fun schema =>
          count (by simpa using schema.length_mem)
        simp [count, unfit]

theorem checkJustification_iff (tracks : Tracks previous accepted earlier)
    {justification : Justification} :
    checkJustification accepted w justification = .ok () ↔
      Justified earlier w.formula justification := by
  cases justification with
  | premise => exact ⟨fun _ => .premise, fun _ => rfl⟩
  | assumption => exact ⟨fun _ => .assumption, fun _ => rfl⟩
  | inference rule references =>
      rw [checkJustification, checkInference_iff]
      constructor
      · rintro ⟨cited, lines, schema⟩
        exact .inference ((lines_states_iff tracks).mpr ⟨cited, lines, rfl⟩) schema
      · intro justified
        cases justified with
        | inference cited schema =>
            obtain ⟨ws, lines, rfl⟩ := (lines_states_iff tracks).mp cited
            exact ⟨ws, lines, schema⟩
  | replacement rule n =>
      constructor
      · intro ok
        rw [checkJustification] at ok
        split at ok
        · cases ok
        · rename_i source found
          split at ok
          · rename_i follows
            refine .replacement ((states_iff tracks).mpr ⟨source, line_eq_ok.mp found, rfl⟩) ?_
            exact (Replacement.follows_iff source.reads w.reads).mp follows
          · cases ok
      · intro justified
        cases justified with
        | replacement source rewritten =>
            obtain ⟨v, found, rfl⟩ := (states_iff tracks).mp source
            have follows := (Replacement.follows_iff v.reads w.reads).mpr rewritten
            rw [checkJustification, line_eq_ok.mpr found]
            exact if_pos follows
  | reiteration n =>
      constructor
      · intro ok
        rw [checkJustification] at ok
        split at ok
        · cases ok
        · rename_i source found
          split at ok
          · rename_i same
            exact .reiteration ((states_iff tracks).mpr ⟨source, line_eq_ok.mp found, same⟩)
          · cases ok
      · intro justified
        cases justified with
        | reiteration same =>
            obtain ⟨v, found, same⟩ := (states_iff tracks).mp same
            rw [checkJustification, line_eq_ok.mpr found]
            exact if_pos same
  | conditionalProof first last => exact ⟨nofun, nofun⟩
  | reductio first last => exact ⟨nofun, nofun⟩

theorem checkLine_iff (tracks : Tracks previous accepted earlier) :
    checkLine previous accepted line = .ok w ↔
      line.Extends earlier ∧ line.statement.wff? = some w := by
  constructor
  · intro ok
    rw [checkLine] at ok
    split at ok
    · cases ok
    · rename_i number
      obtain ⟨first, later⟩ := (number_ok_iff tracks).mp number
      split at ok
      · cases ok
      · rename_i v reads
        split at ok
        · cases ok
        · rename_i unnested
          split at ok
          · cases ok
          · rename_i checked
            cases ok
            refine ⟨⟨first, later, Decidable.not_not.mp unnested, w.formula, ?_, ?_⟩, reads⟩
            · rw [← Statement.wff?_eq_some.mp reads, w.reads]
            · exact (checkJustification_iff tracks).mp checked
  · rintro ⟨⟨first, later, unnested, f, states, justified⟩, reads⟩
    have same := w.reads
    rw [Statement.wff?_eq_some.mp reads, states] at same
    cases same
    rw [checkLine, if_neg ((number_ok_iff tracks).mpr ⟨first, later⟩), reads]
    simp only [unnested, (checkJustification_iff tracks).mpr justified]
    rfl

end

end Validation

end ProofPuzzles
