import Mathlib.Order.WellFounded
import ProofPuzzles.Proofs.Search.Progress

/-! # Searching along an outline

An outline says of each hidden formula of a derivation from what it is derived in one step. The
search builds few conjunctions and disjunctions, but it does not need the others. What was built
to be taken apart again would have to rest on itself. A conjunction of conditionals that a dilemma
consumes can be left out for the conditionals, and a disjunction that a dilemma consumes is one of
antecedents. So every two rounds at least one more of the hidden formulas becomes known.
-/

namespace ProofPuzzles

open Formula Search

/-- One step of an outline: what is consumed is different formulas of lower rank. -/
structure OutlineStep (rank : Formula → Nat) (given hidden : List Formula) (rule : InferenceRule)
    (premises : List Formula) (f : Formula) : Prop where
  consumes : Consumes rule premises f
  distinct : premises.Nodup
  stand : ∀ e ∈ premises, e ∈ hidden ∨ e ∈ given
  lower : ∀ e ∈ premises, rank e < rank f

/-- A derivation of the hidden formulas from the given ones. No hidden formula is longer than the
limit, and no given one that is no literal. -/
structure Outline (limit : Int) (given hidden : List Formula) where
  rank : Formula → Nat
  step : ∀ f ∈ hidden, ∃ rule premises, OutlineStep rank given hidden rule premises f
  short : ∀ f ∈ hidden, (f.tiles.length : Int) ≤ limit
  compound : ∀ f ∈ given, (f.tiles.length : Int) ≤ limit ∨ f.isLiteral = true

theorem Search.mem_closedRules {rule : InferenceRule} :
    rule ∈ closedRules ↔ rule ≠ .conjunction ∧ rule ≠ .addition := by
  simp [closedRules, InferenceRule.mem_all]

theorem length_filter_lt {α : Type} {as : List α} {p q : α → Bool} {a : α}
    (fewer : ∀ a, q a = true → p a = true) (member : a ∈ as) (before : p a = true)
    (after : q a = false) : (as.filter q).length < (as.filter p).length := by
  have twice : as.filter q = (as.filter p).filter q := by
    rw [List.filter_filter]
    refine List.filter_congr fun b _ => ?_
    cases kept : q b
    · rfl
    · simp [fewer b kept]
  rw [twice]
  exact List.length_filter_lt_length_iff_exists.mpr
    ⟨a, List.mem_filter.mpr ⟨member, before⟩, by simp [after]⟩

namespace Outline

variable {limit cap : Int} {given hidden : List Formula} (outline : Outline limit given hidden)
  {goal e f : Formula} {known : List Formula}

/-- The formula stands in the outline, and its rank is lower. -/
def Below (f e : Formula) : Prop := (e ∈ hidden ∨ e ∈ given) ∧ outline.rank e < outline.rank f

/-- A hidden formula that the search is after: it is not left out for how it is built. -/
structure Wanted (goal : Formula) (known : List Formula) (f : Formula) : Prop where
  member : f ∈ hidden
  unknown : f ∉ known
  reason : Inside goal known f ∨ ∃ rule premises, rule ∈ closedRules ∧
    OutlineStep outline.rank given hidden rule premises f

/-- A wanted formula such that everything of lower rank that is wanted is known. -/
structure Next (goal : Formula) (known : List Formula) (f : Formula) : Prop
    extends outline.Wanted goal known f where
  granted : given ⊆ known
  first : ∀ e, outline.Wanted goal known e → outline.rank f ≤ outline.rank e

theorem exists_next (granted : given ⊆ known) (member : goal ∈ hidden) (unknown : goal ∉ known) :
    ∃ f, outline.Next goal known f := by
  have wanted : outline.Wanted goal known goal :=
    ⟨member, unknown, .inl ⟨goal, List.mem_cons_self, goal.self_mem_subformulas⟩⟩
  obtain ⟨f, least, first⟩ := WellFounded.has_min (measure outline.rank).wf
    {f | outline.Wanted goal known f} ⟨goal, wanted⟩
  exact ⟨f, least, granted, fun e wants => Nat.not_lt.mp (first e wants)⟩

variable {outline}

namespace Next

section

variable (next : outline.Next goal known f)

include next

/-- What is inside the goal or inside something known is not left out. -/
theorem known_of_inside (below : outline.Below f e) (inside : Inside goal known e) :
    e ∈ known := by
  rcases below.1 with hidden | granted
  · by_contra unknown
    have above := next.first e ⟨hidden, unknown, .inl inside⟩
    have lower := below.2
    omega
  · exact next.granted granted

/-- What is not known although it is of lower rank was built by Conjunction or Addition. -/
theorem built (below : outline.Below f e) (unknown : e ∉ known) :
    e ∈ hidden ∧ ∃ rule premises, (rule = .conjunction ∨ rule = .addition) ∧
      OutlineStep outline.rank given hidden rule premises e := by
  rcases below.1 with hidden | granted
  · obtain ⟨rule, premises, step⟩ := outline.step e hidden
    refine ⟨hidden, rule, premises, ?_, step⟩
    by_contra other
    have closed : rule ∈ closedRules := mem_closedRules.mpr (not_or.mp other)
    have above := next.first e ⟨hidden, unknown, .inr ⟨rule, premises, closed, step⟩⟩
    have lower := below.2
    omega
  · exact absurd (next.granted granted) unknown

theorem impl_known {a b : Formula} (below : outline.Below f (impl a b)) : impl a b ∈ known := by
  by_contra unknown
  obtain ⟨-, rule, premises, rfl | rfl, step⟩ := next.built below unknown
  · obtain ⟨_, _, -, shape⟩ := step.consumes
    cases shape
  · obtain ⟨_, _, -, shape | shape⟩ := step.consumes <;> cases shape

theorem neg_known {a : Formula} (below : outline.Below f (neg a)) : neg a ∈ known := by
  by_contra unknown
  obtain ⟨-, rule, premises, rfl | rfl, step⟩ := next.built below unknown
  · obtain ⟨_, _, -, shape⟩ := step.consumes
    cases shape
  · obtain ⟨_, _, -, shape | shape⟩ := step.consumes <;> cases shape

/-- A conjunction that is not known was built from its two sides. -/
theorem conj_built {a b : Formula} (below : outline.Below f (conj a b))
    (unknown : conj a b ∉ known) :
    a ≠ b ∧ outline.Below (conj a b) a ∧ outline.Below (conj a b) b := by
  obtain ⟨-, rule, premises, rfl | rfl, step⟩ := next.built below unknown
  · obtain ⟨x, y, rfl, shape⟩ := step.consumes
    cases shape
    have distinct := step.distinct
    exact ⟨by simpa using distinct, ⟨step.stand a (by simp), step.lower a (by simp)⟩,
      ⟨step.stand b (by simp), step.lower b (by simp)⟩⟩
  · obtain ⟨_, _, -, shape | shape⟩ := step.consumes <;> cases shape

/-- A disjunction that is not known was built from one side and consumed the other side as well. -/
theorem disj_built {a b : Formula} (below : outline.Below f (disj a b))
    (unknown : disj a b ∉ known) :
    a ≠ b ∧ outline.Below (disj a b) a ∧ outline.Below (disj a b) b := by
  obtain ⟨-, rule, premises, rfl | rfl, step⟩ := next.built below unknown
  · obtain ⟨_, _, -, shape⟩ := step.consumes
    cases shape
  · have distinct := step.distinct
    obtain ⟨x, y, rfl, shape | shape⟩ := step.consumes
    · cases shape
      exact ⟨by simpa using distinct, ⟨step.stand a (by simp), step.lower a (by simp)⟩,
        ⟨step.stand b (by simp), step.lower b (by simp)⟩⟩
    · cases shape
      exact ⟨by simpa [eq_comm] using distinct, ⟨step.stand a (by simp), step.lower a (by simp)⟩,
        ⟨step.stand b (by simp), step.lower b (by simp)⟩⟩

end

end Next

theorem Below.trans {d : Formula} (upper : outline.Below f e) (below : outline.Below e d) :
    outline.Below f d :=
  ⟨below.1, Nat.lt_trans below.2 upper.2⟩

theorem Below.not_self (below : outline.Below f e) : ¬outline.Below e f := by
  intro above
  exact Nat.lt_asymm below.2 above.2

/-! ## Progress -/

section

variable {derivation : Derivation} (next : outline.Next goal derivation.formulas f)
  (unknown : goal ∉ derivation.formulas) (within : limit ≤ cap)

/-- One more hidden formula is known after two rounds. -/
def Progress (hidden : List Formula) (goal : Formula) (cap : Int) (derivation : Derivation) :
    Prop :=
  ∃ e ∈ hidden, e ∉ derivation.formulas ∧ e ∈ (pool goal cap 2 derivation).formulas

theorem progress_of_next (member : e ∈ hidden) (missing : e ∉ derivation.formulas)
    (learned : e ∈ (Search.next goal cap derivation).formulas) :
    Progress hidden goal cap derivation :=
  ⟨e, member, missing, pool_subset (m := 1) (by omega) learned⟩

include next unknown within

theorem progress_of_schema {rule : InferenceRule} {cited : List Formula}
    (distinct : derivation.formulas.Nodup) (schema : Schema rule cited f)
    (closed : rule ∈ closedRules) (different : cited.Nodup) (known : cited ⊆ derivation.formulas) :
    Progress hidden goal cap derivation :=
  progress_of_next next.member next.unknown (mem_next_of_schema distinct unknown schema closed
    different known (Int.le_trans (outline.short f next.member) within))

/-- What Conjunction and Addition derive inside the goal or inside something known is found. -/
theorem progress_of_built {rule : InferenceRule} {premises : List Formula}
    (inside : Inside goal derivation.formulas f) (builds : rule ∉ closedRules)
    (step : OutlineStep outline.rank given hidden rule premises f) :
    Progress hidden goal cap derivation := by
  have short := Int.le_trans (outline.short f next.member) within
  have known : ∀ e ∈ premises, e ∈ f.subformulas → e ∈ derivation.formulas :=
    fun e member part => next.known_of_inside ⟨step.stand e member, step.lower e member⟩
      (inside.part part)
  refine progress_of_next next.member next.unknown ?_
  by_cases joins : rule = .conjunction
  · subst joins
    have distinct := step.distinct
    obtain ⟨a, b, rfl, rfl⟩ := step.consumes
    exact conj_mem_next unknown inside (by simpa using distinct)
      (known a (by simp) (left_mem_subformulas a b))
      (known b (by simp) (right_mem_subformulas a b)) short
  · have adds : rule = .addition := by
      by_contra other
      exact builds (mem_closedRules.mpr ⟨joins, other⟩)
    subst adds
    obtain ⟨a, x, rfl, rfl | rfl⟩ := step.consumes
    · exact disj_mem_next unknown inside
        (.inl (known a (by simp) (left_mem_subformulas a x))) short
    · exact disj_mem_next unknown inside
        (.inr (known a (by simp) (right_mem_subformulas x a))) short

/-- A dilemma with known conditionals goes on: its disjunction is known, or it is a disjunction of
antecedents that becomes known. -/
theorem progress_of_dilemma {a b c d : Formula} (distinct : derivation.formulas.Nodup)
    (first : impl a b ∈ derivation.formulas) (second : impl c d ∈ derivation.formulas)
    (differ : impl a b ≠ impl c d) (below : outline.Below f (disj a c)) (shape : f = disj b d) :
    Progress hidden goal cap derivation := by
  subst shape
  by_cases known : disj a c ∈ derivation.formulas
  · refine progress_of_schema next unknown within distinct (.separateDilemma a b c d) (by decide)
      ?_ (by simp [first, second, known])
    simp only [ne_eq] at differ
    simp [differ]
  · obtain ⟨apart, left, -⟩ := next.disj_built below known
    have hidden := (next.built below known).1
    have part : Inside goal derivation.formulas a :=
      (inside_of_mem first).part (left_mem_subformulas a b)
    exact progress_of_next hidden known (antecedents_mem_next unknown first second apart
      (next.known_of_inside (below.trans left) part)
      (Int.le_trans (outline.short _ hidden) within))

/-- The same where only the conjunction of the conditionals may be known: it is taken apart
first. -/
theorem progress_of_joinedDilemma {a b c d : Formula} (distinct : derivation.formulas.Nodup)
    (member : goal ∈ hidden) (joined : outline.Below f (conj (impl a b) (impl c d)))
    (below : outline.Below f (disj a c)) (shape : f = disj b d) :
    Progress hidden goal cap derivation := by
  by_cases both : conj (impl a b) (impl c d) ∈ derivation.formulas
  · by_cases known : disj a c ∈ derivation.formulas
    · subst shape
      exact progress_of_schema next unknown within distinct (.joinedDilemma a b c d) (by decide)
        (by simp) (by simp [both, known])
    · obtain ⟨apart, left, -⟩ := next.disj_built below known
      have hidden := (next.built below known).1
      have part : Inside goal derivation.formulas a :=
        (inside_of_mem both).part
          (mem_subformulas_trans (left_mem_subformulas a b) (left_mem_subformulas _ _))
      have antecedent := next.known_of_inside (below.trans left) part
      have bounded : ((conj (impl a b) (impl c d)).tiles.length : Int) ≤ cap := by
        rcases joined.1 with hidden | granted
        · exact Int.le_trans (outline.short _ hidden) within
        · rcases outline.compound _ granted with short | literal
          · exact Int.le_trans short within
          · cases literal
      rw [tiles_bin] at bounded
      simp only [List.length_cons, List.length_append] at bounded
      have first : impl a b ∈ (Search.next goal cap derivation).formulas :=
        mem_next_of_schema distinct unknown (.simplifyLeft (impl a b) (impl c d)) (by decide)
          (by simp) (by simp [both]) (by omega)
      have second : impl c d ∈ (Search.next goal cap derivation).formulas :=
        mem_next_of_schema distinct unknown (.simplifyRight (impl a b) (impl c d)) (by decide)
          (by simp) (by simp [both]) (by omega)
      by_cases done : goal ∈ (Search.next goal cap derivation).formulas
      · exact progress_of_next member unknown done
      · refine ⟨disj a c, hidden, known, ?_⟩
        exact antecedents_mem_next done first second apart (subset_next antecedent)
          (Int.le_trans (outline.short _ hidden) within)
  · obtain ⟨differ, left, right⟩ := next.conj_built joined both
    exact progress_of_dilemma next unknown within distinct (next.impl_known (joined.trans left))
      (next.impl_known (joined.trans right)) differ below shape

theorem progress_of_closed {rule : InferenceRule} {premises : List Formula}
    (distinct : derivation.formulas.Nodup) (member : goal ∈ hidden) (closed : rule ∈ closedRules)
    (step : OutlineStep outline.rank given hidden rule premises f) :
    Progress hidden goal cap derivation := by
  have below : ∀ e ∈ premises, outline.Below f e := fun e member =>
    ⟨step.stand e member, step.lower e member⟩
  have schema := step.consumes.schema (mem_closedRules.mp closed).2
  have found : premises ⊆ derivation.formulas → Progress hidden goal cap derivation :=
    progress_of_schema next unknown within distinct schema closed step.distinct
  cases schema <;> simp only [List.forall_mem_cons] at below
  case modusPonens a =>
    have conditional := next.impl_known below.1
    have part : Inside goal derivation.formulas a :=
      (inside_of_mem conditional).part (left_mem_subformulas a f)
    exact found (by simp [conditional, next.known_of_inside below.2.1 part])
  case modusTollens =>
    exact found (by simp [next.impl_known below.1, next.neg_known below.2.1])
  case hypotheticalSyllogism =>
    exact found (by simp [next.impl_known below.1, next.impl_known below.2.1])
  case denyLeft a =>
    by_cases known : disj a f ∈ derivation.formulas
    · exact found (by simp [known, next.neg_known below.2.1])
    · exact absurd (next.disj_built below.1 known).2.2 below.1.not_self
  case denyRight b =>
    by_cases known : disj f b ∈ derivation.formulas
    · exact found (by simp [known, next.neg_known below.2.1])
    · exact absurd (next.disj_built below.1 known).2.1 below.1.not_self
  case joinedDilemma a b c d =>
    exact progress_of_joinedDilemma next unknown within distinct member below.1 below.2.1 rfl
  case separateDilemma a b c d =>
    have differ : impl a b ≠ impl c d := by
      have apart := step.distinct
      rw [List.nodup_cons, List.mem_cons, not_or] at apart
      exact apart.1.1
    exact progress_of_dilemma next unknown within distinct (next.impl_known below.1)
      (next.impl_known below.2.1) differ
      below.2.2.1 rfl
  case absorption => exact found (by simp [next.impl_known below.1])
  case simplifyLeft b =>
    by_cases known : conj f b ∈ derivation.formulas
    · exact found (by simp [known])
    · exact absurd (next.conj_built below.1 known).2.1 below.1.not_self
  case simplifyRight a =>
    by_cases known : conj a f ∈ derivation.formulas
    · exact found (by simp [known])
    · exact absurd (next.conj_built below.1 known).2.2 below.1.not_self
  case conjunction | conjunctionSwapped => exact absurd rfl (mem_closedRules.mp closed).1
  case addRight | addLeft => exact absurd rfl (mem_closedRules.mp closed).2

end

variable {derivation : Derivation}

/-- Until the goal is known, every two rounds find one more hidden formula. -/
theorem progress (outline : Outline limit given hidden) (within : limit ≤ cap)
    (distinct : derivation.formulas.Nodup) (granted : given ⊆ derivation.formulas)
    (member : goal ∈ hidden) (unknown : goal ∉ derivation.formulas) :
    Progress hidden goal cap derivation := by
  obtain ⟨f, next⟩ := outline.exists_next granted member unknown
  rcases next.reason with inside | ⟨rule, premises, closed, step⟩
  · obtain ⟨rule, premises, step⟩ := outline.step f next.member
    by_cases closed : rule ∈ closedRules
    · exact progress_of_closed next unknown within distinct member closed step
    · exact progress_of_built next unknown within inside closed step
  · exact progress_of_closed next unknown within distinct member closed step

/-- The hidden formulas that are not known yet. -/
def missing (hidden : List Formula) (derivation : Derivation) : List Formula :=
  hidden.filter (· ∉ derivation.formulas)

theorem mem_missing : f ∈ missing hidden derivation ↔ f ∈ hidden ∧ f ∉ derivation.formulas := by
  simp [missing]

theorem Progress.fewer_missing (progress : Progress hidden goal cap derivation) :
    (missing hidden (pool goal cap 2 derivation)).length < (missing hidden derivation).length := by
  obtain ⟨e, member, before, learned⟩ := progress
  refine length_filter_lt (fun f late => ?_) member (by simpa using before) (by simpa using learned)
  exact decide_eq_true (mt (pool_subset (Nat.zero_le 2) ·) (of_decide_eq_true late))

theorem known_or_fewer_missing (outline : Outline limit given hidden) (within : limit ≤ cap)
    (distinct : derivation.formulas.Nodup) (granted : given ⊆ derivation.formulas)
    (member : goal ∈ hidden) (m : Nat) :
    goal ∈ (pool goal cap (2 * m) derivation).formulas ∨
      (missing hidden (pool goal cap (2 * m) derivation)).length + m ≤ hidden.length := by
  induction m with
  | zero => exact .inr (List.length_filter_le _ _)
  | succ m ih =>
      have more : pool goal cap (2 * (m + 1)) derivation =
          pool goal cap 2 (pool goal cap (2 * m) derivation) := by
        rw [pool_pool, Nat.mul_succ, Nat.add_comm]
      rw [more]
      by_cases known : goal ∈ (pool goal cap (2 * m) derivation).formulas
      · exact .inl (pool_subset (Nat.zero_le 2) known)
      · have counted := ih.resolve_left known
        have fewer := (outline.progress within (nodup_pool distinct)
          (List.Subset.trans granted (pool_subset (Nat.zero_le _))) member known).fewer_missing
        exact .inr (by omega)

/-- Two rounds for each hidden formula find all that leads to the goal. -/
theorem goal_mem_pool (outline : Outline limit given hidden) (within : limit ≤ cap)
    (distinct : derivation.formulas.Nodup) (granted : given ⊆ derivation.formulas)
    (member : goal ∈ hidden) :
    goal ∈ (pool goal cap (2 * hidden.length) derivation).formulas := by
  rcases outline.known_or_fewer_missing within distinct granted member hidden.length with
    known | counted
  · exact known
  · by_contra unknown
    have waiting := List.length_pos_of_mem (mem_missing.mpr ⟨member, unknown⟩)
    omega

end Outline

end ProofPuzzles
