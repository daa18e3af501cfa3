import Mathlib.Data.Char
import ProofPuzzles.Proofs.Commitments
import ProofPuzzles.Proofs.Replacement.Context
import ProofPuzzles.Statement

/-! # What the scan for contradictions finds

The scan looks for a letter that stands directly under a negation in one place and not in another.
Formulas with such a letter may well be true together, as `p∨q` and `¬p` are, and formulas without
one need not be, as `p` and `¬(p∨q)`. But where all negations stand before letters, they are: the
letters under a negation are made false and the others true, so that every connective joins two
truths.
-/

namespace ProofPuzzles

open Formula

/-- There is a negation directly around the hole. -/
def Context.denied : Context → Bool
  | .hole => false
  | .neg .hole => true
  | .neg k => k.denied
  | .left _ k _ => k.denied
  | .right _ _ k => k.denied

/-- The letter has a place in the formula that is directly under a negation, or one that is not. -/
def Formula.Occurs (f : Formula) (x : Letter) (denied : Bool) : Prop :=
  ∃ k : Context, f = k.fill (.letter x) ∧ k.denied = denied

/-- Every negation in the formula is the negation of a letter. -/
def Formula.NegatesLetters (f : Formula) : Prop :=
  ∀ (k : Context) (g : Formula), f = k.fill (.neg g) → ∃ x, g = .letter x

/-- In the formulas together, the letter stands directly under a negation in one place and not in
another. -/
def Clashes (formulas : List Formula) (x : Letter) : Prop :=
  (∃ f ∈ formulas, f.Occurs x true) ∧ ∃ f ∈ formulas, f.Occurs x false

variable {formulas : List Formula} {f : Formula} {x : Letter} {denied : Bool}

/-! ## Occurrences -/

theorem mem_occurrences_fill (k : Context) (x : Letter) :
    ⟨x, !k.denied⟩ ∈ (k.fill (.letter x)).occurrences := by
  induction k with
  | hole => exact List.mem_cons_self
  | neg k ih =>
      cases k with
      | hole => exact List.mem_cons_self
      | neg | left | right => exact ih
  | left c k r ih => exact List.mem_append_left _ ih
  | right c l k ih => exact List.mem_append_right _ ih

/-- Around a compound formula, a negation makes no difference. -/
theorem Formula.Occurs.neg (occurs : f.Occurs x denied) (compound : ∀ y, f ≠ .letter y) :
    (Formula.neg f).Occurs x denied := by
  obtain ⟨k, rfl, same⟩ := occurs
  refine ⟨.neg k, rfl, ?_⟩
  cases k with
  | hole => exact absurd rfl (compound x)
  | neg | left | right => exact same

theorem occurs_of_mem_occurrences (member : ⟨x, !denied⟩ ∈ f.occurrences) : f.Occurs x denied := by
  induction f with
  | letter y =>
      obtain ⟨rfl, plain⟩ : x = y ∧ denied = false := by simpa [occurrences] using member
      exact ⟨.hole, rfl, plain.symm⟩
  | neg f ih =>
      cases f with
      | letter y =>
          obtain ⟨rfl, negated⟩ : x = y ∧ denied = true := by simpa [occurrences] using member
          exact ⟨.neg .hole, rfl, negated.symm⟩
      | neg | bin => exact (ih member).neg fun y same => by cases same
  | bin c l r ihl ihr =>
      rcases List.mem_append.mp member with left | right
      · obtain ⟨k, rfl, same⟩ := ihl left
        exact ⟨.left c k r, rfl, same⟩
      · obtain ⟨k, rfl, same⟩ := ihr right
        exact ⟨.right c l k, rfl, same⟩

theorem occurs_iff : f.Occurs x denied ↔ ⟨x, !denied⟩ ∈ f.literals := by
  rw [literals, mem_firstsBy_id]
  refine ⟨?_, occurs_of_mem_occurrences⟩
  rintro ⟨k, rfl, rfl⟩
  exact mem_occurrences_fill k x

theorem exists_occurs_iff :
    (∃ f ∈ formulas, f.Occurs x denied) ↔ ⟨x, !denied⟩ ∈ formulas.flatMap literals := by
  simp only [List.mem_flatMap, occurs_iff]

/-! ## The first letter found -/

theorem Letter.pairwise_all : Letter.all.Pairwise fun x y => x.char < y.char := by decide

/-- A search through all letters finds the alphabetically first one. -/
theorem Letter.find?_all_eq_some_iff {p : Letter → Bool} :
    Letter.all.find? p = some x ↔ p x = true ∧ ∀ y, p y = true → x.char ≤ y.char := by
  rw [List.find?_eq_some_iff_append]
  have ordered := pairwise_all
  constructor
  · rintro ⟨holds, front, behind, split, none⟩
    refine ⟨holds, fun y also => ?_⟩
    rw [split, List.pairwise_append, List.pairwise_cons] at ordered
    have listed := mem_all y
    rw [split, List.mem_append, List.mem_cons] at listed
    rcases listed with earlier | rfl | later
    · have fails := none y earlier
      simp [also] at fails
    · exact le_refl _
    · exact le_of_lt (ordered.2.1.1 y later)
  · rintro ⟨holds, least⟩
    obtain ⟨front, behind, split⟩ := List.append_of_mem (mem_all x)
    refine ⟨holds, front, behind, split, fun y earlier => ?_⟩
    rw [split, List.pairwise_append] at ordered
    have less := ordered.2.2 y earlier x List.mem_cons_self
    rw [Bool.not_eq_true', ← Bool.not_eq_true]
    exact fun also => not_le.mpr less (least y also)

theorem clashes_iff : Clashes formulas x ↔
    ((formulas.flatMap literals).contains ⟨x, true⟩ &&
      (formulas.flatMap literals).contains ⟨x, false⟩) = true := by
  rw [Clashes, exists_occurs_iff, exists_occurs_iff, Bool.and_eq_true, List.contains_iff_mem,
    List.contains_iff_mem, and_comm]
  rfl

theorem contradiction?_eq_some_iff : contradiction? formulas = some x ↔
    Clashes formulas x ∧ ∀ y, Clashes formulas y → x.char ≤ y.char := by
  simp only [clashes_iff, contradiction?, Letter.find?_all_eq_some_iff]

theorem contradiction?_eq_none_iff :
    contradiction? formulas = none ↔ ∀ x, ¬Clashes formulas x := by
  simp only [clashes_iff, contradiction?, List.find?_eq_none, Letter.mem_all, forall_const]

/-! ## Where negations stand before letters -/

/-- Every negation stands before a letter, and so all that is asserted are the literals. -/
theorem Formula.NegatesLetters.asserted (plain : f.NegatesLetters) : f.Asserted f.occurrences := by
  induction f with
  | letter x => exact .letter List.mem_cons_self
  | neg f =>
      obtain ⟨x, rfl⟩ := plain .hole f rfl
      exact .negated List.mem_cons_self
  | bin c l r ihl ihr =>
      have left : l.NegatesLetters := fun k g same => plain (.left c k r) g (by rw [same]; rfl)
      have right : r.NegatesLetters := fun k g same => plain (.right c l k) g (by rw [same]; rfl)
      exact .bin ((ihl left).mono (List.subset_append_left _ _))
        ((ihr right).mono (List.subset_append_right _ _))

theorem Formula.Asserted.negatesLetters {used : List Literal} (asserted : f.Asserted used) :
    f.NegatesLetters := by
  rintro k g rfl
  induction k with
  | hole =>
      cases asserted with
      | @negated x => exact ⟨x, rfl⟩
  | neg k =>
      -- a negation inside a negation leaves no letter for the outer one
      cases k with
      | hole | neg | left | right => cases asserted
  | left c k r ih => exact ih asserted.left
  | right c l k ih => exact ih asserted.right

/-- The letters under a negation are false, and all the others are true. -/
theorem models_of_not_clashes (free : ∀ x, ¬Clashes formulas x) :
    ∃ v : Assignment, (∀ x, v x = false ↔ ∃ f ∈ formulas, f.Occurs x true) ∧
      v.Models (formulas.flatMap literals) := by
  refine ⟨fun x => decide (⟨x, false⟩ ∉ formulas.flatMap literals), fun x => ?_, ?_⟩
  · rw [exists_occurs_iff, decide_eq_false_iff_not, not_not]
    rfl
  · rintro ⟨x, positive⟩ member
    cases positive with
    | false => simpa [Literal.formula, eval] using member
    | true =>
        have undenied : ⟨x, false⟩ ∉ formulas.flatMap literals := fun denied =>
          free x ⟨exists_occurs_iff.mpr denied, exists_occurs_iff.mpr member⟩
        simpa [Literal.formula, eval] using undenied

/-- Rows that read as nothing aside, the scan finds the alphabetically first letter that occurs both
directly under a negation and not directly under one. Where it finds none and all negations stand
before letters, making the letters false that stand under a negation, and only those, makes all
formulas true. -/
theorem contradiction_exact (statements : List Statement) :
    let formulas := statements.filterMap Statement.formula?
    (∀ x, contradiction? formulas = some x ↔
      Clashes formulas x ∧ ∀ y, Clashes formulas y → x.char ≤ y.char) ∧
    (contradiction? formulas = none ↔ ∀ x, ¬Clashes formulas x) ∧
    (contradiction? formulas = none → (∀ f ∈ formulas, f.NegatesLetters) →
      ∃ v : Assignment, (∀ x, v x = false ↔ ∃ f ∈ formulas, f.Occurs x true) ∧
        ∀ f ∈ formulas, f.eval v = true) := by
  intro formulas
  refine ⟨fun x => contradiction?_eq_some_iff, contradiction?_eq_none_iff, fun none plain => ?_⟩
  obtain ⟨v, denies, models⟩ := models_of_not_clashes (contradiction?_eq_none_iff.mp none)
  refine ⟨v, denies, fun f member => Asserted.eval ?_ models⟩
  refine (plain f member).asserted.mono fun l occurs => ?_
  exact List.mem_flatMap.mpr ⟨f, member, mem_firstsBy_id.mpr occurs⟩

/-- `p∨¬q` and `¬q→p`, with a row between them that reads as nothing and has a plain `q`. -/
theorem contradiction_exact_denial :
    let p : Letter := ⟨15⟩
    let q : Letter := ⟨16⟩
    let statements : List Statement := [.ofFormula (.disj (.letter p) (.neg (.letter q))),
      .ofTiles [.opening, .letter q], .ofFormula (.impl (.neg (.letter q)) (.letter p))]
    let formulas := statements.filterMap Statement.formula?
    contradiction? formulas = none ∧ (∀ f ∈ formulas, f.NegatesLetters) ∧
      ∃ v : Assignment, (∀ x, v x = false ↔ ∃ f ∈ formulas, f.Occurs x true) ∧
        ∀ f ∈ formulas, f.eval v = true := by
  intro p q statements formulas
  have asserted : ∀ f ∈ formulas, f.Asserted [⟨p, true⟩, ⟨q, false⟩] := by
    have reads : formulas = [.disj (.letter p) (.neg (.letter q)),
      .impl (.neg (.letter q)) (.letter p)] := by decide +kernel
    rw [reads, List.forall_mem_cons, List.forall_mem_singleton]
    exact ⟨.bin (.letter (by decide)) (.negated (by decide)),
      .bin (.negated (by decide)) (.letter (by decide))⟩
  have signs : OneSigned [⟨p, true⟩, ⟨q, false⟩] := by
    unfold OneSigned
    decide
  have none : contradiction? formulas = none := contradiction?_eq_none signs asserted
  have plain : ∀ f ∈ formulas, f.NegatesLetters := fun f member =>
    (asserted f member).negatesLetters
  exact ⟨none, plain, (contradiction_exact statements).2.2 none plain⟩

end ProofPuzzles
