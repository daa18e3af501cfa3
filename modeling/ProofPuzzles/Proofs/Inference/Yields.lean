import Mathlib.Data.List.Nodup
import ProofPuzzles.Proofs.Inference.Enumeration
import ProofPuzzles.Proofs.WellFormed

/-! # What a rule yields

From known statements, a rule derives the conclusions of its schema filled with known formulas.
Where two places of a schema are of the same kind, as the two conditionals of a syllogism are,
different formulas have to fill them, because each formula is listed once. So what is derived
depends on which formulas are known, not on how often, in what order or in which spelling, and who
knows more derives no less.
-/

namespace ProofPuzzles

open Formula
open scoped List

/-- Formulas that are all listed as images are the images of a part of the list. -/
theorem exists_map_eq {α β : Type} {g : α → β} {as : List α} {bs : List β}
    (listed : bs ⊆ as.map g) : ∃ cs ⊆ as, cs.map g = bs := by
  induction bs with
  | nil => exact ⟨[], List.nil_subset _, rfl⟩
  | cons b bs ih =>
      rw [List.cons_subset] at listed
      obtain ⟨a, member, rfl⟩ := List.mem_map.mp listed.1
      obtain ⟨cs, subset, rfl⟩ := ih listed.2
      exact ⟨a :: cs, List.cons_subset.mpr ⟨member, subset⟩, rfl⟩

/-- Of the statements that read as one formula, the first is kept. -/
theorem find?_of_mem_firstsBy_wellFormed {statements : List Statement} {w : Wff}
    (member : w ∈ firstsBy Wff.formula (wellFormed statements)) :
    statements.find? (·.formula? = some w.formula) = some w.statement := by
  have reads_same (s : Statement) :
      s.wff?.any (fun v => v.formula == w.formula) = decide (s.formula? = some w.formula) := by
    rw [← s.map_formula_wff?]
    cases s.wff? <;> simp [beq_eq_decide]
  have kept := find?_of_mem_firstsAfter member
  rw [wellFormed, List.find?_filterMap, Option.bind_eq_some_iff] at kept
  simp only [reads_same] at kept
  obtain ⟨s, found, reads⟩ := kept
  rw [Statement.wff?_eq_some.mp reads]
  exact found

namespace Inference

variable {rule : InferenceRule} {known premises : List Formula} {f : Formula} {ws : List Wff}
  {a : Application}

/-- The formulas in places of the same kind differ: the two conditionals of a syllogism or of a
dilemma, the two conjuncts, and a formula and what is added to it. -/
def PlacesDiffer : InferenceRule → List Formula → Prop
  | .hypotheticalSyllogism, [f, g] => f ≠ g
  | .constructiveDilemma, [f, g, _] => f ≠ g
  | .conjunction, [f, g] => f ≠ g
  | .addition, [f, g] => f ≠ g
  | _, _ => True

/-- Formulas in places of different kinds differ anyway. -/
theorem placesDiffer_iff_nodup (consumes : Consumes rule premises f) :
    PlacesDiffer rule premises ↔ premises.Nodup := by
  cases rule with
  | conjunction =>
      obtain ⟨a, b, rfl, rfl⟩ := consumes
      simp [PlacesDiffer]
  | addition =>
      obtain ⟨a, x, rfl, -⟩ := consumes
      simp [PlacesDiffer]
  | _ => obtain ⟨⟩ : Schema _ premises f := consumes <;> simp [PlacesDiffer, bin_ne_left]

/-- The rule derives the formula from known ones that differ in places of the same kind. -/
def Yields (rule : InferenceRule) (known : List Formula) (f : Formula) : Prop :=
  ∃ premises ⊆ known, Consumes rule premises f ∧ PlacesDiffer rule premises

theorem Yields.mono {more : List Formula} (h : Yields rule known f) (subset : known ⊆ more) :
    Yields rule more f := by
  obtain ⟨premises, stated, consumes, differ⟩ := h
  exact ⟨premises, List.Subset.trans stated subset, consumes, differ⟩

/-! ## Enumerating the instances yields them all -/

theorem yields_of_instance (h : Application.Instance rule (.ofDistinct ws) a) :
    Yields rule (ws.map Wff.formula) a.conclusion.formula := by
  refine ⟨_, fun g member => ?_, h.consumes,
    (placesDiffer_iff_nodup h.consumes).mpr h.nodup_formulas⟩
  obtain ⟨p, consumed, rfl⟩ := List.mem_map.mp member
  exact List.mem_map_of_mem ((firstsBy_sublist _ _).subset (h.mem_firsts consumed))

theorem exists_instance (yields : Yields rule (ws.map Wff.formula) f) :
    ∃ a ∈ instances rule (.ofDistinct ws), a.conclusion = .ofFormula f := by
  obtain ⟨premises, stated, consumes, differ⟩ := yields
  have listed : premises ⊆ (firstsBy Wff.formula ws).map Wff.formula := fun g member =>
    mem_map_firstsBy.mpr (stated member)
  obtain ⟨chosen, subset, rfl⟩ := exists_map_eq listed
  -- an instance takes each listed statement once, so it matters that the premises differ
  have distinct : chosen.Nodup := List.Nodup.of_map _ ((placesDiffer_iff_nodup consumes).mp differ)
  rw [← Known.entries_ofDistinct] at subset
  obtain ⟨a, enumerated, -, concludes⟩ := instances_complete consumes (distinct.subperm subset)
  exact ⟨a, enumerated, concludes⟩

theorem mem_conclusions :
    .ofFormula f ∈ conclusions rule ws ↔ Yields rule (ws.map Wff.formula) f := by
  rw [conclusions, List.mem_map]
  constructor
  · rintro ⟨a, found, concludes⟩
    have yields := yields_of_instance (applications_sound found)
    rwa [concludes] at yields
  · intro yields
    obtain ⟨a, enumerated, concludes⟩ := exists_instance yields
    -- another application with this conclusion may come first, and is kept instead
    have derived : f ∈ (applications rule ws).map (·.conclusion.formula) := by
      refine mem_map_firstsBy.mpr (List.mem_map.mpr ⟨a, enumerated, ?_⟩)
      rw [concludes]
      rfl
    obtain ⟨b, found, rfl⟩ := List.mem_map.mp derived
    exact ⟨b, found, (applications_sound found).full⟩

theorem applies_iff : applies rule ws = true ↔ ∃ f, Yields rule (ws.map Wff.formula) f := by
  rw [applies, Bool.not_eq_true', List.isEmpty_eq_false_iff_exists_mem]
  constructor
  · rintro ⟨a, enumerated⟩
    exact ⟨_, yields_of_instance (instances_sound enumerated)⟩
  · rintro ⟨f, yields⟩
    obtain ⟨a, enumerated, -⟩ := exists_instance yields
    exact ⟨a, enumerated⟩

theorem exists_formula_of_mem_conclusions {w : Wff} (member : w ∈ conclusions rule ws) :
    ∃ f, w = .ofFormula f := by
  obtain ⟨a, found, rfl⟩ := List.mem_map.mp member
  exact ⟨_, (applications_sound found).full⟩

theorem nodup_conclusions (rule : InferenceRule) (ws : List Wff) :
    ((conclusions rule ws).map Wff.formula).Nodup := by
  rw [conclusions, List.map_map]
  exact nodup_map_firstsBy _ _

theorem conclusions_subset {others : List Wff}
    (subset : ws.map Wff.formula ⊆ others.map Wff.formula) :
    conclusions rule ws ⊆ conclusions rule others := by
  intro w member
  obtain ⟨f, rfl⟩ := exists_formula_of_mem_conclusions member
  exact mem_conclusions.mpr ((mem_conclusions.mp member).mono subset)

theorem conclusions_perm {others : List Wff}
    (same : ∀ f, f ∈ ws.map Wff.formula ↔ f ∈ others.map Wff.formula) :
    conclusions rule ws ~ conclusions rule others := by
  have distinct (given : List Wff) : (conclusions rule given).Nodup :=
    List.Nodup.of_map _ (nodup_conclusions rule given)
  rw [List.perm_ext_iff_of_nodup (distinct ws) (distinct others)]
  exact fun w => ⟨fun member => conclusions_subset (fun f => (same f).mp) member,
    fun member => conclusions_subset (fun f => (same f).mpr) member⟩

end Inference

/-- What an application that is enumerated over some statements is like. It consumes the first
statements of different formulas, in the order of the schema, and what it derives is written in
full. -/
structure Application.Enumerated (rule : InferenceRule) (statements : List Statement)
    (a : Application) : Prop where
  rule_eq : a.rule = rule
  first : ∀ p ∈ a.premises,
    statements.find? (·.formula? = some p.formula) = some p.statement
  consumes : Consumes rule (a.premises.map Wff.formula) a.conclusion.formula
  different : (a.premises.map Wff.formula).Nodup
  full : a.conclusion = .ofFormula a.conclusion.formula

theorem Application.Instance.enumerated {rule : InferenceRule} {statements : List Statement}
    {a : Application} (h : Application.Instance rule (.ofDistinct (wellFormed statements)) a) :
    a.Enumerated rule statements where
  rule_eq := h.rule_eq
  first _ member := find?_of_mem_firstsBy_wellFormed (h.mem_firsts member)
  consumes := h.consumes
  different := h.nodup_formulas
  full := h.full

namespace Inference

/-- The applications of a rule over statements consume first spellings, derive each conclusion once,
and derive what the rule yields from the formulas that the statements read as. So nothing else about
the statements matters to the conclusions, and further formulas only add to them. -/
theorem applications_exact (rule : InferenceRule) (statements : List Statement) :
    (∀ a ∈ applications rule (wellFormed statements), a.Enumerated rule statements) ∧
    ((conclusions rule (wellFormed statements)).map Wff.formula).Nodup ∧
    (∀ f, .ofFormula f ∈ conclusions rule (wellFormed statements) ↔
      Yields rule (statements.filterMap Statement.formula?) f) ∧
    (applies rule (wellFormed statements) = true ↔
      ∃ f, Yields rule (statements.filterMap Statement.formula?) f) ∧
    ∀ others : List Statement,
      statements.filterMap Statement.formula? ⊆ others.filterMap Statement.formula? →
        conclusions rule (wellFormed statements) ⊆ conclusions rule (wellFormed others) ∧
        (others.filterMap Statement.formula? ⊆ statements.filterMap Statement.formula? →
          conclusions rule (wellFormed statements) ~ conclusions rule (wellFormed others)) := by
  simp only [← map_formula_wellFormed]
  refine ⟨fun a found => (applications_sound found).enumerated, nodup_conclusions _ _,
    fun f => mem_conclusions, applies_iff, fun others more => ⟨conclusions_subset more, ?_⟩⟩
  exact fun fewer => conclusions_perm fun f =>
    ⟨fun member => more member, fun member => fewer member⟩

/-- A repeated conditional, another spelling of it and a row that reads as nothing make no
difference to what two conditionals yield. -/
theorem applications_exact_syllogism :
    let p := letter ⟨15⟩
    let q := letter ⟨16⟩
    let r := letter ⟨17⟩
    let plain := Statement.ofTiles [.letter ⟨15⟩, .connective .implies, .letter ⟨16⟩]
    let given := [.ofTiles [.closing], plain, .ofFormula (impl q r), .ofFormula (impl p q), plain]
    let tidied := [.ofFormula (impl p q), .ofFormula (impl q r)]
    given.filterMap Statement.formula? ⊆ tidied.filterMap Statement.formula? ∧
      tidied.filterMap Statement.formula? ⊆ given.filterMap Statement.formula? ∧
      conclusions .hypotheticalSyllogism (wellFormed given) ~
        conclusions .hypotheticalSyllogism (wellFormed tidied) ∧
      ∃ a ∈ applications .hypotheticalSyllogism (wellFormed given),
        a.Enumerated .hypotheticalSyllogism given ∧ a.conclusion = .ofFormula (impl p r) := by
  intro p q r plain given tidied
  have fewer : given.filterMap Statement.formula? ⊆ tidied.filterMap Statement.formula? := by decide
  have more : tidied.filterMap Statement.formula? ⊆ given.filterMap Statement.formula? := by decide
  obtain ⟨sound, -, exact_, -, stable⟩ := applications_exact .hypotheticalSyllogism given
  have yields : Yields .hypotheticalSyllogism (given.filterMap Statement.formula?) (impl p r) :=
    ⟨[impl p q, impl q r], by decide, Schema.hypotheticalSyllogism p q r,
      by simp [PlacesDiffer, p, q]⟩
  obtain ⟨a, found, concludes⟩ := List.mem_map.mp ((exact_ _).mpr yields)
  exact ⟨fewer, more, (stable tidied fewer).2 more, a, found, sound a found, concludes⟩

end Inference

end ProofPuzzles
