import ProofPuzzles.Proofs.Firsts
import ProofPuzzles.Proofs.Formula.FullForm
import ProofPuzzles.Proofs.Inference.Enumeration

/-! # Rules do not look at spellings

The rules of inference look at what known statements read as, never at how they are written. So
restating in full what is known changes the enumerated applications only in that they consume the
restated statements: there are as many, in the same order, and they derive the same.
-/

namespace ProofPuzzles

section

variable {α β γ : Type}

theorem forEachPair_map (f : β → β → List γ) (g : α → β) (as : List α) :
    forEachPair f (as.map g) = forEachPair (fun x y => f (g x) (g y)) as := by
  simp only [forEachPair, List.zipIdx_map, List.flatMap_map]
  rfl

theorem map_forEachPair (f : α → α → List β) (g : β → γ) (as : List α) :
    (forEachPair f as).map g = forEachPair (fun x y => (f x y).map g) as := by
  simp only [forEachPair, List.map_flatMap, apply_ite (List.map g), List.map_nil]

end

/-- The application with all its statements written in full. -/
def Application.full (a : Application) : Application :=
  ⟨a.rule, a.premises.map Wff.full, a.conclusion.full⟩

namespace Inference

/-- The conditional with its source written in full. -/
def Conditional.full (c : Conditional) : Conditional := { c with source := c.source.full }

variable {known restated : Known}

/-- The same statements are known in full. -/
def Restates (restated known : Known) : Prop := restated.entries = known.entries.map Wff.full

namespace Restates

theorem ofDistinct (ws : List Wff) :
    Restates (.ofDistinct (ws.map Wff.full)) (.ofDistinct ws) := by
  rw [Restates, Known.ofDistinct, Known.ofDistinct, Known.entries_ofList, Known.entries_ofList,
    firstsBy_map]
  rfl

variable (h : Restates restated known)

include h

theorem copies (f : Formula) : restated.copies f = (known.copies f).map Wff.full := by
  rw [Known.copies_eq, Known.copies_eq, h, List.filter_map]
  rfl

theorem first? (f : Formula) : restated.first? f = (known.first? f).map Wff.full := by
  rw [Known.first?, h.copies, List.head?_map]
  rfl

theorem conditionals :
    Inference.conditionals restated = (Inference.conditionals known).map Conditional.full := by
  rw [Inference.conditionals, Inference.conditionals, h, List.filterMap_map, List.map_filterMap]
  refine List.filterMap_congr fun w _ => ?_
  simp only [Function.comp_apply, Wff.formula_full]
  split <;> rfl

theorem filterMap_conditionals {f g : Conditional → Option Application}
    (same : ∀ c, f c.full = (g c).map Application.full) :
    (Inference.conditionals restated).filterMap f =
      ((Inference.conditionals known).filterMap g).map Application.full := by
  rw [h.conditionals, List.filterMap_map, List.map_filterMap]
  exact List.filterMap_congr fun c _ => same c

theorem forEachPair_conditionals {f g : Conditional → Conditional → List Application}
    (same : ∀ c d, f c.full d.full = (g c d).map Application.full) :
    forEachPair f (Inference.conditionals restated) =
      (forEachPair g (Inference.conditionals known)).map Application.full := by
  rw [h.conditionals, forEachPair_map, map_forEachPair]
  simp only [same]

theorem forEachPair_entries {f g : Wff → Wff → List Application}
    (same : ∀ v w, f v.full w.full = (g v w).map Application.full) :
    forEachPair f restated.entries = (forEachPair g known.entries).map Application.full := by
  rw [h, forEachPair_map, map_forEachPair]
  simp only [same]

theorem flatMap_entries {f g : Wff → List Application}
    (same : ∀ w, f w.full = (g w).map Application.full) :
    restated.entries.flatMap f = (known.entries.flatMap g).map Application.full := by
  rw [h, List.flatMap_map, List.map_flatMap]
  exact List.flatMap_congr fun w _ => same w

/-! ## Each rule -/

theorem modusPonens :
    Inference.modusPonens restated = (Inference.modusPonens known).map Application.full := by
  refine h.filterMap_conditionals fun c => ?_
  simp only [Conditional.full, h.first?, Option.map_map]
  rfl

theorem modusTollens :
    Inference.modusTollens restated = (Inference.modusTollens known).map Application.full := by
  refine h.filterMap_conditionals fun c => ?_
  simp only [Conditional.full, h.first?, Option.map_map]
  rfl

theorem hypotheticalSyllogism : Inference.hypotheticalSyllogism restated =
    (Inference.hypotheticalSyllogism known).map Application.full := by
  refine h.forEachPair_conditionals fun c d => ?_
  rw [apply_ite (List.map Application.full)]
  rfl

theorem disjunctiveSyllogism : Inference.disjunctiveSyllogism restated =
    (Inference.disjunctiveSyllogism known).map Application.full := by
  refine h.flatMap_entries fun w => ?_
  simp only [Wff.formula_full]
  split
  · simp only [h.first?, Option.map_map, List.map_filterMap]
    rfl
  · rfl

theorem joinedDilemma :
    Inference.joinedDilemma restated = (Inference.joinedDilemma known).map Application.full := by
  refine h.flatMap_entries fun w => ?_
  simp only [Wff.formula_full]
  split
  · simp only [h.copies, List.map_map]
    rfl
  · rfl

theorem separateDilemma : Inference.separateDilemma restated =
    (Inference.separateDilemma known).map Application.full := by
  refine h.forEachPair_conditionals fun c d => ?_
  simp only [Conditional.full, h.copies, List.map_map]
  rfl

theorem absorption :
    Inference.absorption restated = (Inference.absorption known).map Application.full := by
  rw [Inference.absorption, Inference.absorption, h.conditionals, List.map_map, List.map_map]
  rfl

theorem simplification :
    Inference.simplification restated = (Inference.simplification known).map Application.full := by
  refine h.flatMap_entries fun w => ?_
  simp only [Wff.formula_full]
  split <;> rfl

theorem conjunction :
    Inference.conjunction restated = (Inference.conjunction known).map Application.full :=
  h.forEachPair_entries fun _ _ => rfl

theorem addition :
    Inference.addition restated = (Inference.addition known).map Application.full :=
  h.forEachPair_entries fun _ _ => rfl

theorem instances (rule : InferenceRule) :
    Inference.instances rule restated = (Inference.instances rule known).map Application.full := by
  cases rule with
  | modusPonens => exact h.modusPonens
  | modusTollens => exact h.modusTollens
  | hypotheticalSyllogism => exact h.hypotheticalSyllogism
  | disjunctiveSyllogism => exact h.disjunctiveSyllogism
  | constructiveDilemma =>
      simp only [Inference.instances, Inference.constructiveDilemma, List.map_append,
        h.joinedDilemma, h.separateDilemma]
  | absorption => exact h.absorption
  | simplification => exact h.simplification
  | conjunction => exact h.conjunction
  | addition => exact h.addition

end Restates

theorem applications_full (rule : InferenceRule) (ws : List Wff) :
    applications rule (ws.map Wff.full) = (applications rule ws).map Application.full := by
  rw [applications, (Restates.ofDistinct ws).instances rule, firstsBy_map]
  rfl

end Inference

end ProofPuzzles
