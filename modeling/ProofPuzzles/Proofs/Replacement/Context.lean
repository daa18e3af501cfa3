import ProofPuzzles.Proofs.Firsts
import ProofPuzzles.Proofs.Replacement.Exchange
import ProofPuzzles.Proofs.Truth

/-! # Replacing one part of a formula

A context is a formula in which one part is missing. A rule of replacement turns one formula into
another when both fill the same context, with parts that the rule exchanges. Since the parts are
equivalent, so are the formulas.
-/

namespace ProofPuzzles

open Formula

/-- A formula with a hole in the place of one part. -/
inductive Context where
  | hole
  | neg (k : Context)
  | left (c : Connective) (k : Context) (r : Formula)
  | right (c : Connective) (l : Formula) (k : Context)

/-- The formula that has the given part in the hole. -/
def Context.fill : Context → Formula → Formula
  | .hole, f => f
  | .neg k, f => .neg (k.fill f)
  | .left c k r, f => .bin c (k.fill f) r
  | .right c l k, f => .bin c l (k.fill f)

/-- The second formula is the first one with exactly one part exchanged by the rule. -/
def Rewrites (rule : ReplacementRule) (f g : Formula) : Prop :=
  ∃ (k : Context) (s t : Formula), f = k.fill s ∧ Exchange.Either rule s t ∧ g = k.fill t

namespace Replacement

theorem exists_context {replace : Formula → List Formula} {f g : Formula}
    (member : g ∈ everywhere replace f) :
    ∃ (k : Context) (s t : Formula), f = k.fill s ∧ t ∈ replace s ∧ g = k.fill t := by
  induction f generalizing g with
  | letter x => exact ⟨.hole, .letter x, g, rfl, member, rfl⟩
  | neg f ih =>
      rcases List.mem_append.mp member with here | below
      · exact ⟨.hole, .neg f, g, rfl, here, rfl⟩
      · obtain ⟨h, inside, rfl⟩ := List.mem_map.mp below
        obtain ⟨k, s, t, rfl, replaced, rfl⟩ := ih inside
        exact ⟨.neg k, s, t, rfl, replaced, rfl⟩
  | bin c l r ihl ihr =>
      rcases List.mem_append.mp member with member | below
      · rcases List.mem_append.mp member with here | below
        · exact ⟨.hole, .bin c l r, g, rfl, here, rfl⟩
        · obtain ⟨h, inside, rfl⟩ := List.mem_map.mp below
          obtain ⟨k, s, t, rfl, replaced, rfl⟩ := ihl inside
          exact ⟨.left c k r, s, t, rfl, replaced, rfl⟩
      · obtain ⟨h, inside, rfl⟩ := List.mem_map.mp below
        obtain ⟨k, s, t, rfl, replaced, rfl⟩ := ihr inside
        exact ⟨.right c l k, s, t, rfl, replaced, rfl⟩

theorem fill_mem_everywhere {replace : Formula → List Formula} (k : Context) {s t : Formula}
    (replaced : t ∈ replace s) : k.fill t ∈ everywhere replace (k.fill s) := by
  induction k with
  | hole =>
      -- `everywhere` starts with the root forms, whatever the formula is
      cases s with
      | letter x => exact replaced
      | neg f => exact List.mem_append_left _ replaced
      | bin c l r => exact List.mem_append_left _ (List.mem_append_left _ replaced)
  | neg k ih => exact List.mem_append_right _ (List.mem_map_of_mem ih)
  | left c k r ih =>
      exact List.mem_append_left _ (List.mem_append_right _ (List.mem_map.mpr ⟨_, ih, rfl⟩))
  | right c l k ih => exact List.mem_append_right _ (List.mem_map.mpr ⟨_, ih, rfl⟩)

theorem mem_everywhere {replace : Formula → List Formula} {f g : Formula} :
    g ∈ everywhere replace f ↔
      ∃ (k : Context) (s t : Formula), f = k.fill s ∧ t ∈ replace s ∧ g = k.fill t := by
  constructor
  · exact exists_context
  · rintro ⟨k, s, t, rfl, replaced, rfl⟩
    exact fill_mem_everywhere k replaced

theorem mem_variants {rule : ReplacementRule} {f g : Formula} :
    g ∈ variants rule f ↔ Rewrites rule f g := by
  rw [variants, mem_firstsBy_id, mem_everywhere]
  simp only [mem_rootForms, Rewrites]

theorem follows_iff {rule : ReplacementRule} {source target : Statement} {f g : Formula}
    (hf : source.formula? = some f) (hg : target.formula? = some g) :
    follows rule source target = true ↔ Rewrites rule f g := by
  simp only [follows, hf, hg, List.contains_iff_mem, mem_variants]

end Replacement

/-! ## Replacement keeps the truth value -/

theorem Exchange.eval_eq {rule f g} (h : Exchange rule f g) (v : Assignment) :
    f.eval v = g.eval v := by
  cases h with
  | deMorganConj a b | deMorganDisj a b | commuteConj a b | commuteDisj a b | transpose a b
  | equivalenceImpl a b | equivalenceCases a b =>
      simp only [eval_neg, eval_conj, eval_disj, eval_impl, eval_iff]
      cases a.eval v <;> cases b.eval v <;> rfl
  | regroupConj a b c | regroupDisj a b c | distributeConj a b c | distributeDisj a b c
  | exportConj a b c =>
      simp only [eval_conj, eval_disj, eval_impl]
      cases a.eval v <;> cases b.eval v <;> cases c.eval v <;> rfl
  | implication => simp only [eval_neg, eval_disj, eval_impl]
  | doubleNegation => simp only [eval_neg, Bool.not_not]
  | repeatConj => simp only [eval_conj, Bool.and_self]
  | repeatDisj => simp only [eval_disj, Bool.or_self]

theorem Context.eval_fill (k : Context) {v : Assignment} {f g : Formula}
    (same : f.eval v = g.eval v) : (k.fill f).eval v = (k.fill g).eval v := by
  induction k with
  | hole => exact same
  | neg k ih | left c k r ih | right c l k ih => simp only [fill, eval, ih]

theorem Rewrites.eval_eq {rule f g} (h : Rewrites rule f g) (v : Assignment) :
    f.eval v = g.eval v := by
  obtain ⟨k, s, t, rfl, exchanged | exchanged, rfl⟩ := h
  · exact k.eval_fill (exchanged.eval_eq v)
  · exact k.eval_fill (exchanged.eval_eq v).symm

end ProofPuzzles
