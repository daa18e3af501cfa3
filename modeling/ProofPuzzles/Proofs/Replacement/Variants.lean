import Mathlib.Data.List.Nodup
import ProofPuzzles.Proofs.Replacement.Context

/-! # The variants of a formula

A variant of a formula fills one of its contexts with another form of the part that stands there,
and every such exchange gives a variant. Each rule can be undone by the rule itself, so a statement
follows from another one by a replacement exactly when this one follows from it; and variants are
true together. The list of variants comes out the same whether repetitions are dropped at each part
of the formula or once in the end.
-/

namespace ProofPuzzles

open Formula

theorem Exchange.Either.symm {rule : ReplacementRule} {f g : Formula} (h : Either rule f g) :
    Either rule g f := Or.symm h

/-- Exchanging a part back restores the formula. -/
theorem Rewrites.symm {rule : ReplacementRule} {f g : Formula} (h : Rewrites rule f g) :
    Rewrites rule g f := by
  obtain ⟨k, s, t, rfl, exchanged, rfl⟩ := h
  exact ⟨k, t, s, rfl, exchanged.symm, rfl⟩

namespace Replacement

variable {rule : ReplacementRule} {f g : Formula} {s t : Statement}

/-! ## Repetitions may be dropped at each part first -/

theorem variants_letter (rule : ReplacementRule) (x : Letter) :
    variants rule (letter x) = firstsBy id (rootForms rule (letter x)) := rfl

theorem variants_neg (rule : ReplacementRule) (f : Formula) :
    variants rule (neg f) =
      firstsBy id (rootForms rule (neg f) ++ (variants rule f).map neg) := by
  have below : (variants rule f).map neg = firstsBy id ((everywhere (rootForms rule) f).map neg) :=
    map_firstsBy_id (fun _ _ => neg.inj) _
  rw [below, firstsBy_append_firstsBy]
  rfl

theorem variants_bin (rule : ReplacementRule) (c : Connective) (l r : Formula) :
    variants rule (bin c l r) =
      firstsBy id (rootForms rule (bin c l r) ++ (variants rule l).map (bin c · r)
        ++ (variants rule r).map (bin c l ·)) := by
  have left : (variants rule l).map (bin c · r) =
      firstsBy id ((everywhere (rootForms rule) l).map (bin c · r)) :=
    map_firstsBy_id (fun _ _ same => (bin.inj same).2.1) _
  have right : (variants rule r).map (bin c l ·) =
      firstsBy id ((everywhere (rootForms rule) r).map (bin c l ·)) :=
    map_firstsBy_id (fun _ _ same => (bin.inj same).2.2) _
  rw [left, right, firstsBy_append_firstsBy, firstsBy_append_firstsBy_append]
  rfl

/-! ## What is listed -/

theorem mem_outcomes : t ∈ outcomes rule s ↔
    ∃ f g, s.formula? = some f ∧ g ∈ variants rule f ∧ t = .ofFormula g := by
  unfold outcomes
  split
  · rename_i f reads
    rw [reads, List.mem_map]
    constructor
    · rintro ⟨g, member, rfl⟩
      exact ⟨f, g, rfl, member, rfl⟩
    · rintro ⟨f, g, same, member, rfl⟩
      cases same
      exact ⟨g, member, rfl⟩
  · rename_i unread
    simp [unread]

theorem nodup_outcomes (rule : ReplacementRule) (s : Statement) : (outcomes rule s).Nodup := by
  unfold outcomes
  split
  · refine List.Nodup.map (fun f g same => ?_) (nodup_firstsBy_id _)
    exact Option.some.inj (congrArg Statement.formula? same)
  · exact List.nodup_nil

/-- What is listed for a formula is what arises by exchanging the part in one of its contexts for
another form of it, each result once; and what is listed for a statement writes out what is listed
for the formula that it reads as. -/
theorem variants_exact (rule : ReplacementRule) :
    (∀ f : Formula, (variants rule f).Nodup ∧
      ∀ g, g ∈ variants rule f ↔
        ∃ (k : Context) (a b : Formula), f = k.fill a ∧ b ∈ rootForms rule a ∧ g = k.fill b) ∧
    ∀ s : Statement, (outcomes rule s).Nodup ∧
      ∀ t, t ∈ outcomes rule s ↔
        ∃ (k : Context) (a b : Formula), s.formula? = some (k.fill a) ∧ b ∈ rootForms rule a ∧
          t = .ofFormula (k.fill b) := by
  have listed (f g : Formula) : g ∈ variants rule f ↔
      ∃ (k : Context) (a b : Formula), f = k.fill a ∧ b ∈ rootForms rule a ∧ g = k.fill b := by
    rw [variants, mem_firstsBy_id, mem_everywhere]
  refine ⟨fun f => ⟨nodup_firstsBy_id _, listed f⟩, fun s => ⟨nodup_outcomes rule s, fun t => ?_⟩⟩
  rw [mem_outcomes]
  constructor
  · rintro ⟨f, g, reads, member, rfl⟩
    obtain ⟨k, a, b, rfl, replaced, rfl⟩ := (listed f g).mp member
    exact ⟨k, a, b, reads, replaced, rfl⟩
  · rintro ⟨k, a, b, reads, replaced, rfl⟩
    exact ⟨_, _, reads, (listed _ _).mpr ⟨k, a, b, rfl, replaced, rfl⟩, rfl⟩

/-! ## Going back, and truth -/

theorem follows_eq_true_iff : follows rule s t = true ↔
    ∃ f g, s.formula? = some f ∧ t.formula? = some g ∧ Rewrites rule f g := by
  constructor
  · intro h
    unfold follows at h
    split at h
    · rename_i f g readsS readsT
      exact ⟨f, g, readsS, readsT, mem_variants.mp (List.contains_iff_mem.mp h)⟩
    · cases h
  · rintro ⟨f, g, readsS, readsT, rewritten⟩
    exact (follows_iff readsS readsT).mpr rewritten

/-- A replacement can be undone by the rule that made it. -/
theorem follows_comm (rule : ReplacementRule) (s t : Statement) :
    follows rule s t = true ↔ follows rule t s = true := by
  rw [follows_eq_true_iff, follows_eq_true_iff]
  constructor
  · rintro ⟨f, g, readsS, readsT, rewritten⟩
    exact ⟨g, f, readsT, readsS, rewritten.symm⟩
  · rintro ⟨g, f, readsT, readsS, rewritten⟩
    exact ⟨f, g, readsS, readsT, rewritten.symm⟩

/-- A formula and its variants are true under the same assignments. -/
theorem eval_eq_of_mem_variants (member : g ∈ variants rule f) (v : Assignment) :
    f.eval v = g.eval v :=
  (mem_variants.mp member).eval_eq v

/-- A conjunction that is distributed over below a negation. -/
theorem eval_eq_of_mem_variants_distribution :
    let p := letter ⟨15⟩
    let q := letter ⟨16⟩
    let r := letter ⟨17⟩
    let f := neg (conj p (disj q r))
    let g := neg (disj (conj p q) (conj p r))
    g ∈ variants .distribution f ∧ ∀ v, f.eval v = g.eval v := by
  intro p q r f g
  have member : g ∈ variants .distribution f :=
    mem_variants.mpr ⟨.neg .hole, _, _, rfl, .inl (.distributeConj p q r), rfl⟩
  exact ⟨member, eval_eq_of_mem_variants member⟩

end Replacement

end ProofPuzzles
