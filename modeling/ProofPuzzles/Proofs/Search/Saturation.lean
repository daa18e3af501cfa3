import Mathlib.Data.Set.Finite.List
import ProofPuzzles.Proofs.Search.Completeness
import ProofPuzzles.Proofs.Search.Limits

/-! # When nothing more is found

Rounds make new formulas of old letters and never admit a long one. There are only so many short
formulas, so sooner or later a round adds nothing, and none of the rounds after it does.
-/

namespace ProofPuzzles

open Formula

/-! ## Letters -/

theorem Formula.letters_subset_of_mem {f g : Formula} (part : f ∈ g.subformulas) :
    f.letters ⊆ g.letters := by
  induction g with
  | letter x =>
      rw [List.mem_singleton.mp part]
      exact List.Subset.refl _
  | neg g ih =>
      rcases List.mem_cons.mp part with rfl | inner
      · exact List.Subset.refl _
      · exact ih inner
  | bin c l r left right =>
      rcases List.mem_cons.mp part with rfl | inner
      · exact List.Subset.refl _
      · rcases List.mem_append.mp inner with inner | inner
        · exact List.subset_append_of_subset_left _ (left inner)
        · exact List.subset_append_of_subset_right _ (right inner)

/-- Only Addition brings in letters of its own. -/
theorem Schema.letters_subset {rule : InferenceRule} {cited : List Formula} {f : Formula}
    {letters : List Letter} (schema : Schema rule cited f) (other : rule ≠ .addition)
    (known : ∀ g ∈ cited, g.letters ⊆ letters) : f.letters ⊆ letters := by
  cases schema with
  | addRight a x => exact absurd rfl other
  | addLeft a x => exact absurd rfl other
  | _ =>
      simp only [List.forall_mem_cons, Formula.letters, List.append_subset] at known ⊢
      tauto

namespace Search

variable {goal f : Formula} {known : List Formula} {derivation : Derivation} {d : Derived}
  {cap maxFormulas : Int} {letters : List Letter} {n m : Nat}

theorem Inside.letters_subset (inside : Inside goal known f) (aim : goal.letters ⊆ letters)
    (old : ∀ g ∈ known, g.letters ⊆ letters) : f.letters ⊆ letters := by
  obtain ⟨g, listed, part⟩ := inside
  have whole : g.letters ⊆ letters := by
    rcases List.mem_cons.mp listed with rfl | member
    · exact aim
    · exact old g member
  exact List.Subset.trans (letters_subset_of_mem part) whole

theorem Offers.letters_subset (offers : Offers goal known f) (aim : goal.letters ⊆ letters)
    (old : ∀ g ∈ known, g.letters ⊆ letters) : f.letters ⊆ letters := by
  cases offers with
  | closed closed schema different stated =>
      exact schema.letters_subset (mem_closedRules.mp closed).2 fun g member =>
        old g (stated member)
  | conjunction inside => exact inside.letters_subset aim old
  | addition inside => exact inside.letters_subset aim old
  | antecedents first second =>
      have left := old _ first
      have right := old _ second
      simp only [Formula.letters, List.append_subset] at left right ⊢
      exact ⟨left.1, right.1⟩

/-! ## Entries -/

theorem mem_next_cases (member : d ∈ next goal cap derivation) :
    d ∈ derivation ∨ d.wff.full = d.wff ∧ (d.wff.length : Int) ≤ cap := by
  by_cases knows : derivation.knows goal = true
  · rw [next_of_knows knows] at member
    exact .inl member
  · rw [next_of_not_knows knows, List.mem_append] at member
    refine member.imp_right fun new => ?_
    obtain ⟨a, added, rfl⟩ := List.mem_map.mp new
    obtain ⟨candidate, short⟩ := List.mem_filter.mp ((firstsAfter_sublist _ _ _).subset added)
    exact ⟨conclusion_full candidate, of_decide_eq_true short⟩

/-- What has not been there from the start is written in full and short. -/
theorem mem_pool_cases (member : d ∈ pool goal cap n derivation) :
    d ∈ derivation ∨ d.wff.full = d.wff ∧ (d.wff.length : Int) ≤ cap := by
  induction n with
  | zero => exact .inl member
  | succ n ih =>
      rw [pool_succ] at member
      exact (mem_next_cases member).elim ih .inr

/-! ## Saturation -/

/-- One more round adds nothing. -/
def Saturated (goal : Formula) (cap : Int) (derivation : Derivation) : Prop :=
  next goal cap derivation = derivation

theorem saturated_or_longer (goal : Formula) (cap : Int) (derivation : Derivation) :
    Saturated goal cap derivation ∨ derivation.length < (next goal cap derivation).length := by
  by_cases knows : derivation.knows goal = true
  · exact .inl (next_of_knows knows)
  · rw [Saturated, next_of_not_knows knows, List.append_right_eq_self, List.length_append,
      ← List.length_eq_zero_iff]
    omega

/-- As long as the rounds are not saturated, each of them adds something. -/
theorem saturated_or_lt_length (n : Nat) : Saturated goal cap (pool goal cap n derivation) ∨
    n < (pool goal cap (n + 1) derivation).length := by
  induction n with
  | zero =>
      refine (saturated_or_longer goal cap derivation).imp_right fun longer => ?_
      exact Nat.lt_of_le_of_lt (Nat.zero_le _) longer
  | succ n ih =>
      rcases ih with still | long
      · refine .inl ?_
        rwa [pool_succ, still]
      · rcases saturated_or_longer goal cap (pool goal cap (n + 1) derivation) with still | longer
        · exact .inl still
        · rw [pool_succ (n := n + 1)]
          exact .inr (Nat.lt_of_le_of_lt long longer)

/-- Rounds that stay within finitely many formulas are saturated at some point. -/
theorem exists_saturated {within : Set Formula} (finite : within.Finite)
    (distinct : derivation.formulas.Nodup)
    (stay : ∀ n, ∀ f ∈ (pool goal cap n derivation).formulas, f ∈ within) :
    ∃ n, Saturated goal cap (pool goal cap n derivation) := by
  refine ⟨finite.toFinset.card, (saturated_or_lt_length _).resolve_right (Nat.not_lt.mpr ?_)⟩
  have nodup : (pool goal cap (finite.toFinset.card + 1) derivation).formulas.Nodup :=
    nodup_pool distinct
  have fewer : (pool goal cap (finite.toFinset.card + 1) derivation).formulas.toFinset ⊆
      finite.toFinset := by
    intro f member
    exact finite.mem_toFinset.mpr (stay _ f (List.mem_toFinset.mp member))
  have bound := Finset.card_le_card fewer
  rwa [List.toFinset_card_of_nodup nodup, Derivation.formulas, List.length_map] at bound

theorem pool_of_saturated (still : Saturated goal cap (pool goal cap n derivation))
    (later : n ≤ m) : pool goal cap m derivation = pool goal cap n derivation := by
  obtain ⟨k, rfl⟩ := Nat.exists_eq_add_of_le' later
  rw [← pool_pool]
  exact Function.iterate_fixed still k

theorem Saturated.fresh_eq_nil (still : Saturated goal cap derivation)
    (unknown : ¬derivation.knows goal = true) : fresh goal cap derivation = [] := by
  rw [Saturated, next_of_not_knows unknown, List.append_right_eq_self] at still
  exact List.map_eq_nil_iff.mp still

/-- Rounds beyond saturation are never taken or add nothing, whatever else may end them. -/
theorem rounds_of_saturated (still : Saturated goal cap (pool goal cap n derivation))
    (later : n ≤ m) :
    rounds goal cap maxFormulas m derivation = rounds goal cap maxFormulas n derivation := by
  induction n generalizing m derivation with
  | zero =>
      by_cases knows : derivation.knows goal = true
      · rw [rounds_of_knows knows, rounds_of_knows knows]
      · cases m with
        | zero => rfl
        | succ m =>
            have spent : fresh goal cap derivation = [] := still.fresh_eq_nil knows
            rw [rounds_succ knows, if_pos spent, rounds, if_neg knows]
  | succ n ih =>
      by_cases knows : derivation.knows goal = true
      · rw [rounds_of_knows knows, rounds_of_knows knows]
      · cases m with
        | zero => exact absurd later (Nat.not_succ_le_zero n)
        | succ m =>
            rw [← pool_next] at still
            rw [rounds_succ knows, rounds_succ knows, ih still (Nat.le_of_succ_le_succ later)]

end Search

/-! ## Short formulas -/

theorem Tile.mem_palette (t : Tile) : t ∈ palette Letter.all := by
  cases t with
  | letter x => exact List.mem_append_left _ (List.mem_map_of_mem x.mem_all)
  | connective c => cases c <;> decide
  | negation | opening | closing => decide

instance : Finite Tile :=
  Set.finite_univ_iff.mp
    ((Tile.palette Letter.all).finite_toSet.subset fun t _ => t.mem_palette)

theorem Formula.finite_short (cap : Int) : {f : Formula | (f.tiles.length : Int) ≤ cap}.Finite := by
  have rows : {ts : List Tile | ts.length ≤ cap.toNat}.Finite := List.finite_length_le Tile _
  refine (rows.preimage fun _ _ _ _ same => tiles_injective same).subset fun f short => ?_
  have bound : (f.tiles.length : Int) ≤ cap := short
  show f.tiles.length ≤ cap.toNat
  omega

/-! ## The search -/

/-- The entry has no other letters than the goal and the premises, and it is not longer than the
cap; if it is no premise, it is not longer when it is written in full either. -/
structure Derived.Confined (premises : List Statement) (goal : Statement) (cap : Int)
    (d : Derived) : Prop where
  letters : ∀ x ∈ d.wff.formula.letters,
    ∃ s ∈ goal :: premises, ∃ f, s.formula? = some f ∧ x ∈ f.letters
  written : (d.wff.length : Int) ≤ cap
  full : d.wff.statement ∈ premises ∨ (d.wff.formula.tiles.length : Int) ≤ cap

section

variable {premises : List Statement} {goal : Statement} {maxTiles : Int} {n : Nat} {d : Derived}

theorem mem_searchPool_cases (member : d ∈ searchPool premises goal maxTiles n) :
    d ∈ Derivation.ofPremises premises ∨ d.wff.full = d.wff ∧
      (d.wff.length : Int) ≤ capOver maxTiles goal (givenWffs premises) := by
  cases wff : goal.wff? with
  | none =>
      rw [searchPool, wff] at member
      exact .inl member
  | some w =>
      obtain rfl := Statement.wff?_eq_some.mp wff
      rw [searchPool_eq wff] at member
      rw [capOver_givenWffs w.reads]
      exact Search.mem_pool_cases member

theorem letters_searchPool (n : Nat) : ∀ f ∈ (searchPool premises goal maxTiles n).formulas,
    f.letters ⊆ ((goal :: premises).filterMap Statement.formula?).flatMap Formula.letters := by
  have stated : ∀ f ∈ (Derivation.ofPremises premises).formulas,
      f.letters ⊆ ((goal :: premises).filterMap Statement.formula?).flatMap Formula.letters := by
    intro f known
    rw [formulas_ofPremises, givenWffs, mem_map_firstsBy, map_formula_wellFormed] at known
    have listed : f ∈ (goal :: premises).filterMap Statement.formula? :=
      (List.sublist_cons_self goal premises).filterMap _ |>.subset known
    exact fun x occurs => List.mem_flatMap.mpr ⟨f, listed, occurs⟩
  cases wff : goal.wff? with
  | none =>
      rw [searchPool, wff]
      exact stated
  | some w =>
      obtain rfl := Statement.wff?_eq_some.mp wff
      have aim : w.formula ∈ (w.statement :: premises).filterMap Statement.formula? :=
        List.mem_filterMap.mpr ⟨w.statement, List.mem_cons_self, w.reads⟩
      rw [searchPool_eq wff]
      exact Search.forall_mem_pool stated fun known old f offers _ =>
        offers.letters_subset (fun x occurs => List.mem_flatMap.mpr ⟨_, aim, occurs⟩) old

theorem confined_searchPool (member : d ∈ searchPool premises goal maxTiles n) :
    d.Confined premises goal (capOver maxTiles goal (givenWffs premises)) := by
  have letters : ∀ x ∈ d.wff.formula.letters,
      ∃ s ∈ goal :: premises, ∃ f, s.formula? = some f ∧ x ∈ f.letters := by
    intro x occurs
    obtain ⟨f, listed, inside⟩ :=
      List.mem_flatMap.mp (letters_searchPool n _ (List.mem_map_of_mem member) occurs)
    obtain ⟨s, stated, reads⟩ := List.mem_filterMap.mp listed
    exact ⟨s, stated, f, reads, inside⟩
  rcases mem_searchPool_cases member with premise | ⟨full, short⟩
  · obtain ⟨w, given, rfl⟩ := List.mem_map.mp premise
    have stated := mem_wellFormed.mp ((firstsBy_sublist _ _).subset given)
    exact ⟨letters, (Search.le_foldl_max Wff.length _ _).2 w given, .inl stated⟩
  · refine ⟨letters, short, .inr ?_⟩
    rw [← full] at short
    exact short

/-- Rounds from premises are saturated at some point. -/
theorem exists_saturated_ofPremises (premises : List Statement) (goal : Formula) (cap : Int) :
    ∃ n, Search.Saturated goal cap (Search.pool goal cap n (.ofPremises premises)) := by
  have finite := (Derivation.ofPremises premises).formulas.finite_toSet.union (finite_short cap)
  exact Search.exists_saturated finite (nodup_ofPremises premises) fun n f known =>
    Search.short_of_mem_pool known

end

/-- Whatever a search comes to know has the letters of the goal and the premises and is, premises
apart, no longer than it admits. So there is a number of rounds with which it has seen everything:
with more of them it knows the same and comes to the same. -/
theorem search_saturates (premises : List Statement) (goal : Statement) (maxTiles : Int) :
    (∀ n, ∀ d ∈ searchPool premises goal maxTiles n,
        d.Confined premises goal (capOver maxTiles goal (givenWffs premises))) ∧
      (∀ rounds formulas found, search premises goal ⟨rounds, formulas, maxTiles⟩ = some found →
        ∃ n, found = searchPool premises goal maxTiles n) ∧
      ∃ enough : Nat,
        (∀ n, enough ≤ n →
          searchPool premises goal maxTiles n = searchPool premises goal maxTiles enough) ∧
        ∀ rounds formulas : Int, enough ≤ rounds →
          search premises goal ⟨rounds, formulas, maxTiles⟩ =
            search premises goal ⟨enough, formulas, maxTiles⟩ := by
  refine ⟨fun n d => confined_searchPool, fun rounds formulas found h => ?_, ?_⟩
  · obtain ⟨n, -, same⟩ := exists_searchPool h
    exact ⟨n, same⟩
  · cases wff : goal.wff? with
    | none =>
        refine ⟨0, fun n _ => ?_, fun rounds formulas _ => ?_⟩
        · rw [searchPool, searchPool, wff]
        · rw [search, search, wff]
    | some w =>
        obtain ⟨n, still⟩ := exists_saturated_ofPremises premises w.formula
          (Search.admittedLength maxTiles w (.ofPremises premises))
        refine ⟨n, fun m later => ?_, fun rounds formulas later => ?_⟩
        · rw [searchPool_eq wff, searchPool_eq wff, Search.pool_of_saturated still later]
        · rw [search, search, wff]
          exact Search.rounds_of_saturated still (Int.toNat_le_toNat later)

end ProofPuzzles
