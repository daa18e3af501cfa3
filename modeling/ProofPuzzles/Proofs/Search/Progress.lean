import Mathlib.Data.List.Nodup
import Mathlib.Logic.Function.Iterate
import ProofPuzzles.Proofs.Inference.Matching
import ProofPuzzles.Proofs.Inference.Yields
import ProofPuzzles.Proofs.Search.Support

/-! # What rounds find

A round leaves out applications only where another one has the same conclusion. So whatever a rule
that takes known statements apart or joins them derives in one step is known after one round, and
so is what Conjunction and Addition build if it stands inside the goal or inside something known,
or if it is a disjunction of antecedents. A search finds its goal where the rounds find it.
-/

namespace ProofPuzzles

open Formula
open scoped List

theorem Formula.left_mem_subformulas {c : Connective} (l r : Formula) :
    l ∈ (bin c l r).subformulas :=
  List.mem_cons_of_mem _ (List.mem_append_left _ l.self_mem_subformulas)

theorem Formula.right_mem_subformulas {c : Connective} (l r : Formula) :
    r ∈ (bin c l r).subformulas :=
  List.mem_cons_of_mem _ (List.mem_append_right _ r.self_mem_subformulas)

theorem Formula.mem_subformulas_trans {f g h : Formula} (inner : f ∈ g.subformulas)
    (outer : g ∈ h.subformulas) : f ∈ h.subformulas := by
  induction h with
  | letter x =>
      rw [List.mem_singleton.mp outer] at inner
      exact inner
  | neg h ih =>
      rcases List.mem_cons.mp outer with rfl | outer
      · exact inner
      · exact List.mem_cons_of_mem _ (ih outer)
  | bin c l r left right =>
      rcases List.mem_cons.mp outer with rfl | outer
      · exact inner
      · refine List.mem_cons_of_mem _ (List.mem_append.mpr ?_)
        rcases List.mem_append.mp outer with outer | outer
        · exact .inl (left outer)
        · exact .inr (right outer)

namespace Search

variable {goal f : Formula} {derivation : Derivation} {cap maxFormulas : Int} {n : Nat}

/-- What is known after one more round; once the goal is known, there is none. -/
def next (goal : Formula) (cap : Int) (derivation : Derivation) : Derivation :=
  if derivation.knows goal then derivation
  else derivation ++ (fresh goal cap derivation).map fun a => ⟨a.conclusion, some a⟩

/-- What is known after some rounds, however much that is. -/
def pool (goal : Formula) (cap : Int) (n : Nat) (derivation : Derivation) : Derivation :=
  (next goal cap)^[n] derivation

/-- The formula stands inside the goal or inside something known. -/
def Inside (goal : Formula) (known : List Formula) (f : Formula) : Prop :=
  ∃ g ∈ goal :: known, f ∈ g.subformulas

theorem Inside.part {known : List Formula} {g : Formula} (inside : Inside goal known g)
    (part : f ∈ g.subformulas) : Inside goal known f := by
  obtain ⟨h, listed, outer⟩ := inside
  exact ⟨h, listed, mem_subformulas_trans part outer⟩

theorem inside_of_mem {known : List Formula} (member : f ∈ known) : Inside goal known f :=
  ⟨f, List.mem_cons_of_mem _ member, f.self_mem_subformulas⟩

theorem mem_parts {known : List Formula} : f ∈ parts goal known ↔ Inside goal known f := by
  simp only [parts, Text.mem_sortedBy, mem_firstsBy_id, List.mem_flatMap, Inside]

theorem length_parts_le (goal : Formula) (known : List Formula) :
    (parts goal known).length ≤ ((goal :: known).flatMap subformulas).length := by
  rw [parts, (Text.sortedBy_perm _ _).length_eq]
  exact (firstsBy_sublist _ _).length_le

theorem mem_antecedents {known : List Formula} :
    f ∈ antecedents known ↔ ∃ g, impl f g ∈ known := by
  rw [antecedents, mem_firstsBy_id, List.mem_filterMap]
  constructor
  · rintro ⟨h, listed, found⟩
    split at found
    · cases found
      exact ⟨_, listed⟩
    · cases found
  · rintro ⟨g, listed⟩
    exact ⟨_, listed, rfl⟩

/-! ## Candidates -/

theorem exists_candidate {rule : InferenceRule} {ws : List Wff}
    (distinct : derivation.formulas.Nodup) (available : ws <+~ derivation.map (·.wff))
    (schema : Schema rule (ws.map Wff.formula) f) (closed : rule ∈ closedRules) :
    ∃ a ∈ candidates goal derivation, a.conclusion = .ofFormula f := by
  obtain ⟨-, other⟩ : rule ≠ .conjunction ∧ rule ≠ .addition := by
    simpa using (List.mem_filter.mp closed).2
  have different : (ws.map Wff.formula).Nodup := by
    obtain ⟨shuffled, perm, sublist⟩ := available
    have formulas : derivation.formulas = (derivation.map (·.wff)).map Wff.formula :=
      List.map_map.symm
    rw [formulas] at distinct
    exact (perm.map _).nodup_iff.mp (distinct.sublist (sublist.map _))
  have yields := schema.yields other different (List.map_subset _ available.subset)
  obtain ⟨a, found, concludes⟩ := List.mem_map.mp (Inference.mem_conclusions.mpr yields)
  refine ⟨a, List.mem_append_left _ (List.mem_append_left _ ?_), concludes⟩
  exact List.mem_flatMap.mpr ⟨rule, closed, found⟩

theorem buildingApplication_mem {a : Application} (inside : Inside goal derivation.formulas f)
    (builds : buildingApplication? (.ofList derivation.formulas) f = some a) :
    a ∈ candidates goal derivation := by
  refine List.mem_append_left _ (List.mem_append_right _ ?_)
  exact List.mem_filterMap.mpr ⟨f, mem_parts.mpr inside, builds⟩

/-! ## One round -/

theorem next_of_knows (knows : derivation.knows goal = true) :
    next goal cap derivation = derivation := if_pos knows

theorem next_of_not_knows (unknown : ¬derivation.knows goal = true) :
    next goal cap derivation =
      derivation ++ (fresh goal cap derivation).map fun a => ⟨a.conclusion, some a⟩ :=
  if_neg unknown

theorem subset_next : derivation.formulas ⊆ (next goal cap derivation).formulas := by
  by_cases knows : derivation.knows goal = true
  · rw [next_of_knows knows]
    exact List.Subset.refl _
  · rw [next_of_not_knows knows, Derivation.formulas_append]
    exact List.subset_append_left _ _

theorem nodup_next (distinct : derivation.formulas.Nodup) :
    (next goal cap derivation).formulas.Nodup := by
  by_cases knows : derivation.knows goal = true
  · rwa [next_of_knows knows]
  · rw [next_of_not_knows knows, Derivation.formulas_append]
    have added : Derivation.formulas ((fresh goal cap derivation).map fun a =>
        ⟨a.conclusion, some a⟩) = (fresh goal cap derivation).map (·.conclusion.formula) :=
      List.map_map
    rw [added]
    refine distinct.append (fresh_nodup goal cap derivation) fun f old new => ?_
    obtain ⟨a, member, rfl⟩ := List.mem_map.mp new
    exact fresh_new member old

theorem length_next_le : (next goal cap derivation).length ≤
    derivation.length + (candidates goal derivation).length := by
  by_cases knows : derivation.knows goal = true
  · rw [next_of_knows knows]
    exact Nat.le_add_right _ _
  · rw [next_of_not_knows knows, List.length_append, List.length_map]
    have fewer : (fresh goal cap derivation).length ≤ (candidates goal derivation).length :=
      ((firstsAfter_sublist _ _ _).trans List.filter_sublist).length_le
    omega

/-- Whatever a candidate of admitted length derives is known after the round. -/
theorem mem_next {a : Application} (unknown : goal ∉ derivation.formulas)
    (candidate : a ∈ candidates goal derivation) (short : (a.conclusion.length : Int) ≤ cap) :
    a.conclusion.formula ∈ (next goal cap derivation).formulas := by
  have knows : ¬derivation.knows goal = true := mt Derivation.knows_iff.mp unknown
  by_cases old : a.conclusion.formula ∈ derivation.formulas
  · exact subset_next old
  · have added : a.conclusion.formula ∈
        (fresh goal cap derivation).map (·.conclusion.formula) := by
      refine mem_map_firstsAfter.mpr ⟨List.mem_map_of_mem ?_, by simpa using old⟩
      exact List.mem_filter.mpr ⟨candidate, by simpa using short⟩
    rw [next_of_not_knows knows, Derivation.formulas_append, List.mem_append]
    refine .inr ?_
    rwa [Derivation.formulas, List.map_map]

theorem mem_next_of_schema {rule : InferenceRule} {cited : List Formula}
    (distinct : derivation.formulas.Nodup) (unknown : goal ∉ derivation.formulas)
    (schema : Schema rule cited f) (closed : rule ∈ closedRules) (different : cited.Nodup)
    (known : cited ⊆ derivation.formulas) (short : (f.tiles.length : Int) ≤ cap) :
    f ∈ (next goal cap derivation).formulas := by
  have listed : cited ⊆ (derivation.map (·.wff)).map Wff.formula := by rwa [List.map_map]
  obtain ⟨ws, subset, rfl⟩ := exists_map_eq listed
  have apart : ws.Nodup := List.Nodup.of_map _ different
  obtain ⟨a, candidate, concludes⟩ :=
    exists_candidate distinct (apart.subperm subset) schema closed
  have admitted : (a.conclusion.length : Int) ≤ cap := by
    rw [concludes]
    exact short
  have learned := mem_next unknown candidate admitted
  rwa [concludes] at learned

theorem conj_mem_next {a b : Formula} (unknown : goal ∉ derivation.formulas)
    (inside : Inside goal derivation.formulas (conj a b)) (differ : a ≠ b)
    (left : a ∈ derivation.formulas) (right : b ∈ derivation.formulas)
    (short : ((conj a b).tiles.length : Int) ≤ cap) :
    conj a b ∈ (next goal cap derivation).formulas :=
  mem_next unknown (buildingApplication_mem inside
    (by simp [buildingApplication?, differ, left, right]; rfl)) short

theorem disj_mem_next {a b : Formula} (unknown : goal ∉ derivation.formulas)
    (inside : Inside goal derivation.formulas (disj a b))
    (either : a ∈ derivation.formulas ∨ b ∈ derivation.formulas)
    (short : ((disj a b).tiles.length : Int) ≤ cap) :
    disj a b ∈ (next goal cap derivation).formulas := by
  by_cases left : a ∈ derivation.formulas
  · exact mem_next unknown (buildingApplication_mem inside
      (by simp [buildingApplication?, left]; rfl)) short
  · have right := either.resolve_left left
    exact mem_next unknown (buildingApplication_mem inside
      (by simp [buildingApplication?, left, right]; rfl)) short

/-- A known antecedent is joined to every other antecedent. -/
theorem antecedents_mem_next {a b c d : Formula} (unknown : goal ∉ derivation.formulas)
    (first : impl a b ∈ derivation.formulas) (second : impl c d ∈ derivation.formulas)
    (differ : a ≠ c) (left : a ∈ derivation.formulas)
    (short : ((disj a c).tiles.length : Int) ≤ cap) :
    disj a c ∈ (next goal cap derivation).formulas := by
  have candidate : (⟨.addition, [.ofFormula a], .ofFormula (disj a c)⟩ : Application) ∈
      candidates goal derivation := by
    refine List.mem_append_right _ (List.mem_flatMap.mpr ⟨a, ?_, List.mem_flatMap.mpr ⟨c, ?_, ?_⟩⟩)
    · exact List.mem_filter.mpr ⟨mem_antecedents.mpr ⟨b, first⟩, by simpa using left⟩
    · exact List.mem_filter.mpr ⟨mem_antecedents.mpr ⟨d, second⟩, by simpa using differ⟩
    · exact List.mem_cons_self
  exact mem_next unknown candidate short

/-! ## Several rounds -/

theorem pool_succ : pool goal cap (n + 1) derivation = next goal cap (pool goal cap n derivation) :=
  Function.iterate_succ_apply' _ _ _

theorem pool_next : pool goal cap n (next goal cap derivation) = pool goal cap (n + 1) derivation :=
  (Function.iterate_succ_apply _ _ _).symm

theorem pool_pool {m : Nat} :
    pool goal cap m (pool goal cap n derivation) = pool goal cap (m + n) derivation :=
  (Function.iterate_add_apply _ _ _ _).symm

theorem pool_of_knows (knows : derivation.knows goal = true) :
    pool goal cap n derivation = derivation :=
  Function.iterate_fixed (next_of_knows knows) n

theorem pool_subset {m : Nat} (fewer : m ≤ n) :
    (pool goal cap m derivation).formulas ⊆ (pool goal cap n derivation).formulas := by
  induction fewer with
  | refl => exact List.Subset.refl _
  | step _ ih =>
      rw [pool_succ]
      exact List.Subset.trans ih subset_next

theorem nodup_pool (distinct : derivation.formulas.Nodup) :
    (pool goal cap n derivation).formulas.Nodup := by
  induction n with
  | zero => exact distinct
  | succ n ih =>
      rw [pool_succ]
      exact nodup_next ih

theorem rounds_of_knows (knows : derivation.knows goal = true) :
    rounds goal cap maxFormulas n derivation = some derivation := by
  cases n <;> rw [rounds, if_pos knows]

/-- The rounds end with the goal if it becomes known before too much is. -/
theorem rounds_isSome (known : goal ∈ (pool goal cap n derivation).formulas)
    (bounded : ∀ m < n, goal ∉ (pool goal cap (m + 1) derivation).formulas →
      ((pool goal cap (m + 1) derivation).length : Int) ≤ maxFormulas) :
    (rounds goal cap maxFormulas n derivation).isSome := by
  induction n generalizing derivation with
  | zero =>
      have knows : derivation.knows goal = true := Derivation.knows_iff.mpr known
      rw [rounds_of_knows knows]
      rfl
  | succ n ih =>
      by_cases knows : derivation.knows goal = true
      · rw [rounds_of_knows knows]
        rfl
      · have grows : next goal cap derivation = _ := next_of_not_knows knows
        have later : ∀ {m}, pool goal cap m (derivation ++ (fresh goal cap derivation).map
            fun a => ⟨a.conclusion, some a⟩) = pool goal cap (m + 1) derivation :=
          grows ▸ pool_next
        rw [rounds, if_neg knows]
        simp only
        split
        · -- where nothing is added, the goal would have been known all along
          rename_i empty
          have still : next goal cap derivation = derivation := by
            rw [grows, List.isEmpty_iff.mp empty, List.append_nil]
          have same : pool goal cap (n + 1) derivation = derivation :=
            Function.iterate_fixed still _
          rw [same] at known
          exact absurd (Derivation.knows_iff.mpr known) knows
        · split
          · rename_i exceeds
            split
            · rfl
            · rename_i missing
              rw [Derivation.knows_iff, ← grows] at missing
              have within := bounded 0 (Nat.zero_lt_succ n) missing
              rw [pool_succ, pool, Function.iterate_zero_apply, grows] at within
              omega
          · refine ih (by rwa [later]) fun m lt missing => ?_
            rw [later] at missing ⊢
            exact bounded (m + 1) (Nat.succ_lt_succ lt) missing

/-- A maximum is no less than where it starts, nor than any of the lengths. -/
theorem le_foldl_max {α : Type} (length : α → Nat) (as : List α) (start : Int) :
    start ≤ as.foldl (fun cap a => max cap (length a : Int)) start ∧
      ∀ a ∈ as, (length a : Int) ≤ as.foldl (fun cap a => max cap (length a : Int)) start := by
  induction as generalizing start with
  | nil => exact ⟨Int.le_refl start, nofun⟩
  | cons a as ih =>
      obtain ⟨grows, bounds⟩ := ih (max start (length a))
      exact ⟨Int.le_trans (Int.le_max_left _ _) grows,
        List.forall_mem_cons.mpr ⟨Int.le_trans (Int.le_max_right _ _) grows, bounds⟩⟩

theorem max_le_admittedLength (maxTiles : Int) (goal : Wff) (premises : Derivation) :
    max maxTiles goal.length ≤ admittedLength maxTiles goal premises :=
  (le_foldl_max (fun d : Derived => d.wff.length) premises _).1

theorem le_admittedLength (maxTiles : Int) (goal : Wff) (premises : Derivation) :
    maxTiles ≤ admittedLength maxTiles goal premises :=
  Int.le_trans (Int.le_max_left _ _) (max_le_admittedLength _ _ _)

theorem goal_le_admittedLength (maxTiles : Int) (goal : Wff) (premises : Derivation) :
    (goal.length : Int) ≤ admittedLength maxTiles goal premises :=
  Int.le_trans (Int.le_max_right _ _) (max_le_admittedLength _ _ _)

end Search

/-! ## The search -/

section

variable {premises : List Statement} {goal : Statement} {f : Formula} {limits : SearchLimits}

/-- What a search from the premises knows after some rounds if nothing but the goal ends it. -/
def searchPool (premises : List Statement) (goal : Statement) (maxTiles : Int) (n : Nat) :
    Derivation :=
  let start := Derivation.ofPremises premises
  match goal.wff? with
  | none => start
  | some goal => Search.pool goal.formula (Search.admittedLength maxTiles goal start) n start

theorem searchPool_eq {w : Wff} (wff : goal.wff? = some w) (premises : List Statement)
    (maxTiles : Int) (n : Nat) : searchPool premises goal maxTiles n =
      Search.pool w.formula (Search.admittedLength maxTiles w (.ofPremises premises)) n
        (.ofPremises premises) := by
  rw [searchPool, wff]

theorem formulas_ofPremises (premises : List Statement) :
    (Derivation.ofPremises premises).formulas = (givenWffs premises).map Wff.formula := by
  rw [Derivation.ofPremises, Derivation.formulas, List.map_map]
  rfl

theorem nodup_ofPremises (premises : List Statement) :
    (Derivation.ofPremises premises).formulas.Nodup := by
  rw [formulas_ofPremises]
  exact nodup_givenWffs premises

/-- The search succeeds if its rounds find the goal before they know too much. -/
theorem search_isSome {n : Nat} (reads : goal.formula? = some f)
    (known : f ∈ (searchPool premises goal limits.maxTiles n).formulas)
    (enough : (n : Int) ≤ limits.maxRounds)
    (bounded : ∀ m : Nat, (m : Int) < limits.maxRounds →
      f ∉ (searchPool premises goal limits.maxTiles (m + 1)).formulas →
        ((searchPool premises goal limits.maxTiles (m + 1)).length : Int) ≤ limits.maxFormulas) :
    (search premises goal limits).isSome := by
  have wff : goal.wff? = some ⟨goal, f, reads⟩ := Statement.wff?_eq_some.mpr rfl
  simp only [searchPool_eq wff] at known bounded
  rw [search, wff]
  exact Search.rounds_isSome (Search.pool_subset (by omega) known)
    fun m lt missing => bounded m (by omega) missing

/-- The search finds what one application of a closed rule derives from the premises, if it admits
its length. -/
theorem search_isSome_of_admitted {rule : InferenceRule} {ws : List Wff}
    (reads : goal.formula? = some f) (available : ws <+~ givenWffs premises)
    (schema : Schema rule (ws.map Wff.formula) f) (closed : rule ∈ Search.closedRules)
    (rounds : 0 < limits.maxRounds)
    (short : ((Statement.ofFormula f).length : Int) ≤
      Search.admittedLength limits.maxTiles ⟨goal, f, reads⟩ (.ofPremises premises)) :
    (search premises goal limits).isSome := by
  have wff : goal.wff? = some ⟨goal, f, reads⟩ := Statement.wff?_eq_some.mpr rfl
  have same : (Derivation.ofPremises premises).map (·.wff) = givenWffs premises := by
    rw [Derivation.ofPremises, List.map_map]
    exact List.map_id _
  obtain ⟨a, candidate, concludes⟩ := Search.exists_candidate (nodup_ofPremises premises)
    (same ▸ available) schema closed
  have learned : f ∈ (searchPool premises goal limits.maxTiles 1).formulas := by
    rw [searchPool_eq wff, Search.pool_succ]
    by_cases known : f ∈ (Derivation.ofPremises premises).formulas
    · exact Search.subset_next known
    · have admitted : (a.conclusion.length : Int) ≤ Search.admittedLength limits.maxTiles
          ⟨goal, f, reads⟩ (.ofPremises premises) := by
        rw [concludes]
        exact short
      have found := Search.mem_next known candidate admitted
      rwa [concludes] at found
  refine search_isSome reads learned (by omega) fun m _ missing => absurd ?_ missing
  rw [searchPool_eq wff] at learned ⊢
  exact Search.pool_subset (Nat.succ_le_succ (Nat.zero_le m)) learned

theorem search_isSome_of_schema {rule : InferenceRule} {ws : List Wff}
    (reads : goal.formula? = some f) (available : ws <+~ givenWffs premises)
    (schema : Schema rule (ws.map Wff.formula) f) (closed : rule ∈ Search.closedRules)
    (rounds : 0 < limits.maxRounds)
    (short : ((Statement.ofFormula f).length : Int) ≤ limits.maxTiles) :
    (search premises goal limits).isSome :=
  search_isSome_of_admitted reads available schema closed rounds
    (Int.le_trans short (Search.le_admittedLength _ _ _))

end

end ProofPuzzles
