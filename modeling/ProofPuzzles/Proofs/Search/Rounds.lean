import ProofPuzzles.Proofs.Search.Outline
import ProofPuzzles.Proofs.Search.Respelling

/-! # What one round derives

The procedures of a round come to four ways of deriving a formula: a closed rule over different
known formulas, Conjunction or Addition inside the goal or inside something known, and the
disjunction of two antecedents one of which is known. Each formula that is short enough and derived
in one of these ways is known after the round, and nothing else is.
-/

namespace ProofPuzzles

open Formula

namespace Search

variable {goal f : Formula} {known : List Formula} {derivation : Derivation} {cap : Int} {n : Nat}
  {a : Application}

/-- What a round over the known formulas derives, whatever its length. -/
inductive Offers (goal : Formula) (known : List Formula) : Formula → Prop where
  | closed {rule : InferenceRule} {cited : List Formula} {f : Formula}
    (closed : rule ∈ closedRules) (schema : Schema rule cited f) (different : cited.Nodup)
    (stated : cited ⊆ known) : Offers goal known f
  | conjunction {a b : Formula} (inside : Inside goal known (conj a b)) (differ : a ≠ b)
    (left : a ∈ known) (right : b ∈ known) : Offers goal known (conj a b)
  | addition {a b : Formula} (inside : Inside goal known (disj a b))
    (either : a ∈ known ∨ b ∈ known) : Offers goal known (disj a b)
  | antecedents {a b c d : Formula} (first : impl a c ∈ known) (second : impl b d ∈ known)
    (differ : a ≠ b) (either : a ∈ known ∨ b ∈ known) : Offers goal known (disj a b)

/-! ## The candidates -/

theorem offers_of_closed (candidate : a ∈ closedApplications (derivation.map (·.wff))) :
    Offers goal derivation.formulas a.conclusion.formula := by
  obtain ⟨rule, closed, found⟩ := List.mem_flatMap.mp candidate
  have inst := Inference.applications_sound found
  have schema := inst.consumes.schema (mem_closedRules.mp closed).2
  refine .closed closed schema inst.nodup_formulas ?_
  intro g member
  obtain ⟨p, consumed, rfl⟩ := List.mem_map.mp member
  have citable := (closedApplications_citable candidate).known p consumed
  rwa [List.map_map] at citable

theorem offers_of_building (inside : Inside goal known f)
    (builds : buildingApplication? (.ofList known) f = some a) :
    Offers goal known a.conclusion.formula := by
  unfold buildingApplication? at builds
  split at builds
  · split at builds
    · rename_i both
      cases builds
      simp only [Std.HashSet.contains_ofList, List.contains_iff_mem] at both
      exact .conjunction inside both.1 both.2.1 both.2.2
    · cases builds
  · split at builds
    · rename_i left
      cases builds
      exact .addition inside (.inl (by simpa using left))
    · split at builds
      · rename_i right
        cases builds
        exact .addition inside (.inr (by simpa using right))
      · cases builds
  · cases builds

theorem offers_of_joining
    (joins : a ∈ antecedentDisjunctions (.ofList known) (antecedents known)) :
    Offers goal known a.conclusion.formula := by
  obtain ⟨x, first, joins⟩ := List.mem_flatMap.mp joins
  obtain ⟨y, second, joins⟩ := List.mem_flatMap.mp joins
  obtain ⟨listed, stated⟩ := List.mem_filter.mp first
  obtain ⟨other, differ⟩ := List.mem_filter.mp second
  obtain ⟨c, left⟩ := mem_antecedents.mp listed
  obtain ⟨d, right⟩ := mem_antecedents.mp other
  have apart : x ≠ y := of_decide_eq_true differ
  have stated : x ∈ known := by simpa using stated
  rcases List.mem_pair.mp joins with rfl | rfl
  · exact .antecedents left right apart (.inl stated)
  · exact .antecedents right left apart.symm (.inr stated)

theorem offers_of_candidate (candidate : a ∈ candidates goal derivation) :
    Offers goal derivation.formulas a.conclusion.formula := by
  simp only [candidates, List.mem_append] at candidate
  rcases candidate with (closed | built) | joins
  · exact offers_of_closed closed
  · obtain ⟨f, listed, builds⟩ := List.mem_filterMap.mp built
    exact offers_of_building (mem_parts.mp listed) builds
  · exact offers_of_joining joins

theorem joining_mem_next {b c d e : Formula} (unknown : goal ∉ derivation.formulas)
    (first : impl b c ∈ derivation.formulas) (second : impl d e ∈ derivation.formulas)
    (differ : b ≠ d) (either : b ∈ derivation.formulas ∨ d ∈ derivation.formulas)
    (short : ((disj b d).tiles.length : Int) ≤ cap) :
    disj b d ∈ (next goal cap derivation).formulas := by
  rcases either with left | right
  · exact antecedents_mem_next unknown first second differ left short
  · have candidate : (⟨.addition, [.ofFormula d], .ofFormula (disj b d)⟩ : Application) ∈
        candidates goal derivation := by
      apply List.mem_append_right
      refine List.mem_flatMap.mpr ⟨d, ?_, List.mem_flatMap.mpr ⟨b, ?_, by simp⟩⟩
      · exact List.mem_filter.mpr ⟨mem_antecedents.mpr ⟨e, second⟩, by simpa using right⟩
      · exact List.mem_filter.mpr ⟨mem_antecedents.mpr ⟨c, first⟩, by simpa using differ.symm⟩
    exact mem_next unknown candidate short

/-! ## Rounds -/

theorem Offers.mem_next (offers : Offers goal derivation.formulas f)
    (distinct : derivation.formulas.Nodup) (unknown : goal ∉ derivation.formulas)
    (short : (f.tiles.length : Int) ≤ cap) : f ∈ (next goal cap derivation).formulas := by
  cases offers with
  | closed closed schema different stated =>
      exact mem_next_of_schema distinct unknown schema closed different stated short
  | conjunction inside differ left right =>
      exact conj_mem_next unknown inside differ left right short
  | addition inside either => exact disj_mem_next unknown inside either short
  | antecedents first second differ either =>
      exact joining_mem_next unknown first second differ either short

theorem offers_of_mem_next (learned : f ∈ (next goal cap derivation).formulas) :
    f ∈ derivation.formulas ∨ Offers goal derivation.formulas f := by
  by_cases knows : derivation.knows goal = true
  · rw [next_of_knows knows] at learned
    exact .inl learned
  · rw [next_of_not_knows knows, Derivation.formulas_append, List.mem_append] at learned
    rcases learned with old | new
    · exact .inl old
    · rw [Derivation.formulas, List.map_map] at new
      obtain ⟨a, added, rfl⟩ := List.mem_map.mp new
      have considered := (firstsAfter_sublist _ _ _).subset added
      exact .inr (offers_of_candidate (List.mem_filter.mp considered).1)

/-- A round finds exactly what it offers and admits. -/
theorem mem_next_iff (distinct : derivation.formulas.Nodup)
    (unknown : goal ∉ derivation.formulas) :
    f ∈ (next goal cap derivation).formulas ↔ f ∈ derivation.formulas ∨
      Offers goal derivation.formulas f ∧ (f.tiles.length : Int) ≤ cap := by
  constructor
  · intro learned
    rcases offers_of_mem_next learned with old | offers
    · exact .inl old
    · rcases short_of_mem_next learned with old | short
      · exact .inl old
      · exact .inr ⟨offers, short⟩
  · rintro (old | ⟨offers, short⟩)
    · exact subset_next old
    · exact offers.mem_next distinct unknown short

/-- What holds of the known formulas and of whatever is offered then holds of all that is found. -/
theorem forall_mem_pool {kept : Formula → Prop} (start : ∀ f ∈ derivation.formulas, kept f)
    (step : ∀ known, (∀ f ∈ known, kept f) → ∀ f, Offers goal known f →
      (f.tiles.length : Int) ≤ cap → kept f) :
    ∀ f ∈ (pool goal cap n derivation).formulas, kept f := by
  induction n with
  | zero => exact start
  | succ n ih =>
      intro f learned
      rw [pool_succ] at learned
      rcases offers_of_mem_next learned with old | offers
      · exact ih f old
      · rcases short_of_mem_next learned with old | short
        · exact ih f old
        · exact step _ ih f offers short

end Search

theorem nodup_searchPool (premises : List Statement) (goal : Statement) (maxTiles : Int) (n : Nat) :
    (searchPool premises goal maxTiles n).formulas.Nodup := by
  rw [searchPool]
  split
  · exact nodup_ofPremises premises
  · exact Search.nodup_pool (nodup_ofPremises premises)

theorem searchPool_subset {m n : Nat} (premises : List Statement) (goal : Statement)
    (maxTiles : Int) (fewer : m ≤ n) : (searchPool premises goal maxTiles m).formulas ⊆
      (searchPool premises goal maxTiles n).formulas := by
  rw [searchPool, searchPool]
  split
  · exact List.Subset.refl _
  · exact Search.pool_subset fewer

theorem length_searchPool_le_of_subset {premises : List Statement} {goal : Statement}
    {maxTiles : Int} {n : Nat} {fs : List Formula}
    (within : (searchPool premises goal maxTiles n).formulas ⊆ fs) :
    (searchPool premises goal maxTiles n).length ≤ fs.length := by
  have fewer := ((nodup_searchPool premises goal maxTiles n).subperm within).length_le
  rwa [Derivation.formulas, List.length_map] at fewer

theorem length_searchPool_mono {m n : Nat} (premises : List Statement) (goal : Statement)
    (maxTiles : Int) (fewer : m ≤ n) : (searchPool premises goal maxTiles m).length ≤
      (searchPool premises goal maxTiles n).length := by
  have lengths := length_searchPool_le_of_subset (searchPool_subset premises goal maxTiles fewer)
  rwa [Derivation.formulas, List.length_map] at lengths

/-- What a search returns is what it knows after one of its rounds. -/
theorem exists_searchPool {premises : List Statement} {goal : Statement} {limits : SearchLimits}
    {found : Derivation} (h : search premises goal limits = some found) :
    ∃ m : Nat, (m : Int) ≤ max 0 limits.maxRounds ∧
      found = searchPool premises goal limits.maxTiles m := by
  rw [search] at h
  cases wff : goal.wff? with
  | none =>
      rw [wff] at h
      cases h
  | some w =>
      rw [wff] at h
      obtain ⟨m, fewer, rfl⟩ := Search.exists_pool h
      exact ⟨m, by omega, (searchPool_eq wff premises limits.maxTiles m).symm⟩

end ProofPuzzles
