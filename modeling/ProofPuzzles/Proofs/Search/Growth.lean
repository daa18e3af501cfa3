import ProofPuzzles.Proofs.Firsts
import ProofPuzzles.Proofs.Inference.Enumeration
import ProofPuzzles.Proofs.WellFormed
import ProofPuzzles.Search

/-! # How the known statements grow

A search starts from the premises and adds what applications derive. However the rounds choose
them, nothing becomes known twice, and each application consumes what has been known before it.
-/

namespace ProofPuzzles

open Formula

/-- The application follows its rule as a proof cites it, and the given formulas suffice for it. -/
structure Application.Citable (a : Application) (known : List Formula) : Prop where
  schema : Schema a.rule (a.premises.map Wff.formula) a.conclusion.formula
  known : ∀ p ∈ a.premises, p.formula ∈ known

theorem Application.Citable.mono {a : Application} {known more : List Formula}
    (h : a.Citable known) (kept : known ⊆ more) : a.Citable more :=
  ⟨h.schema, fun p member => kept (h.known p member)⟩

/-- The derivation that knows the given statements. -/
def Derivation.ofGiven (given : List Wff) : Derivation := given.map (⟨·, none⟩)

/-- The given statements, and then what applications derive from earlier ones, each once. -/
inductive Derivation.Grown (given : List Wff) : Derivation → Prop where
  | start : Grown given (ofGiven given)
  | derive {derivation : Derivation} {a : Application} (grown : Grown given derivation)
    (fresh : a.conclusion.formula ∉ derivation.formulas)
    (citable : a.Citable derivation.formulas) :
    Grown given (derivation ++ [⟨a.conclusion, some a⟩])

namespace Search

variable {goal : Formula} {derivation : Derivation} {a : Application}

/-! ## What a round considers -/

theorem closedApplications_citable {known : List Wff} (h : a ∈ closedApplications known) :
    a.Citable (known.map Wff.formula) := by
  obtain ⟨rule, closed, found⟩ := List.mem_flatMap.mp h
  have other : rule ≠ .conjunction ∧ rule ≠ .addition := by
    simpa using (List.mem_filter.mp closed).2
  have inst := Inference.applications_sound found
  rw [← inst.rule_eq] at other
  refine ⟨?_, fun p member => ?_⟩
  · have consumes := inst.consumes
    rw [← inst.rule_eq] at consumes
    exact consumes.schema other.2
  · exact List.mem_map_of_mem (Inference.mem_of_applications found member)

theorem buildingApplication_citable {known : List Formula} {f : Formula}
    (h : buildingApplication? (.ofList known) f = some a) : a.Citable known := by
  unfold buildingApplication? at h
  split at h
  · rename_i x y
    split at h
    · rename_i both
      cases h
      refine ⟨.conjunction x y, fun p member => ?_⟩
      rcases List.mem_pair.mp member with rfl | rfl
      · simpa using both.2.1
      · simpa using both.2.2
    · cases h
  · rename_i x y
    split at h
    · rename_i left
      cases h
      refine ⟨.addRight x y, fun p member => ?_⟩
      rw [List.mem_singleton.mp member]
      simpa using left
    · split at h
      · rename_i right
        cases h
        refine ⟨.addLeft y x, fun p member => ?_⟩
        rw [List.mem_singleton.mp member]
        simpa using right
      · cases h
  · cases h

theorem antecedentDisjunctions_citable {known antecedents : List Formula}
    (h : a ∈ antecedentDisjunctions (.ofList known) antecedents) : a.Citable known := by
  obtain ⟨x, first, h⟩ := List.mem_flatMap.mp h
  obtain ⟨y, -, h⟩ := List.mem_flatMap.mp h
  have stated : x ∈ known := by simpa using (List.mem_filter.mp first).2
  rcases List.mem_pair.mp h with rfl | rfl
  · refine ⟨.addRight x y, fun p member => ?_⟩
    rw [List.mem_singleton.mp member]
    exact stated
  · refine ⟨.addLeft x y, fun p member => ?_⟩
    rw [List.mem_singleton.mp member]
    exact stated

theorem candidates_citable (h : a ∈ candidates goal derivation) :
    a.Citable derivation.formulas := by
  simp only [candidates, List.mem_append] at h
  rcases h with (closed | built) | disjunction
  · have citable := closedApplications_citable closed
    rwa [List.map_map] at citable
  · obtain ⟨f, -, builds⟩ := List.mem_filterMap.mp built
    exact buildingApplication_citable builds
  · exact antecedentDisjunctions_citable disjunction

/-! ## What a round adds -/

theorem fresh_citable {cap : Int} (h : a ∈ fresh goal cap derivation) :
    a.Citable derivation.formulas :=
  candidates_citable (List.mem_filter.mp ((firstsAfter_sublist _ _ _).subset h)).1

theorem fresh_new {cap : Int} (h : a ∈ fresh goal cap derivation) :
    a.conclusion.formula ∉ derivation.formulas := by
  simpa using key_fresh_of_mem_firstsAfter h

theorem fresh_nodup (goal : Formula) (cap : Int) (derivation : Derivation) :
    ((fresh goal cap derivation).map (·.conclusion.formula)).Nodup :=
  nodup_map_firstsAfter _ _ _

end Search

namespace Derivation

open Search

variable {given : List Wff} {derivation : Derivation}

theorem formulas_append (derivation other : Derivation) :
    formulas (derivation ++ other) = derivation.formulas ++ other.formulas := List.map_append

theorem knows_iff {f : Formula} : derivation.knows f = true ↔ f ∈ derivation.formulas := by
  simp [knows, formulas]

theorem Grown.append (grown : Grown given derivation) {added : List Application}
    (distinct : (added.map (·.conclusion.formula)).Nodup)
    (fresh : ∀ a ∈ added, a.conclusion.formula ∉ derivation.formulas)
    (citable : ∀ a ∈ added, a.Citable derivation.formulas) :
    Grown given (derivation ++ added.map fun a => ⟨a.conclusion, some a⟩) := by
  induction added generalizing derivation with
  | nil => rwa [List.map_nil, List.append_nil]
  | cons a added ih =>
      rw [List.map_cons, List.nodup_cons] at distinct
      rw [List.forall_mem_cons] at fresh citable
      rw [List.map_cons, List.append_cons]
      refine ih (grown.derive fresh.1 citable.1) distinct.2 (fun b member => ?_)
        fun b member => ?_
      · rw [formulas_append, List.mem_append, not_or]
        refine ⟨fresh.2 b member, fun same => ?_⟩
        have again : b.conclusion.formula = a.conclusion.formula := List.mem_singleton.mp same
        exact distinct.1 (List.mem_map.mpr ⟨b, member, again⟩)
      · refine (citable.2 b member).mono ?_
        rw [formulas_append]
        exact List.subset_append_left _ _

theorem Grown.round (grown : Grown given derivation) (goal : Formula) (cap : Int) :
    Grown given (derivation ++ (fresh goal cap derivation).map fun a => ⟨a.conclusion, some a⟩) :=
  grown.append (fresh_nodup goal cap derivation) (fun _ => fresh_new) (fun _ => fresh_citable)

/-- However many rounds there are, what they return has grown and knows the goal. -/
theorem Grown.rounds {goal : Formula} {cap maxFormulas : Int} {n : Nat} {found : Derivation}
    (grown : Grown given derivation)
    (h : Search.rounds goal cap maxFormulas n derivation = some found) :
    Grown given found ∧ goal ∈ found.formulas := by
  induction n generalizing derivation with
  | zero =>
      rw [Search.rounds] at h
      split at h
      · rename_i knows
        cases h
        exact ⟨grown, knows_iff.mp knows⟩
      · cases h
  | succ n ih =>
      have grows := grown.round goal cap
      rw [Search.rounds] at h
      split at h
      · rename_i knows
        cases h
        exact ⟨grown, knows_iff.mp knows⟩
      · simp only at h
        split at h
        · cases h
        · split at h
          · split at h
            · rename_i knows
              cases h
              exact ⟨grows, knows_iff.mp knows⟩
            · cases h
          · exact ih grows h

end Derivation

/-- The premises that a search starts from. -/
def givenWffs (premises : List Statement) : List Wff := firstsBy Wff.formula (wellFormed premises)

theorem nodup_givenWffs (premises : List Statement) :
    ((givenWffs premises).map Wff.formula).Nodup := nodup_map_firstsBy _ _

/-- The given statements are the first occurrences among the premises that read as formulas. -/
theorem map_statement_givenWffs (premises : List Statement) :
    (givenWffs premises).map Wff.statement =
      (premises.filter (·.formula?.isSome)).eraseDupsBy fun s t => s.identity == t.identity := by
  have same : (fun v w : Wff => v.formula == w.formula) =
      fun v w => v.statement.identity == w.statement.identity := by
    funext v w
    rw [Statement.identity_eq v.reads, Statement.identity_eq w.reads, Bool.eq_iff_iff]
    simp only [beq_iff_eq, Identity.formula.injEq]
  rw [givenWffs, firstsBy_eq_eraseDupsBy, same,
    map_eraseDupsBy Wff.statement fun s t => s.identity == t.identity, map_statement_wellFormed]

theorem search_spec {premises : List Statement} {goal : Statement} {limits : SearchLimits}
    {found : Derivation} (h : search premises goal limits = some found) :
    ∃ f, goal.formula? = some f ∧ found.Grown (givenWffs premises) ∧ f ∈ found.formulas := by
  rw [search] at h
  split at h
  · cases h
  · rename_i w reads
    refine ⟨w.formula, ?_, Derivation.Grown.start.rounds h⟩
    rw [← Statement.wff?_eq_some.mp reads, w.reads]

end ProofPuzzles
