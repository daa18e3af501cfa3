import ProofPuzzles.Proofs.Search.Rounds

/-! # Goals that are one step away

A line of a proof may cite a formula twice, the search never takes a formula twice. For most rules
this makes no difference: a schema whose places are filled with the same formula has that formula
for its conclusion too. Only Conjunction and the dilemma derive something new from a repeated
formula, and only there the check accepts more than one round of the search finds.
-/

namespace ProofPuzzles

open Formula

theorem Schema.nodup_or_mem {rule : InferenceRule} {cited : List Formula} {f : Formula}
    (schema : Schema rule cited f) (plain : rule ≠ .conjunction)
    (single : rule ≠ .constructiveDilemma) : cited.Nodup ∨ f ∈ cited := by
  cases schema with
  | modusPonens a b => exact .inl (by simp [Inference.bin_ne_left])
  | modusTollens a b => exact .inl (by simp)
  | hypotheticalSyllogism a b c =>
      by_cases same : impl a b = impl b c
      · cases same
        exact .inr List.mem_cons_self
      · exact .inl (by simpa using same)
  | denyLeft a b => exact .inl (by simp)
  | denyRight a b => exact .inl (by simp)
  | joinedDilemma a b c d => exact absurd rfl single
  | separateDilemma a b c d => exact absurd rfl single
  | absorption a b => exact .inl (List.nodup_singleton _)
  | simplifyLeft a b => exact .inl (List.nodup_singleton _)
  | simplifyRight a b => exact .inl (List.nodup_singleton _)
  | conjunction a b => exact absurd rfl plain
  | conjunctionSwapped a b => exact absurd rfl plain
  | addRight a x => exact .inl (List.nodup_singleton _)
  | addLeft a x => exact .inl (List.nodup_singleton _)

namespace Proof

variable {proof : Proof} {s : Statement} {f g goal : Formula} {given cited : List Formula}
  {rule : InferenceRule} {references : List Int} {n : Int}

/-- The cited lines state different formulas, and none of them is cited twice. -/
def CitesDifferent (proof : Proof) (references : List Int) : Prop :=
  ∀ cited, List.Forall₂ proof.States references cited → cited.Nodup

/-- The proof that states the given formulas and infers one more from some of them. -/
def oneStep (given : List Formula) (goal : Formula) (rule : InferenceRule)
    (references : List Int) : Proof :=
  (ofPremises (given.map Wff.ofFormula)).append (.ofFormula goal) (.inference rule references)

theorem citesDifferent_iff (built : proof.WellBuilt)
    (states : List.Forall₂ proof.States references cited) :
    proof.CitesDifferent references ↔ cited.Nodup := by
  constructor
  · intro different
    exact different cited states
  · intro distinct other also
    rwa [built.cited_unique also states]

theorem formulas_given : (ofPremises (given.map Wff.ofFormula)).formulas = given := by
  rw [formulas_ofPremises, List.map_map]
  exact List.map_id given

theorem validate_oneStep_iff : (oneStep given goal rule references).validate = .valid ↔
    ∃ cited, List.Forall₂ (ofPremises (given.map Wff.ofFormula)).States references cited ∧
      Schema rule cited goal := by
  rw [oneStep, (counted_ofPremises _).validate_append_iff]
  constructor
  · rintro ⟨f, reads, justified⟩
    cases reads
    cases justified with
    | inference cited schema => exact ⟨_, cited, schema⟩
  · rintro ⟨cited, states, schema⟩
    exact ⟨goal, rfl, .inference states schema⟩

theorem exists_cited_given (accepted : (oneStep given goal rule references).validate = .valid) :
    ∃ cited, List.Forall₂ (ofPremises (given.map Wff.ofFormula)).States references cited ∧
      Schema rule cited goal ∧ cited ⊆ given := by
  obtain ⟨cited, states, schema⟩ := validate_oneStep_iff.mp accepted
  have stated := subset_formulas states
  rw [formulas_given] at stated
  exact ⟨cited, states, schema, stated⟩

/-- What follows from given formulas follows from the lines on which they stand first. -/
theorem states_numbers (stated : cited ⊆ given) :
    List.Forall₂ (ofPremises (given.map Wff.ofFormula)).States
      (cited.map (ofPremises (given.map Wff.ofFormula)).numberOf) cited := by
  rw [List.forall₂_map_left_iff, List.forall₂_same]
  intro f member
  refine states_numberOf ?_
  rw [formulas_given]
  exact stated member

theorem validate_oneStep_of_schema (schema : Schema rule cited goal) (stated : cited ⊆ given)
    (numbers : cited.map (ofPremises (given.map Wff.ofFormula)).numberOf = references) :
    (oneStep given goal rule references).validate = .valid := by
  rw [← numbers]
  exact validate_oneStep_iff.mpr ⟨cited, states_numbers stated, schema⟩

/-- A rule derives the goal from different given formulas where the check accepts different lines.
-/
theorem exists_references_iff :
    (∃ references, (oneStep given goal rule references).validate = .valid ∧
      (ofPremises (given.map Wff.ofFormula)).CitesDifferent references) ↔
        ∃ cited, Schema rule cited goal ∧ cited.Nodup ∧ cited ⊆ given := by
  have built := validate_eq_valid_iff_wellBuilt.mp
    (counted_ofPremises (given.map Wff.ofFormula)).valid
  constructor
  · rintro ⟨references, accepted, different⟩
    obtain ⟨cited, states, schema, stated⟩ := exists_cited_given accepted
    exact ⟨cited, schema, different cited states, stated⟩
  · rintro ⟨cited, schema, distinct, stated⟩
    exact ⟨_, validate_oneStep_of_schema schema stated rfl,
      (citesDifferent_iff built (states_numbers stated)).mpr distinct⟩

end Proof

namespace Search

variable {goal : Formula} {known cited : List Formula} {rule : InferenceRule}

theorem exists_addition {a b : Formula} (either : a ∈ known ∨ b ∈ known) :
    ∃ rule cited, Schema rule cited (disj a b) ∧ cited.Nodup ∧ cited ⊆ known := by
  rcases either with left | right
  · exact ⟨_, _, .addRight a b, List.nodup_singleton a, by simpa using left⟩
  · exact ⟨_, _, .addLeft b a, List.nodup_singleton b, by simpa using right⟩

/-- A round offers its goal where a rule derives it from different known formulas. -/
theorem offers_goal_iff : Offers goal known goal ↔
    ∃ rule cited, Schema rule cited goal ∧ cited.Nodup ∧ cited ⊆ known := by
  have inside : Inside goal known goal := ⟨goal, List.mem_cons_self, goal.self_mem_subformulas⟩
  constructor
  · intro offers
    cases offers with
    | closed closed schema different stated => exact ⟨_, _, schema, different, stated⟩
    | conjunction _ differ left right =>
        exact ⟨_, _, .conjunction _ _, by simpa using differ, by simp [left, right]⟩
    | addition _ either => exact exists_addition either
    | antecedents _ _ _ either => exact exists_addition either
  · rintro ⟨rule, cited, schema, different, stated⟩
    by_cases closed : rule ∈ closedRules
    · exact .closed closed schema different stated
    · cases schema with
      | conjunction a b =>
          simp only [List.cons_subset, List.nil_subset, and_true] at stated
          exact .conjunction inside (by simpa using different) stated.1 stated.2
      | conjunctionSwapped a b =>
          simp only [List.cons_subset, List.nil_subset, and_true] at stated
          exact .conjunction inside (by simpa [eq_comm] using different) stated.2 stated.1
      | addRight a x => exact .addition inside (.inl (stated List.mem_cons_self))
      | addLeft a x => exact .addition inside (.inr (stated List.mem_cons_self))
      | _ => exact absurd (by decide) closed

end Search

section

variable {given : List Formula} {goal : Formula}

theorem mem_given_iff {f : Formula} :
    f ∈ (Derivation.ofPremises (given.map Statement.ofFormula)).formulas ↔ f ∈ given := by
  have reads : (given.map Statement.ofFormula).filterMap Statement.formula? = given := by
    rw [List.filterMap_map]
    exact List.filterMap_some
  rw [formulas_ofPremises, givenWffs, mem_map_firstsBy, map_formula_wellFormed, reads]

/-- The first round finds the goal where a rule derives it from different premises. -/
theorem mem_searchPool_one_iff (maxTiles : Int) :
    goal ∈ (searchPool (given.map Statement.ofFormula) (.ofFormula goal) maxTiles 1).formulas ↔
      goal ∈ given ∨ ∃ rule cited, Schema rule cited goal ∧ cited.Nodup ∧ cited ⊆ given := by
  have wff : (Statement.ofFormula goal).wff? = some ⟨.ofFormula goal, goal, rfl⟩ := rfl
  have short := Search.goal_le_admittedLength maxTiles ⟨.ofFormula goal, goal, rfl⟩
    (.ofPremises (given.map Statement.ofFormula))
  rw [searchPool_eq wff, Search.pool_succ, Search.pool, Function.iterate_zero_apply]
  by_cases known : goal ∈ given
  · simp only [known, true_or, iff_true]
    exact Search.subset_next (mem_given_iff.mpr known)
  · have unknown := mt mem_given_iff.mp known
    rw [Search.mem_next_iff (nodup_ofPremises _) unknown, Search.offers_goal_iff]
    simp only [unknown, known, false_or, List.subset_def, mem_given_iff]
    exact and_iff_left short

theorem exists_prove_of_one {limits : SearchLimits} (rounds : 1 ≤ limits.maxRounds)
    (learned : goal ∈ (searchPool (given.map Statement.ofFormula) (.ofFormula goal)
      limits.maxTiles 1).formulas) :
    ∃ proof, prove (given.map Statement.ofFormula) (.ofFormula goal) limits = some proof := by
  refine exists_prove rfl (search_isSome rfl learned rounds ?_)
  intro m _ missing
  exact absurd (searchPool_subset _ _ _ (Nat.le_add_left 1 m) learned) missing

/-- With one round, what is found follows by one rule from different premises. -/
theorem exists_prove_one_iff {limits : SearchLimits} (rounds : limits.maxRounds = 1) :
    (∃ proof, prove (given.map Statement.ofFormula) (.ofFormula goal) limits = some proof) ↔
      goal ∈ given ∨ ∃ rule cited, Schema rule cited goal ∧ cited.Nodup ∧ cited ⊆ given := by
  rw [← mem_searchPool_one_iff limits.maxTiles]
  constructor
  · rintro ⟨proof, proved⟩
    have found : (search (given.map Statement.ofFormula) (.ofFormula goal) limits).isSome := by
      rw [← isSome_prove, proved]
      rfl
    obtain ⟨derivation, searched⟩ := Option.isSome_iff_exists.mp found
    obtain ⟨f, same, -, learned⟩ := search_spec searched
    cases same
    obtain ⟨m, fewer, rfl⟩ := exists_searchPool searched
    exact searchPool_subset _ _ _ (by omega) learned
  · exact exists_prove_of_one (Int.le_of_eq rounds.symm)

/-- A goal that the check accepts one step behind the premises is proved. A formula that is cited
twice must not make a conjunction or a dilemma, unless the goal is given anyway; and a single round
proves nothing else. -/
theorem prove_oneStep (given : List Formula) (goal : Formula) :
    (∀ rule references (limits : SearchLimits),
      (Proof.oneStep given goal rule references).validate = .valid →
      (goal ∉ given → rule = .conjunction ∨ rule = .constructiveDilemma →
        (Proof.ofPremises (given.map Wff.ofFormula)).CitesDifferent references) →
      1 ≤ limits.maxRounds →
      ∃ proof, prove (given.map Statement.ofFormula) (.ofFormula goal) limits = some proof) ∧
    ∀ limits : SearchLimits, limits.maxRounds = 1 →
      ((∃ proof, prove (given.map Statement.ofFormula) (.ofFormula goal) limits = some proof) ↔
        goal ∈ given ∨ ∃ rule references,
          (Proof.oneStep given goal rule references).validate = .valid ∧
            (Proof.ofPremises (given.map Wff.ofFormula)).CitesDifferent references) := by
  constructor
  · intro rule references limits accepted different enough
    obtain ⟨cited, states, schema, stated⟩ := Proof.exists_cited_given accepted
    refine exists_prove_of_one enough ((mem_searchPool_one_iff _).mpr ?_)
    by_cases known : goal ∈ given
    · exact .inl known
    · by_cases repeats : rule = .conjunction ∨ rule = .constructiveDilemma
      · exact .inr ⟨rule, cited, schema, different known repeats cited states, stated⟩
      · obtain ⟨plain, single⟩ := not_or.mp repeats
        rcases schema.nodup_or_mem plain single with distinct | listed
        · exact .inr ⟨rule, cited, schema, distinct, stated⟩
        · exact absurd (stated listed) known
  · intro limits single
    simp only [exists_prove_one_iff single, Proof.exists_references_iff]

end

/-- Two premises are joined the other way round. -/
theorem prove_oneStep_conjunction :
    let given := [Detachment.p, Detachment.q]
    let goal := conj Detachment.q Detachment.p
    (Proof.oneStep given goal .conjunction [2, 1]).validate = .valid ∧
      (Proof.ofPremises (given.map Wff.ofFormula)).CitesDifferent [2, 1] ∧
      (∃ proof, prove (given.map Statement.ofFormula) (.ofFormula goal) {} = some proof) ∧
      ∃ proof, prove (given.map Statement.ofFormula) (.ofFormula goal) { maxRounds := 1 } =
        some proof := by
  intro given goal
  have schema : Schema .conjunction [Detachment.q, Detachment.p] goal := .conjunction _ _
  have stated : [Detachment.q, Detachment.p] ⊆ given := by decide
  have numbers : [Detachment.q, Detachment.p].map
      (Proof.ofPremises (given.map Wff.ofFormula)).numberOf = [2, 1] := by decide
  have accepted := Proof.validate_oneStep_of_schema schema stated numbers
  have built := Proof.validate_eq_valid_iff_wellBuilt.mp
    (Proof.counted_ofPremises (given.map Wff.ofFormula)).valid
  have states := Proof.states_numbers stated
  rw [numbers] at states
  have different := (Proof.citesDifferent_iff built states).mpr (by decide)
  obtain ⟨proved, single⟩ := prove_oneStep given goal
  exact ⟨accepted, different, proved _ _ {} accepted (fun _ _ => different) (by decide),
    (single { maxRounds := 1 } rfl).mpr (.inr ⟨_, _, accepted, different⟩)⟩

/-- For neither of the two rules that derive something new from a repeated formula does the search
find whatever the check accepts. -/
theorem not_prove_oneStep :
    (¬∀ (given : List Formula) (goal : Formula) (references : List Int) (rounds : Int),
      given ≠ [] → (Proof.oneStep given goal .conjunction references).validate = .valid →
        1 ≤ rounds → ∃ proof, prove (given.map Statement.ofFormula) (.ofFormula goal)
          { maxRounds := rounds } = some proof) ∧
    ¬∀ (given : List Formula) (goal : Formula) (references : List Int) (rounds : Int),
      given ≠ [] → (Proof.oneStep given goal .constructiveDilemma references).validate = .valid →
        1 ≤ rounds → ∃ proof, prove (given.map Statement.ofFormula) (.ofFormula goal)
          { maxRounds := rounds } = some proof := by
  let p := Detachment.p
  let q := Detachment.q
  constructor
  · intro found
    have accepted : (Proof.oneStep [p] (conj p p) .conjunction [1, 1]).validate = .valid :=
      Proof.validate_oneStep_of_schema (.conjunction p p) (by decide) (by decide)
    have proved := found [p] (conj p p) [1, 1] 1 (by decide) accepted (by decide)
    rcases (exists_prove_one_iff rfl).mp proved with given |
      ⟨rule, cited, schema, different, stated⟩
    · revert given
      decide
    · cases schema <;> simp [p, Detachment.p] at different stated
  · intro found
    have accepted : (Proof.oneStep [impl p q, disj p p] (disj q q) .constructiveDilemma
        [1, 1, 2]).validate = .valid :=
      Proof.validate_oneStep_of_schema (.separateDilemma p q p q) (by decide) (by decide)
    have proved := found [impl p q, disj p p] (disj q q) [1, 1, 2] 1 (by decide) accepted
      (by decide)
    rcases (exists_prove_one_iff rfl).mp proved with given |
      ⟨rule, cited, schema, different, stated⟩
    · revert given
      decide
    · cases schema <;> simp_all [p, q, Detachment.p, Detachment.q]

end ProofPuzzles
