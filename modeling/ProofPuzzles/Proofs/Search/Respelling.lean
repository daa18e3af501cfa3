import ProofPuzzles.Proofs.Inference.Respelling
import ProofPuzzles.Proofs.Search.Prove

/-! # Searching and spellings

A search looks at how the premises and the goal are written once only: the longest of them may raise
the length up to which it admits statements. Apart from that it goes by what they read as, so two
searches that admit the same length come to the same. What is derived is measured in full, though,
and a goal that is written without its parentheses may be longer in full than anything admitted.
Then the search never finds it, although it does find it where it is written in full.
-/

namespace ProofPuzzles

open Formula

/-- What is known, with all statements written in full. -/
def Derived.full (d : Derived) : Derived := ⟨d.wff.full, d.origin?.map Application.full⟩

namespace Derivation

def full (derivation : Derivation) : Derivation := derivation.map Derived.full

variable {derivation : Derivation} {premises others : List Statement}

@[simp] theorem length_full : derivation.full.length = derivation.length := List.length_map _

@[simp] theorem formulas_full : derivation.full.formulas = derivation.formulas := by
  rw [full, formulas, List.map_map]
  rfl

@[simp] theorem knows_full (f : Formula) : derivation.full.knows f = derivation.knows f := by
  rw [Bool.eq_iff_iff, knows_iff, knows_iff, formulas_full]

theorem map_wff_full : derivation.full.map (·.wff) = (derivation.map (·.wff)).map Wff.full := by
  rw [full, List.map_map, List.map_map]
  rfl

/-- In full, premises that read as the same are known as the same. -/
theorem full_ofPremises (same : premises.map Statement.identity = others.map Statement.identity) :
    (ofPremises premises).full = (ofPremises others).full := by
  have known : ∀ statements : List Statement, (ofPremises statements).full =
      (firstsBy id (statements.filterMap Statement.formula?)).map fun f => ⟨.ofFormula f, none⟩ := by
    intro statements
    rw [← map_formula_wellFormed, firstsBy_map, List.map_map, full, ofPremises, List.map_map]
    rfl
  have formulas : premises.filterMap Statement.formula? = others.filterMap Statement.formula? := by
    induction premises generalizing others with
    | nil => rw [List.map_eq_nil_iff.mp same.symm]
    | cons s premises ih =>
        obtain ⟨t, others, rfl, first, rest⟩ := List.map_eq_cons_iff.mp same.symm
        rw [List.filterMap_cons, List.filterMap_cons,
          Statement.formula?_eq_of_identity_eq first.symm, ih rest.symm]
  rw [known, known, formulas]

end Derivation

namespace Search

variable {goal f : Formula} {derivation found : Derivation} {cap maxFormulas : Int} {n : Nat}
  {a : Application}

/-! ## Candidates -/

theorem closedApplications_full (known : List Wff) :
    closedApplications (known.map Wff.full) = (closedApplications known).map Application.full := by
  simp only [closedApplications, List.map_flatMap, Inference.applications_full]

theorem full_of_buildingApplication {known : Std.HashSet Formula}
    (builds : buildingApplication? known f = some a) : a.full = a := by
  unfold buildingApplication? at builds
  split at builds
  · split at builds
    · cases builds
      rfl
    · cases builds
  · split at builds
    · cases builds
      rfl
    · split at builds
      · cases builds
        rfl
      · cases builds
  · cases builds

theorem full_of_antecedentDisjunctions {known : Std.HashSet Formula} {antecedents : List Formula}
    (joins : a ∈ antecedentDisjunctions known antecedents) : a.full = a := by
  obtain ⟨x, -, joins⟩ := List.mem_flatMap.mp joins
  obtain ⟨y, -, joins⟩ := List.mem_flatMap.mp joins
  rcases List.mem_pair.mp joins with rfl | rfl <;> rfl

theorem candidates_full (goal : Formula) (derivation : Derivation) :
    candidates goal derivation.full = (candidates goal derivation).map Application.full := by
  -- what builds formulas and what joins antecedents refers to no statement as it is written
  have unchanged : ∀ {as : List Application}, (∀ a ∈ as, a.full = a) →
      as.map Application.full = as := fun same => (List.map_congr_left same).trans (List.map_id _)
  simp only [candidates, Derivation.formulas_full, Derivation.map_wff_full,
    closedApplications_full, List.map_append]
  congr 1
  · congr 1
    refine (unchanged fun a member => ?_).symm
    obtain ⟨f, -, builds⟩ := List.mem_filterMap.mp member
    exact full_of_buildingApplication builds
  · exact (unchanged fun a => full_of_antecedentDisjunctions).symm

/-- Whatever a round considers derives a statement that is written in full. -/
theorem conclusion_full (candidate : a ∈ candidates goal derivation) :
    a.conclusion.full = a.conclusion := by
  simp only [candidates, List.mem_append] at candidate
  rcases candidate with (closed | built) | joins
  · obtain ⟨rule, -, enumerated⟩ := List.mem_flatMap.mp closed
    exact (Inference.applications_sound enumerated).full.symm
  · obtain ⟨f, -, builds⟩ := List.mem_filterMap.mp built
    exact congrArg Application.conclusion (full_of_buildingApplication builds)
  · exact congrArg Application.conclusion (full_of_antecedentDisjunctions joins)

/-! ## Rounds -/

theorem fresh_full (goal : Formula) (cap : Int) (derivation : Derivation) :
    fresh goal cap derivation.full = (fresh goal cap derivation).map Application.full := by
  have admitted : (candidates goal derivation).filter
      ((fun a => decide ((a.conclusion.length : Int) ≤ cap)) ∘ Application.full) =
        (candidates goal derivation).filter fun a => (a.conclusion.length : Int) ≤ cap := by
    refine List.filter_congr fun a candidate => ?_
    rw [Function.comp_apply, Application.full, conclusion_full candidate]
  rw [fresh, candidates_full, List.filter_map, admitted, firstsAfter_map,
    Derivation.formulas_full]
  rfl

theorem added_full (goal : Formula) (cap : Int) (derivation : Derivation) :
    derivation.full ++ (fresh goal cap derivation.full).map (fun a => ⟨a.conclusion, some a⟩) =
      Derivation.full (derivation ++
        (fresh goal cap derivation).map fun a => ⟨a.conclusion, some a⟩) := by
  rw [fresh_full, Derivation.full, Derivation.full, List.map_append, List.map_map, List.map_map]
  rfl

/-- Restating what is known at the start in full restates the outcome in full. -/
theorem rounds_full (goal : Formula) (cap maxFormulas : Int) (n : Nat) (derivation : Derivation) :
    rounds goal cap maxFormulas n derivation.full =
      (rounds goal cap maxFormulas n derivation).map Derivation.full := by
  induction n generalizing derivation with
  | zero =>
      rw [rounds, rounds, Derivation.knows_full]
      split <;> rfl
  | succ n ih =>
      have empty : ((fresh goal cap derivation.full).map fun a =>
          (⟨a.conclusion, some a⟩ : Derived)).isEmpty =
            ((fresh goal cap derivation).map fun a =>
              (⟨a.conclusion, some a⟩ : Derived)).isEmpty := by
        rw [fresh_full, List.isEmpty_map, List.isEmpty_map, List.isEmpty_map]
      rw [rounds, rounds, Derivation.knows_full]
      simp only [empty, added_full, Derivation.length_full, Derivation.knows_full, ih]
      split
      · rfl
      · split
        · rfl
        · split
          · split <;> rfl
          · rfl

theorem exists_pool (h : rounds goal cap maxFormulas n derivation = some found) :
    ∃ m, m ≤ n ∧ found = pool goal cap m derivation := by
  induction n generalizing derivation with
  | zero =>
      rw [rounds] at h
      split at h
      · cases h
        exact ⟨0, Nat.le_refl 0, rfl⟩
      · cases h
  | succ n ih =>
      rw [rounds] at h
      split at h
      · cases h
        exact ⟨0, Nat.zero_le _, rfl⟩
      · rename_i unknown
        have grows : next goal cap derivation = _ := next_of_not_knows unknown
        simp only [← grows] at h
        split at h
        · cases h
        · split at h
          · split at h
            · cases h
              exact ⟨1, Nat.succ_le_succ (Nat.zero_le n), rfl⟩
            · cases h
          · obtain ⟨m, fewer, same⟩ := ih h
            exact ⟨m + 1, Nat.succ_le_succ fewer, same.trans pool_next⟩

theorem short_of_mem_next (known : f ∈ (next goal cap derivation).formulas) :
    f ∈ derivation.formulas ∨ (f.tiles.length : Int) ≤ cap := by
  by_cases knows : derivation.knows goal = true
  · rw [next_of_knows knows] at known
    exact .inl known
  · rw [next_of_not_knows knows, Derivation.formulas_append, List.mem_append] at known
    rcases known with old | new
    · exact .inl old
    · rw [Derivation.formulas, List.map_map] at new
      obtain ⟨a, added, rfl⟩ := List.mem_map.mp new
      obtain ⟨candidate, short⟩ :=
        List.mem_filter.mp ((firstsAfter_sublist _ _ _).subset added)
      rw [← conclusion_full candidate] at short
      exact .inr (of_decide_eq_true short)

theorem short_of_mem_pool (known : f ∈ (pool goal cap n derivation).formulas) :
    f ∈ derivation.formulas ∨ (f.tiles.length : Int) ≤ cap := by
  induction n with
  | zero => exact .inl known
  | succ n ih =>
      rw [pool_succ] at known
      rcases short_of_mem_next known with before | short
      · exact ih before
      · exact .inr short

end Search

/-! ## The search -/

section

variable {premises others : List Statement} {goal aim : Statement} {limits : SearchLimits}
  {f : Formula}

/-- The length up to which a search for the goal admits statements. -/
def admittedFor? (premises : List Statement) (goal : Statement) (limits : SearchLimits) :
    Option Int :=
  goal.wff?.map fun w => Search.admittedLength limits.maxTiles w (.ofPremises premises)

/-- Searches that admit the same length find the same, up to how it is written. -/
theorem search_full (given : premises.map Statement.identity = others.map Statement.identity)
    (goals : goal.identity = aim.identity)
    (admitted : admittedFor? premises goal limits = admittedFor? others aim limits) :
    (search premises goal limits).map Derivation.full =
      (search others aim limits).map Derivation.full := by
  unfold admittedFor? at admitted
  unfold search
  cases first : goal.wff? with
  | none =>
      rw [first, Option.map_none, eq_comm, Option.map_eq_none_iff] at admitted
      rw [admitted]
  | some w =>
      rw [first, Option.map_some, eq_comm, Option.map_eq_some_iff] at admitted
      obtain ⟨v, second, same⟩ := admitted
      have reads : w.formula = v.formula := by
        have formula? := Statement.formula?_eq_of_identity_eq goals
        rw [← Statement.wff?_eq_some.mp first, ← Statement.wff?_eq_some.mp second, w.reads,
          v.reads] at formula?
        exact Option.some.inj formula?
      rw [second]
      simp only [← Search.rounds_full, Derivation.full_ofPremises given, reads, same]

theorem isSome_prove (premises : List Statement) (goal : Statement) (limits : SearchLimits) :
    (prove premises goal limits).isSome = (search premises goal limits).isSome := by
  rw [Bool.eq_iff_iff]
  constructor
  · intro proved
    unfold prove at proved
    split at proved
    · rename_i found
      rw [found]
      rfl
    · cases proved
  · intro found
    obtain ⟨derivation, searched⟩ := Option.isSome_iff_exists.mp found
    obtain ⟨f, reads, -⟩ := search_spec searched
    obtain ⟨proof, proved⟩ := exists_prove reads found
    rw [proved]
    rfl

/-- Where no spelling is longer than what is admitted in any case, spelling raises nothing. -/
theorem admittedFor?_of_short (reads : goal.formula? = some f)
    (short : (goal.length : Int) ≤ limits.maxTiles)
    (others : ∀ p ∈ premises, (p.length : Int) ≤ limits.maxTiles) :
    admittedFor? premises goal limits = some limits.maxTiles := by
  have within : ∀ d ∈ Derivation.ofPremises premises,
      (d.wff.length : Int) ≤ limits.maxTiles := by
    intro d member
    obtain ⟨w, listed, rfl⟩ := List.mem_map.mp member
    exact others _ (mem_wellFormed.mp ((firstsBy_sublist _ _).subset listed))
  -- so the maximum over the premises stays where it starts
  have unraised : ∀ ds : Derivation, (∀ d ∈ ds, (d.wff.length : Int) ≤ limits.maxTiles) →
      ds.foldl (fun cap d => max cap d.wff.length) limits.maxTiles = limits.maxTiles := by
    intro ds within
    induction ds with
    | nil => rfl
    | cons d ds ih =>
        rw [List.forall_mem_cons] at within
        rw [List.foldl_cons, Int.max_eq_left within.1]
        exact ih within.2
  have wff : goal.wff? = some ⟨goal, f, reads⟩ := Statement.wff?_eq_some.mpr rfl
  have start : max limits.maxTiles ((Wff.length ⟨goal, f, reads⟩ : Nat) : Int) = limits.maxTiles :=
    Int.max_eq_left short
  rw [admittedFor?, wff, Option.map_some, Search.admittedLength, start, unraised _ within]

/-- A goal that is no premise and that is in full longer than what is admitted is not found. -/
theorem search_eq_none_of_long {cap : Int} (reads : goal.formula? = some f)
    (admitted : admittedFor? premises goal limits = some cap) (long : cap < f.tiles.length)
    (other : ∀ p ∈ premises, p.formula? ≠ some f) : search premises goal limits = none := by
  cases found : search premises goal limits with
  | none => rfl
  | some derivation =>
      obtain ⟨g, same, -, known⟩ := search_spec found
      cases reads.symm.trans same
      have wff : goal.wff? = some ⟨goal, f, reads⟩ := Statement.wff?_eq_some.mpr rfl
      rw [admittedFor?, wff, Option.map_some, Option.some.injEq] at admitted
      rw [search, wff] at found
      obtain ⟨n, -, rfl⟩ := Search.exists_pool found
      rcases Search.short_of_mem_pool known with given | short
      · rw [formulas_ofPremises, givenWffs, mem_map_firstsBy, map_formula_wellFormed] at given
        obtain ⟨p, member, states⟩ := List.mem_filterMap.mp given
        exact absurd states (other p member)
      · rw [admitted] at short
        omega

end

/-! ## Detachments in different spellings -/

namespace Detachment

def letterP : Letter := ⟨⟨15, Nat.le_of_ble_eq_true rfl⟩⟩

def letterQ : Letter := ⟨⟨16, Nat.le_of_ble_eq_true rfl⟩⟩

def p : Formula := .letter letterP

def q : Formula := .letter letterQ

def conditional : Formula := impl p q

def bareConditional : Statement :=
  .ofTiles [.letter letterP, .connective .implies, .letter letterQ]

def wrapped (x : Letter) : Statement := .ofTiles [.opening, .letter x, .closing]

theorem derivable_of_given {premises : List Statement} {goal : Statement} {f g : Formula}
    {limits : SearchLimits} {v w : Wff} (reads : goal.formula? = some g)
    (given : givenWffs premises = [v, w]) (first : v.formula = impl f g) (second : w.formula = f)
    (rounds : 0 < limits.maxRounds)
    (short : (g.tiles.length : Int) ≤
      Search.admittedLength limits.maxTiles ⟨goal, g, reads⟩ (.ofPremises premises)) :
    derivable premises goal limits = true := by
  have available : List.Subperm [v, w] (givenWffs premises) := by rw [given]
  have schema : Schema .modusPonens ([v, w].map Wff.formula) g := by
    rw [List.map_cons, List.map_cons, List.map_nil, first, second]
    exact .modusPonens f g
  have closed : InferenceRule.modusPonens ∈ Search.closedRules := by decide
  exact search_isSome_of_admitted reads available schema closed rounds short

/-- Nine times the same letter, joined without parentheses. -/
def row : List Tile := (List.replicate 9 (.letter letterQ)).intersperse (.connective .and)

def joined : Formula := Nat.repeat (conj · q) 8 q

def premises : List Statement :=
  [.ofTiles (.letter letterP :: .connective .implies :: row), .ofFormula p]

theorem parse_row : parse row = some joined := by decide +kernel

theorem not_derivable_row : derivable premises (.ofTiles row) {} = false := by
  have admitted : admittedFor? premises (.ofTiles row) {} = some 31 :=
    admittedFor?_of_short parse_row (by decide) (by decide)
  have missing : search premises (.ofTiles row) {} = none :=
    search_eq_none_of_long parse_row admitted (by decide) (by decide +kernel)
  rw [derivable, missing]
  rfl

theorem derivable_joined : derivable premises (.ofFormula joined) {} = true := by
  let v : Wff := ⟨.ofTiles (.letter letterP :: .connective .implies :: row), impl p joined,
    by decide +kernel⟩
  have given : givenWffs premises = [v, .ofFormula p] := by
    rw [givenWffs, firstsBy_eq_eraseDupsBy]
    decide +kernel
  exact derivable_of_given rfl given rfl rfl (by decide) (Search.goal_le_admittedLength _ _ _)

end Detachment

section

variable {premises others : List Statement} {goal aim : Statement} {limits : SearchLimits}

/-- Writing the premises and the goal in another way does not change whether they lead to a proof,
as long as it does not change the length up to which statements are admitted. -/
theorem search_respelled
    (given : premises.map Statement.identity = others.map Statement.identity)
    (goals : goal.identity = aim.identity)
    (admitted : admittedFor? premises goal limits = admittedFor? others aim limits) :
    (search premises goal limits).isSome = (search others aim limits).isSome ∧
      derivable premises goal limits = derivable others aim limits ∧
      (prove premises goal limits).isSome = (prove others aim limits).isSome := by
  have same : (search premises goal limits).isSome = (search others aim limits).isSome := by
    have found := congrArg Option.isSome (search_full given goals admitted)
    rwa [Option.isSome_map, Option.isSome_map] at found
  refine ⟨same, same, ?_⟩
  rw [isSome_prove, isSome_prove, same]

end

/-- With parentheses in other places, a detachment is found all the same. -/
theorem search_respelled_detachment :
    let premises : List Statement := [Detachment.bareConditional, Detachment.wrapped Detachment.letterP]
    let others : List Statement := [.ofFormula Detachment.conditional, .ofFormula Detachment.p]
    let goal := Detachment.wrapped Detachment.letterQ
    let aim := Statement.ofFormula Detachment.q
    premises.map Statement.identity = others.map Statement.identity ∧
      goal.identity = aim.identity ∧
      admittedFor? premises goal {} = admittedFor? others aim {} ∧
      derivable premises goal {} = true ∧
      (search premises goal {}).isSome = (search others aim {}).isSome ∧
      derivable premises goal {} = derivable others aim {} ∧
      (prove premises goal {}).isSome = (prove others aim {}).isSome := by
  intro premises others goal aim
  have given : premises.map Statement.identity = others.map Statement.identity := by decide +kernel
  have goals : goal.identity = aim.identity := by decide +kernel
  have reads : goal.formula? = some Detachment.q := by decide +kernel
  have admitted : admittedFor? premises goal {} = admittedFor? others aim {} := by
    rw [admittedFor?_of_short reads (by decide) (by decide),
      admittedFor?_of_short (f := Detachment.q) rfl (by decide) (by decide)]
  have known : givenWffs others = [.ofFormula Detachment.conditional, .ofFormula Detachment.p] := by
    rw [givenWffs, firstsBy_eq_eraseDupsBy]
    decide +kernel
  have found : derivable others aim {} = true :=
    Detachment.derivable_of_given rfl known rfl rfl (by decide)
      (Search.goal_le_admittedLength _ _ _)
  have same := search_respelled given goals admitted
  exact ⟨given, goals, admitted, same.2.1.trans found, same⟩

/-- Leaving parentheses out of the goal alone can hide it from the search. -/
theorem not_search_respelled : ¬∀ (premises others : List Statement) (goal aim : Statement)
    (limits : SearchLimits), premises.map Statement.identity = others.map Statement.identity →
      goal.identity = aim.identity →
        derivable premises goal limits = derivable others aim limits := by
  intro same
  have goals : (Statement.ofTiles Detachment.row).identity =
      (Statement.ofFormula Detachment.joined).identity := by
    rw [Statement.identity_eq Detachment.parse_row, Statement.identity_eq rfl]
  have missing := same Detachment.premises _ _ _ {} rfl goals
  rw [Detachment.not_derivable_row, Detachment.derivable_joined] at missing
  cases missing

end ProofPuzzles
