import ProofPuzzles.Proofs.Search.Rounds

/-! # What a search certainly finds

The search is complete for a calculus of its own: the closed rules over different formulas, and
Conjunction and Addition inside the premises and the goal. What has a derivation of some height is
found within as many rounds. The derivation must not contain anything longer than the search admits,
and for that a premise counts as it is written first: a longer spelling of it, further down the
list, does not help.
-/

namespace ProofPuzzles

open Formula

namespace Search

variable {goal f : Formula} {given known cited : List Formula} {derivation : Derivation} {cap : Int}
  {n : Nat}

/-- One step of the calculus: from the cited formulas it derives the last one. -/
inductive Step (goal : Formula) (given : List Formula) : List Formula → Formula → Prop where
  | closed {rule : InferenceRule} {cited : List Formula} {f : Formula}
    (closed : rule ∈ closedRules) (schema : Schema rule cited f) (different : cited.Nodup) :
    Step goal given cited f
  | conjunction {a b : Formula} (inside : Inside goal given (conj a b)) (differ : a ≠ b) :
    Step goal given [a, b] (conj a b)
  | additionRight {a b : Formula} (inside : Inside goal given (disj a b)) :
    Step goal given [a] (disj a b)
  | additionLeft {a b : Formula} (inside : Inside goal given (disj a b)) :
    Step goal given [b] (disj a b)

/-- The formula has a derivation from the given ones, of at most this height and with nothing in it
that is derived and longer than the cap. -/
inductive Tree (goal : Formula) (given : List Formula) (cap : Int) : Nat → Formula → Prop where
  | given {n : Nat} {f : Formula} (member : f ∈ given) : Tree goal given cap n f
  | step {n : Nat} {cited : List Formula} {f : Formula} (step : Step goal given cited f)
    (before : ∀ e ∈ cited, Tree goal given cap n e) (short : (f.tiles.length : Int) ≤ cap) :
    Tree goal given cap (n + 1) f

theorem Inside.mono (inside : Inside goal given f) (granted : given ⊆ known) :
    Inside goal known f := by
  obtain ⟨g, listed, part⟩ := inside
  exact ⟨g, List.cons_subset_cons goal granted listed, part⟩

/-- Once all that a step cites is known, the round offers what it derives. -/
theorem Step.offers (step : Step goal given cited f) (granted : given ⊆ known)
    (stated : cited ⊆ known) : Offers goal known f := by
  cases step with
  | closed closed schema different => exact .closed closed schema different stated
  | conjunction inside differ =>
      simp only [List.cons_subset, List.nil_subset, and_true] at stated
      exact .conjunction (inside.mono granted) differ stated.1 stated.2
  | additionRight inside =>
      exact .addition (inside.mono granted) (.inl (stated List.mem_cons_self))
  | additionLeft inside =>
      exact .addition (inside.mono granted) (.inr (stated List.mem_cons_self))

/-- Unless the goal is known before, after as many rounds as the height of a tree its formula is
known. -/
theorem Tree.mem_pool (distinct : derivation.formulas.Nodup)
    (granted : given ⊆ derivation.formulas) (tree : Tree goal given cap n f) :
    goal ∈ (pool goal cap n derivation).formulas ∨
      f ∈ (pool goal cap n derivation).formulas := by
  induction tree with
  | given member => exact .inr (pool_subset (Nat.zero_le _) (granted member))
  | @step n cited f step _ short ih =>
      by_cases unknown : goal ∈ (pool goal cap n derivation).formulas
      · exact .inl (pool_subset (Nat.le_succ n) unknown)
      · have stated : cited ⊆ (pool goal cap n derivation).formulas := by
          intro e member
          exact (ih e member).resolve_left unknown
        have kept : given ⊆ (pool goal cap n derivation).formulas :=
          List.Subset.trans granted (pool_subset (Nat.zero_le n))
        rw [pool_succ]
        exact .inr ((step.offers kept stated).mem_next (nodup_pool distinct) unknown short)

end Search

/-- The greatest of the given length and the lengths of the goal and of the premises. -/
def capOver (maxTiles : Int) (goal : Statement) (premises : List Wff) : Int :=
  premises.foldl (fun cap w => max cap w.length) (max maxTiles goal.length)

section

variable {premises : List Statement} {goal : Statement} {f : Formula} {limits : SearchLimits}
  {n : Nat}

theorem capOver_givenWffs (reads : goal.formula? = some f) (premises : List Statement)
    (maxTiles : Int) : capOver maxTiles goal (givenWffs premises) =
      Search.admittedLength maxTiles ⟨goal, f, reads⟩ (.ofPremises premises) := by
  rw [Search.admittedLength, Derivation.ofPremises, List.foldl_map]
  rfl

theorem given_subset_ofPremises (premises : List Statement) :
    premises.filterMap Statement.formula? ⊆ (Derivation.ofPremises premises).formulas := by
  intro f member
  rw [formulas_ofPremises, givenWffs, mem_map_firstsBy, map_formula_wellFormed]
  exact member

/-- What the calculus derives from the premises in a tree of some height, a search with as many
rounds finds, if it may know whatever it comes to know. -/
theorem search_complete (reads : goal.formula? = some f)
    (tree : Search.Tree f (premises.filterMap Statement.formula?)
      (capOver limits.maxTiles goal (givenWffs premises)) n f)
    (enough : (n : Int) ≤ limits.maxRounds)
    (bounded : ∀ m : Nat, (m : Int) ≤ limits.maxRounds →
      ((searchPool premises goal limits.maxTiles m).length : Int) ≤ limits.maxFormulas) :
    ∃ derivation, search premises goal limits = some derivation ∧ f ∈ derivation.formulas := by
  have wff : goal.wff? = some ⟨goal, f, reads⟩ := Statement.wff?_eq_some.mpr rfl
  rw [capOver_givenWffs reads] at tree
  have known := tree.mem_pool (nodup_ofPremises premises) (given_subset_ofPremises premises)
  rw [or_self] at known
  have found : f ∈ (searchPool premises goal limits.maxTiles n).formulas := by
    rw [searchPool_eq wff]
    exact known
  have succeeds : (search premises goal limits).isSome :=
    search_isSome reads found enough fun m lt _ => bounded (m + 1) (by omega)
  obtain ⟨derivation, searched⟩ := Option.isSome_iff_exists.mp succeeds
  obtain ⟨g, same, -, learned⟩ := search_spec searched
  cases reads.symm.trans same
  exact ⟨derivation, searched, learned⟩

theorem le_capOver (reads : goal.formula? = some f) (premises : List Statement)
    (maxTiles : Int) : maxTiles ≤ capOver maxTiles goal (givenWffs premises) := by
  rw [capOver_givenWffs reads]
  exact Search.le_admittedLength _ _ _

end

/-- Detaching a letter and joining it to the one it came from takes two rounds. -/
theorem search_complete_chain :
    let premises : List Statement :=
      [.ofFormula Detachment.conditional, .ofFormula Detachment.p]
    let aim := conj Detachment.q Detachment.p
    let goal := Statement.ofFormula aim
    let limits : SearchLimits := ⟨2, (searchPool premises goal 31 2).length, 31⟩
    Search.Tree aim (premises.filterMap Statement.formula?)
        (capOver limits.maxTiles goal (givenWffs premises)) 2 aim ∧
      ∃ derivation, search premises goal limits = some derivation ∧ aim ∈ derivation.formulas := by
  intro premises aim goal limits
  have wide : 31 ≤ capOver limits.maxTiles goal (givenWffs premises) := le_capOver rfl premises 31
  have detached : Search.Tree aim (premises.filterMap Statement.formula?)
      (capOver limits.maxTiles goal (givenWffs premises)) 1 Detachment.q := by
    refine .step (.closed (by decide) (.modusPonens Detachment.p Detachment.q) (by decide)) ?_
      (Int.le_trans (by decide) wide)
    intro e member
    exact .given member
  have tree : Search.Tree aim (premises.filterMap Statement.formula?)
      (capOver limits.maxTiles goal (givenWffs premises)) 2 aim := by
    have inside : Search.Inside aim (premises.filterMap Statement.formula?) aim :=
      ⟨aim, List.mem_cons_self, aim.self_mem_subformulas⟩
    refine .step (.conjunction inside (by decide)) ?_ (Int.le_trans (by decide) wide)
    intro e member
    rcases List.mem_pair.mp member with rfl | rfl
    · exact detached
    · exact .given (by decide)
  refine ⟨tree, search_complete rfl tree (Int.le_refl 2) ?_⟩
  intro m fewer
  have within : m ≤ 2 := Int.ofNat_le.mp fewer
  exact Int.ofNat_le.mpr (length_searchPool_mono premises goal 31 within)

/-! ## A longer spelling further down the list -/

theorem Formula.five_le_tiles_bin (c : Connective) (l r : Formula) :
    5 ≤ (bin c l r).tiles.length := by
  have left := l.tiles_length_pos
  have right := r.tiles_length_pos
  simp only [tiles_bin, List.length_cons, List.length_append, List.length_nil]
  omega

/-- A closed rule takes a compound formula. -/
theorem Schema.exists_bin {rule : InferenceRule} {cited : List Formula} {f : Formula}
    (schema : Schema rule cited f) (closed : rule ∈ Search.closedRules) :
    ∃ c l r, bin c l r ∈ cited := by
  cases schema with
  | conjunction a b => exact absurd closed (by decide)
  | conjunctionSwapped a b => exact absurd closed (by decide)
  | addRight a x => exact absurd closed (by decide)
  | addLeft a x => exact absurd closed (by decide)
  | _ => exact ⟨_, _, _, List.mem_cons_self⟩

namespace Search

/-- From letters alone, nothing short can be derived. -/
theorem pool_subset_of_letters (letters : ∀ f ∈ derivation.formulas, ∃ x, f = .letter x)
    (narrow : cap < 5) : (pool goal cap n derivation).formulas ⊆ derivation.formulas := by
  intro f learned
  refine forall_mem_pool (fun f member => member) ?_ f learned
  intro known old g offers short
  have long : ∀ {c l r}, g ≠ bin c l r := by
    rintro c l r rfl
    have := five_le_tiles_bin c l r
    omega
  cases offers with
  | closed closed schema different stated =>
      obtain ⟨c, l, r, member⟩ := schema.exists_bin closed
      obtain ⟨x, same⟩ := letters _ (old _ (stated member))
      cases same
  | conjunction => exact absurd rfl long
  | addition => exact absurd rfl long
  | antecedents => exact absurd rfl long

end Search

namespace Detachment

def repeated : List Statement :=
  [.ofFormula q, .ofTiles [.opening, .opening, .letter letterQ, .closing, .closing]]

def widened : Statement := .ofTiles [.letter letterQ, .connective .or, .letter letterP]

theorem reads_widened : widened.formula? = some (disj q p) := by decide +kernel

theorem givenWffs_repeated : givenWffs repeated = [.ofFormula q] := by
  rw [givenWffs, firstsBy_eq_eraseDupsBy]
  decide +kernel

theorem searchPool_repeated (n : Nat) : (searchPool repeated widened 1 n).formulas ⊆ [q] := by
  have known : (Derivation.ofPremises repeated).formulas = [q] := by
    rw [formulas_ofPremises, givenWffs_repeated]
    rfl
  have wff : widened.wff? = some ⟨widened, disj q p, reads_widened⟩ :=
    Statement.wff?_eq_some.mpr rfl
  have narrow : Search.admittedLength 1 ⟨widened, disj q p, reads_widened⟩
      (.ofPremises repeated) < 5 := by
    rw [← capOver_givenWffs reads_widened, givenWffs_repeated]
    decide
  rw [searchPool_eq wff, ← known]
  refine Search.pool_subset_of_letters ?_ narrow
  intro f member
  rw [known, List.mem_singleton] at member
  exact ⟨letterQ, member⟩

end Detachment

/-- A longer spelling further down the list of premises does not help the search. -/
theorem not_search_complete : ¬∀ (premises : List Statement) (goal : Statement) (f : Formula)
    (limits : SearchLimits) (n : Nat), goal.formula? = some f →
      Search.Tree f (premises.filterMap Statement.formula?)
        (capOver limits.maxTiles goal (wellFormed premises)) n f →
      (n : Int) ≤ limits.maxRounds →
      (∀ m : Nat, (m : Int) ≤ limits.maxRounds →
        ((searchPool premises goal limits.maxTiles m).length : Int) ≤ limits.maxFormulas) →
      ∃ derivation, search premises goal limits = some derivation ∧ f ∈ derivation.formulas := by
  intro complete
  let limits : SearchLimits := { maxTiles := 1 }
  have inside : Search.Inside (disj Detachment.q Detachment.p)
      (Detachment.repeated.filterMap Statement.formula?) (disj Detachment.q Detachment.p) :=
    ⟨_, List.mem_cons_self, self_mem_subformulas _⟩
  have tree : Search.Tree (disj Detachment.q Detachment.p)
      (Detachment.repeated.filterMap Statement.formula?)
      (capOver limits.maxTiles Detachment.widened (wellFormed Detachment.repeated)) 1
      (disj Detachment.q Detachment.p) := by
    refine .step (.additionRight inside) ?_ (by decide +kernel)
    intro e member
    obtain rfl := List.mem_singleton.mp member
    exact .given (by decide)
  have bounded : ∀ m : Nat, (m : Int) ≤ limits.maxRounds →
      ((searchPool Detachment.repeated Detachment.widened limits.maxTiles m).length : Int) ≤
        limits.maxFormulas := by
    intro m _
    have few := length_searchPool_le_of_subset (Detachment.searchPool_repeated m)
    exact Int.le_trans (Int.ofNat_le.mpr few) (by decide)
  obtain ⟨derivation, found, learned⟩ := complete Detachment.repeated Detachment.widened _ limits 1
    Detachment.reads_widened tree (by decide) bounded
  obtain ⟨m, -, rfl⟩ := exists_searchPool found
  have known := Detachment.searchPool_repeated m learned
  cases List.mem_singleton.mp known

end ProofPuzzles
