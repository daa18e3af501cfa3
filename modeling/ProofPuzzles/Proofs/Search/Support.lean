import ProofPuzzles.Proofs.Search.Growth

/-! # What a goal rests on

Collecting follows the applications back from the goal to the premises. Every application rests on
what became known earlier, so the place in the derivation bounds how far this goes, and what is
collected is a derivation again: one in which each derived statement but the goal is used later.
-/

namespace ProofPuzzles

/-- The formula is one that the entry was derived from. -/
def Derived.Cites (d : Derived) (f : Formula) : Prop :=
  ∃ a, d.origin? = some a ∧ ∃ p ∈ a.premises, p.formula = f

namespace Derivation

variable {given : List Wff} {derivation : Derivation} {f : Formula}

/-- How many statements became known before the formula. -/
def place (derivation : Derivation) (f : Formula) : Nat := derivation.formulas.idxOf f

/-! ## Looking entries up -/

theorem formulas_ofGiven (given : List Wff) : (ofGiven given).formulas = given.map Wff.formula :=
  List.map_map

theorem Grown.given_subset (grown : Grown given derivation) :
    given.map Wff.formula ⊆ derivation.formulas := by
  induction grown with
  | start =>
      rw [formulas_ofGiven]
      exact List.Subset.refl _
  | derive grown fresh citable ih =>
      rw [formulas_append]
      exact List.subset_append_of_subset_left _ ih

theorem Grown.nodup (grown : Grown given derivation) (distinct : (given.map Wff.formula).Nodup) :
    derivation.formulas.Nodup := by
  induction grown with
  | start => rwa [formulas_ofGiven]
  | derive grown fresh citable ih =>
      rw [formulas_append]
      refine List.nodup_append.mpr ⟨ih, List.pairwise_singleton _ _, fun f member g new same => ?_⟩
      rw [same, List.mem_singleton.mp new] at member
      exact fresh member

theorem entry?_eq_none (unknown : f ∉ derivation.formulas) : derivation.entry? f = none := by
  unfold entry?
  rw [List.find?_eq_none]
  intro d member same
  exact unknown (List.mem_map.mpr ⟨d, member, by simpa using same⟩)

theorem entry?_append {other : Derivation} {d : Derived} (found : derivation.entry? f = some d) :
    entry? (derivation ++ other) f = some d := by
  unfold entry? at found ⊢
  rw [List.find?_append, found]
  rfl

theorem entry?_append_of_unknown {other : Derivation} (unknown : f ∉ derivation.formulas) :
    entry? (derivation ++ other) f = other.entry? f := by
  have missing := entry?_eq_none unknown
  unfold entry? at missing ⊢
  rw [List.find?_append, missing]
  rfl

theorem place_append {other : Derivation} (known : f ∈ derivation.formulas) :
    (derivation ++ other).place f = derivation.place f := by
  rw [place, formulas_append, List.idxOf_append_of_mem known]
  rfl

/-- A known formula is given, or an application derived it from what became known earlier. -/
theorem Grown.entry (grown : Grown given derivation) (known : f ∈ derivation.formulas) :
    (f ∈ given.map Wff.formula ∧ ∃ w, derivation.entry? f = some ⟨w, none⟩) ∨
      f ∉ given.map Wff.formula ∧ ∃ a, derivation.entry? f = some ⟨a.conclusion, some a⟩ ∧
        a.conclusion.formula = f ∧ a.Citable derivation.formulas ∧
        ∀ p ∈ a.premises, derivation.place p.formula < derivation.place f := by
  induction grown with
  | start =>
      rw [formulas_ofGiven] at known
      obtain ⟨w, member, rfl⟩ := List.mem_map.mp known
      refine .inl ⟨known, ?_⟩
      unfold entry?
      rw [ofGiven, List.find?_map]
      cases found : given.find? ((fun d : Derived => decide (d.wff.formula = w.formula)) ∘
          (⟨·, none⟩)) with
      | none => simpa using List.find?_eq_none.mp found w member
      | some v => exact ⟨v, rfl⟩
  | @derive derivation a grown fresh citable ih =>
      have kept : derivation.formulas ⊆ formulas (derivation ++ [⟨a.conclusion, some a⟩]) := by
        rw [formulas_append]
        exact List.subset_append_left _ _
      rw [formulas_append, List.mem_append] at known
      rcases known with old | new
      · rw [place_append old]
        rcases ih old with ⟨member, w, found⟩ | ⟨outside, b, found, same, derived, earlier⟩
        · exact .inl ⟨member, w, entry?_append found⟩
        · refine .inr ⟨outside, b, entry?_append found, same, derived.mono kept, ?_⟩
          intro p member
          rw [place_append (derived.known p member)]
          exact earlier p member
      · have same : f = a.conclusion.formula := List.mem_singleton.mp new
        subst same
        refine .inr ⟨fun member => fresh (grown.given_subset member), a, ?_, rfl,
          citable.mono kept, fun p member => ?_⟩
        · rw [entry?_append_of_unknown fresh]
          exact List.find?_cons_of_pos (decide_eq_true rfl)
        · have at_end : place (derivation ++ [⟨a.conclusion, some a⟩]) a.conclusion.formula =
              derivation.formulas.length := by
            rw [place, formulas_append, List.idxOf_append_of_notMem fresh]
            simp [formulas]
          rw [at_end, place_append (citable.known p member)]
          exact List.idxOf_lt_length_of_mem (citable.known p member)

/-! ## Collecting -/

/-- Each entry is one of the roots or is cited by a later entry. -/
def Tight (roots : List Formula) : List Derived → Prop
  | [] => True
  | d :: later =>
    (d.wff.formula ∈ roots ∨ ∃ e ∈ later, e.Cites d.wff.formula) ∧ Tight roots later

theorem Tight.mono {roots all : List Formula} {entries : List Derived} (tight : Tight roots entries)
    (kept : roots ⊆ all) : Tight all entries := by
  induction entries with
  | nil => exact trivial
  | cons d later ih => exact ⟨tight.1.imp_left fun root => kept root, ih tight.2⟩

theorem Tight.append {roots others all : List Formula} {first second : List Derived}
    (before : Tight roots first) (after : Tight others second)
    (served : ∀ f ∈ roots, f ∈ all ∨ ∃ e ∈ second, e.Cites f) (kept : others ⊆ all) :
    Tight all (first ++ second) := by
  induction first with
  | nil => exact after.mono kept
  | cons d later ih =>
      refine ⟨?_, ih before.2⟩
      rcases before.1 with root | ⟨e, member, cites⟩
      · rcases served _ root with wanted | ⟨e, member, cites⟩
        · exact .inl wanted
        · exact .inr ⟨e, List.mem_append_right _ member, cites⟩
      · exact .inr ⟨e, List.mem_append_left _ member, cites⟩

/-- Nothing is left to cite the last entry. -/
theorem Tight.last {roots : List Formula} {entries : List Derived} {d : Derived}
    (tight : Tight roots (entries ++ [d])) : d.wff.formula ∈ roots := by
  induction entries with
  | nil =>
      rcases tight.1 with root | ⟨e, member, -⟩
      · exact root
      · cases member
  | cons e entries ih => exact ih tight.2

/-- What collecting appends for the roots to what has been collected before. -/
structure Collects (given : List Wff) (derivation : Derivation) (roots : List Formula)
    (done more : List Derived) : Prop where
  grown : Grown given (ofGiven given ++ (done ++ more))
  settled : roots ⊆ formulas (ofGiven given ++ (done ++ more))
  below : ∀ d ∈ more, ∃ f ∈ roots, derivation.place d.wff.formula ≤ derivation.place f
  tight : Tight roots more

namespace Collects

variable {roots others : List Formula} {done more rest : List Derived}

theorem nil (grown : Grown given (ofGiven given ++ done))
    (settled : roots ⊆ formulas (ofGiven given ++ done)) :
    Collects given derivation roots done [] where
  grown := by rwa [List.append_nil]
  settled := by rwa [List.append_nil]
  below := nofun
  tight := trivial

theorem append (first : Collects given derivation roots done more)
    (second : Collects given derivation others (done ++ more) rest) :
    Collects given derivation (roots ++ others) done (more ++ rest) where
  grown := by
    rw [← List.append_assoc done]
    exact second.grown
  settled := by
    rw [← List.append_assoc done]
    refine List.append_subset.mpr ⟨List.Subset.trans first.settled ?_, second.settled⟩
    rw [← List.append_assoc _ _ rest, formulas_append _ rest]
    exact List.subset_append_left _ _
  below d member := by
    rcases List.mem_append.mp member with old | new
    · obtain ⟨f, root, le⟩ := first.below d old
      exact ⟨f, List.mem_append_left _ root, le⟩
    · obtain ⟨f, root, le⟩ := second.below d new
      exact ⟨f, List.mem_append_right _ root, le⟩
  tight := first.tight.append second.tight
    (fun f root => .inl (List.mem_append_left _ root)) (List.subset_append_right _ _)

/-- The entry for a formula goes behind all that its application rests on. -/
theorem derive {a : Application}
    (premises : Collects given derivation (a.premises.map Wff.formula) done more)
    (schema : Schema a.rule (a.premises.map Wff.formula) a.conclusion.formula)
    (earlier : ∀ p ∈ a.premises, derivation.place p.formula < derivation.place a.conclusion.formula)
    (fresh : a.conclusion.formula ∉ formulas (ofGiven given ++ done)) :
    Collects given derivation [a.conclusion.formula] done (more ++ [⟨a.conclusion, some a⟩]) where
  grown := by
    rw [← List.append_assoc done, ← List.append_assoc]
    refine premises.grown.derive ?_
      ⟨schema, fun p member => premises.settled (List.mem_map_of_mem member)⟩
    rw [← List.append_assoc, formulas_append, List.mem_append, not_or]
    refine ⟨fresh, fun again => ?_⟩
    -- what the premises needed became known before the conclusion did
    obtain ⟨d, member, same⟩ := List.mem_map.mp again
    obtain ⟨f, root, le⟩ := premises.below d member
    obtain ⟨p, cited, rfl⟩ := List.mem_map.mp root
    have lt := earlier p cited
    rw [← same] at lt
    omega
  settled := by
    rw [← List.append_assoc done, ← List.append_assoc, formulas_append]
    exact List.subset_append_right _ _
  below d member := by
    refine ⟨_, List.mem_singleton_self _, ?_⟩
    rcases List.mem_append.mp member with old | new
    · obtain ⟨f, root, le⟩ := premises.below d old
      obtain ⟨p, cited, rfl⟩ := List.mem_map.mp root
      exact Nat.le_of_lt (Nat.lt_of_le_of_lt le (earlier p cited))
    · exact Nat.le_of_eq (by rw [List.mem_singleton.mp new])
  tight := by
    have last : Tight [a.conclusion.formula] [⟨a.conclusion, some a⟩] :=
      ⟨.inl (List.mem_singleton_self _), trivial⟩
    refine premises.tight.append last (fun f root => .inr ?_) (List.Subset.refl _)
    obtain ⟨p, cited, same⟩ := List.mem_map.mp root
    exact ⟨_, List.mem_singleton_self _, a, rfl, p, cited, same⟩

end Collects

/-- Collecting for several roots in a row, once each of them can be collected for. -/
theorem foldl_collects {bound : Nat} {done : List Derived} {premises : List Wff}
    (one : ∀ done f, Grown given (ofGiven given ++ done) → f ∈ derivation.formulas →
      derivation.place f < bound → ∃ more, derivation.collect bound done f = done ++ more ∧
        Collects given derivation [f] done more)
    (grown : Grown given (ofGiven given ++ done))
    (known : ∀ p ∈ premises, p.formula ∈ derivation.formulas)
    (deep : ∀ p ∈ premises, derivation.place p.formula < bound) :
    ∃ more, premises.foldl (fun done p => derivation.collect bound done p.formula) done =
      done ++ more ∧ Collects given derivation (premises.map Wff.formula) done more := by
  induction premises generalizing done with
  | nil => exact ⟨[], (List.append_nil done).symm, .nil grown (List.nil_subset _)⟩
  | cons p premises ih =>
      rw [List.forall_mem_cons] at known deep
      obtain ⟨more, found, first⟩ := one done p.formula grown known.1 deep.1
      obtain ⟨rest, others, second⟩ := ih first.grown known.2 deep.2
      refine ⟨more ++ rest, ?_, first.append second⟩
      rw [List.foldl_cons, found, others, List.append_assoc]

/-- Collecting for a known formula, when the bound exceeds its place in the derivation. -/
theorem Grown.collect (grown : Grown given derivation) {bound : Nat} {done : List Derived}
    (collected : Grown given (ofGiven given ++ done)) (known : f ∈ derivation.formulas)
    (deep : derivation.place f < bound) :
    ∃ more, derivation.collect bound done f = done ++ more ∧
      Collects given derivation [f] done more := by
  -- each step goes to premises that became known earlier, so the place bounds the depth
  induction bound generalizing done f with
  | zero => omega
  | succ bound ih =>
      have settled : f ∈ formulas (ofGiven given ++ done) →
          Collects given derivation [f] done [] := fun member =>
        .nil collected (List.cons_subset.mpr ⟨member, List.nil_subset _⟩)
      rw [Derivation.collect]
      split
      · rename_i met
        refine ⟨[], (List.append_nil done).symm, settled ?_⟩
        rw [formulas_append]
        exact List.mem_append_right _ (knows_iff.mp met)
      · rename_i unmet
        rcases grown.entry known with
          ⟨member, w, found⟩ | ⟨outside, a, found, rfl, citable, earlier⟩
        · rw [found]
          exact ⟨[], (List.append_nil done).symm, settled (collected.given_subset member)⟩
        · obtain ⟨more, appended, premises⟩ := foldl_collects (fun done f => ih) collected
            citable.known fun p member => Nat.lt_of_lt_of_le (earlier p member) (by omega)
          refine ⟨more ++ [⟨a.conclusion, some a⟩], ?_, premises.derive citable.schema earlier ?_⟩
          · simp only [found, appended, List.append_assoc]
          · rw [formulas_append, List.mem_append, not_or, formulas_ofGiven]
            exact ⟨outside, fun member => unmet (knows_iff.mpr member)⟩

/-- What is collected for a known goal, when nothing has been collected before. -/
theorem Grown.support (grown : Grown given derivation) (known : f ∈ derivation.formulas) :
    Collects given derivation [f] [] (derivation.support f) := by
  have inside : derivation.place f < derivation.length := by
    have place := List.idxOf_lt_length_of_mem known
    rwa [formulas, List.length_map] at place
  obtain ⟨more, collected, collects⟩ := grown.collect (by rw [List.append_nil]; exact .start)
    known inside
  rw [Derivation.support, collected]
  exact collects

end Derivation

end ProofPuzzles
