import Mathlib.Data.List.Perm.Subperm
import ProofPuzzles.Inference
import ProofPuzzles.Proofs.Firsts
import ProofPuzzles.Proofs.Inference.Schema

/-! # The enumerated applications are the instances of the schemas

Each rule is enumerated by a procedure of its own: some look a second premise up, others go over
all pairs of places. All of them find the same thing: the ways of filling the rule's schema with
known statements, no statement being used more often than it is known.
-/

namespace ProofPuzzles

open Formula
open scoped List

/-- What an enumerated application of a rule over known statements is like. -/
structure Application.Instance (rule : InferenceRule) (known : Known) (a : Application) :
    Prop where
  rule_eq : a.rule = rule
  available : a.premises <+~ known.entries
  consumes : Consumes rule (a.premises.map Wff.formula) a.conclusion.formula
  full : a.conclusion = .ofFormula a.conclusion.formula

theorem Application.Instance.mem_entries {rule known a} (h : Application.Instance rule known a)
    {p : Wff} (member : p ∈ a.premises) : p ∈ known.entries := h.available.subset member

section

variable {rule : InferenceRule} {ws : List Wff} {a : Application}

/-- Over the distinct ones of some statements, first spellings are consumed. -/
theorem Application.Instance.mem_firsts (h : Application.Instance rule (.ofDistinct ws) a) {p : Wff}
    (member : p ∈ a.premises) : p ∈ firstsBy Wff.formula ws := by
  rw [← Known.entries_ofDistinct]
  exact h.mem_entries member

/-- Over the distinct ones of some statements, different formulas are consumed. -/
theorem Application.Instance.nodup_formulas (h : Application.Instance rule (.ofDistinct ws) a) :
    (a.premises.map Wff.formula).Nodup := by
  obtain ⟨l, perm, sublist⟩ := h.available
  rw [Known.entries_ofDistinct] at sublist
  exact (perm.map _).nodup_iff.mp ((nodup_map_firstsBy _ _).sublist (sublist.map _))

end

/-! ## Pairs of places -/

theorem pair_subperm_iff {α : Type} {as : List α} {a b : α} :
    [a, b] <+~ as ↔ ∃ i j : Nat, i ≠ j ∧ as[i]? = some a ∧ as[j]? = some b := by
  constructor
  · rintro ⟨l, perm, sub⟩
    obtain ⟨places, rfl, increasing⟩ := List.sublist_eq_map_getElem sub
    obtain ⟨i, j, rfl⟩ := List.length_eq_two.mp (by simpa using perm.length_eq)
    have lt : i < j := by simpa using increasing
    have ne : (i : Nat) ≠ j := by omega
    rcases eq_or_swap_of_perm perm with same | swapped
    · cases same
      exact ⟨i, j, ne, by simp, by simp⟩
    · cases swapped
      exact ⟨j, i, ne.symm, by simp, by simp⟩
  · rintro ⟨i, j, ne, hi, hj⟩
    obtain ⟨insideI, rfl⟩ := List.getElem?_eq_some_iff.mp hi
    obtain ⟨insideJ, rfl⟩ := List.getElem?_eq_some_iff.mp hj
    have ordered : ∀ {k l : Fin as.length}, k < l → [as[k], as[l]] <+ as := by
      intro k l lt
      exact List.map_getElem_sublist (List.pairwise_pair.mpr lt)
    rcases Nat.lt_or_gt_of_ne ne with lt | gt
    · exact (ordered (k := ⟨i, insideI⟩) (l := ⟨j, insideJ⟩) lt).subperm
    · refine (List.Perm.swap _ _ _).subperm.trans ?_
      exact (ordered (k := ⟨j, insideJ⟩) (l := ⟨i, insideI⟩) gt).subperm

theorem first_mem {α : Type} {as : List α} {a b : α} (h : [a, b] <+~ as) : a ∈ as :=
  h.subset List.mem_cons_self

theorem second_mem {α : Type} {as : List α} {a b : α} (h : [a, b] <+~ as) : b ∈ as :=
  h.subset (List.mem_cons_of_mem _ List.mem_cons_self)

theorem mem_forEachPair {α β : Type} {f : α → α → List β} {as : List α} {b : β} :
    b ∈ forEachPair f as ↔ ∃ x y, [x, y] <+~ as ∧ b ∈ f x y := by
  simp only [forEachPair, List.mem_flatMap, Prod.exists, List.mk_mem_zipIdx_iff_getElem?,
    pair_subperm_iff]
  constructor
  · rintro ⟨x, i, hi, y, j, hj, member⟩
    split at member
    · cases member
    · exact ⟨x, y, ⟨i, j, ‹_›, hi, hj⟩, member⟩
  · rintro ⟨x, y, ⟨i, j, ne, hi, hj⟩, member⟩
    exact ⟨x, i, hi, y, j, hj, by rwa [if_neg ne]⟩

namespace Known

theorem first?_spec {known : Known} {f : Formula} {v : Wff} (found : known.first? f = some v) :
    v ∈ known.entries ∧ v.formula = f := by
  rw [first?_eq] at found
  exact ⟨List.mem_of_find?_eq_some found, by simpa using List.find?_some found⟩

theorem exists_first? {known : Known} {v : Wff} (member : v ∈ known.entries) :
    ∃ w, known.first? v.formula = some w := by
  rw [← Option.isSome_iff_exists, first?_eq, List.find?_isSome]
  exact ⟨v, member, by simp⟩

theorem mem_copies {known : Known} {f : Formula} {v : Wff} :
    v ∈ known.copies f ↔ v ∈ known.entries ∧ v.formula = f := by
  simp [copies_eq]

end Known

namespace Inference

variable {known : Known} {a : Application}

theorem bin_ne_left {c : Connective} {l r : Formula} : bin c l r ≠ l := by
  intro circular
  cases circular

/-- Statements of which the formulas differ are available together. -/
theorem pair_available {v w : Wff} (hv : v ∈ known.entries) (hw : w ∈ known.entries)
    (differ : v.formula ≠ w.formula) : [v, w] <+~ known.entries := by
  refine List.cons_subperm_of_not_mem_of_mem ?_ hv (List.singleton_subperm_iff.mpr hw)
  exact fun member => differ (congrArg Wff.formula (List.mem_singleton.mp member))

theorem mem_conditionals {c : Conditional} :
    c ∈ conditionals known ↔
      c.source ∈ known.entries ∧ c.source.formula = impl c.antecedent c.consequent := by
  rw [conditionals, List.mem_filterMap]
  constructor
  · rintro ⟨w, member, found⟩
    split at found
    · cases found
      exact ⟨member, ‹_›⟩
    · cases found
  · rintro ⟨member, reads⟩
    exact ⟨c.source, member, by rw [reads]⟩

theorem sources_available {c d : Conditional} (h : [c, d] <+~ conditionals known) :
    [c.source, d.source] <+~ known.entries := by
  have sources : (conditionals known).map Conditional.source <+ known.entries := by
    rw [conditionals]
    induction known.entries with
    | nil => exact .slnil
    | cons w ws ih =>
        rw [List.filterMap_cons]
        split
        · exact ih.cons w
        · rename_i found
          split at found
          · cases found
            exact ih.cons_cons w
          · cases found
  obtain ⟨l, perm, sub⟩ := h
  exact ⟨l.map Conditional.source, perm.map _, (sub.map _).trans sources⟩

theorem conditionals_available {v w : Wff} {a b c d : Formula} (h : [v, w] <+~ known.entries)
    (hv : v.formula = impl a b) (hw : w.formula = impl c d) :
    [⟨v, a, b⟩, ⟨w, c, d⟩] <+~ conditionals known := by
  obtain ⟨l, perm, sub⟩ := h
  refine ⟨_, (perm.filterMap _).trans ?_, sub.filterMap _⟩
  simp [hv, hw]

/-! ## What is enumerated is an instance -/

theorem modusPonens_instance (h : a ∈ modusPonens known) :
    Application.Instance .modusPonens known a := by
  obtain ⟨c, hc, derived⟩ := List.mem_filterMap.mp h
  obtain ⟨v, found, rfl⟩ := Option.map_eq_some_iff.mp derived
  obtain ⟨inside, reads⟩ := mem_conditionals.mp hc
  obtain ⟨hv, same⟩ := Known.first?_spec found
  refine ⟨rfl, pair_available inside hv (by simp [reads, same, bin_ne_left]), ?_, rfl⟩
  simpa [Consumes, reads, same] using Schema.modusPonens _ _

theorem modusTollens_instance (h : a ∈ modusTollens known) :
    Application.Instance .modusTollens known a := by
  obtain ⟨c, hc, derived⟩ := List.mem_filterMap.mp h
  obtain ⟨v, found, rfl⟩ := Option.map_eq_some_iff.mp derived
  obtain ⟨inside, reads⟩ := mem_conditionals.mp hc
  obtain ⟨hv, same⟩ := Known.first?_spec found
  refine ⟨rfl, pair_available inside hv (by simp [reads, same]), ?_, rfl⟩
  simpa [Consumes, reads, same] using Schema.modusTollens _ _

theorem hypotheticalSyllogism_instance (h : a ∈ hypotheticalSyllogism known) :
    Application.Instance .hypotheticalSyllogism known a := by
  obtain ⟨c, d, places, member⟩ := mem_forEachPair.mp h
  have available := sources_available places
  obtain ⟨-, readsC⟩ := mem_conditionals.mp (first_mem places)
  obtain ⟨-, readsD⟩ := mem_conditionals.mp (second_mem places)
  split at member
  · rename_i meet
    obtain rfl := List.mem_singleton.mp member
    refine ⟨rfl, available, ?_, rfl⟩
    simpa [Consumes, readsC, readsD, meet] using Schema.hypotheticalSyllogism _ _ _
  · cases member

theorem disjunctiveSyllogism_instance (h : a ∈ disjunctiveSyllogism known) :
    Application.Instance .disjunctiveSyllogism known a := by
  obtain ⟨w, hw, member⟩ := List.mem_flatMap.mp h
  split at member
  · rename_i l r reads
    obtain ⟨⟨denied, remaining⟩, side, derived⟩ := List.mem_filterMap.mp member
    obtain ⟨v, found, rfl⟩ := Option.map_eq_some_iff.mp derived
    obtain ⟨hv, same⟩ := Known.first?_spec found
    refine ⟨rfl, pair_available hw hv (by simp [reads, same]), ?_, rfl⟩
    rcases List.mem_pair.mp side with side | side
    · cases side
      simpa [Consumes, reads, same] using Schema.denyLeft _ _
    · cases side
      simpa [Consumes, reads, same] using Schema.denyRight _ _
  · cases member

theorem joinedDilemma_instance (h : a ∈ joinedDilemma known) :
    Application.Instance .constructiveDilemma known a := by
  obtain ⟨w, hw, member⟩ := List.mem_flatMap.mp h
  split at member
  · rename_i reads
    obtain ⟨v, found, rfl⟩ := List.mem_map.mp member
    obtain ⟨hv, same⟩ := Known.mem_copies.mp found
    refine ⟨rfl, pair_available hw hv (by simp [reads, same]), ?_, rfl⟩
    simpa [Consumes, reads, same] using Schema.joinedDilemma _ _ _ _
  · cases member

theorem separateDilemma_instance (h : a ∈ separateDilemma known) :
    Application.Instance .constructiveDilemma known a := by
  obtain ⟨c, d, places, member⟩ := mem_forEachPair.mp h
  obtain ⟨-, readsC⟩ := mem_conditionals.mp (first_mem places)
  obtain ⟨-, readsD⟩ := mem_conditionals.mp (second_mem places)
  obtain ⟨v, found, rfl⟩ := List.mem_map.mp member
  obtain ⟨hv, same⟩ := Known.mem_copies.mp found
  have other : v ∉ [c.source, d.source] := by
    intro member
    rcases List.mem_pair.mp member with rfl | rfl
    · simp [readsC] at same
    · simp [readsD] at same
  refine ⟨rfl, ?_, ?_, rfl⟩
  · refine (List.perm_append_singleton v [c.source, d.source]).subperm.trans ?_
    exact List.cons_subperm_of_not_mem_of_mem other hv (sources_available places)
  · simpa [Consumes, readsC, readsD, same] using Schema.separateDilemma _ _ _ _

theorem absorption_instance (h : a ∈ absorption known) :
    Application.Instance .absorption known a := by
  obtain ⟨c, hc, rfl⟩ := List.mem_map.mp h
  obtain ⟨inside, reads⟩ := mem_conditionals.mp hc
  refine ⟨rfl, List.singleton_subperm_iff.mpr inside, ?_, rfl⟩
  simpa [Consumes, reads] using Schema.absorption _ _

theorem simplification_instance (h : a ∈ simplification known) :
    Application.Instance .simplification known a := by
  obtain ⟨w, hw, member⟩ := List.mem_flatMap.mp h
  have available := List.singleton_subperm_iff.mpr hw
  split at member
  · rename_i reads
    rcases List.mem_pair.mp member with rfl | rfl
    · refine ⟨rfl, available, ?_, rfl⟩
      simpa [Consumes, reads] using Schema.simplifyLeft _ _
    · refine ⟨rfl, available, ?_, rfl⟩
      simpa [Consumes, reads] using Schema.simplifyRight _ _
  · cases member

theorem conjunction_instance (h : a ∈ conjunction known) :
    Application.Instance .conjunction known a := by
  obtain ⟨v, w, places, member⟩ := mem_forEachPair.mp h
  obtain rfl := List.mem_singleton.mp member
  exact ⟨rfl, places, ⟨_, _, rfl, rfl⟩, rfl⟩

theorem addition_instance (h : a ∈ addition known) : Application.Instance .addition known a := by
  obtain ⟨v, w, places, member⟩ := mem_forEachPair.mp h
  rcases List.mem_pair.mp member with rfl | rfl
  · exact ⟨rfl, places, ⟨_, _, rfl, .inl rfl⟩, rfl⟩
  · exact ⟨rfl, places, ⟨_, _, rfl, .inr rfl⟩, rfl⟩

theorem instances_sound {rule : InferenceRule} (h : a ∈ instances rule known) :
    Application.Instance rule known a := by
  cases rule with
  | modusPonens => exact modusPonens_instance h
  | modusTollens => exact modusTollens_instance h
  | hypotheticalSyllogism => exact hypotheticalSyllogism_instance h
  | disjunctiveSyllogism => exact disjunctiveSyllogism_instance h
  | constructiveDilemma =>
      rcases List.mem_append.mp h with joined | separate
      · exact joinedDilemma_instance joined
      · exact separateDilemma_instance separate
  | absorption => exact absorption_instance h
  | simplification => exact simplification_instance h
  | conjunction => exact conjunction_instance h
  | addition => exact addition_instance h

section

variable {rule : InferenceRule} {statements : List Wff}

/-- Of the instances over the distinct ones of some statements, one is left for each conclusion. -/
theorem applications_sound (found : a ∈ applications rule statements) :
    Application.Instance rule (.ofDistinct statements) a :=
  instances_sound ((firstsBy_sublist _ _).subset found)

theorem mem_of_applications (found : a ∈ applications rule statements) {p : Wff}
    (member : p ∈ a.premises) : p ∈ statements :=
  (firstsBy_sublist _ _).subset ((applications_sound found).mem_firsts member)

end

/-! ## Every instance is enumerated -/

/-- One of the applications consumes these formulas, in this order, and derives the last one. -/
def Derives (applications : List Application) (premises : List Formula) (f : Formula) : Prop :=
  ∃ a ∈ applications, a.premises.map Wff.formula = premises ∧ a.conclusion = .ofFormula f

variable {u v w : Wff} {a b c d : Formula}

theorem modusPonens_derives (available : [u, v] <+~ known.entries) (hu : u.formula = impl a b)
    (hv : v.formula = a) : Derives (modusPonens known) [impl a b, a] b := by
  have conditional : ⟨u, a, b⟩ ∈ conditionals known :=
    mem_conditionals.mpr ⟨first_mem available, hu⟩
  obtain ⟨v', found⟩ := Known.exists_first? (second_mem available)
  rw [hv] at found
  refine ⟨_, List.mem_filterMap.mpr ⟨_, conditional, Option.map_eq_some_iff.mpr ⟨v', found, rfl⟩⟩,
    ?_, rfl⟩
  simp [hu, (Known.first?_spec found).2]

theorem modusTollens_derives (available : [u, v] <+~ known.entries) (hu : u.formula = impl a b)
    (hv : v.formula = neg b) : Derives (modusTollens known) [impl a b, neg b] (neg a) := by
  have conditional : ⟨u, a, b⟩ ∈ conditionals known :=
    mem_conditionals.mpr ⟨first_mem available, hu⟩
  obtain ⟨v', found⟩ := Known.exists_first? (second_mem available)
  rw [hv] at found
  refine ⟨_, List.mem_filterMap.mpr ⟨_, conditional, Option.map_eq_some_iff.mpr ⟨v', found, rfl⟩⟩,
    ?_, rfl⟩
  simp [hu, (Known.first?_spec found).2]

theorem hypotheticalSyllogism_derives (available : [u, v] <+~ known.entries)
    (hu : u.formula = impl a b) (hv : v.formula = impl b c) :
    Derives (hypotheticalSyllogism known) [impl a b, impl b c] (impl a c) := by
  have places := conditionals_available available hu hv
  exact ⟨_, mem_forEachPair.mpr ⟨_, _, places, by rw [if_pos rfl]; exact List.mem_cons_self⟩,
    by simp [hu, hv], rfl⟩

theorem disjunctiveSyllogism_derives {denied remaining : Formula}
    (available : [u, v] <+~ known.entries) (hu : u.formula = disj a b)
    (side : (denied, remaining) ∈ [(a, b), (b, a)]) (hv : v.formula = neg denied) :
    Derives (disjunctiveSyllogism known) [disj a b, neg denied] remaining := by
  obtain ⟨v', found⟩ := Known.exists_first? (second_mem available)
  rw [hv] at found
  refine ⟨⟨.disjunctiveSyllogism, [u, v'], _⟩, List.mem_flatMap.mpr ⟨u, first_mem available, ?_⟩,
    by simp [hu, (Known.first?_spec found).2], rfl⟩
  rw [hu]
  exact List.mem_filterMap.mpr ⟨_, side, Option.map_eq_some_iff.mpr ⟨v', found, rfl⟩⟩

theorem joinedDilemma_derives (available : [u, v] <+~ known.entries)
    (hu : u.formula = conj (impl a b) (impl c d)) (hv : v.formula = disj a c) :
    Derives (joinedDilemma known) [conj (impl a b) (impl c d), disj a c] (disj b d) := by
  have copy : v ∈ known.copies (disj a c) :=
    Known.mem_copies.mpr ⟨second_mem available, hv⟩
  refine ⟨⟨.constructiveDilemma, [u, v], _⟩, List.mem_flatMap.mpr ⟨u, first_mem available, ?_⟩,
    by simp [hu, hv], rfl⟩
  rw [hu]
  exact List.mem_map.mpr ⟨v, copy, rfl⟩

theorem separateDilemma_derives (available : [u, v, w] <+~ known.entries)
    (hu : u.formula = impl a b) (hv : v.formula = impl c d) (hw : w.formula = disj a c) :
    Derives (separateDilemma known) [impl a b, impl c d, disj a c] (disj b d) := by
  have both : [u, v] <+~ [u, v, w] := (List.sublist_append_left [u, v] [w]).subperm
  have places := conditionals_available (both.trans available) hu hv
  have copy : w ∈ known.copies (disj a c) :=
    Known.mem_copies.mpr ⟨available.subset (by simp), hw⟩
  exact ⟨_, mem_forEachPair.mpr ⟨_, _, places, List.mem_map.mpr ⟨w, copy, rfl⟩⟩,
    by simp [hu, hv, hw], rfl⟩

theorem absorption_derives (available : u ∈ known.entries) (hu : u.formula = impl a b) :
    Derives (absorption known) [impl a b] (impl a (conj a b)) := by
  have conditional : ⟨u, a, b⟩ ∈ conditionals known := mem_conditionals.mpr ⟨available, hu⟩
  exact ⟨_, List.mem_map.mpr ⟨_, conditional, rfl⟩, by simp [hu], rfl⟩

theorem simplification_derives (available : u ∈ known.entries) (hu : u.formula = conj a b)
    (side : c ∈ [a, b]) : Derives (simplification known) [conj a b] c := by
  refine ⟨⟨.simplification, [u], .ofFormula c⟩, List.mem_flatMap.mpr ⟨u, available, ?_⟩,
    by simp [hu], rfl⟩
  rw [hu]
  rcases List.mem_pair.mp side with rfl | rfl
  · exact List.mem_cons_self
  · exact List.mem_cons_of_mem _ List.mem_cons_self

theorem conjunction_derives (available : [u, v] <+~ known.entries) :
    Derives (conjunction known) [u.formula, v.formula] (conj u.formula v.formula) :=
  ⟨_, mem_forEachPair.mpr ⟨u, v, available, List.mem_cons_self⟩, rfl, rfl⟩

theorem addition_derives (available : [u, v] <+~ known.entries)
    (side : c = disj u.formula v.formula ∨ c = disj v.formula u.formula) :
    Derives (addition known) [u.formula, v.formula] c := by
  refine ⟨⟨.addition, [u, v], .ofFormula c⟩, mem_forEachPair.mpr ⟨u, v, available, ?_⟩, rfl, rfl⟩
  rcases side with rfl | rfl
  · exact List.mem_cons_self
  · exact List.mem_cons_of_mem _ List.mem_cons_self

/-- Whatever fills the schema with known statements is found, although perhaps with another copy
    of a statement that is known twice. -/
theorem instances_complete {rule : InferenceRule} {ws : List Wff} {f : Formula}
    (h : Consumes rule (ws.map Wff.formula) f) (available : ws <+~ known.entries) :
    Derives (instances rule known) (ws.map Wff.formula) f := by
  -- the schema says how many statements there are and what each of them reads as
  generalize reads : ws.map Wff.formula = premises at h
  cases rule with
  | conjunction =>
      obtain ⟨a, b, rfl, rfl⟩ := h
      obtain ⟨u, v, rfl, rfl, rfl⟩ := by simpa [List.map_eq_cons_iff] using reads
      exact conjunction_derives available
  | addition =>
      obtain ⟨a, x, rfl, side⟩ := h
      obtain ⟨u, v, rfl, rfl, rfl⟩ := by simpa [List.map_eq_cons_iff] using reads
      exact addition_derives available side
  | modusPonens =>
      obtain ⟨⟩ : Schema .modusPonens premises f := h
      obtain ⟨u, v, rfl, hu, hv⟩ := by simpa [List.map_eq_cons_iff] using reads
      exact modusPonens_derives available hu hv
  | modusTollens =>
      obtain ⟨⟩ : Schema .modusTollens premises f := h
      obtain ⟨u, v, rfl, hu, hv⟩ := by simpa [List.map_eq_cons_iff] using reads
      exact modusTollens_derives available hu hv
  | hypotheticalSyllogism =>
      obtain ⟨⟩ : Schema .hypotheticalSyllogism premises f := h
      obtain ⟨u, v, rfl, hu, hv⟩ := by simpa [List.map_eq_cons_iff] using reads
      exact hypotheticalSyllogism_derives available hu hv
  | disjunctiveSyllogism =>
      obtain ⟨⟩ | ⟨⟩ : Schema .disjunctiveSyllogism premises f := h
      · obtain ⟨u, v, rfl, hu, hv⟩ := by simpa [List.map_eq_cons_iff] using reads
        exact disjunctiveSyllogism_derives available hu (by simp) hv
      · obtain ⟨u, v, rfl, hu, hv⟩ := by simpa [List.map_eq_cons_iff] using reads
        exact disjunctiveSyllogism_derives available hu (by simp) hv
  | constructiveDilemma =>
      obtain ⟨⟩ | ⟨⟩ : Schema .constructiveDilemma premises f := h
      · obtain ⟨u, v, rfl, hu, hv⟩ := by simpa [List.map_eq_cons_iff] using reads
        obtain ⟨found, member, derives⟩ := joinedDilemma_derives available hu hv
        exact ⟨found, List.mem_append_left _ member, derives⟩
      · obtain ⟨u, v, w, rfl, hu, hv, hw⟩ := by simpa [List.map_eq_cons_iff] using reads
        obtain ⟨found, member, derives⟩ := separateDilemma_derives available hu hv hw
        exact ⟨found, List.mem_append_right _ member, derives⟩
  | absorption =>
      obtain ⟨⟩ : Schema .absorption premises f := h
      obtain ⟨u, rfl, hu⟩ := by simpa [List.map_eq_cons_iff] using reads
      exact absorption_derives (List.singleton_subperm_iff.mp available) hu
  | simplification =>
      obtain ⟨⟩ | ⟨⟩ : Schema .simplification premises f := h
      · obtain ⟨u, rfl, hu⟩ := by simpa [List.map_eq_cons_iff] using reads
        exact simplification_derives (List.singleton_subperm_iff.mp available) hu (by simp)
      · obtain ⟨u, rfl, hu⟩ := by simpa [List.map_eq_cons_iff] using reads
        exact simplification_derives (List.singleton_subperm_iff.mp available) hu (by simp)

end Inference

end ProofPuzzles
