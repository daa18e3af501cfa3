import ProofPuzzles.Replacement

/-! # The equivalences behind the rules of replacement

Each rule of replacement is a handful of equivalences, and each equivalence may be used from left
to right and from right to left. `Exchange` lists them once, in one direction; the root forms of a
rule turn out to be its exchanges read both ways.
-/

namespace ProofPuzzles

open Formula

/-- The equivalences of each rule, from the left side to the right side. -/
inductive Exchange : ReplacementRule → Formula → Formula → Prop where
  | deMorganConj (a b : Formula) :
    Exchange .deMorgan (neg (conj a b)) (disj (neg a) (neg b))
  | deMorganDisj (a b : Formula) :
    Exchange .deMorgan (neg (disj a b)) (conj (neg a) (neg b))
  | commuteConj (a b : Formula) : Exchange .commutation (conj a b) (conj b a)
  | commuteDisj (a b : Formula) : Exchange .commutation (disj a b) (disj b a)
  | regroupConj (a b c : Formula) :
    Exchange .association (conj a (conj b c)) (conj (conj a b) c)
  | regroupDisj (a b c : Formula) :
    Exchange .association (disj a (disj b c)) (disj (disj a b) c)
  | distributeConj (a b c : Formula) :
    Exchange .distribution (conj a (disj b c)) (disj (conj a b) (conj a c))
  | distributeDisj (a b c : Formula) :
    Exchange .distribution (disj a (conj b c)) (conj (disj a b) (disj a c))
  | doubleNegation (a : Formula) : Exchange .doubleNegation a (neg (neg a))
  | transpose (a b : Formula) : Exchange .transposition (impl a b) (impl (neg b) (neg a))
  | implication (a b : Formula) : Exchange .materialImplication (impl a b) (disj (neg a) b)
  | equivalenceImpl (a b : Formula) :
    Exchange .materialEquivalence (iff a b) (conj (impl a b) (impl b a))
  | equivalenceCases (a b : Formula) :
    Exchange .materialEquivalence (iff a b) (disj (conj a b) (conj (neg a) (neg b)))
  | exportConj (a b c : Formula) :
    Exchange .exportation (impl (conj a b) c) (impl a (impl b c))
  | repeatConj (a : Formula) : Exchange .tautology a (conj a a)
  | repeatDisj (a : Formula) : Exchange .tautology a (disj a a)

/-- One formula is an equivalent form of the other as a whole, in either direction of the rule. -/
def Exchange.Either (rule : ReplacementRule) (f g : Formula) : Prop :=
  Exchange rule f g ∨ Exchange rule g f

namespace Replacement

open Exchange

variable {f g : Formula}

theorem mem_deMorgan : g ∈ deMorgan f ↔ Either .deMorgan f g := by
  constructor
  · intro member
    unfold deMorgan at member
    split at member
    · obtain rfl := List.mem_singleton.mp member
      exact .inl (.deMorganConj _ _)
    · obtain rfl := List.mem_singleton.mp member
      exact .inl (.deMorganDisj _ _)
    · obtain rfl := List.mem_singleton.mp member
      exact .inr (.deMorganConj _ _)
    · obtain rfl := List.mem_singleton.mp member
      exact .inr (.deMorganDisj _ _)
    · cases member
  · rintro (h | h) <;> cases h <;> simp [deMorgan]

theorem mem_commutation : g ∈ commutation f ↔ Either .commutation f g := by
  constructor
  · intro member
    unfold commutation at member
    split at member
    · obtain rfl := List.mem_singleton.mp member
      exact .inl (.commuteConj _ _)
    · obtain rfl := List.mem_singleton.mp member
      exact .inl (.commuteDisj _ _)
    · cases member
  · rintro (h | h) <;> cases h <;> simp [commutation]

theorem mem_association_group {c : Connective} {l r : Formula} :
    g ∈ association.group c l r ↔
      (∃ m n, r = bin c m n ∧ g = bin c (bin c l m) n) ∨
      (∃ k m, l = bin c k m ∧ g = bin c k (bin c m r)) := by
  unfold association.group
  rw [List.mem_append]
  apply or_congr
  · split
    · grind
    · grind
  · split
    · grind
    · grind

theorem mem_association : g ∈ association f ↔ Either .association f g := by
  constructor
  · intro member
    unfold association at member
    split at member
    · rcases mem_association_group.mp member with ⟨m, n, rfl, rfl⟩ | ⟨k, m, rfl, rfl⟩
      · exact .inl (.regroupConj _ _ _)
      · exact .inr (.regroupConj _ _ _)
    · rcases mem_association_group.mp member with ⟨m, n, rfl, rfl⟩ | ⟨k, m, rfl, rfl⟩
      · exact .inl (.regroupDisj _ _ _)
      · exact .inr (.regroupDisj _ _ _)
    · cases member
  · rintro (h | h) <;> cases h <;> simp [association, mem_association_group]

theorem mem_distribution : g ∈ distribution f ↔ Either .distribution f g := by
  constructor
  · intro member
    unfold distribution at member
    rcases List.mem_append.mp member with member | member
    · split at member
      · obtain rfl := List.mem_singleton.mp member
        exact .inl (.distributeConj _ _ _)
      · obtain rfl := List.mem_singleton.mp member
        exact .inl (.distributeDisj _ _ _)
      · cases member
    · split at member
      · obtain ⟨rfl, rfl⟩ : _ ∧ g = _ := by simpa using member
        exact .inr (.distributeConj _ _ _)
      · obtain ⟨rfl, rfl⟩ : _ ∧ g = _ := by simpa using member
        exact .inr (.distributeDisj _ _ _)
      · cases member
  · rintro (h | h) <;> cases h <;> simp [distribution]

theorem mem_doubleNegation : g ∈ doubleNegation f ↔ Either .doubleNegation f g := by
  constructor
  · intro member
    rcases List.mem_cons.mp member with rfl | member
    · exact .inl (.doubleNegation f)
    · split at member
      · obtain rfl := List.mem_singleton.mp member
        exact .inr (.doubleNegation _)
      · cases member
  · rintro (h | h) <;> cases h <;> simp [doubleNegation]

theorem mem_transposition : g ∈ transposition f ↔ Either .transposition f g := by
  constructor
  · intro member
    unfold transposition at member
    split at member
    · rcases List.mem_cons.mp member with rfl | member
      · exact .inl (.transpose _ _)
      · split at member
        · obtain rfl := List.mem_singleton.mp member
          exact .inr (.transpose _ _)
        · cases member
    · cases member
  · rintro (h | h) <;> cases h <;> simp [transposition]

theorem mem_materialImplication :
    g ∈ materialImplication f ↔ Either .materialImplication f g := by
  constructor
  · intro member
    unfold materialImplication at member
    split at member
    · obtain rfl := List.mem_singleton.mp member
      exact .inl (.implication _ _)
    · obtain rfl := List.mem_singleton.mp member
      exact .inr (.implication _ _)
    · cases member
  · rintro (h | h) <;> cases h <;> simp [materialImplication]

theorem mem_materialEquivalence :
    g ∈ materialEquivalence f ↔ Either .materialEquivalence f g := by
  constructor
  · intro member
    unfold materialEquivalence at member
    split at member
    · obtain rfl | rfl : g = _ ∨ g = _ := by simpa using member
      · exact .inl (.equivalenceImpl _ _)
      · exact .inl (.equivalenceCases _ _)
    · obtain ⟨⟨rfl, rfl⟩, rfl⟩ : _ ∧ g = _ := by simpa using member
      exact .inr (.equivalenceImpl _ _)
    · obtain ⟨⟨rfl, rfl⟩, rfl⟩ : _ ∧ g = _ := by simpa using member
      exact .inr (.equivalenceCases _ _)
    · cases member
  · rintro (h | h) <;> cases h <;> simp [materialEquivalence]

theorem mem_exportation : g ∈ exportation f ↔ Either .exportation f g := by
  constructor
  · intro member
    unfold exportation at member
    split at member
    · rcases List.mem_append.mp member with member | member
      · split at member
        · obtain rfl := List.mem_singleton.mp member
          exact .inl (.exportConj _ _ _)
        · cases member
      · split at member
        · obtain rfl := List.mem_singleton.mp member
          exact .inr (.exportConj _ _ _)
        · cases member
    · cases member
  · rintro (h | h) <;> cases h <;> simp [exportation]

theorem mem_tautology : g ∈ tautology f ↔ Either .tautology f g := by
  constructor
  · intro member
    rcases List.mem_cons.mp member with rfl | member
    · exact .inl (.repeatConj f)
    · rcases List.mem_cons.mp member with rfl | member
      · exact .inl (.repeatDisj f)
      · split at member
        · obtain ⟨rfl, rfl⟩ : _ ∧ g = _ := by simpa using member
          exact .inr (.repeatConj _)
        · obtain ⟨rfl, rfl⟩ : _ ∧ g = _ := by simpa using member
          exact .inr (.repeatDisj _)
        · cases member
  · rintro (h | h) <;> cases h <;> simp [tautology]

/-- The root forms of a rule are its exchanges, read in both directions. -/
theorem mem_rootForms {rule : ReplacementRule} : g ∈ rootForms rule f ↔ Either rule f g := by
  cases rule with
  | deMorgan => exact mem_deMorgan
  | commutation => exact mem_commutation
  | association => exact mem_association
  | distribution => exact mem_distribution
  | doubleNegation => exact mem_doubleNegation
  | transposition => exact mem_transposition
  | materialImplication => exact mem_materialImplication
  | materialEquivalence => exact mem_materialEquivalence
  | exportation => exact mem_exportation
  | tautology => exact mem_tautology

end Replacement

end ProofPuzzles
