import Mathlib.Data.List.Basic
import ProofPuzzles.Firsts
import Std.Data.HashSet.Lemmas

/-! # What first occurrences are

The set of met keys only saves work: the first occurrences are what is left when every element
whose key stands further to the front is erased. They have distinct keys, and no key is lost.
-/

namespace ProofPuzzles

variable {α κ : Type} [BEq κ] [Hashable κ] {key : α → κ}

theorem firstsAfter_sublist (key : α → κ) (met : Std.HashSet κ) (as : List α) :
    (firstsAfter key met as).Sublist as := by
  induction as generalizing met with
  | nil => exact .slnil
  | cons a as ih =>
      rw [firstsAfter]
      split
      · exact (ih met).cons a
      · exact (ih (met.insert (key a))).cons_cons a

theorem firstsBy_sublist (key : α → κ) (as : List α) : (firstsBy key as).Sublist as :=
  firstsAfter_sublist key ∅ as

theorem firstsAfter_map {β : Type} (key : β → κ) (g : α → β) (met : Std.HashSet κ) (as : List α) :
    firstsAfter key met (as.map g) = (firstsAfter (fun a => key (g a)) met as).map g := by
  induction as generalizing met with
  | nil => rfl
  | cons a as ih =>
      rw [List.map_cons, firstsAfter, firstsAfter]
      split
      · exact ih met
      · rw [List.map_cons, ih]

theorem firstsBy_map {β : Type} (key : β → κ) (g : α → β) (as : List α) :
    firstsBy key (as.map g) = (firstsBy (fun a => key (g a)) as).map g :=
  firstsAfter_map key g ∅ as

variable [LawfulBEq κ]

theorem mem_map_firstsAfter {met : Std.HashSet κ} {as : List α} {k : κ} :
    k ∈ (firstsAfter key met as).map key ↔ k ∈ as.map key ∧ k ∉ met := by
  induction as generalizing met with
  | nil => simp [firstsAfter]
  | cons a as ih =>
      by_cases seen : met.contains (key a)
      · have inside : key a ∈ met := seen
        rw [firstsAfter, if_pos seen, ih, List.map_cons, List.mem_cons]
        constructor
        · rintro ⟨member, fresh⟩
          exact ⟨.inr member, fresh⟩
        · rintro ⟨rfl | member, fresh⟩
          · exact absurd inside fresh
          · exact ⟨member, fresh⟩
      · have outside : key a ∉ met := seen
        rw [firstsAfter, if_neg seen, List.map_cons, List.mem_cons, ih, Std.HashSet.mem_insert,
          List.map_cons, List.mem_cons]
        by_cases same : k = key a
        · subst same
          simp [outside]
        · have differs : (key a == k) = false := by simpa using Ne.symm same
          simp [same, differs]

theorem key_fresh_of_mem_firstsAfter {met : Std.HashSet κ} {as : List α} {a : α}
    (member : a ∈ firstsAfter key met as) : key a ∉ met :=
  (mem_map_firstsAfter.mp (List.mem_map_of_mem member)).2

theorem nodup_map_firstsAfter (key : α → κ) (met : Std.HashSet κ) (as : List α) :
    ((firstsAfter key met as).map key).Nodup := by
  induction as generalizing met with
  | nil => exact List.nodup_nil
  | cons a as ih =>
      rw [firstsAfter]
      split
      · exact ih met
      · rw [List.map_cons, List.nodup_cons]
        refine ⟨fun again => ?_, ih _⟩
        exact (mem_map_firstsAfter.mp again).2 Std.HashSet.mem_insert_self

/-- Each one is what a look-up of its key finds. -/
theorem find?_of_mem_firstsAfter {met : Std.HashSet κ} {as : List α} {a : α}
    (member : a ∈ firstsAfter key met as) : as.find? (fun b => key b == key a) = some a := by
  induction as generalizing met with
  | nil => cases member
  | cons b as ih =>
      have skip {others : Std.HashSet κ} (later : a ∈ firstsAfter key others as)
          (differs : key b ≠ key a) : (b :: as).find? (fun c => key c == key a) = some a := by
        rw [List.find?_cons, beq_eq_false_iff_ne.mpr differs]
        exact ih later
      rw [firstsAfter] at member
      split at member
      · rename_i seen
        refine skip member fun same => ?_
        rw [same] at seen
        exact key_fresh_of_mem_firstsAfter member seen
      · rcases List.mem_cons.mp member with rfl | later
        · exact List.find?_cons_of_pos (beq_self_eq_true _)
        · refine skip later fun same => ?_
          rw [same] at later
          exact key_fresh_of_mem_firstsAfter later Std.HashSet.mem_insert_self

/-- Repetitions that are left out beforehand would have been left out anyway. -/
theorem firstsAfter_firstsAfter_append {met before : Std.HashSet κ} (as bs : List α)
    (known : ∀ k ∈ before, k ∈ met) :
    firstsAfter key met (firstsAfter key before as ++ bs) = firstsAfter key met (as ++ bs) := by
  induction as generalizing met before with
  | nil => rfl
  | cons a as ih =>
      by_cases seen : before.contains (key a)
      · have old : met.contains (key a) := known _ seen
        rw [firstsAfter, if_pos seen, List.cons_append, firstsAfter, if_pos old, ih known]
      · rw [firstsAfter, if_neg seen, List.cons_append, List.cons_append, firstsAfter, firstsAfter]
        split
        · rename_i old
          refine ih fun k member => ?_
          rcases Std.HashSet.mem_insert.mp member with same | member
          · rwa [← eq_of_beq same]
          · exact known k member
        · refine congrArg (a :: ·) (ih fun k member => ?_)
          rcases Std.HashSet.mem_insert.mp member with same | member
          · exact Std.HashSet.mem_insert.mpr (.inl same)
          · exact Std.HashSet.mem_insert.mpr (.inr (known k member))

/-- Erasing repetitions in order, with no set of met keys to look up. -/
theorem firstsAfter_eq_eraseDupsBy (key : α → κ) (met : Std.HashSet κ) (as : List α) :
    firstsAfter key met as =
      (as.filter fun a => !met.contains (key a)).eraseDupsBy fun a b => key a == key b := by
  induction as generalizing met with
  | nil => rfl
  | cons a as ih =>
      by_cases seen : met.contains (key a)
      · rw [firstsAfter, if_pos seen, ih, List.filter_cons_of_neg (by simp [seen])]
      · rw [firstsAfter, if_neg seen, ih, List.filter_cons_of_pos (by simp [seen]),
          List.eraseDupsBy_cons, List.filter_filter]
        congr 3
        funext b
        rw [Std.HashSet.contains_insert, Bool.not_or, BEq.comm (a := key a)]
        cases key b == key a <;> simp

/-- Where no key repeats, nothing is left out. -/
theorem firstsAfter_eq_self {met : Std.HashSet κ} {as : List α} (distinct : (as.map key).Nodup)
    (fresh : ∀ a ∈ as, key a ∉ met) : firstsAfter key met as = as := by
  induction as generalizing met with
  | nil => rfl
  | cons a as ih =>
      rw [List.map_cons, List.nodup_cons] at distinct
      rw [List.forall_mem_cons] at fresh
      have unmet : ¬met.contains (key a) = true := fresh.1
      rw [firstsAfter, if_neg unmet]
      refine congrArg (a :: ·) (ih distinct.2 fun b member again => ?_)
      rcases Std.HashSet.mem_insert.mp again with same | old
      · rw [eq_of_beq same] at distinct
        exact distinct.1 (List.mem_map_of_mem member)
      · exact fresh.2 b member old

theorem mem_map_firstsBy {as : List α} {k : κ} :
    k ∈ (firstsBy key as).map key ↔ k ∈ as.map key := by
  simp [firstsBy, mem_map_firstsAfter]

theorem nodup_map_firstsBy (key : α → κ) (as : List α) : ((firstsBy key as).map key).Nodup :=
  nodup_map_firstsAfter key ∅ as

theorem firstsBy_eq_self {as : List α} (distinct : (as.map key).Nodup) : firstsBy key as = as :=
  firstsAfter_eq_self distinct fun _ _ => Std.HashSet.not_mem_empty

theorem firstsBy_eq_eraseDupsBy (key : α → κ) (as : List α) :
    firstsBy key as = as.eraseDupsBy fun a b => key a == key b := by
  simp [firstsBy, firstsAfter_eq_eraseDupsBy]

/-- Erasing by the images and mapping can be done in either order. -/
theorem map_eraseDupsBy {β : Type} (g : α → β) (r : β → β → Bool) (as : List α) :
    (as.eraseDupsBy fun a b => r (g a) (g b)).map g = (as.map g).eraseDupsBy r := by
  induction bound : as.length using Nat.strongRecOn generalizing as with
  | ind n ih =>
      cases as with
      | nil => rfl
      | cons a as =>
          have shorter : (as.filter fun b => r (g b) (g a) = false).length < n := by
            rw [← bound, List.length_cons]
            exact Nat.lt_succ_of_le (List.length_filter_le _ _)
          rw [List.eraseDupsBy_cons, List.map_cons, ih _ shorter _ rfl, List.map_cons,
            List.eraseDupsBy_cons, List.filter_map]
          rfl

theorem firstsAfter_append_firstsBy_append (met : Std.HashSet κ) (as bs cs : List α) :
    firstsAfter key met (as ++ firstsBy key bs ++ cs) = firstsAfter key met (as ++ bs ++ cs) := by
  induction as generalizing met with
  | nil =>
      exact firstsAfter_firstsAfter_append bs cs fun _ none =>
        absurd none Std.HashSet.not_mem_empty
  | cons a as ih =>
      rw [List.cons_append, List.cons_append, firstsAfter, List.cons_append, List.cons_append,
        firstsAfter, ih, ih]

theorem firstsBy_append_firstsBy_append (as bs cs : List α) :
    firstsBy key (as ++ firstsBy key bs ++ cs) = firstsBy key (as ++ bs ++ cs) :=
  firstsAfter_append_firstsBy_append ∅ as bs cs

theorem firstsBy_append_firstsBy (as bs : List α) :
    firstsBy key (as ++ firstsBy key bs) = firstsBy key (as ++ bs) := by
  simpa using firstsBy_append_firstsBy_append as bs []

theorem mem_firstsBy_id {as : List κ} {k : κ} : k ∈ firstsBy id as ↔ k ∈ as := by
  have member : k ∈ (firstsBy id as).map id ↔ k ∈ as.map id := mem_map_firstsBy
  simpa using member

theorem nodup_firstsBy_id (as : List κ) : (firstsBy id as).Nodup := by
  simpa using nodup_map_firstsBy id as

theorem map_firstsBy_id {β : Type} [BEq β] [LawfulBEq β] [Hashable β] {g : κ → β}
    (injective : Function.Injective g) (as : List κ) :
    (firstsBy id as).map g = firstsBy id (as.map g) := by
  have same : (fun a b : κ => id a == id b) = fun a b => g a == g b := by
    funext a b
    simp [injective.eq_iff]
  rw [firstsBy_map, firstsBy_eq_eraseDupsBy, firstsBy_eq_eraseDupsBy, same]
  rfl

end ProofPuzzles
