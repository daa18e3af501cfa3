import Mathlib.Logic.Relation
import ProofPuzzles.Proofs.Commitments
import ProofPuzzles.Proofs.Random.Choice
import ProofPuzzles.Random.Twister
import ProofPuzzles.Statement

/-! # Commitments and their copies

A step that may fail works on a copy of the commitments, and what has become of the copy is adopted
once the step has succeeded. Whatever is asked of the copies in whatever order, none of them loses a
letter or asserts one with both signs: each operation leaves copies that come from the ones before
by taking free letters.
-/

namespace ProofPuzzles

open Formula Relation
open scoped List

namespace Commitments

/-- All letters are free, in a random order if there is a source. -/
def create {σ : Type} [RandomSource σ] (letters : List Letter) : Option σ → Commitments
  | some source => ofLetters (Random.shuffle letters source).1
  | none => ofLetters letters

/-- What can be asked of commitments. -/
inductive Request where
  | assert (s : Statement)
  | assertAll (statements : List Statement)
  | draw
  | isUsed (s : Statement)

/-- What is answered: the literal that is asserted if any, whether all could be asserted, a free
letter if any, whether the letter is used. -/
inductive Answer where
  | literal (l? : Option Literal)
  | all (done : Bool)
  | letter (x? : Option Letter)
  | used (used : Bool)
  deriving DecidableEq

/-- The answer, and what has become of the commitments. Where a statement reads as no formula,
nothing is asserted. -/
def serve (c : Commitments) : Request → Answer × Commitments
  | .assert s =>
    match s.formula?.bind c.assert? with
    | some (l, after) => (.literal (some l), after)
    | none => (.literal none, c)
  | .assertAll statements =>
    let (done, after) := c.assertAll (statements.filterMap Statement.formula?)
    (.all done, after)
  | .draw => (.letter c.fresh?, c)
  | .isUsed s => (.used ((s.formula?.map c.isUsed).getD false), c)

/-- What can be done with copies, which are named by their places. -/
inductive Operation where
  | ask (place : Nat) (request : Request)
  | copy (place : Nat)
  /-- The first copy adopts what the second one holds. -/
  | commit (place other : Nat)

def perform (copies : List Commitments) : Operation → List Commitments
  | .ask place request =>
    match copies[place]? with
    | some c => copies.set place (c.serve request).2
    | none => copies
  | .copy place => copies ++ copies[place]?.toList
  | .commit place other =>
    match copies[other]? with
    | some c => copies.set place c
    | none => copies

def run (operations : List Operation) (copies : List Commitments) : List Commitments :=
  operations.foldl perform copies

/-- The letters are those of the alphabet, and what is asserted are literals of one sign each. -/
structure Guards (c : Commitments) (letters : List Letter) : Prop where
  partition : (c.available ++ c.used.map Literal.letter) ~ letters
  literal : ∀ l ∈ c.used, l.formula.isLiteral = true
  signs : OneSigned c.used

/-- A free letter is asserted. -/
inductive Takes (c : Commitments) : Commitments → Prop where
  | take {l : Literal} (free : l.letter ∈ c.available) :
    Takes c ⟨c.available.erase l.letter, c.used ++ [l]⟩

variable {letters : List Letter} {c c' : Commitments} {l : Literal} {f : Formula} {s : Statement}
  {copies : List Commitments} {place : Nat}

/-! ## Taking letters -/

theorem Takes.perm (takes : c.Takes c') : (c'.available ++ c'.used.map Literal.letter) ~
    (c.available ++ c.used.map Literal.letter) := by
  cases takes with
  | @take l free =>
      rw [List.map_append, ← List.append_assoc]
      calc
        c.available.erase l.letter ++ c.used.map Literal.letter ++ [l.letter]
        _ ~ l.letter :: (c.available.erase l.letter ++ c.used.map Literal.letter) :=
          List.perm_append_singleton _ _
        _ ~ c.available ++ c.used.map Literal.letter :=
          (List.perm_cons_erase free).symm.append_right _

theorem perm_of_takes (taken : ReflTransGen Takes c c') :
    (c'.available ++ c'.used.map Literal.letter) ~
      (c.available ++ c.used.map Literal.letter) := by
  induction taken with
  | refl => exact .refl _
  | tail _ last ih => exact last.perm.trans ih

theorem used_prefix_of_takes (taken : ReflTransGen Takes c c') : c.used <+: c'.used := by
  induction taken with
  | refl => exact List.prefix_rfl
  | tail _ last ih =>
      cases last with
      | take free => exact ih.trans (List.prefix_append _ _)

/-- Where no letter occurs twice, none can be asserted with both signs. -/
theorem guards_of_perm (distinct : letters.Nodup)
    (partition : (c.available ++ c.used.map Literal.letter) ~ letters) : c.Guards letters where
  partition := partition
  literal l _ := by
    obtain ⟨x, positive⟩ := l
    cases positive <;> rfl
  signs l member denied := by
    have once := ((partition.nodup_iff.mpr distinct).of_append_right)
    exact opposite_ne l (List.inj_on_of_nodup_map once denied member rfl)

/-! ## Requests -/

theorem takes_of_assert (asserts : c.assert? f = some (l, c')) : ReflTransGen Takes c c' := by
  obtain ⟨-, ⟨-, rfl⟩ | ⟨-, free, rfl⟩⟩ := assert?_eq_some asserts
  · exact .refl
  · exact .single (.take free)

theorem assertLiterals_takes (literals : List Literal) (c : Commitments) :
    ReflTransGen Takes c (assertLiterals literals c).2 := by
  induction literals generalizing c with
  | nil => exact .refl
  | cons l literals ih =>
      rw [assertLiterals]
      split
      · rename_i k next first
        exact (takes_of_assert first).trans (ih next)
      · exact .refl

theorem used_prefix_of_assertAll {formulas : List Formula} {done : Bool}
    (asserted : c.assertAll formulas = (done, c')) : c.used <+: c'.used := by
  have taken := assertLiterals_takes (formulas.flatMap Formula.literals) c
  rw [← assertAll, asserted] at taken
  exact used_prefix_of_takes taken

theorem serve_takes (c : Commitments) (request : Request) :
    ReflTransGen Takes c (c.serve request).2 := by
  cases request with
  | assert s =>
      rw [serve]
      split
      · rename_i l after asserts
        obtain ⟨f, -, asserts⟩ := Option.bind_eq_some_iff.mp asserts
        exact takes_of_assert asserts
      · exact .refl
  | assertAll statements => exact assertLiterals_takes _ _
  | draw => exact .refl
  | isUsed s => exact .refl

theorem mem_used_of_assert (asserts : c.assert? f = some (l, c')) : l ∈ c'.used := by
  obtain ⟨-, ⟨member, rfl⟩ | ⟨-, -, rfl⟩⟩ := assert?_eq_some asserts
  · exact member
  · exact List.mem_append_right _ (List.mem_singleton_self l)

/-- A literal that is answered has been asserted: it is what the formula comes to. -/
theorem accepted_of_serve (accepts : c.serve (.assert s) = (.literal (some l), c')) :
    l ∈ c'.used ∧ ∃ f, s.formula? = some f ∧ literal? f = some l := by
  rw [serve] at accepts
  split at accepts
  · rename_i k after asserts
    cases accepts
    obtain ⟨f, reads, asserts⟩ := Option.bind_eq_some_iff.mp asserts
    exact ⟨mem_used_of_assert asserts, f, reads, (assert?_eq_some asserts).1⟩
  · cases accepts

/-- Over a letter that is asserted, requests of the same sign are granted, the others refused. -/
theorem assert?_of_used (signs : OneSigned c.used) (member : l ∈ c.used)
    (base : f.base? = some l.letter) : c.assert? f =
      if (f.leadingNegations % 2 == 0) = l.positive then some (l, c) else none := by
  have reads : literal? f = some ⟨l.letter, f.leadingNegations % 2 == 0⟩ := by
    rw [literal?, base]
    rfl
  rw [assert?, reads]
  by_cases agrees : (f.leadingNegations % 2 == 0) = l.positive
  · simp only [agrees, member, if_true]
  · have opposite : (⟨l.letter, f.leadingNegations % 2 == 0⟩ : Literal) = l.opposite := by
      rw [Bool.eq_not.mpr agrees]
      rfl
    simp only [opposite, agrees, signs l member, opposite_opposite, member, if_true, if_false]

theorem serve_of_used (signs : OneSigned c.used) (member : l ∈ c.used)
    (reads : s.formula? = some f) (base : f.base? = some l.letter) : c.serve (.assert s) =
      (.literal (if (f.leadingNegations % 2 == 0) = l.positive then some l else none), c) := by
  rw [serve, reads, Option.bind_some, assert?_of_used signs member base]
  by_cases agrees : (f.leadingNegations % 2 == 0) = l.positive
  · simp only [agrees, if_true]
  · simp only [agrees, if_false]

/-- Over a letter that is free, every request is granted. -/
theorem serve_of_free (coherent : c.Coherent) (reads : s.formula? = some f)
    (base : f.base? = some l.letter) (sign : (f.leadingNegations % 2 == 0) = l.positive)
    (free : l.letter ∈ c.available) : c.serve (.assert s) =
      (.literal (some l), ⟨c.available.erase l.letter, c.used ++ [l]⟩) := by
  have comes : literal? f = some l := by
    rw [literal?, base, Option.map_some, sign]
  have unasserted : l ∉ c.used := fun member => coherent.free l member free
  have undenied : l.opposite ∉ c.used := fun member => coherent.free l.opposite member free
  rw [serve, reads, Option.bind_some, assert?, comes]
  simp only [unasserted, undenied, free, if_true, if_false]

theorem Guards.coherent (guards : c.Guards letters) (distinct : letters.Nodup) : c.Coherent where
  distinct := (guards.partition.nodup_iff.mpr distinct).of_append_left
  free _ member again :=
    List.disjoint_of_nodup_append (guards.partition.nodup_iff.mpr distinct) again
      (List.mem_map_of_mem member)
  signs := guards.signs

theorem subset_used_of_assertAll {statements : List Statement} (coherent : c.Coherent)
    (accepts : c.serve (.assertAll statements) = (.all true, c')) (listed : s ∈ statements)
    (reads : s.formula? = some f) : f.occurrences ⊆ c'.used := by
  have asserts : c.assertAll (statements.filterMap Statement.formula?) = (true, c') := by
    rw [serve, Prod.mk.injEq, Answer.all.injEq] at accepts
    exact Prod.ext accepts.1 accepts.2
  exact (coherent.assertAll asserts).2.2 f (List.mem_filterMap.mpr ⟨s, listed, reads⟩)

/-! ## Operations -/

/-- Every copy comes from one that was there before. -/
theorem mem_perform {operation : Operation} (member : c' ∈ perform copies operation) :
    ∃ c ∈ copies, ReflTransGen Takes c c' := by
  have kept : c' ∈ copies → ∃ c ∈ copies, ReflTransGen Takes c c' := fun old => ⟨c', old, .refl⟩
  cases operation with
  | ask place request =>
      rw [perform] at member
      split at member
      · rename_i c found
        rcases List.mem_or_eq_of_mem_set member with old | rfl
        · exact kept old
        · exact ⟨c, List.mem_of_getElem? found, serve_takes c request⟩
      · exact kept member
  | copy place =>
      rcases List.mem_append.mp member with old | new
      · exact kept old
      · exact kept (List.mem_of_getElem? (Option.mem_toList.mp new))
  | commit place other =>
      rw [perform] at member
      split at member
      · rename_i c found
        rcases List.mem_or_eq_of_mem_set member with old | rfl
        · exact kept old
        · exact kept (List.mem_of_getElem? found)
      · exact kept member

theorem mem_run {operations : List Operation} (member : c' ∈ run operations copies) :
    ∃ c ∈ copies, ReflTransGen Takes c c' := by
  induction operations generalizing copies with
  | nil => exact ⟨c', member, .refl⟩
  | cons operation operations ih =>
      obtain ⟨mid, listed, later⟩ := ih member
      obtain ⟨c, start, first⟩ := mem_perform listed
      exact ⟨c, start, first.trans later⟩

/-- A copy that does not adopt another one only takes letters. -/
theorem getElem?_perform {operation : Operation} (found : copies[place]? = some c)
    (own : ∀ other, operation ≠ .commit place other) :
    ∃ c', (perform copies operation)[place]? = some c' ∧ ReflTransGen Takes c c' := by
  cases operation with
  | ask elsewhere request =>
      by_cases here : elsewhere = place
      · subst here
        refine ⟨_, ?_, serve_takes c request⟩
        rw [perform, found]
        exact List.getElem?_set_self (List.getElem?_eq_some_iff.mp found).1
      · refine ⟨c, ?_, .refl⟩
        rw [perform]
        split
        · rw [List.getElem?_set_ne here, found]
        · exact found
  | copy elsewhere =>
      refine ⟨c, ?_, .refl⟩
      rw [perform, List.getElem?_append_left (List.getElem?_eq_some_iff.mp found).1, found]
  | commit elsewhere other =>
      have away : elsewhere ≠ place := by
        rintro rfl
        exact own other rfl
      refine ⟨c, ?_, .refl⟩
      rw [perform]
      split
      · rw [List.getElem?_set_ne away, found]
      · exact found

theorem getElem?_run {later : List Operation} (found : copies[place]? = some c)
    (own : ∀ other, .commit place other ∉ later) :
    ∃ c', (run later copies)[place]? = some c' ∧ ReflTransGen Takes c c' := by
  induction later generalizing copies c with
  | nil => exact ⟨c, found, .refl⟩
  | cons operation later ih =>
      obtain ⟨mid, there, first⟩ := getElem?_perform found fun other same =>
        own other (same ▸ List.mem_cons_self)
      obtain ⟨c', final, rest⟩ := ih there fun other member =>
        own other (List.mem_cons_of_mem _ member)
      exact ⟨c', final, first.trans rest⟩

theorem create_perm {σ : Type} [RandomSource σ] (letters : List Letter) (source? : Option σ) :
    ((create letters source?).available ++ (create letters source?).used.map Literal.letter) ~
      letters := by
  cases source? with
  | none => exact .of_eq (List.append_nil _)
  | some source => exact (List.Perm.of_eq (List.append_nil _)).trans (Random.shuffle_perm _ _)

/-- However copies are made, asked and adopted, each of them keeps the letters and the signs apart,
and what it grants over a free letter it has asserted from then on. A copy that adopts no other
later only asserts more, and over the letters it has asserted it grants what agrees and refuses what
does not. -/
theorem run_guarded {σ : Type} [RandomSource σ] (distinct : letters.Nodup) (source? : Option σ)
    (operations : List Operation) :
    let copies := run operations [create letters source?]
    (∀ c ∈ copies, c.Guards letters) ∧
    (∀ c ∈ copies, ∀ s l c', c.serve (.assert s) = (.literal (some l), c') →
      l ∈ c'.used ∧ ∃ f, s.formula? = some f ∧ literal? f = some l) ∧
    (∀ c ∈ copies, ∀ statements c', c.serve (.assertAll statements) = (.all true, c') →
      ∀ s ∈ statements, ∀ f, s.formula? = some f → f.occurrences ⊆ c'.used) ∧
    (∀ c ∈ copies, ∀ s f l, s.formula? = some f → f.base? = some l.letter →
      (f.leadingNegations % 2 == 0) = l.positive → l.letter ∈ c.available →
        c.serve (.assert s) =
          (.literal (some l), ⟨c.available.erase l.letter, c.used ++ [l]⟩)) ∧
    ∀ place c, copies[place]? = some c → ∀ later, (∀ other, .commit place other ∉ later) →
      ∃ c', (run later copies)[place]? = some c' ∧ c.used <+: c'.used ∧
        ∀ l ∈ c.used, ∀ s f, s.formula? = some f → f.base? = some l.letter →
          c'.serve (.assert s) =
            (.literal (if (f.leadingNegations % 2 == 0) = l.positive then some l else none), c') := by
  intro copies
  have reached : ∀ later, ∀ c ∈ run later copies, c.Guards letters := by
    intro later c member
    have joined : run (operations ++ later) [create letters source?] = run later copies :=
      List.foldl_append
    obtain ⟨start, initial, taken⟩ := mem_run (joined ▸ member)
    rw [List.mem_singleton.mp initial] at taken
    exact guards_of_perm distinct ((perm_of_takes taken).trans (create_perm letters source?))
  refine ⟨reached [], fun c _ s l c' => accepted_of_serve, ?_, ?_, ?_⟩
  · intro c member statements c' accepts s listed f reads
    exact subset_used_of_assertAll ((reached [] c member).coherent distinct) accepts listed reads
  · intro c member s f l reads base sign free
    exact serve_of_free ((reached [] c member).coherent distinct) reads base sign free
  · intro place c found later own
    obtain ⟨c', there, taken⟩ := getElem?_run found own
    have initial := used_prefix_of_takes taken
    have signs := (reached later c' (List.mem_of_getElem? there)).signs
    refine ⟨c', there, initial, ?_⟩
    intro l member s f reads base
    exact serve_of_used signs (initial.subset member) reads base

/-- What a copy has asserted is adopted. From then on the letter keeps its sign. -/
theorem run_guarded_adoption :
    let p : Letter := ⟨15⟩
    let q : Letter := ⟨16⟩
    let denial : Statement := .ofFormula (neg (.letter p))
    let operations : List Operation := [.copy 0, .ask 1 (.assert denial), .commit 0 1]
    let copies := run operations [create [p, q] (none : Option Twister)]
    let later : List Operation := [.ask 0 (.assert (.ofFormula (.letter q))), .commit 1 0]
    copies = [⟨[q], [⟨p, false⟩]⟩, ⟨[q], [⟨p, false⟩]⟩] ∧ (∀ c ∈ copies, c.Guards [p, q]) ∧
      ∃ c', (run later copies)[0]? = some c' ∧ [⟨p, false⟩] <+: c'.used ∧
        c'.serve (.assert (.ofFormula (neg (neg (.letter p))))) = (.literal none, c') ∧
        c'.serve (.assert (.ofFormula (neg (neg (neg (.letter p)))))) =
          (.literal (some ⟨p, false⟩), c') := by
  intro p q denial operations copies later
  have reached : copies = [⟨[q], [⟨p, false⟩]⟩, ⟨[q], [⟨p, false⟩]⟩] := by decide
  have distinct : [p, q].Nodup := by decide
  obtain ⟨guards, -, -, -, kept⟩ := run_guarded distinct (none : Option Twister) operations
  have first : copies[0]? = some ⟨[q], [⟨p, false⟩]⟩ := by rw [reached]; rfl
  obtain ⟨c', there, initial, granted⟩ := kept 0 _ first later (by simp [later])
  have answers := granted ⟨p, false⟩ (List.mem_singleton_self _)
  have refused := answers (.ofFormula _) (neg (neg (.letter p))) rfl rfl
  have agrees := answers (.ofFormula _) (neg (neg (neg (.letter p)))) rfl rfl
  rw [if_neg (by decide)] at refused
  rw [if_pos (by decide)] at agrees
  exact ⟨reached, guards, c', there, initial, refused, agrees⟩

end Commitments

end ProofPuzzles
