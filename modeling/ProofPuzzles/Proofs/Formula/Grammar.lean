import Mathlib.Data.List.Basic
import ProofPuzzles.Formula.Parser

/-! # The grammar of formulas

What rows of tiles are formulas, and which ones, said without a reader. Reading follows the grammar
one category at a time: what a reader takes is derived, and where a row cannot go on in the same
category, all of a derived row is taken.
-/

namespace ProofPuzzles

open Formula

/-- The kinds of rows that the grammar tells apart: those joined by a connective, negations, and
what stands for itself. -/
inductive Category where
  | joined (c : Connective)
  | unary
  | primary

/-- What the connective joins: rows of the next tighter connective, or negations. -/
def Connective.operand : Connective → Category
  | .iff => .joined .implies
  | .implies => .joined .or
  | .or => .joined .and
  | .and => .unary

/-- A connective and the row that follows it, with what that row reads as. -/
abbrev Operand := List Tile × Formula

/-- The tiles of the operands, each with the connective in front. -/
def Connective.tail (c : Connective) (others : List Operand) : List Tile :=
  others.flatMap fun o => .connective c :: o.1

/-- The operands joined to a formula from the left to the right. -/
def Connective.joinLeft (c : Connective) (f : Formula) (others : List Operand) : Formula :=
  others.foldl (fun f o => .bin c f o.2) f

/-- The rows of a category and the formulas that they read as:

* `iff := implies (↔ implies)*`, `or := and (∨ and)*` and `and := unary (∧ unary)*`, grouped to
  the left;
* `implies := or (→ implies)?`;
* `unary := ¬ unary | primary` and `primary := letter | ( iff )`. -/
inductive Grammar : Category → List Tile → Formula → Prop where
  | row {c : Connective} {ts : List Tile} {f : Formula} {others : List Operand}
    (left : c ≠ .implies) (first : Grammar c.operand ts f)
    (rest : ∀ o ∈ others, Grammar c.operand o.1 o.2) :
    Grammar (.joined c) (ts ++ c.tail others) (c.joinLeft f others)
  | single {ts : List Tile} {f : Formula} (only : Grammar (.joined .or) ts f) :
    Grammar (.joined .implies) ts f
  | conditional {ts us : List Tile} {f g : Formula} (first : Grammar (.joined .or) ts f)
    (rest : Grammar (.joined .implies) us g) :
    Grammar (.joined .implies) (ts ++ .connective .implies :: us) (impl f g)
  | negation {ts : List Tile} {f : Formula} (negated : Grammar .unary ts f) :
    Grammar .unary (.negation :: ts) (neg f)
  | bare {ts : List Tile} {f : Formula} (own : Grammar .primary ts f) : Grammar .unary ts f
  | letter (x : Letter) : Grammar .primary [.letter x] (.letter x)
  | parenthesized {ts : List Tile} {f : Formula} (nested : Grammar (.joined .iff) ts f) :
    Grammar .primary (.opening :: (ts ++ [.closing])) f

/-! ## What is read is derived -/

/-- Whatever the reader takes from the front of a row is derived in the category. -/
def Formula.Reader.Follows (r : Reader) (k : Category) : Prop :=
  ∀ ts f rest, r ts = some (f, rest) → ∃ us, ts = us ++ rest ∧ Grammar k us f

namespace Formula

variable {c : Connective} {operand nested : Reader} {k : Category}

theorem readNegation_follows (inner : nested.Follows (.joined .iff)) :
    (readNegation nested).Follows .unary := by
  intro ts
  fun_induction readNegation nested ts with
  | case1 ts f rest read ih =>
      rintro _ _ ⟨⟩
      obtain ⟨us, rfl, derived⟩ := ih _ _ read
      exact ⟨_, rfl, .negation derived⟩
  | case2 ts unread ih => nofun
  | case3 x ts =>
      rintro _ _ ⟨⟩
      exact ⟨[.letter x], rfl, .bare (.letter x)⟩
  | case4 ts f rest read =>
      rintro _ _ ⟨⟩
      obtain ⟨us, rfl, derived⟩ := inner _ _ _ read
      exact ⟨.opening :: (us ++ [.closing]), by simp, .bare (.parenthesized derived)⟩
  | case5 ts unread => nofun
  | case6 ts other => nofun

/-- Going on with a row reads operands one after the other. -/
theorem extendLeft_follows (inner : operand.Follows k) {n : Nat} {f g : Formula}
    {ts rest : List Tile} (h : extendLeft c operand n f ts = some (g, rest)) :
    ∃ others, (∀ o ∈ others, Grammar k o.1 o.2) ∧ ts = c.tail others ++ rest ∧
      g = c.joinLeft f others := by
  fun_induction extendLeft c operand n f ts with
  | case1 n f ts e left read ih =>
      obtain ⟨others, derived, split, rfl⟩ := ih h
      obtain ⟨us, rfl, first⟩ := inner _ _ _ read
      refine ⟨(us, e) :: others, List.forall_mem_cons.mpr ⟨first, derived⟩, ?_, rfl⟩
      simp [split, Connective.tail]
  | case2 n f ts unread => cases h
  | case3 n f d ts other =>
      cases h
      exact ⟨[], nofun, rfl, rfl⟩
  | case4 n f ts other =>
      cases h
      exact ⟨[], nofun, rfl, rfl⟩

theorem readLeft_follows (left : c ≠ .implies) (inner : operand.Follows c.operand) (n : Nat) :
    Reader.Follows (readLeft c operand n) (.joined c) := by
  intro ts f rest h
  unfold readLeft at h
  split at h
  · rename_i first left' read
    obtain ⟨us, rfl, derived⟩ := inner _ _ _ read
    obtain ⟨others, operands, rfl, rfl⟩ := extendLeft_follows inner h
    exact ⟨us ++ c.tail others, by simp, .row left derived operands⟩
  · cases h

theorem readRight_follows (inner : operand.Follows (.joined .or)) (n : Nat) :
    Reader.Follows (readRight .implies operand n) (.joined .implies) := by
  intro ts
  fun_induction readRight .implies operand n ts with
  | case1 ts => nofun
  | case2 n ts f rest g left reads read ih =>
      rintro _ _ ⟨⟩
      obtain ⟨us, rfl, first⟩ := inner _ _ _ read
      obtain ⟨vs, rfl, others⟩ := ih _ _ reads
      exact ⟨us ++ .connective .implies :: vs, by simp, .conditional first others⟩
  | case3 n ts f rest read unread ih => nofun
  | case4 n ts f d rest read other =>
      rintro _ _ ⟨⟩
      obtain ⟨us, rfl, first⟩ := inner _ _ _ read
      exact ⟨us, rfl, .single first⟩
  | case5 n ts other =>
      intro f rest read
      obtain ⟨us, rfl, first⟩ := inner _ _ _ read
      exact ⟨us, rfl, .single first⟩

theorem readIff_follows (n : Nat) : (readIff n).Follows (.joined .iff) := by
  induction n with
  | zero => nofun
  | succ n ih =>
      have conjunction := readLeft_follows (c := .and) (by decide) (readNegation_follows ih) (n + 1)
      have disjunction := readLeft_follows (c := .or) (by decide) conjunction (n + 1)
      have conditional := readRight_follows disjunction (n + 1)
      exact readLeft_follows (by decide) conditional (n + 1)

end Formula

/-! ## What is derived is read -/

namespace Category

/-- The connectives that a row of the category goes on with. -/
def connectives : Category → List Connective
  | .joined .iff => [.and, .or, .implies, .iff]
  | .joined .implies => [.and, .or, .implies]
  | .joined .or => [.and, .or]
  | .joined .and => [.and]
  | .unary => []
  | .primary => []

/-- A row of the category ends where these tiles follow. -/
def Stops (k : Category) (rest : List Tile) : Prop := ∀ c ∈ k.connectives, NotNext c rest

variable {k : Category} {c : Connective} {rest : List Tile}

theorem Stops.operand (stops : (joined c).Stops rest) : c.operand.Stops rest := by
  intro d member
  refine stops d ?_
  cases c <;> revert member <;> cases d <;> decide

theorem Stops.notNext (stops : (joined c).Stops rest) : NotNext c rest := by
  refine stops c ?_
  cases c <;> decide

/-- Operands end where their connective follows. -/
theorem operand_stops (c : Connective) (ts : List Tile) :
    c.operand.Stops (.connective c :: ts) := by
  intro d member same
  subst same
  revert member
  cases c <;> decide

theorem stops_closing (k : Category) (ts : List Tile) : k.Stops (.closing :: ts) :=
  fun _ _ => trivial

theorem stops_nil (k : Category) : k.Stops [] := fun _ _ => trivial

/-- The reader of the category. Parentheses are nested less deeply than the first bound, and a row
of conditionals goes on no more often than the second one. -/
def reader (n m : Nat) : Category → Reader
  | .joined .iff => readIff (n + 1)
  | .joined .implies =>
    readRight .implies (readLeft .or (readLeft .and (readNegation (readIff n)) (n + 1)) (n + 1))
      (m + 1)
  | .joined .or => readLeft .or (readLeft .and (readNegation (readIff n)) (n + 1)) (n + 1)
  | .joined .and => readLeft .and (readNegation (readIff n)) (n + 1)
  | .unary => readNegation (readIff n)
  | .primary => readNegation (readIff n)

theorem reader_joined (left : c ≠ .implies) (n m : Nat) :
    reader n m (joined c) = readLeft c (reader n n c.operand) (n + 1) := by
  cases c with
  | implies => exact absurd rfl left
  | and | or | iff => rfl

end Category

/-- The row is read as the formula, whatever follows at which it stops. -/
def Reads (k : Category) (ts : List Tile) (f : Formula) : Prop :=
  ∀ n m rest, ts.length ≤ n → ts.length ≤ m → k.Stops rest →
    k.reader n m (ts ++ rest) = some (f, rest)

theorem Connective.length_le_tail (c : Connective) (others : List Operand) :
    others.length ≤ (c.tail others).length ∧
      ∀ o ∈ others, o.1.length ≤ (c.tail others).length := by
  induction others with
  | nil => exact ⟨Nat.le_refl 0, nofun⟩
  | cons o others ih =>
      have longer : (c.tail (o :: others)).length = o.1.length + 1 + (c.tail others).length := by
        simp only [Connective.tail, List.flatMap_cons, List.cons_append, List.length_cons,
          List.length_append]
        omega
      refine ⟨?_, List.forall_mem_cons.mpr ⟨?_, fun p member => ?_⟩⟩
      · rw [longer, List.length_cons]
        omega
      · omega
      · have within := ih.2 p member
        omega

/-- What follows an operand of a row does not go on with it. -/
theorem Category.Stops.tail {c : Connective} {rest : List Tile} (stops : (joined c).Stops rest)
    (others : List Operand) : c.operand.Stops (c.tail others ++ rest) := by
  cases others with
  | nil => exact stops.operand
  | cons o others => exact operand_stops c _

/-- Going on with a row takes all its operands. -/
theorem extendLeft_tail {c : Connective} {n m bound : Nat} {f : Formula} {others : List Operand}
    {rest : List Tile} (reads : ∀ o ∈ others, Reads c.operand o.1 o.2)
    (short : ∀ o ∈ others, o.1.length ≤ n ∧ o.1.length ≤ m) (few : others.length ≤ bound)
    (stops : (Category.joined c).Stops rest) :
    extendLeft c (c.operand.reader n m) bound f (c.tail others ++ rest) =
      some (c.joinLeft f others, rest) := by
  induction others generalizing bound f with
  | nil => exact extendLeft_of_notNext stops.notNext
  | cons o others ih =>
      rw [List.forall_mem_cons] at reads short
      obtain ⟨bound, rfl⟩ : ∃ b, bound = b + 1 := ⟨bound - 1, by rw [List.length_cons] at few; omega⟩
      have split : c.tail (o :: others) ++ rest =
          .connective c :: (o.1 ++ (c.tail others ++ rest)) := by
        simp [Connective.tail]
      have first := reads.1 n m _ short.1.1 short.1.2 (stops.tail others)
      rw [split, extendLeft, if_pos rfl, first]
      exact ih reads.2 short.2 (by simpa using few)

/-- Each derived row is read, by recursion along its derivation. -/
theorem Grammar.reads {k : Category} {ts : List Tile} {f : Formula} (h : Grammar k ts f) :
    Reads k ts f := by
  induction h with
  | @row c ts f others left first rest ihf ihr =>
      intro n m rest long _ stops
      obtain ⟨few, short⟩ := c.length_le_tail others
      rw [List.length_append] at long
      have start := ihf n n (c.tail others ++ rest) (by omega) (by omega) (stops.tail others)
      rw [Category.reader_joined left, List.append_assoc, readLeft, start]
      exact extendLeft_tail ihr (fun o member => by have := short o member; omega) (by omega) stops
  | @single ts f only ih =>
      intro n m rest long wide stops
      exact readRight_of_notNext (ih n m rest long wide stops.operand) stops.notNext
  | @conditional ts us f g first rest ihf ihr =>
      intro n m rest long wide stops
      rw [List.length_append, List.length_cons] at long wide
      obtain ⟨m, rfl⟩ : ∃ j, m = j + 1 := ⟨m - 1, by omega⟩
      have start := ihf n m (.connective .implies :: (us ++ rest)) (by omega) (by omega)
        (Category.operand_stops .implies _)
      have others := ihr n m rest (by omega) (by omega) stops
      rw [List.append_assoc, List.cons_append]
      simp only [Category.reader] at start others ⊢
      rw [readRight, start]
      simp only [if_pos, others]
  | @negation ts f negated ih =>
      intro n m rest long wide stops
      rw [List.length_cons] at long wide
      have inner := ih n m rest (by omega) (by omega) stops
      simp only [Category.reader] at inner ⊢
      rw [List.cons_append, readNegation, inner]
  | bare own ih =>
      intro n m rest long wide _
      refine ih n m rest long wide fun c member => ?_
      cases member
  | letter x => exact fun n m rest _ _ _ => rfl
  | @parenthesized ts f nested ih =>
      intro n m rest long wide stops
      simp only [List.length_cons, List.length_append, List.length_nil] at long
      obtain ⟨n, rfl⟩ : ∃ j, n = j + 1 := ⟨n - 1, by omega⟩
      have inner := ih n n (.closing :: rest) (by omega) (by omega) (Category.stops_closing _ _)
      simp only [Category.reader] at inner ⊢
      rw [List.cons_append, List.append_assoc, List.singleton_append, readNegation, inner]

namespace Formula

variable {ts : List Tile} {f : Formula}

theorem parse_eq_some_iff : parse ts = some f ↔ Grammar (.joined .iff) ts f := by
  constructor
  · intro h
    unfold parse at h
    split at h
    · rename_i g read
      cases h
      obtain ⟨us, split, derived⟩ := readIff_follows _ _ _ _ read
      rw [split, List.append_nil]
      exact derived
    · cases h
  · intro derived
    have read := derived.reads ts.length ts.length [] (Nat.le_refl _) (Nat.le_refl _)
      (Category.stops_nil _)
    rw [List.append_nil, Category.reader] at read
    rw [parse, read]

/-- Reading finds exactly what the grammar derives, and the grammar derives at most one formula. -/
theorem parse_exact (ts : List Tile) :
    (∀ f, parse ts = some f ↔ Grammar (.joined .iff) ts f) ∧
      Subsingleton { f // Grammar (.joined .iff) ts f } ∧
      (parse ts = none ↔ ¬∃ f, Grammar (.joined .iff) ts f) := by
  refine ⟨fun f => parse_eq_some_iff, ⟨fun ⟨f, hf⟩ ⟨g, hg⟩ => ?_⟩, ?_⟩
  · have same := (parse_eq_some_iff.mpr hf).symm.trans (parse_eq_some_iff.mpr hg)
    exact Subtype.ext (Option.some.inj same)
  · simp only [Option.eq_none_iff_forall_ne_some, ne_eq, parse_eq_some_iff, not_exists]

end Formula

end ProofPuzzles
