import Mathlib.Data.List.Basic
import ProofPuzzles.Formula.Spelling
import ProofPuzzles.Proofs.Formula.Grammar

/-! # Every spelling of a formula

The replacements go over the whole text and do not see where one tile ends and the next one starts.
Two tiles next to each other could be taken for one sign only if the second one started with a
character that goes on a spelling, and only spellings of connectives do. In the row of a formula a
connective follows a letter or a closing parenthesis, with which no spelling starts.
-/

namespace ProofPuzzles

/-! ## Operands and connectives take turns -/

/-- The rows that go on where an operand is awaited, or where one has just ended: only in the second
case a connective or a closing parenthesis comes next. -/
inductive TakesTurns : (awaited : Bool) → List Tile → Prop where
  | done : TakesTurns false []
  | letter {ts : List Tile} (x : Letter) (later : TakesTurns false ts) :
    TakesTurns true (.letter x :: ts)
  | negation {ts : List Tile} (later : TakesTurns true ts) : TakesTurns true (.negation :: ts)
  | opening {ts : List Tile} (later : TakesTurns true ts) : TakesTurns true (.opening :: ts)
  | closing {ts : List Tile} (later : TakesTurns false ts) : TakesTurns false (.closing :: ts)
  | connective {ts : List Tile} (c : Connective) (later : TakesTurns true ts) :
    TakesTurns false (.connective c :: ts)

/-- Whatever can follow an operand can follow a whole row that is one. -/
theorem Grammar.takesTurns {k : Category} {ts : List Tile} {f : Formula} (h : Grammar k ts f) :
    ∀ {rest : List Tile}, TakesTurns false rest → TakesTurns true (ts ++ rest) := by
  induction h with
  | @row c ts f others left first rest ih ihs =>
      intro more later
      rw [List.append_assoc]
      apply ih
      clear first ih
      induction others with
      | nil => exact later
      | cons o others following =>
          obtain ⟨operand, operands⟩ := List.forall_mem_cons.mp rest
          obtain ⟨turn, turns⟩ := List.forall_mem_cons.mp ihs
          simpa [Connective.tail] using TakesTurns.connective c (turn (following operands turns))
  | single only ih => exact ih
  | conditional first rest ih ihs =>
      intro more later
      simpa using ih (.connective .implies (ihs later))
  | negation negated ih => exact fun later => .negation (ih later)
  | bare own ih => exact ih
  | letter x => exact fun later => .letter x later
  | parenthesized nested ih =>
      intro more later
      simpa using TakesTurns.opening (ih (.closing later))

namespace Spelling

/-! ## Replacing one spelling -/

section Replace

variable {spelling front rest : List Char} {sign c : Char}

/-- An occurrence that starts in front of a place ends in front of it, unless the character after
the place goes on the spelling. -/
theorem prefix_of_prefix_append (apart : ∀ d ∈ rest.head?, d ∉ spelling.tail)
    (occurs : spelling <+: c :: front ++ rest) : spelling <+: c :: front := by
  rcases Nat.le_total spelling.length (c :: front).length with short | long
  · exact List.prefix_of_prefix_length_le occurs (List.prefix_append _ _) short
  · obtain ⟨more, rfl⟩ := List.prefix_of_prefix_length_le (List.prefix_append _ _) occurs long
    cases more with
    | nil => simp
    | cons d more =>
        obtain ⟨others, rfl⟩ := (List.prefix_append_right_inj _).mp occurs
        exact absurd (List.mem_append_right front List.mem_cons_self) (apart d rfl)

theorem replaceAfter_append {skip : Nat} (inside : skip ≤ front.length)
    (apart : ∀ d ∈ rest.head?, d ∉ spelling.tail) :
    replaceAfter spelling sign skip (front ++ rest) =
      replaceAfter spelling sign skip front ++ replace spelling sign rest := by
  induction front generalizing skip with
  | nil =>
      obtain rfl := Nat.le_zero.mp inside
      rfl
  | cons c front ih =>
      cases skip with
      | succ skip => exact ih (Nat.le_of_succ_le_succ inside)
      | zero =>
          by_cases occurs : spelling <+: c :: front
          · have inner : spelling.length - 1 ≤ front.length :=
              Nat.sub_le_of_le_add occurs.length_le
            have longer : spelling <+: c :: (front ++ rest) :=
              occurs.trans (List.prefix_append (c :: front) rest)
            simp [replaceAfter, occurs, longer, ih inner]
          · have none : ¬ spelling <+: c :: (front ++ rest) :=
              fun longer => occurs (prefix_of_prefix_append apart longer)
            simp [replaceAfter, occurs, none, ih (Nat.zero_le _)]

theorem replace_append (apart : ∀ d ∈ rest.head?, d ∉ spelling.tail) :
    replace spelling sign (front ++ rest) =
      replace spelling sign front ++ replace spelling sign rest :=
  replaceAfter_append (Nat.zero_le _) apart

theorem replace_cons_of_notMem (filled : spelling ≠ []) (other : c ∉ spelling) :
    replace spelling sign (c :: rest) = c :: replace spelling sign rest := by
  have none : ¬ spelling <+: c :: rest := by
    obtain ⟨d, ds, rfl⟩ := List.exists_cons_of_ne_nil filled
    intro occurs
    exact other (by simp [(List.cons_prefix_cons.mp occurs).1])
  simp [replace, replaceAfter, none]

theorem replaceAfter_length :
    replaceAfter spelling sign front.length (front ++ rest) = replace spelling sign rest := by
  induction front with
  | nil => rfl
  | cons c front ih => exact ih

theorem replace_spelling (filled : spelling ≠ []) :
    replace spelling sign (spelling ++ rest) = sign :: replace spelling sign rest := by
  obtain ⟨d, ds, rfl⟩ := List.exists_cons_of_ne_nil filled
  simp [replace, replaceAfter, replaceAfter_length]

end Replace

/-! ## The table -/

theorem table_filled : ∀ e ∈ table, e.1 ≠ [] := by decide

theorem table_not_blank : ∀ e ∈ table, ∀ c ∈ e.1, Text.isBlank c = false := by
  simp only [table, List.forall_mem_cons, List.not_mem_nil, false_implies, implies_true]
  decide

theorem table_not_symbol : ∀ e ∈ table, ∀ c ∈ e.1, Tile.ofChar? c = none := by
  simp only [table, List.forall_mem_cons, List.not_mem_nil, false_implies, implies_true]
  decide

/-- The signs with several spellings are the negation and the connectives. -/
theorem table_signs : ∀ e ∈ table, e.2 = .negation ∨ ∃ c, e.2 = .connective c := by
  simp [table]

/-- No spelling of the negation goes on a longer spelling. -/
theorem table_negation_apart :
    ∀ e ∈ table, e.2 = .negation → ∀ c ∈ e.1.head?, ∀ l ∈ table, c ∉ l.1.tail := by
  simp [table]

/-- A spelling leaves those alone that are replaced later. -/
theorem table_in_order :
    table.Pairwise fun e later => replace e.1 e.2.char later.1 = later.1 := by decide

theorem char_notMem {e : List Char × Tile} (listed : e ∈ table) (t : Tile) : t.char ∉ e.1 := by
  intro shared
  have unknown := table_not_symbol e listed _ shared
  rw [Tile.ofChar?_char] at unknown
  cases unknown

theorem blank_notMem {e : List Char × Tile} {c : Char} (listed : e ∈ table)
    (blank : Text.isBlank c) : c ∉ e.1 := by
  intro shared
  rw [table_not_blank e listed c shared] at blank
  cases blank

theorem char_not_blank (t : Tile) : Text.isBlank t.char = false := by
  cases t with
  | letter x =>
      obtain ⟨i⟩ := x
      revert i
      decide
  | connective c => cases c <;> decide
  | negation | opening | closing => decide

/-! ## Texts that spell a row -/

/-- The texts that write the tiles one after the other, each by its own symbol or in one of the
given ways, with any blanks around them. -/
inductive Spells (ways : List (List Char × Tile)) : List Tile → List Char → Prop where
  | nil : Spells ways [] []
  | blank {ts : List Tile} {c : Char} {cs : List Char} (blank : Text.isBlank c)
    (later : Spells ways ts cs) : Spells ways ts (c :: cs)
  | own {ts : List Tile} {cs : List Char} (t : Tile) (later : Spells ways ts cs) :
    Spells ways (t :: ts) (t.char :: cs)
  | other {ts : List Tile} {cs way : List Char} {t : Tile} (listed : (way, t) ∈ ways)
    (later : Spells ways ts cs) : Spells ways (t :: ts) (way ++ cs)

section Spells

variable {e : List Char × Tile} {ways : List (List Char × Tile)} {ts : List Tile} {cs : List Char}
  {awaited : Bool}

/-- Where an operand is awaited, no spelling goes on. -/
theorem Spells.apart (spells : Spells ways ts cs) (within : ways ⊆ table)
    (turns : TakesTurns true ts) (listed : e ∈ table) : ∀ c ∈ cs.head?, c ∉ e.1.tail := by
  cases spells with
  | nil => nofun
  | blank blank later =>
      rintro _ ⟨⟩ shared
      exact blank_notMem listed blank (List.mem_of_mem_tail shared)
  | own t later =>
      rintro _ ⟨⟩ shared
      exact char_notMem listed t (List.mem_of_mem_tail shared)
  | @other ts cs way t way_listed later =>
      have known := within way_listed
      have filled := table_filled _ known
      have negation : t = .negation := by
        rcases table_signs _ known with same | ⟨c, same⟩
        · exact same
        · obtain rfl : t = .connective c := same
          cases turns
      intro c first
      rw [List.head?_append_of_ne_nil _ filled] at first
      exact table_negation_apart _ known negation c first e listed

/-- Replacing one of the ways leaves the row spelled in the others. -/
theorem Spells.replace (spells : Spells (e :: ways) ts cs) (within : e :: ways ⊆ table)
    (kept : ∀ l ∈ ways, replace e.1 e.2.char l.1 = l.1) (turns : TakesTurns awaited ts) :
    Spells ways ts (replace e.1 e.2.char cs) := by
  have listed : e ∈ table := within List.mem_cons_self
  have filled := table_filled e listed
  induction spells generalizing awaited with
  | nil => exact .nil
  | @blank ts c cs blank later ih =>
      rw [replace_cons_of_notMem filled (blank_notMem listed blank)]
      exact .blank blank (ih turns)
  | @own ts cs t later ih =>
      rw [replace_cons_of_notMem filled (char_notMem listed t)]
      cases turns <;> exact .own _ (ih ‹_›)
  | @other ts cs way t way_listed later ih =>
      -- A negation and a connective are both followed by an operand.
      have awaits : TakesTurns true ts := by
        rcases table_signs _ (within way_listed) with same | ⟨c, same⟩
        all_goals
          subst same
          cases turns
          assumption
      rcases List.mem_cons.mp way_listed with rfl | way_later
      · rw [replace_spelling filled]
        exact .own t (ih awaits)
      · rw [replace_append (later.apart within awaits listed), kept _ way_later]
        exact .other way_later (ih awaits)

/-- After all replacements only the symbols of the tiles are left. -/
theorem Spells.foldl_replace (spells : Spells ways ts cs) (within : ways ⊆ table)
    (order : ways.Pairwise fun e later => Spelling.replace e.1 e.2.char later.1 = later.1)
    (turns : TakesTurns awaited ts) :
    Spells [] ts
      (ways.foldl (fun cs (spelling, tile) => Spelling.replace spelling tile.char cs) cs) := by
  induction ways generalizing cs with
  | nil => exact spells
  | cons e ways ih =>
      obtain ⟨kept, order⟩ := List.pairwise_cons.mp order
      exact ih (spells.replace within kept turns) (List.subset_of_cons_subset within) order

theorem Spells.tilesFrom (spells : Spells [] ts cs) (position : Nat) :
    tilesFrom position cs = .ok ts := by
  induction spells generalizing position with
  | nil => rfl
  | blank blank later ih => simp [Spelling.tilesFrom, blank, ih]
  | own t later ih => simp [Spelling.tilesFrom, char_not_blank, Tile.ofChar?_char, ih, Except.map]
  | other listed later ih => cases listed

end Spells

/-- Every spelling of a formula is cut into the tiles of the formula, however its signs are written
and whatever blanks stand between them. -/
theorem tiles_of_spells {ts : List Tile} {f : Formula} {text : String}
    (reads : Formula.parse ts = some f) (spells : Spells table ts text.toList) :
    tiles text = .ok ts := by
  have turns : TakesTurns true ts := by
    simpa using (Formula.parse_eq_some_iff.mp reads).takesTurns .done
  exact (spells.foldl_replace (List.Subset.refl _) table_in_order turns).tilesFrom 0

/-- `<=>` next to `!`, and a blank in front of the conditional. -/
theorem tiles_of_spells_conditional :
    let p : Letter := ⟨15⟩
    let q : Letter := ⟨16⟩
    let row : List Tile := [.opening, .letter p, .connective .iff, .negation, .letter q, .closing,
      .connective .implies, .letter p]
    let f : Formula := .bin .implies (.bin .iff (.letter p) (.neg (.letter q))) (.letter p)
    Formula.parse row = some f ∧ Spells table row "(p<=>!q) ->p".toList ∧
      tiles "(p<=>!q) ->p" = .ok row := by
  intro p q row f
  have reads : Formula.parse row = some f := by decide +kernel
  have spells : Spells table row "(p<=>!q) ->p".toList := by
    have iff : (['<', '=', '>'], Tile.connective .iff) ∈ table := by decide
    have negation : (['!'], Tile.negation) ∈ table := by decide
    have conditional : (['-', '>'], Tile.connective .implies) ∈ table := by decide
    exact .own .opening (.own (.letter p) (.other iff (.other negation (.own (.letter q)
      (.own .closing (.blank rfl (.other conditional (.own (.letter p) .nil))))))))
  exact ⟨reads, spells, tiles_of_spells reads spells⟩

end Spelling

end ProofPuzzles
