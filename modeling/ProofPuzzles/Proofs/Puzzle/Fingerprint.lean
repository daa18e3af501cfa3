import Mathlib.Data.List.Perm.Basic
import ProofPuzzles.Proofs.Formula.FullForm
import ProofPuzzles.Proofs.Text.Order
import ProofPuzzles.Puzzle.Problem

/-! # What a fingerprint tells

The payload of a fingerprint joins keys by bars and puts an arrow in front of the last one. No key
holds a bar or an equals sign and none is empty, so the keys can be read off the payload, the
premises in order of their texts. Whether two puzzles with one fingerprint are the same is then up
to the digest alone.
-/

namespace ProofPuzzles

/-! ## Joined rows -/

section Joined

variable {α : Type} {a b : α} {rows others : List (List α)}

theorem notMem_intercalate (differs : b ≠ a) (absent : ∀ row ∈ rows, b ∉ row) :
    b ∉ [a].intercalate rows := by
  induction rows with
  | nil => exact List.not_mem_nil
  | cons row rows ih =>
      rw [List.forall_mem_cons] at absent
      cases rows with
      | nil => simpa using absent.1
      | cons next rows => simp [List.intercalate_cons_cons, absent.1, differs, ih absent.2]

theorem intercalate_ne_nil (filled : ∀ row ∈ rows, row ≠ []) (given : rows ≠ []) :
    [a].intercalate rows ≠ [] := by
  match rows, given with
  | [row], _ => simpa using filled
  | row :: next :: rows, _ => simp [List.intercalate_cons_cons]

/-- Rows that are not empty and do not hold what they are joined by can be told apart again. -/
theorem intercalate_inj [DecidableEq α] (filled : ∀ row ∈ rows, row ≠ [] ∧ a ∉ row)
    (others_filled : ∀ row ∈ others, row ≠ [] ∧ a ∉ row)
    (same : [a].intercalate rows = [a].intercalate others) : rows = others := by
  by_cases none : rows = []
  · subst none
    by_contra different
    exact intercalate_ne_nil (fun row member => (others_filled row member).1) (Ne.symm different)
      same.symm
  · have given : others ≠ [] := by
      rintro rfl
      exact intercalate_ne_nil (fun row member => (filled row member).1) none same
    calc rows = List.splitOn a ([a].intercalate rows) :=
          (List.splitOn_intercalate a (fun row member => (filled row member).2) none).symm
      _ = List.splitOn a ([a].intercalate others) := by rw [same]
      _ = others := List.splitOn_intercalate a (fun row member => (others_filled row member).2) given

end Joined

/-! ## Keys -/

namespace Identity

variable {c : Char} (i : Identity)

/-- Apart from the mark, a key is written in the symbols of tiles. -/
theorem notMem_key (unmarked : c ≠ '!') (unknown : Tile.ofChar? c = none) : c ∉ i.key.toList := by
  have notMem_text : ∀ ts : List Tile, c ∉ (Tile.text ts).toList := by
    intro ts member
    rw [Tile.text, String.toList_ofList] at member
    obtain ⟨t, -, rfl⟩ := List.mem_map.mp member
    rw [Tile.ofChar?_char] at unknown
    cases unknown
  cases i with
  | formula f => exact notMem_text f.tiles
  | tiles ts =>
      rw [key, String.toList_append, List.mem_append, not_or]
      exact ⟨by simpa using unmarked, notMem_text ts⟩

theorem key_ne_nil : i.key.toList ≠ [] := by
  cases i with
  | formula f =>
      rw [key, Formula.text, Tile.text, String.toList_ofList, ne_eq, List.map_eq_nil_iff]
      exact List.ne_nil_of_length_pos f.tiles_length_pos
  | tiles ts => simp [key, String.toList_append]

end Identity

namespace Problem

variable {premises others : List Statement} {conclusion other : Statement}

/-- The keys of the premises in the order of their texts. -/
def sortedKeys (premises : List Statement) : List String :=
  Text.sortedBy (fun key => key) (premises.map Statement.key)

/-- The premises are the same up to their order, and the conclusions are the same. -/
def Same (premises others : List Statement) (conclusion other : Statement) : Prop :=
  (premises.map Statement.identity).Perm (others.map Statement.identity) ∧
    conclusion.identity = other.identity

/-- Two different texts have digests that begin with the same twelve digits. -/
def Collide (text other : String) : Prop :=
  text ≠ other ∧
    (Sha256.hexDigest text).toList.take 12 = (Sha256.hexDigest other).toList.take 12

theorem forall_mem_sortedKeys {motive : List Char → Prop}
    (all : ∀ i : Identity, motive i.key.toList) :
    ∀ row ∈ (sortedKeys premises).map String.toList, motive row := by
  intro row member
  obtain ⟨key, listed, rfl⟩ := List.mem_map.mp member
  obtain ⟨s, -, rfl⟩ := List.mem_map.mp (Text.mem_sortedBy.mp listed)
  rw [s.key_eq]
  exact all s.identity

theorem toList_payload (premises : List Statement) (conclusion : Statement) :
    (payload premises conclusion).toList =
      ['|'].intercalate ((sortedKeys premises).map String.toList) ++
        '=' :: '>' :: conclusion.key.toList := by
  simp [payload, sortedKeys, String.toList_intercalate]

theorem payload_eq_iff_keys : payload premises conclusion = payload others other ↔
    sortedKeys premises = sortedKeys others ∧ conclusion.key = other.key := by
  constructor
  · intro same
    -- the equals sign of the arrow is the only one, and so the payload is cut in two there
    have front : '=' ∉ ['|'].intercalate ((sortedKeys premises).map String.toList) :=
      notMem_intercalate (by decide)
        (forall_mem_sortedKeys fun i => i.notMem_key (by decide) (by decide))
    have behind : '=' ∉ '>' :: conclusion.key.toList := by
      rw [conclusion.key_eq, List.mem_cons, not_or]
      exact ⟨by decide, conclusion.identity.notMem_key (by decide) (by decide)⟩
    have chars := congrArg String.toList same
    rw [toList_payload, toList_payload, List.append_cons_inj_of_notMem front behind] at chars
    obtain ⟨joined, -, last⟩ := chars
    have apart (i : Identity) : i.key.toList ≠ [] ∧ '|' ∉ i.key.toList :=
      ⟨i.key_ne_nil, i.notMem_key (by decide) (by decide)⟩
    have rows := intercalate_inj (forall_mem_sortedKeys apart) (forall_mem_sortedKeys apart) joined
    exact ⟨(List.map_inj_right fun _ _ => String.toList_injective).mp rows,
      String.toList_injective (List.cons.inj last).2⟩
  · rintro ⟨keys, conclusions⟩
    apply String.toList_injective
    rw [toList_payload, toList_payload, keys, conclusions]

theorem sortedKeys_eq_iff : sortedKeys premises = sortedKeys others ↔
    (premises.map Statement.identity).Perm (others.map Statement.identity) := by
  have keys : ∀ statements : List Statement,
      statements.map Statement.key = (statements.map Statement.identity).map Identity.key := by
    intro statements
    rw [List.map_map]
    exact List.map_congr_left fun s _ => s.key_eq
  rw [sortedKeys, sortedKeys, Text.sortedBy_self_eq_iff_perm, keys, keys,
    List.map_perm_map_iff Identity.key_injective]

theorem payload_eq_iff :
    payload premises conclusion = payload others other ↔ Same premises others conclusion other := by
  rw [payload_eq_iff_keys, sortedKeys_eq_iff, Statement.key_eq_iff_identity_eq, Same]

theorem fingerprint_eq_iff : fingerprint premises conclusion = fingerprint others other ↔
    (Sha256.hexDigest (payload premises conclusion)).toList.take 12 =
      (Sha256.hexDigest (payload others other)).toList.take 12 := by
  rw [fingerprint, fingerprint, String.ofList_inj]

/-- A payload says which puzzle it is made for, and no more: neither the order of the premises nor
how anything is written. A fingerprint says the same, unless two payloads collide. -/
theorem fingerprint_exact (premises others : List Statement) (conclusion other : Statement) :
    (payload premises conclusion = payload others other ↔
      Same premises others conclusion other) ∧
    (fingerprint premises conclusion = fingerprint others other ↔
      Same premises others conclusion other ∨
        Collide (payload premises conclusion) (payload others other)) := by
  refine ⟨payload_eq_iff, ?_⟩
  rw [fingerprint_eq_iff, ← payload_eq_iff]
  constructor
  · intro digits
    by_cases same : payload premises conclusion = payload others other
    · exact .inl same
    · exact .inr ⟨same, digits⟩
  · rintro (same | collide)
    · rw [same]
    · exact collide.2

end Problem

end ProofPuzzles
