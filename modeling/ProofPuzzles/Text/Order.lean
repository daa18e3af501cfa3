/-!
# Order by text

Things that have a text are listed in the order of their texts, compared character by character
by code point. Things with equal texts keep their order.
-/

namespace ProofPuzzles.Text

/-- The elements in the order of their texts. Each text is computed once. -/
def sortedBy {α : Type} (text : α → String) (xs : List α) : List α :=
  ((xs.map fun a => (text a, a)).mergeSort fun a b => !decide (b.1 < a.1)).map (·.2)

theorem sortedBy_perm {α : Type} (text : α → String) (xs : List α) :
    (sortedBy text xs).Perm xs := by
  have h := (List.mergeSort_perm (xs.map fun a => (text a, a))
    fun a b => !decide (b.1 < a.1)).map (·.2)
  simpa [sortedBy, List.map_map, Function.comp_def] using h

theorem mem_sortedBy {α : Type} {text : α → String} {xs : List α} {a : α} :
    a ∈ sortedBy text xs ↔ a ∈ xs := (sortedBy_perm text xs).mem_iff

end ProofPuzzles.Text
