import ProofPuzzles.Firsts
import ProofPuzzles.Graph.Basic

/-!
# Cutting a derivation

To make a puzzle, some of the derived statements behind a conclusion are hidden, nearest first,
one for each unit of a budget. What the hidden statements were derived from, and is not hidden
itself, is given as premises.
-/

namespace ProofPuzzles

/-- The places of the premises and of the hidden statements. -/
structure Cut where
  premises : List Nat
  hidden : List Nat
  deriving Repr, DecidableEq

namespace Cut

/-- A cut under way: what can still be hidden, what is hidden, and the frontier of the next
    layer. -/
structure Layer where
  budget : Nat
  hidden : List Nat
  frontier : List Nat

/-- Whether a place holds a leaf; a place without a node counts as one. -/
def isLeafAt (g : Graph) (place : Nat) : Bool :=
  match g.nodes[place]? with
  | some node => node.isLeaf
  | none => true

/-- Hides a derived node of the frontier if the budget allows it, and puts what it was derived
    from on the next frontier. -/
def visit (g : Graph) (layer : Layer) (place : Nat) : Layer :=
  match g.nodes[place]? with
  | some node =>
    if node.isLeaf || layer.budget = 0 then { layer with frontier := layer.frontier ++ [place] }
    else
      let hidden := layer.hidden ++ [place]
      ⟨layer.budget - 1, hidden, layer.frontier ++ node.parents.filter (· ∉ hidden)⟩
  | none => { layer with frontier := layer.frontier ++ [place] }

/-- Hides layer after layer. Every layer uses up some of the budget. -/
def layers (g : Graph) : Nat → Layer → Cut
  | 0, layer => ⟨layer.frontier, layer.hidden⟩
  | bound + 1, layer =>
    if layer.budget = 0 || layer.frontier.all (isLeafAt g) then ⟨layer.frontier, layer.hidden⟩
    else
      let next := layer.frontier.foldl (visit g) { layer with frontier := [] }
      layers g bound
        { next with frontier := (firstsBy id next.frontier).filter (· ∉ next.hidden) }

end Cut

/-- Cuts the derivation of a conclusion. The budget is the difficulty, but at least one and at
    most the depth of the conclusion. -/
def Graph.cut (g : Graph) (conclusion : Nat) (difficulty : Int) : Except GraphError Cut :=
  match g.depth conclusion with
  | .error e => .error e
  | .ok depth =>
    let budget := min (max 1 difficulty).toNat depth
    .ok (Cut.layers g budget ⟨budget, [], [conclusion]⟩)

end ProofPuzzles
