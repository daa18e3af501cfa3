import ProofPuzzles.Rule
import ProofPuzzles.Statement
import Std.Data.HashMap.Lemmas

/-!
# Derivation graphs

A derivation graph holds statements, no two of them the same, and for each derived one the rule
and the statements that it was derived from. A statement that was derived from nothing is a
leaf. The places of the statements are their names.
-/

namespace ProofPuzzles

/-- A statement of a graph, with the places of what it was derived from. -/
structure GraphNode where
  statement : Statement
  rule? : Option InferenceRule
  parents : List Nat

/-- A node that was derived from nothing. -/
def GraphNode.isLeaf (node : GraphNode) : Bool := node.parents.isEmpty

/-- What an operation on a graph can stumble over. -/
inductive GraphError where
  /-- The statement is in the graph already. -/
  | alreadyPresent (text : String)
  /-- The node to be derived has been derived already. -/
  | alreadyDerived (place : Nat)
  /-- There is no node at this place. -/
  | missingNode (place : Nat)
  deriving Repr, DecidableEq

/-- The wording of each error. -/
def GraphError.message : GraphError → String
  | .alreadyPresent text => "Formula already in graph: " ++ text
  | .alreadyDerived place => "Node " ++ toString place ++ " is already derived"
  | .missingNode place => "No node at place " ++ toString place

/-- The nodes in order, and the place of each statement. -/
structure Graph where
  nodes : List GraphNode
  places : Std.HashMap Identity Nat
  places_eq : ∀ i, places[i]? = nodes.findIdx? (·.statement.identity = i)

namespace Graph

/-- The graph without nodes. -/
def empty : Graph := ⟨[], ∅, by simp⟩

/-- How many nodes there are. -/
def size (g : Graph) : Nat := g.nodes.length

def node (g : Graph) (place : Nat) : Except GraphError GraphNode :=
  match g.nodes[place]? with
  | some node => .ok node
  | none => .error (.missingNode place)

/-- The place of a statement. -/
def find? (g : Graph) (s : Statement) : Option Nat := g.places[s.identity]?

def contains (g : Graph) (s : Statement) : Bool := (g.find? s).isSome

/-- The statements in order. -/
def statements (g : Graph) : List Statement := g.nodes.map (·.statement)

theorem find?_eq (g : Graph) (s : Statement) :
    g.find? s = g.nodes.findIdx? (·.statement.identity = s.identity) := g.places_eq s.identity

/-- The graph with a new node at its end. The statement must not be in the graph. -/
def push (g : Graph) (node : GraphNode) (h : g.find? node.statement = none) : Graph where
  nodes := g.nodes ++ [node]
  places := g.places.insert node.statement.identity g.nodes.length
  places_eq i := by
    rw [Std.HashMap.getElem?_insert, List.findIdx?_append]
    by_cases hi : node.statement.identity = i
    · subst hi
      rw [find?_eq] at h
      simp [h, List.findIdx?_cons]
    · simp [hi, g.places_eq, List.findIdx?_cons]

/-- Adds a derived node and tells its place. -/
def addDerived (g : Graph) (s : Statement) (rule? : Option InferenceRule) (parents : List Nat) :
    Except GraphError (Nat × Graph) :=
  if h : g.find? s = none then .ok (g.size, g.push ⟨s, rule?, parents⟩ h)
  else .error (.alreadyPresent s.text)

/-- Adds a leaf and tells its place. -/
def addLeaf (g : Graph) (s : Statement) : Except GraphError (Nat × Graph) :=
  g.addDerived s none []

/-- Adds leaves one after the other up to the first one that is in the graph already, and tells
    their places. -/
def addLeaves (g : Graph) : List Statement → Except GraphError (List Nat) × Graph
  | [] => (.ok [], g)
  | s :: rest =>
    match g.addLeaf s with
    | .error e => (.error e, g)
    | .ok (place, g) =>
      match addLeaves g rest with
      | (.error e, g) => (.error e, g)
      | (.ok places, g) => (.ok (place :: places), g)

theorem findIdx?_set {nodes : List GraphNode} {place : Nat} {old new : GraphNode}
    (hold : nodes[place]? = some old) (h : new.statement = old.statement) (i : Identity) :
    (nodes.set place new).findIdx? (·.statement.identity = i)
      = nodes.findIdx? (·.statement.identity = i) := by
  have hmap : (nodes.set place new).map (·.statement) = nodes.map (·.statement) := by
    rw [List.map_set, h]
    apply List.ext_getElem?
    intro k
    rw [List.getElem?_set]
    split
    next hk =>
      subst hk
      obtain ⟨hlt, hget⟩ := List.getElem?_eq_some_iff.mp hold
      simp [hlt, hget]
    next => rfl
  have hfind : ∀ ns : List GraphNode, ns.findIdx? (·.statement.identity = i)
      = (ns.map (·.statement)).findIdx? (·.identity = i) := by
    intro ns
    rw [List.findIdx?_map]
    rfl
  rw [hfind, hfind, hmap]

/-- Makes a leaf a node derived from the given ones. -/
def deriveLeaf (g : Graph) (place : Nat) (rule : InferenceRule) (parents : List Nat) :
    Except GraphError Graph :=
  match h : g.nodes[place]? with
  | none => .error (.missingNode place)
  | some node =>
    if node.isLeaf then
      let derived : GraphNode := ⟨node.statement, some rule, parents⟩
      .ok {
        nodes := g.nodes.set place derived
        places := g.places
        places_eq := fun i => by
          rw [g.places_eq, findIdx?_set h (show derived.statement = _ from rfl)] }
    else .error (.alreadyDerived place)

/-! ## Ancestors and depth -/

/-- The places reached from the pending ones, on top of those that have been reached. The bound
    limits how many pending places are looked at. -/
def reach (g : Graph) : Nat → List Nat → List Nat → Except GraphError (List Nat)
  | 0, _, reached => .ok reached
  | _, [], reached => .ok reached
  | bound + 1, place :: pending, reached =>
    if place ∈ reached then g.reach bound pending reached
    else match g.node place with
      | .error e => .error e
      | .ok node => g.reach bound (node.parents ++ pending) (place :: reached)

/-- The place and those of all nodes that it was derived from, directly or not. Every parent
    becomes pending at most once. -/
def ancestors (g : Graph) (place : Nat) : Except GraphError (List Nat) :=
  g.reach ((g.nodes.flatMap (·.parents)).length + 1) [place] []

/-- For each node the length of its longest path to a leaf, as far as the given number of steps
    shows. -/
def heights (g : Graph) : Nat → List Nat
  | 0 => g.nodes.map fun _ => 0
  | n + 1 =>
    let previous := (g.heights n).toArray
    g.nodes.map fun node =>
      if node.isLeaf then 0
      else 1 + node.parents.foldl (fun most p => max most (previous.getD p 0)) 0

/-- The length of the longest path from the node to a leaf, in a graph without cycles. -/
def depth (g : Graph) (place : Nat) : Except GraphError Nat :=
  match g.ancestors place with
  | .error e => .error e
  | .ok _ => .ok ((g.heights g.size).getD place 0)

end Graph

end ProofPuzzles
