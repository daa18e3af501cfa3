import ProofPuzzles.Config.Yaml.Fault
import ProofPuzzles.Config.Yaml.Tag

/-!
# Nodes of documents

A document is made of words, lists and mappings, each with a tag. They are kept by their places, so
that a node can be a part of several others, and of itself.
-/

namespace ProofPuzzles.Config.Yaml

/-- A part of a document, with its own parts by their places. -/
inductive Node where
  | scalar (tag : Tag) (codes : List Nat)
  | list (tag : Tag) (items : List Nat)
  | mapping (tag : Tag) (entries : List (Nat × Nat))
  deriving Repr, DecidableEq

namespace Node

def tag : Node → Tag
  | .scalar tag _ => tag
  | .list tag _ => tag
  | .mapping tag _ => tag

/-- The node with another tag. -/
def withTag (tag : Tag) : Node → Node
  | .scalar _ codes => .scalar tag codes
  | .list _ items => .list tag items
  | .mapping _ entries => .mapping tag entries

def entries : Node → List (Nat × Nat)
  | .mapping _ entries => entries
  | _ => []

/-- The node for what is left out. -/
def absent : Node := .scalar .null []

end Node

/-- The nodes of a document. -/
structure Nodes where
  all : Array Node := #[]

namespace Nodes

def node (nodes : Nodes) (place : Nat) : Node := nodes.all[place]?.getD .absent

/-- The nodes with another one at a place. -/
def put (nodes : Nodes) (place : Nat) (node : Node) : Nodes := ⟨nodes.all.setIfInBounds place node⟩

def tag (nodes : Nodes) (place : Nat) : Tag := (nodes.node place).tag

/-- The entries of the mapping at a place. -/
def entries (nodes : Nodes) (place : Nat) : List (Nat × Nat) := (nodes.node place).entries

/-- The nodes with other entries in the mapping at a place. -/
def putEntries (nodes : Nodes) (place : Nat) (entries : List (Nat × Nat)) : Nodes :=
  nodes.put place (.mapping (nodes.tag place) entries)

/-- The number of all entries. -/
def entryCount (nodes : Nodes) : Nat :=
  nodes.all.foldl (fun count node => count + node.entries.length) 0

/-- The text of the word at a place, or of what a mapping says that it stands for. More steps than
    there are nodes lead back to where they have been. -/
def content (nodes : Nodes) : Nat → Nat → Except Fault (List Nat)
  | 0, _ => .error .endless
  | bound + 1, place =>
    match nodes.node place with
    | .scalar _ codes => .ok codes
    | .list _ _ => .error .malformed
    | .mapping _ entries =>
      match entries.find? fun e => nodes.tag e.1 = .content with
      | some (_, value) => nodes.content bound value
      | none => .error .malformed

end Nodes

end ProofPuzzles.Config.Yaml
