import ProofPuzzles.Config.Yaml.Node

/-!
# Merging of mappings

An entry with the merging key puts the entries of another mapping, or of those in a list, in front
of the entries of its own. The other mapping can be one that is around it, and then gives what it
has at that time.
-/

namespace ProofPuzzles.Config.Yaml

namespace Nodes

/-- The value of the first entry with the merging key, and the entries without that one. -/
def takeMerge? (nodes : Nodes) : List (Nat × Nat) → Option (Nat × List (Nat × Nat))
  | [] => none
  | (key, value) :: entries =>
    if nodes.tag key = .merge then some (value, entries)
    else (takeMerge? nodes entries).map fun (merged, rest) => (merged, (key, value) :: rest)

/-- Makes the keys of a mapping that are an equals sign into texts. -/
def settleKeys (nodes : Nodes) (place : Nat) : Nodes :=
  (nodes.entries place).foldl (fun nodes (key, _) =>
    if nodes.tag key = .content then nodes.put key ((nodes.node key).withTag .text)
    else nodes) nodes

/-- Puts what is merged into a mapping in front of its own entries, behind what has been found
    already. Of the mappings in a list the last comes first. Every step takes a merging key away, so
    that there is a bound on the steps. -/
def merge : Nat → Nat → List (Nat × Nat) → Nodes → Except Fault Nodes
  | 0, _, _, _ => .error .malformed
  | bound + 1, place, found, nodes =>
    match nodes.takeMerge? (nodes.entries place) with
    | none =>
      let nodes := nodes.settleKeys place
      .ok (if found.isEmpty then nodes
        else nodes.putEntries place (found ++ nodes.entries place))
    | some (other, rest) => do
      let nodes := nodes.putEntries place rest
      let others ← match nodes.node other with
        | .scalar _ _ => .error .malformed
        | .list _ items => pure items
        | .mapping _ _ => pure [other]
      let (added, nodes) ← others.foldlM (fun (added, nodes) item =>
        match nodes.node item with
        | .mapping _ _ => do
          let nodes ← merge bound item [] nodes
          return (nodes.entries item ++ added, nodes)
        | _ => .error .malformed) (([] : List (Nat × Nat)), nodes)
      merge bound place (found ++ added) nodes

end Nodes

end ProofPuzzles.Config.Yaml
