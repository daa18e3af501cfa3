import ProofPuzzles.Config.SetOrder
import ProofPuzzles.Config.Yaml.Merge
import ProofPuzzles.Config.Yaml.Word

/-!
# What nodes stand for

The objects that the nodes of a document stand for, each found once. The parts of collections are
looked at level by level, so that of several faults the outermost is reported, and of those the
first.
-/

namespace ProofPuzzles.Config.Yaml

/-- What a node stands for, with the parts of collections by their places. Keys are never
    collections. -/
inductive Object where
  | plain (v : Value)
  | list (items : List Nat)
  | pairs (items : List (Nat × Nat))
  | set (items : List Value)
  | mapping (entries : List (Value × Nat))

/-- The collection with the given tag before its parts are known. -/
def Object.ofTag : Tag → Object
  | .mapping => .mapping []
  | .set => .set []
  | .pairs => .pairs []
  | _ => .list []

/-- The objects of a document, by the places of their nodes. -/
structure Objects where
  all : Array (Option Object)

namespace Objects

/-- The object at a place, if it has been found. -/
def object? (objects : Objects) (place : Nat) : Option Object := (objects.all[place]?).join

def object (objects : Objects) (place : Nat) : Object :=
  (objects.object? place).getD (.plain .null)

/-- The objects with another one at a place. -/
def put (objects : Objects) (place : Nat) (object : Object) : Objects :=
  ⟨objects.all.setIfInBounds place (some object)⟩

end Objects

/-- What is known while the objects of a document are found. -/
structure Finding where
  nodes : Nodes
  objects : Objects
  /-- The collections whose parts are still to be found, the last one first. -/
  waiting : List Nat := []
  /-- More than the number of entries that can be merged. -/
  bound : Nat

namespace Finding

/-- The beginning, with no objects. -/
def start (nodes : Nodes) : Finding where
  nodes
  objects := ⟨Array.replicate nodes.all.size none⟩
  bound := nodes.entryCount + 1

/-- Keeps what has been found at a place. -/
def put (s : Finding) (place : Nat) (object : Object) : Finding :=
  { s with objects := s.objects.put place object }

/-- The value of a node whose tag is not for collections. A day or a moment has to be a word. -/
def plainValue (s : Finding) (place : Nat) : Except Fault Value := do
  let tag := s.nodes.tag place
  if !tag.isPlain then .error .malformed
  else
    let codes ← s.nodes.content (s.nodes.all.size + 1) place
    match tag, s.nodes.node place with
    | .stamp, .mapping _ _ => .error .stampOfMapping
    | _, _ => scalarValue tag codes

/-- Finds the object at a place, but for the parts of a collection. -/
def visit (s : Finding) (place : Nat) : Except Fault Finding :=
  match s.objects.object? place with
  | some _ => .ok s
  | none =>
    let tag := s.nodes.tag place
    if tag.isCollection then
      .ok { s.put place (.ofTag tag) with waiting := place :: s.waiting }
    else (s.plainValue place).map fun v => s.put place (.plain v)

def keyAt (s : Finding) (place : Nat) : Except Fault Value :=
  match s.objects.object place with
  | .plain v => .ok v
  | _ => .error .malformed

/-- Finds the entries of the mapping at a place. -/
def visitEntries (s : Finding) (place : Nat) :
    Except Fault (List (Value × Nat) × Finding) := do
  let nodes ← s.nodes.merge s.bound place []
  let s := { s with nodes }
  (nodes.entries place).foldlM (fun (entries, s) (key, value) => do
    let s ← s.visit key
    let k ← s.keyAt key
    let s ← s.visit value
    return (Value.insertEntry k value entries, s)) ([], s)

/-- Finds the pairs in a list of mappings of one entry each. -/
def visitPairs (s : Finding) (items : List Nat) :
    Except Fault (List (Nat × Nat) × Finding) := do
  let (pairs, s) ← items.foldlM (fun (pairs, s) item =>
    match s.nodes.node item with
    | .mapping _ [(first, second)] => do
      let s ← s.visit first
      let s ← s.visit second
      return ((first, second) :: pairs, s)
    | _ => .error .malformed) (([] : List (Nat × Nat)), s)
  return (pairs.reverse, s)

/-- Finds the parts of the collection at a place. -/
def fill (s : Finding) (place : Nat) : Except Fault Finding :=
  match s.nodes.node place with
  | .list .list items => do
    let s ← items.foldlM visit s
    return s.put place (.list items)
  | .list .pairs items => do
    let (pairs, s) ← s.visitPairs items
    return s.put place (.pairs pairs)
  | .mapping .mapping _ => do
    let (entries, s) ← s.visitEntries place
    return s.put place (.mapping entries)
  | .mapping .set _ => do
    let (entries, s) ← s.visitEntries place
    return s.put place (.set (SetOrder.arrange (entries.map (·.1))))
  | _ => .error .malformed

/-- Finds the parts of the given collections, and then of those that wait. Each collection waits
    once, so that there is a bound on the steps. -/
def fillAll : Nat → List Nat → Finding → Except Fault Finding
  | 0, _, s => .ok s
  | bound + 1, [], s =>
    if s.waiting.isEmpty then .ok s
    else fillAll bound s.waiting.reverse { s with waiting := [] }
  | bound + 1, place :: places, s => do fillAll bound places (← s.fill place)

end Finding

/-- The objects that the nodes stand for which are parts of the one at the given place. -/
def Nodes.objects (nodes : Nodes) (root : Nat) : Except Fault Objects := do
  let s ← (Finding.start nodes).visit root
  let s ← Finding.fillAll (2 * nodes.all.size + 2) [] s
  return s.objects

end ProofPuzzles.Config.Yaml
