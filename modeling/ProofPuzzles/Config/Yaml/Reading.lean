import ProofPuzzles.Config.Yaml.Node
import ProofPuzzles.Config.Yaml.Token

/-!
# Reading documents from tokens

Makes the nodes of a document from its tokens. What names stand for is kept on the way, so that a
name can be used within the collection that it names.
-/

namespace ProofPuzzles.Config.Yaml

/-- What has been read of a document, and the tokens that are left. -/
structure Reading where
  tokens : List Token
  /-- What the handles of tags stand for. -/
  handles : List (String × String)
  /-- The places of the nodes with names. -/
  anchors : List (String × Nat) := []
  nodes : Nodes := {}

namespace Reading

def behind (r : Reading) (tokens : List Token) : Reading := { r with tokens }

/-- The fault of a token that does not belong here. -/
def unexpected {α : Type} (r : Reading) : Except Fault α :=
  match r.tokens with
  | .fault e :: _ => .error e
  | _ => .error .malformed

/-- Whether nothing follows that could be a value in a list of blocks or a mapping of blocks. -/
def endsBlockValue (r : Reading) : Bool :=
  match r.tokens with
  | .key :: _ | .value :: _ | .blockEnd :: _ => true
  | _ => false

/-- Whether nothing follows that could be a value between brackets. -/
def endsFlowValue (closing : Token) (r : Reading) : Bool :=
  match r.tokens with
  | .comma :: _ => true
  | t :: _ => t = closing
  | [] => false

/-- A tag as it is given: its name, if there is one. -/
structure GivenTag where
  name? : Option String

/-- The tag of a collection, or of a word that is not plain. A sole exclamation mark is no tag. -/
def GivenTag.orElse (given : GivenTag) (usual : Tag) : Tag :=
  match given.name? with
  | some name => if name = "!" then usual else Tag.ofName name
  | none => usual

/-- The tag of a word. With a sole exclamation mark it goes by its spelling even in quotes. -/
def GivenTag.ofScalar (given : GivenTag) (plain : Bool) (codes : List Nat) : Tag :=
  let spelled := Tag.ofPlain (codes.map Char.ofNat)
  match given.name? with
  | some name => if name = "!" then spelled else Tag.ofName name
  | none => if plain then spelled else .text

/-- The name of a tag whose handle stands for something. -/
def tagName (r : Reading) (handle? : Option String) (suffix : String) : Except Fault String :=
  match handle? with
  | none => .ok suffix
  | some handle =>
    match r.handles.find? (·.1 = handle) with
    | some (_, start) => .ok (start ++ suffix)
    | none => .error .malformed

/-- Adds a node, with a name if it has one. A name is given only once. -/
def add (r : Reading) (anchor? : Option String) (node : Node) : Except Fault (Nat × Reading) :=
  let place := r.nodes.all.size
  let r := { r with nodes := ⟨r.nodes.all.push node⟩ }
  match anchor? with
  | none => .ok (place, r)
  | some anchor =>
    if r.anchors.any (·.1 = anchor) then .error .malformed
    else .ok (place, { r with anchors := (anchor, place) :: r.anchors })

/-- Adds the node for what is left out. -/
def addAbsent (r : Reading) : Except Fault (Nat × Reading) := r.add none .absent

/-- The reading with another node at a place. -/
def put (r : Reading) (place : Nat) (node : Node) : Reading :=
  { r with nodes := r.nodes.put place node }

/-- The place of the node with the given name. -/
def lookup (r : Reading) (name : String) : Except Fault Nat :=
  match r.anchors.find? (·.1 = name) with
  | some (_, place) => .ok place
  | none => .error .malformed

/-- Goes on in front of the next token if it can be read. -/
def readable (r : Reading) : Except Fault Unit :=
  match r.tokens with
  | .fault e :: _ => .error e
  | _ => .ok ()

/-- The anchor and the tag in front of a node, in any order. -/
def properties (r : Reading) : Except Fault ((Option String × GivenTag) × Reading) :=
  match r.tokens with
  | .anchor anchor :: .tag handle? suffix :: rest => do
    let name ← r.tagName handle? suffix
    return ((some anchor, ⟨some name⟩), r.behind rest)
  | .anchor anchor :: rest => .ok ((some anchor, ⟨none⟩), r.behind rest)
  | .tag handle? suffix :: rest => do
    (r.behind rest).readable
    let name ← r.tagName handle? suffix
    match rest with
    | .anchor anchor :: rest => return ((some anchor, ⟨some name⟩), r.behind rest)
    | rest => return ((none, ⟨some name⟩), r.behind rest)
  | _ => .ok ((none, ⟨none⟩), r)

/-- A node that is left out behind its anchor or tag. -/
def empty (anchor? : Option String) (given : GivenTag) (r : Reading) :
    Except Fault (Nat × Reading) := do
  r.readable
  if anchor?.isNone && given.name?.isNone then r.unexpected
  else r.add anchor? (.scalar (given.ofScalar true []) [])

/-- Where a node stands. -/
inductive Place where
  /-- Between brackets. -/
  | flow
  /-- In a block. -/
  | block
  /-- In a mapping of blocks, where a list need not be indented. -/
  | entry
  deriving Repr, DecidableEq

mutual

/-- Reads a node. Every step takes a token, or is followed by one that does, so that there is a
    bound on the steps. -/
def node (place : Place) : Nat → Reading → Except Fault (Nat × Reading)
  | 0, _ => .error .malformed
  | bound + 1, r =>
    match r.tokens with
    | .alias name :: rest => do return (← r.lookup name, r.behind rest)
    | _ => do
      let ((anchor?, given), r) ← r.properties
      let listTag := given.orElse .list
      let mappingTag := given.orElse .mapping
      match r.tokens with
      | .scalar plain codes :: rest => do
        (r.behind rest).add anchor? (.scalar (given.ofScalar plain codes) codes)
      | .listStart :: rest => do
        let (whole, r) ← (r.behind rest).add anchor? (.list listTag [])
        let (items, r) ← flowItems bound true [] r
        return (whole, r.put whole (.list listTag items))
      | .mappingStart :: rest => do
        let (whole, r) ← (r.behind rest).add anchor? (.mapping mappingTag [])
        let (entries, r) ← flowEntries bound true [] r
        return (whole, r.put whole (.mapping mappingTag entries))
      | .item :: _ =>
        if place = .entry then do
          let (whole, r) ← r.add anchor? (.list listTag [])
          let (items, r) ← flatItems bound [] r
          return (whole, r.put whole (.list listTag items))
        else empty anchor? given r
      | .blockListStart :: rest =>
        if place = .flow then empty anchor? given r
        else do
          let (whole, r) ← (r.behind rest).add anchor? (.list listTag [])
          let (items, r) ← blockItems bound [] r
          return (whole, r.put whole (.list listTag items))
      | .blockMappingStart :: rest =>
        if place = .flow then empty anchor? given r
        else do
          let (whole, r) ← (r.behind rest).add anchor? (.mapping mappingTag [])
          let (entries, r) ← blockEntries bound [] r
          return (whole, r.put whole (.mapping mappingTag entries))
      | _ => empty anchor? given r

/-- Reads the items of a list of blocks up to its end. -/
def blockItems : Nat → List Nat → Reading → Except Fault (List Nat × Reading)
  | 0, _, _ => .error .malformed
  | bound + 1, items, r =>
    match r.tokens with
    | .item :: rest => do
      let r := r.behind rest
      let (item, r) ← match rest with
        | .item :: _ | .blockEnd :: _ => r.addAbsent
        | _ => node .block bound r
      blockItems bound (item :: items) r
    | .blockEnd :: rest => .ok (items.reverse, r.behind rest)
    | _ => r.unexpected

/-- Reads the items of a list that is not indented. -/
def flatItems : Nat → List Nat → Reading → Except Fault (List Nat × Reading)
  | 0, _, _ => .error .malformed
  | bound + 1, items, r =>
    match r.tokens with
    | .item :: rest => do
      let r := r.behind rest
      let (item, r) ← match rest with
        | .item :: _ | .key :: _ | .value :: _ | .blockEnd :: _ => r.addAbsent
        | _ => node .block bound r
      flatItems bound (item :: items) r
    | _ => do
      r.readable
      return (items.reverse, r)

/-- Reads the entries of a mapping of blocks up to its end. -/
def blockEntries : Nat → List (Nat × Nat) → Reading → Except Fault (List (Nat × Nat) × Reading)
  | 0, _, _ => .error .malformed
  | bound + 1, entries, r =>
    match r.tokens with
    | .key :: rest => do
      let r := r.behind rest
      let (key, r) ← if r.endsBlockValue then r.addAbsent else node .entry bound r
      let (value, r) ← match r.tokens with
        | .value :: rest =>
          let r := r.behind rest
          if r.endsBlockValue then r.addAbsent else node .entry bound r
        | _ => r.addAbsent
      blockEntries bound ((key, value) :: entries) r
    | .blockEnd :: rest => .ok (entries.reverse, r.behind rest)
    | _ => r.unexpected

/-- Reads a key between brackets and the value behind its colon, either of which can be left
    out. -/
def flowEntry (closing : Token) : Nat → Reading → Except Fault ((Nat × Nat) × Reading)
  | 0, _ => .error .malformed
  | bound + 1, r => do
    let ends (r : Reading) : Bool := r.endsFlowValue closing
    let (key, r) ←
      if ends r || r.tokens.head? = some .value then r.addAbsent else node .flow bound r
    let (value, r) ← match r.tokens with
      | .value :: rest =>
        let r := r.behind rest
        if ends r then r.addAbsent else node .flow bound r
      | _ => r.addAbsent
    return ((key, value), r)

/-- Reads the items of a list between brackets up to its end. An item can be a mapping of just one
    entry. -/
def flowItems : Nat → Bool → List Nat → Reading → Except Fault (List Nat × Reading)
  | 0, _, _, _ => .error .malformed
  | bound + 1, first, items, r =>
    match r.tokens with
    | .listEnd :: rest => .ok (items.reverse, r.behind rest)
    | tokens => do
      let r ← match first, tokens with
        | true, _ => pure r
        | false, .comma :: rest => pure (r.behind rest)
        | false, _ => r.unexpected
      match r.tokens with
      | .listEnd :: rest => return (items.reverse, r.behind rest)
      | .key :: rest =>
        let (item, r) ← (r.behind rest).add none (.mapping .mapping [])
        let (entry, r) ← flowEntry .listEnd bound r
        flowItems bound false (item :: items) (r.put item (.mapping .mapping [entry]))
      | _ =>
        let (item, r) ← node .flow bound r
        flowItems bound false (item :: items) r

/-- Reads the entries of a mapping between brackets up to its end. A word alone is a key. -/
def flowEntries :
    Nat → Bool → List (Nat × Nat) → Reading → Except Fault (List (Nat × Nat) × Reading)
  | 0, _, _, _ => .error .malformed
  | bound + 1, first, entries, r =>
    match r.tokens with
    | .mappingEnd :: rest => .ok (entries.reverse, r.behind rest)
    | tokens => do
      let r ← match first, tokens with
        | true, _ => pure r
        | false, .comma :: rest => pure (r.behind rest)
        | false, _ => r.unexpected
      match r.tokens with
      | .mappingEnd :: rest => return (entries.reverse, r.behind rest)
      | .key :: rest =>
        let (entry, r) ← flowEntry .mappingEnd bound (r.behind rest)
        flowEntries bound false (entry :: entries) r
      | _ =>
        let (key, r) ← node .flow bound r
        let (value, r) ← r.addAbsent
        flowEntries bound false ((key, value) :: entries) r

end

/-! ## Documents -/

/-- What the handles of tags stand for if nothing else is said. -/
def usualHandles : List (String × String) := [("!", "!"), ("!!", Tag.common)]

/-- Reads the directives in front of a document: the version at most once, and each handle at most
    once. -/
def directives (versioned : Bool) (handles : List (String × String)) :
    List Token → Except Fault (List (String × String) × List Token)
  | .directive (.version major) :: rest =>
    if versioned ∨ major ≠ 1 then .error .malformed else directives true handles rest
  | .directive (.handle name start) :: rest =>
    if handles.any (·.1 = name) then .error .malformed
    else directives versioned (handles ++ [(name, start)]) rest
  | .directive .other :: rest => directives versioned handles rest
  | rest => .ok (handles ++ usualHandles, rest)

/-- Whether the document whose start has been read has no content. -/
def isEmptyDocument : List Token → Bool
  | .directive _ :: _ | .documentStart :: _ | .documentEnd :: _ | .documentsEnd :: _ => true
  | _ => false

/-- Checks that nothing follows but signs that the documents are at their end. -/
def ended : List Token → Except Fault Unit
  | .documentEnd :: rest => ended rest
  | .documentsEnd :: _ => .ok ()
  | rest => unexpected { tokens := rest, handles := [] }

/-- The nodes of the only document, with the place of the outermost, from its content on. -/
def content (r : Reading) : Except Fault (Nodes × Nat) := do
  let (root, r) ← node .block (4 * r.tokens.length + 4) r
  ended r.tokens
  return (r.nodes, root)

/-- Reads a document whose start is marked. -/
def marked (tokens : List Token) : Except Fault (Nodes × Nat) := do
  let (handles, rest) ← directives false [] tokens
  match rest with
  | .documentStart :: rest =>
    if isEmptyDocument rest then
      ended rest
      return (⟨#[.absent]⟩, 0)
    else content { tokens := rest, handles }
  | rest => unexpected { tokens := rest, handles }

/-- The nodes of the only document that the tokens hold, if they hold one. -/
def document? (tokens : List Token) : Except Fault (Option (Nodes × Nat)) :=
  match tokens with
  | .documentsEnd :: _ => .ok none
  | .directive _ :: _ | .documentStart :: _ => (marked tokens).map some
  | tokens => (content { tokens, handles := usualHandles }).map some

end Reading

end ProofPuzzles.Config.Yaml
