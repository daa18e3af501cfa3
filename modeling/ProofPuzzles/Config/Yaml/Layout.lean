import ProofPuzzles.Config.Yaml.Block
import ProofPuzzles.Config.Yaml.Plain
import ProofPuzzles.Config.Yaml.Property
import ProofPuzzles.Config.Yaml.Quote
import ProofPuzzles.Config.Yaml.Token

/-!
# Layout of documents

Takes a document apart into tokens. Outside of brackets the indentation tells what is nested in
what: a block is open as long as nothing is indented less than it. Whether a word is a key can be
told only from the colon behind it, so the places where keys may have begun are kept, and the
tokens for a key are put in at its place once the colon is there.
-/

namespace ProofPuzzles.Config.Yaml

/-- A place where a key may have begun. -/
structure KeyPlace where
  /-- The number of tokens in front. -/
  tokens : Nat
  /-- Whether only a key can be here. -/
  required : Bool
  index : Nat
  line : Nat
  column : Nat

/-- How many characters a key without a sign in front has at most. -/
def maxKeyLength : Nat := 1024

/-- Whether the colon can still follow for a key at the place. It has to be on the same line. -/
def KeyPlace.isOpenAt (k : KeyPlace) (c : Cursor) : Bool :=
  k.line = c.line && c.index - k.index ≤ maxKeyLength

/-- A document that has been taken apart up to a place. -/
structure Layout where
  cursor : Cursor
  /-- The tokens, the last one first. -/
  tokens : List Token := []
  /-- The number of tokens. -/
  count : Nat := 0
  /-- The columns of the open blocks, from the innermost to the outermost. -/
  blocks : List Nat := []
  /-- Whether a key may begin here. -/
  keyAllowed : Bool := true
  /-- Where a key may have begun, between the innermost open brackets. -/
  key? : Option KeyPlace := none
  /-- Where keys may have begun outside of these, for each open bracket. -/
  outerKeys : List (Option KeyPlace) := []
  finished : Bool := false

namespace Layout

/-- Whether brackets are open. -/
def inFlow (l : Layout) : Bool := !l.outerKeys.isEmpty

/-- Adds a token. -/
def push (l : Layout) (t : Token) : Layout :=
  { l with tokens := t :: l.tokens, count := l.count + 1 }

/-- Puts in a token behind the given number of tokens. -/
def insert (l : Layout) (place : Nat) (t : Token) : Layout :=
  let (behind, before) := l.tokens.splitAt (l.count - place)
  { l with tokens := behind ++ t :: before, count := l.count + 1 }

/-- Adds a token and goes on behind as many characters. -/
def pushOver (l : Layout) (t : Token) (length : Nat) : Layout :=
  { l.push t with cursor := l.cursor.skip length }

/-! ## Places of keys -/

/-- The place of a key, unless the colon can no longer follow. -/
def refreshed (c : Cursor) : Option KeyPlace → Except Fault (Option KeyPlace)
  | none => .ok none
  | some k =>
    if k.isOpenAt c then .ok (some k)
    else if k.required then .error .malformed
    else .ok none

/-- Gives up the places of keys for which the colon can no longer follow. -/
def refreshKeys (l : Layout) : Except Fault Layout := do
  return { l with
    key? := ← refreshed l.cursor l.key?
    outerKeys := ← l.outerKeys.mapM (refreshed l.cursor) }

/-- Gives up the place of a key. -/
def dropKey (l : Layout) : Except Fault Layout :=
  match l.key? with
  | some k => if k.required then .error .malformed else .ok { l with key? := none }
  | none => .ok l

/-- Keeps the place as one where a key may begin. A word at the column of its block can only be a
    key. -/
def keepKey (l : Layout) : Except Fault Layout :=
  if l.keyAllowed then do
    let l ← l.dropKey
    let c := l.cursor
    let required := !l.inFlow && l.blocks.head? = some c.column
    return { l with key? := some ⟨l.count, required, c.index, c.line, c.column⟩ }
  else .ok l

/-- How many tokens stay as they are, whatever follows: those in front of all places of keys. -/
def settled (l : Layout) : Nat :=
  (l.key? :: l.outerKeys).foldl (fun n key? =>
    match key? with
    | some k => if k.isOpenAt l.cursor then min n k.tokens else n
    | none => n) l.count

/-! ## Blocks -/

/-- Closes as many blocks. -/
def close (l : Layout) (closed : Nat) : Layout :=
  { l with
    blocks := l.blocks.drop closed
    tokens := List.replicate closed .blockEnd ++ l.tokens
    count := l.count + closed }

/-- Closes the blocks that are indented further than a column. -/
def closeBlocks (l : Layout) (column : Nat) : Layout :=
  if l.inFlow then l else l.close (l.blocks.takeWhile (column < ·)).length

/-- Closes all blocks. -/
def closeAll (l : Layout) : Layout :=
  if l.inFlow then l else l.close l.blocks.length

/-- Whether a block at the column is nested in the open ones. -/
def opens (l : Layout) (column : Nat) : Bool :=
  match l.blocks with
  | [] => true
  | block :: _ => block < column

/-- Opens a block at a column, with its token behind the given number of tokens, unless there is
    one. -/
def openBlock (l : Layout) (column place : Nat) (t : Token) : Layout :=
  if l.opens column then { l.insert place t with blocks := column :: l.blocks } else l

/-- Opens a block here, which outside of brackets has to be at a place where a key may begin. -/
def openBlockHere (l : Layout) (t : Token) : Except Fault Layout :=
  if l.inFlow then .ok l
  else if !l.keyAllowed then .error .malformed
  else .ok (l.openBlock l.cursor.column l.count t)

/-! ## Tokens -/

/-- The place behind spaces, comments and the ends of lines, and whether a line ended. The bound is
    above the number of characters. -/
def nextPlace : Nat → Bool → Cursor → Bool × Cursor
  | 0, lineEnded, c => (lineEnded, c)
  | bound + 1, lineEnded, c =>
    match c.dropSpaces.dropComment.takeBreak with
    | (none, c) => (lineEnded, c)
    | (some _, c) => nextPlace bound true c

/-- Goes to the next token. Outside of brackets a key may begin on a new line. -/
def toNextToken (bound : Nat) (l : Layout) : Layout :=
  let (lineEnded, cursor) := nextPlace bound false l.cursor
  { l with cursor, keyAllowed := l.keyAllowed || lineEnded && !l.inFlow }

/-- Ends what is open, in front of a document, of a directive, or of the end. -/
def endDocument (l : Layout) : Except Fault Layout := do
  return { ← l.closeAll.dropKey with keyAllowed := false }

/-- Reads an opening bracket. -/
def openFlow (l : Layout) (t : Token) : Except Fault Layout := do
  let l ← l.keepKey
  return { l.pushOver t 1 with
    key? := none
    outerKeys := l.key? :: l.outerKeys
    keyAllowed := true }

/-- Reads a closing bracket. -/
def closeFlow (l : Layout) (t : Token) : Except Fault Layout := do
  let l ← l.dropKey
  return { l.pushOver t 1 with
    key? := l.outerKeys.head?.join
    outerKeys := l.outerKeys.tail
    keyAllowed := false }

/-- Reads a comma between brackets. -/
def readComma (l : Layout) : Except Fault Layout := do
  let l ← l.dropKey
  return { l.pushOver .comma 1 with keyAllowed := true }

/-- Reads the hyphen in front of an item. -/
def readItem (l : Layout) : Except Fault Layout := do
  let l ← (← l.openBlockHere .blockListStart).dropKey
  return { l.pushOver .item 1 with keyAllowed := true }

/-- Reads the question mark in front of a key. -/
def readKey (l : Layout) : Except Fault Layout := do
  let l ← (← l.openBlockHere .blockMappingStart).dropKey
  return { l.pushOver .key 1 with keyAllowed := !l.inFlow }

/-- Reads the colon in front of a value. If a key may have begun, it has. -/
def readValue (l : Layout) : Except Fault Layout :=
  match l.key? with
  | some k =>
    let l := { l with key? := none, keyAllowed := false }.insert k.tokens .key
    let l := if l.inFlow then l else l.openBlock k.column k.tokens .blockMappingStart
    .ok (l.pushOver .value 1)
  | none => do
    let l ← (← l.openBlockHere .blockMappingStart).dropKey
    return { l.pushOver .value 1 with keyAllowed := !l.inFlow }

/-- Adds a token that may be a key, or the start of one, up to a place. -/
def pushWord (l : Layout) (found : Except Fault (Token × Cursor)) : Except Fault Layout := do
  let l ← l.keepKey
  let (t, cursor) ← found
  return { l.push t with cursor, keyAllowed := false }

/-- Reads a block of lines. -/
def readLines (l : Layout) (fold : Bool) : Except Fault Layout := do
  let l ← l.dropKey
  match Block.read? fold l.blocks.head? l.cursor with
  | some (text, cursor) =>
    return { l.push (.scalar false (text.map Char.toNat)) with cursor, keyAllowed := true }
  | none => throw .malformed

def readQuoted (l : Layout) (double : Bool) : Except Fault Layout :=
  l.pushWord ((Quote.read double l.cursor).map fun (codes, c) => (.scalar false codes, c))

/-- Reads a plain text. A key may follow if it is on a new line. -/
def readPlain (l : Layout) : Except Fault Layout := do
  let l ← l.keepKey
  let indent := match l.blocks.head? with
    | some column => column + 1
    | none => 0
  let (text, lineEnded, cursor) := Plain.read l.inFlow indent l.cursor
  return { l.push (.scalar true (text.map Char.toNat)) with cursor, keyAllowed := lineEnded }

/-- Reads the token that begins here. -/
def readToken (l : Layout) : Except Fault Layout :=
  let c := l.cursor
  let followed := l.inFlow || endsWord (c.peekAt? 1)
  match c.peek? with
  | none => do return { ← l.endDocument with finished := true }.push .documentsEnd
  | some ch =>
    if c.column = 0 && ch = '%' then do
      let l ← l.endDocument
      let (d, cursor) ← Property.directive c
      return { l.push (.directive d) with cursor }
    else if c.column = 0 && c.isAtMark '-' then do
      return (← l.endDocument).pushOver .documentStart 3
    else if c.column = 0 && c.isAtMark '.' then do
      return (← l.endDocument).pushOver .documentEnd 3
    else match ch with
    | '[' => l.openFlow .listStart
    | '\x7b' => l.openFlow .mappingStart
    | ']' => l.closeFlow .listEnd
    | '\x7d' => l.closeFlow .mappingEnd
    | ',' => l.readComma
    | '*' => l.pushWord ((Property.anchorName c).map fun (name, c) => (.alias name, c))
    | '&' => l.pushWord ((Property.anchorName c).map fun (name, c) => (.anchor name, c))
    | '!' => l.pushWord (Property.tag c)
    | '\'' => l.readQuoted false
    | '"' => l.readQuoted true
    | ch =>
      if ch = '-' && endsWord (c.peekAt? 1) then l.readItem
      else if ch = '?' && followed then l.readKey
      else if ch = ':' && followed then l.readValue
      else if ch = '|' && !l.inFlow then l.readLines false
      else if ch = '>' && !l.inFlow then l.readLines true
      else if Plain.startsAt l.inFlow c then l.readPlain
      else .error .malformed

/-- Reads the next token. -/
def step (bound : Nat) (l : Layout) : Except Fault Layout := do
  let l ← (l.toNextToken bound).refreshKeys
  (l.closeBlocks l.cursor.column).readToken

/-- The tokens up to the end, or up to a fault. In front of a fault there are only tokens that
    would stay as they are. The bound is above the number of characters, of which each token has at
    least one. -/
def allTokens : Nat → Layout → List Token
  | 0, l => l.tokens.reverse
  | bound + 1, l =>
    if l.finished then l.tokens.reverse
    else match l.step (bound + 1) with
      | .ok l => allTokens bound l
      | .error e => l.tokens.reverse.take l.settled ++ [.fault e]

end Layout

/-- The tokens of a document. -/
def tokensOf (cs : List Char) : List Token :=
  Layout.allTokens (cs.length + 2) { cursor := { rest := cs } }

end ProofPuzzles.Config.Yaml
