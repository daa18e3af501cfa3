import ProofPuzzles.Config.Yaml.Cursor

/-!
# Blocks of lines

A text that is written as indented lines below its header. The lines are kept or folded, and the
header can say how far they are indented and what becomes of the breaks at the end.
-/

namespace ProofPuzzles.Config.Yaml.Block

/-- What becomes of the breaks at the end of the lines. -/
inductive Chomping where
  /-- The first break is kept. -/
  | clip
  | strip
  | keep
  deriving Repr, DecidableEq

/-- What a header says. -/
structure Header where
  chomping : Chomping := .clip
  /-- How much further the lines are indented than what they belong to. -/
  indentation? : Option Nat := none

/-- The sign for what becomes of the breaks at the end. -/
def chomping? : Option Char → Option Chomping
  | some '+' => some .keep
  | some '-' => some .strip
  | _ => none

/-- The digit for the indentation. Zero is none. -/
def takeIndentation (c : Cursor) : Option (Option Nat × Cursor) :=
  match c.peek? with
  | some ch =>
    if ch = '0' then none
    else if ch.isDigit then some (some (ch.toNat - 48), c.next)
    else some (none, c)
  | none => some (none, c)

/-- The header, from behind its first character on: a sign and a digit, in any order. -/
def header? (c : Cursor) : Option (Header × Cursor) := do
  let (header, c) ← match chomping? c.peek? with
    | some chomping => do
      let (indentation?, c) ← takeIndentation c.next
      pure ({ chomping, indentation? : Header }, c)
    | none => do
      let (indentation?, c) ← takeIndentation c
      match indentation?, chomping? c.peek? with
      | some _, some chomping => pure ({ chomping, indentation? : Header }, c.next)
      | _, _ => pure ({ indentation? : Header }, c)
  if endsField c.peek? then return (header, ← c.endLine?) else none

/-- The breaks of lines that are empty or hold nothing but spaces, the furthest column that these
    reach, and the place behind them. The bound is above the number of characters. -/
def leadingBreaks : Nat → Nat → Cursor → List Char × Nat × Cursor
  | 0, furthest, c => ([], furthest, c)
  | bound + 1, furthest, c =>
    let c := c.dropSpaces
    let furthest := max furthest c.column
    match c.takeBreak with
    | (none, c) => ([], furthest, c)
    | (some ch, c) =>
      let (more, furthest, c) := leadingBreaks bound furthest c
      (ch :: more, furthest, c)

/-- The place behind spaces, but not behind the given column. -/
def dropIndentation (indent : Nat) (c : Cursor) : Cursor :=
  let spaces := (c.takeWhile (· = ' ')).1.length
  c.skip (min spaces (indent - c.column))

/-- The breaks of lines that hold nothing but their indentation, and the place behind them. -/
def breaks (indent : Nat) : Nat → Cursor → List Char × Cursor
  | 0, c => ([], c)
  | bound + 1, c =>
    let c := dropIndentation indent c
    match c.takeBreak with
    | (none, c) => ([], c)
    | (some ch, c) =>
      let (more, c) := breaks indent bound c
      (ch :: more, c)

/-- Whether a line of the block goes on here. -/
def isInside (indent : Nat) (c : Cursor) : Bool := c.column = indent && c.peek?.isSome

/-- Whether a space or a tab stands here. -/
def isAtGap (c : Cursor) : Bool :=
  match c.peek? with
  | some ch => isGap ch
  | none => false

/-- Lines that have been read. -/
structure Lines where
  text : List Char
  /-- The break behind the last line. -/
  lastBreak? : Option Char
  /-- The breaks behind that. -/
  more : List Char
  place : Cursor

/-- Reads the lines from here on, in front of which there are breaks. Between two folded lines that
    do not begin with a gap, a single line feed counts as a space. -/
def lines (fold : Bool) (indent : Nat) : Nat → List Char → Cursor → Lines
  | 0, before, c => ⟨[], none, before, c⟩
  | bound + 1, before, c =>
    if !isInside indent c then ⟨[], none, before, c⟩
    else
      let gapped := isAtGap c
      let (line, c) := c.takeWhile (!isBreak ·)
      let (break?, c) := c.takeBreak
      let (after, c) := breaks indent (bound + 1) c
      if !isInside indent c then ⟨before ++ line, break?, after, c⟩
      else
        let joint :=
          if fold && break? = some '\n' && !gapped && !isAtGap c then
            if after.isEmpty then [' '] else []
          else break?.toList
        let later := lines fold indent bound after c
        { later with text := before ++ line ++ joint ++ later.text }

def Lines.chomped (l : Lines) : Chomping → List Char
  | .strip => l.text
  | .clip => l.text ++ l.lastBreak?.toList
  | .keep => l.text ++ l.lastBreak?.toList ++ l.more

/-- The text from the first character of the header on. The lines are indented further than the
    column of what they belong to, if there is such a column. -/
def read? (fold : Bool) (outer? : Option Nat) (c : Cursor) : Option (List Char × Cursor) := do
  let bound := c.rest.length + 1
  let (header, c) ← header? c.next
  let least := match outer? with
    | some column => column + 1
    | none => 1
  let found := match header.indentation? with
    | some n =>
      let indent := least + n - 1
      let (before, c) := breaks indent bound c
      lines fold indent bound before c
    | none =>
      let (before, furthest, c) := leadingBreaks bound 0 c
      lines fold (max least furthest) bound before c
  return (found.chomped header.chomping, found.place)

end ProofPuzzles.Config.Yaml.Block
