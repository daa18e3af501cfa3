import ProofPuzzles.Config.Yaml.Cursor

/-!
# Plain texts

A text without quotes. It ends at a colon that makes it a key and at a comment, and between
brackets also at a comma, a question mark or a bracket. Otherwise it can go on over lines, whose
breaks are folded, as long as these are indented.
-/

namespace ProofPuzzles.Config.Yaml.Plain

/-- Characters that end a plain text between brackets. -/
def flowMarks : List Char := [',', '?', '[', ']', '\x7b', '\x7d']

/-- Characters that cannot begin a plain text, except that some of them can if something follows
    directly. -/
def indicators : List Char :=
  ['-', '?', ':', ',', '[', ']', '\x7b', '\x7d', '#', '&', '*', '!', '|', '>', '\'', '"', '%', '@',
    Char.ofNat 0x60]

/-- Whether a plain text begins here. -/
def startsAt (inFlow : Bool) (c : Cursor) : Bool :=
  match c.rest with
  | [] => false
  | ch :: rest =>
    !(isGap ch || isBreak ch || indicators.contains ch)
      || !endsWord rest.head? && (ch = '-' || !inFlow && (ch = '?' || ch = ':'))

/-- Whether a word ends in front of these characters. -/
def stops (inFlow : Bool) : List Char → Bool
  | [] => true
  | ch :: rest =>
    isGap ch || isBreak ch
      || ch = ':' && (endsWord rest.head? || inFlow && match rest.head? with
        | some next => [',', '[', ']', '\x7b', '\x7d'].contains next
        | none => true)
      || inFlow && flowMarks.contains ch

/-- The characters of a word. -/
def word (inFlow : Bool) : List Char → List Char
  | [] => []
  | ch :: rest => if stops inFlow (ch :: rest) then [] else ch :: word inFlow rest

/-- The breaks of lines with nothing but spaces between them, from the start of a line on. There
    is no answer if a document ends there. The bound is above the number of characters. -/
def breaks : Nat → Cursor → Option (List Char) × Cursor
  | 0, c => (some [], c)
  | bound + 1, c =>
    if c.isAtDocumentMark then (none, c)
    else
      let c := c.dropSpaces
      match c.takeBreak with
      | (none, c) => (some [], c)
      | (some ch, c) =>
        let (more?, c) := breaks bound c
        (more?.map (ch :: ·), c)

/-- What stands between two words counts as, whether a line ends there, and the place behind it. -/
def space (bound : Nat) (c : Cursor) : List Char × Bool × Cursor :=
  let (spaces, c) := c.takeWhile (· = ' ')
  match c.takeBreak with
  | (none, c) => (spaces, false, c)
  | (some ch, c) =>
    match breaks bound c with
    | (none, c) => ([], true, c)
    | (some more, c) => (folded ch more, true, c)

/-- The words from here on with what is between them, after a space that counts only if a word
    follows. It comes with whether a line ends behind the last word, and with the place there. -/
def words (inFlow : Bool) (indent : Nat) :
    Nat → List Char → Bool → Cursor → List Char × Bool × Cursor
  | 0, _, lineEnded, c => ([], lineEnded, c)
  | bound + 1, before, lineEnded, c =>
    let found := word inFlow c.rest
    if found.isEmpty || c.peek? = some '#' then ([], lineEnded, c)
    else
      let (after, lineEnded, c) := space (bound + 1) (c.skip found.length)
      if after.isEmpty || c.peek? = some '#' || !inFlow && c.column < indent then
        (before ++ found, lineEnded, c)
      else
        let (more, lineEnded, c) := words inFlow indent bound after lineEnded c
        (before ++ found ++ more, lineEnded, c)

/-- The plain text from here on, whether a line ends behind it, and the place there. Lines that go
    on with it are indented at least as far as told, except between brackets. -/
def read (inFlow : Bool) (indent : Nat) (c : Cursor) : List Char × Bool × Cursor :=
  words inFlow indent (c.rest.length + 1) [] false c

end ProofPuzzles.Config.Yaml.Plain
