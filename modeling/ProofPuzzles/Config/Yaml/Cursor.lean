/-!
# Places in a document

A cursor stands between two characters of a document and knows the line and the column. A line
ends at a line feed, a line separator or a paragraph separator.
-/

namespace ProofPuzzles.Config.Yaml

/-- Whether the character ends a line. -/
def isBreak (c : Char) : Bool := c = '\n' || c.toNat = 0x2028 || c.toNat = 0x2029

/-- Whether the character is a space or a tab. -/
def isGap (c : Char) : Bool := c = ' ' || c = '\t'

/-- Whether the line or the text ends here. -/
def endsLine : Option Char → Bool
  | none => true
  | some c => isBreak c

/-- Whether a space stands here, or the line or the text ends. -/
def endsField : Option Char → Bool
  | none => true
  | some c => c = ' ' || isBreak c

/-- Whether a space or a tab stands here, or the line or the text ends. -/
def endsWord : Option Char → Bool
  | none => true
  | some c => isGap c || isBreak c

/-- A place in a document. -/
structure Cursor where
  /-- The characters that follow. -/
  rest : List Char
  /-- The number of characters in front. -/
  index : Nat := 0
  line : Nat := 0
  column : Nat := 0

namespace Cursor

/-- The next character. -/
def peek? (c : Cursor) : Option Char := c.rest.head?

/-- The character after as many others. -/
def peekAt? (c : Cursor) (n : Nat) : Option Char := c.rest[n]?

/-- The place behind the next character. The mark that tells the order of bytes takes no column. -/
def next (c : Cursor) : Cursor :=
  match c.rest with
  | [] => c
  | ch :: rest =>
    if isBreak ch then ⟨rest, c.index + 1, c.line + 1, 0⟩
    else ⟨rest, c.index + 1, c.line, if ch.toNat = 0xfeff then c.column else c.column + 1⟩

/-- The place behind the given number of characters. -/
def skip : Nat → Cursor → Cursor
  | 0, c => c
  | n + 1, c => skip n c.next

/-- The characters that satisfy a condition up to the first that does not, and the place there. -/
def takeWhile (condition : Char → Bool) (c : Cursor) : List Char × Cursor :=
  let taken := c.rest.takeWhile condition
  (taken, c.skip taken.length)

/-- The place of the first character that does not satisfy a condition. -/
def dropWhile (condition : Char → Bool) (c : Cursor) : Cursor := (c.takeWhile condition).2

/-- The place behind spaces. -/
def dropSpaces (c : Cursor) : Cursor := c.dropWhile (· = ' ')

/-- The place behind a comment, if one begins here. -/
def dropComment (c : Cursor) : Cursor :=
  if c.peek? = some '#' then c.dropWhile (!isBreak ·) else c

/-- The character that ends the line here, if the line ends here, and the place behind it. -/
def takeBreak (c : Cursor) : Option Char × Cursor :=
  match c.peek? with
  | some ch => if isBreak ch then (some ch, c.next) else (none, c)
  | none => (none, c)

/-- The place on the next line if nothing but spaces and a comment is left of this one. -/
def endLine? (c : Cursor) : Option Cursor :=
  let c := c.dropSpaces.dropComment
  if endsLine c.peek? then some c.takeBreak.2 else none

/-- Whether a word of three given characters stands here. -/
def isAtMark (mark : Char) (c : Cursor) : Bool :=
  c.rest.take 3 = [mark, mark, mark] && endsWord (c.peekAt? 3)

/-- Whether a row of hyphens or points stands here, which ends a document if a line begins
    here. -/
def isAtDocumentMark (c : Cursor) : Bool := c.isAtMark '-' || c.isAtMark '.'

end Cursor

/-- What the break of a line and the breaks right after it count as inside a word: a single line
    feed counts as a space, and in front of other breaks as nothing. -/
def folded (first : Char) (more : List Char) : List Char :=
  if first ≠ '\n' then first :: more
  else if more.isEmpty then [' ']
  else more

end ProofPuzzles.Config.Yaml
