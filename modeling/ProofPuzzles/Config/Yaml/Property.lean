import ProofPuzzles.Config.Yaml.Cursor
import ProofPuzzles.Config.Yaml.Quote
import ProofPuzzles.Config.Yaml.Token

/-!
# Anchors, tags and directives

What can stand in front of a value, its name and its tag, and in front of a document. A tag is a
resource name, whose first part can be given by a handle.
-/

namespace ProofPuzzles.Config.Yaml.Property

/-- Whether the character can be part of the name of an anchor, a handle or a directive. -/
def isNameChar (c : Char) : Bool := c.isAlphanum || c = '-' || c = '_'

/-- The text that characters make, or a fault if there are none. -/
def nonempty (cs : List Char) : Except Fault String :=
  if cs.isEmpty then .error .malformed else .ok (String.ofList cs)

/-- Goes on behind a part of the document if what follows there ends it. -/
def ended (ends : Option Char → Bool) (c : Cursor) : Except Fault Cursor :=
  if ends c.peek? then .ok c else .error .malformed

/-- Whether the name of an anchor can end here. -/
def endsAnchor : Option Char → Bool
  | none => true
  | some c =>
    endsWord (some c) || ['?', ':', ',', ']', '\x7d', '%', '@', Char.ofNat 0x60].contains c

/-- The name of an anchor, from the sign in front of it on. -/
def anchorName (c : Cursor) : Except Fault (String × Cursor) := do
  let (name, c) := c.next.takeWhile isNameChar
  return (← nonempty name, ← ended endsAnchor c)

/-- Whether the character can be part of a resource name. -/
def isResourceChar (c : Char) : Bool :=
  c.isAlphanum || "-;/?:@&=+$,_.!~*'()[]".toList.contains c

/-- The bytes that are written as percent signs with two hexadecimal digits each. The bound is
    above the number of characters. -/
def escapedBytes : Nat → Cursor → Except Fault (List Nat × Cursor)
  | 0, c => .ok ([], c)
  | bound + 1, c =>
    if c.peek? = some '%' then
      match Quote.hexNumber? (c.next.rest.take 2) with
      | some byte =>
        if c.rest.length < 3 then .error .malformed
        else (escapedBytes bound (c.skip 3)).map fun (bytes, c) => (byte :: bytes, c)
      | none => .error .malformed
    else .ok ([], c)

/-- The text whose encoding in bytes is given. -/
def textOfBytes (bytes : List Nat) : Except Fault (List Char) :=
  match String.fromUTF8? ⟨(bytes.map Nat.toUInt8).toArray⟩ with
  | some s => .ok s.toList
  | none => .error .malformed

/-- The characters of a resource name. -/
def resourceChars : Nat → Cursor → Except Fault (List Char × Cursor)
  | 0, c => .ok ([], c)
  | bound + 1, c =>
    if c.peek? = some '%' then do
      let (bytes, c) ← escapedBytes (bound + 1) c
      let first ← textOfBytes bytes
      let (more, c) ← resourceChars bound c
      return (first ++ more, c)
    else
      let (first, c) := c.takeWhile isResourceChar
      if first.isEmpty then .ok ([], c)
      else (resourceChars bound c).map fun (more, c) => (first ++ more, c)

/-- A resource name. -/
def resource (c : Cursor) : Except Fault (String × Cursor) := do
  let (cs, after) ← resourceChars (c.rest.length + 1) c
  if after.index = c.index then throw .malformed
  return (String.ofList cs, after)

/-- A handle: an exclamation mark, and perhaps a name with another one behind it. -/
def handle (c : Cursor) : Except Fault (String × Cursor) :=
  if c.peek? ≠ some '!' then .error .malformed
  else
    let (name, after) := c.next.takeWhile isNameChar
    if after.peek? = some '!' then .ok (String.ofList ('!' :: name ++ ['!']), after.next)
    else if name.isEmpty && after.peek? = some ' ' then .ok ("!", after)
    else .error .malformed

/-- Whether an exclamation mark stands behind the first one, before a space or the end of the
    line. -/
def hasHandle (c : Cursor) : Bool :=
  (c.next.rest.takeWhile fun ch => !endsField (some ch)).contains '!'

/-- A tag: a resource name between angle brackets, a sole exclamation mark, or a handle with the
    rest of a resource name. -/
def tag (c : Cursor) : Except Fault (Token × Cursor) := do
  let (token, c) ←
    if c.peekAt? 1 = some '<' then do
      let (suffix, c) ← resource (c.skip 2)
      if c.peek? ≠ some '>' then throw .malformed
      pure (Token.tag none suffix, c.next)
    else if endsWord (c.peekAt? 1) then pure (Token.tag none "!", c.next)
    else do
      let (name, c) ← if hasHandle c then handle c else pure ("!", c.next)
      let (suffix, c) ← resource c
      pure (Token.tag (some name) suffix, c)
  return (token, ← ended endsField c)

/-- A number of a version. -/
def versionNumber (c : Cursor) : Except Fault (Nat × Cursor) :=
  let (digits, c) := c.takeWhile Char.isDigit
  if digits.isEmpty then .error .malformed
  else match Decimal.integer 10 digits with
    | .ok n => .ok (n.toNat, c)
    | .error (.tooLong count) => .error (.number (.tooManyDigits count))
    | .error .malformed => .error .malformed

/-- The version of the language: two numbers with a point between them. -/
def version (c : Cursor) : Except Fault (Directive × Cursor) := do
  let (major, c) ← versionNumber c.dropSpaces
  if c.peek? ≠ some '.' then throw .malformed
  let (_, c) ← versionNumber c.next
  return (.version major, ← ended endsField c)

/-- What a handle stands for. -/
def handleMeaning (c : Cursor) : Except Fault (Directive × Cursor) := do
  let (name, c) ← handle c.dropSpaces
  let c ← ended (· = some ' ') c
  let (start, c) ← resource c.dropSpaces
  return (.handle name start, ← ended endsField c)

/-- A directive, from the percent sign on, up to the end of its line. -/
def directive (c : Cursor) : Except Fault (Directive × Cursor) := do
  let (name, c) := c.next.takeWhile isNameChar
  let name ← nonempty name
  let c ← ended endsField c
  let (found, c) ←
    if name = "YAML" then version c
    else if name = "TAG" then handleMeaning c
    else pure (Directive.other, c.dropWhile (!isBreak ·))
  match c.endLine? with
  | some c => return (found, c)
  | none => throw .malformed

end ProofPuzzles.Config.Yaml.Property
