import ProofPuzzles.Text.Printable

/-!
# Quoted text

How a message shows a text: between quotes, on one line, with every character that could not
be seen written as an escape.
-/

namespace ProofPuzzles.Text

/-- The number in hexadecimal with lowercase digits, padded with zeros to the given width. -/
def hexadecimal (width n : Nat) : List Char :=
  let digits := Nat.toDigits 16 n
  List.replicate (width - digits.length) '0' ++ digits

/-- One character inside the given quotes. The backslash and the quote itself are escaped;
    unprintable characters are escaped by the shortest of three widths that holds them. -/
def escapeChar (quote c : Char) : List Char :=
  if c = quote ∨ c = '\\' then ['\\', c]
  else if c = '\t' then ['\\', 't']
  else if c = '\n' then ['\\', 'n']
  else if c = '\r' then ['\\', 'r']
  else if isPrintable c then [c]
  else if c.toNat < 0x100 then '\\' :: 'x' :: hexadecimal 2 c.toNat
  else if c.toNat < 0x10000 then '\\' :: 'u' :: hexadecimal 4 c.toNat
  else '\\' :: 'U' :: hexadecimal 8 c.toNat

/-- Single quotes, unless the text holds a single quote and no double one. -/
def quoteFor (cs : List Char) : Char :=
  if cs.contains '\'' && !cs.contains '"' then '"' else '\''

/-- The text between quotes, escaped. -/
def quoted (s : String) : String :=
  let quote := quoteFor s.toList
  String.ofList (quote :: s.toList.flatMap (escapeChar quote) ++ [quote])

/-- One code of a text. A code that is no character is escaped by its number. -/
def escapeCode (quote : Char) (code : Nat) : List Char :=
  if code.isValidChar then escapeChar quote (Char.ofNat code)
  else '\\' :: 'u' :: hexadecimal 4 code

/-- A text of codes, not all of which need be characters, between quotes. -/
def quotedCodes (codes : List Nat) : String :=
  let quote := quoteFor (codes.map Char.ofNat)
  String.ofList (quote :: codes.flatMap (escapeCode quote) ++ [quote])

/-- One byte inside the given quotes. Bytes that are no visible characters of the ASCII are
    escaped. -/
def escapeByte (quote : Char) (byte : Nat) : List Char :=
  if byte < 0x80 then escapeChar quote (Char.ofNat byte)
  else '\\' :: 'x' :: hexadecimal 2 byte

/-- Bytes between quotes, behind a letter. -/
def quotedBytes (bytes : List Nat) : String :=
  let quote := quoteFor (bytes.map Char.ofNat)
  String.ofList ('b' :: quote :: bytes.flatMap (escapeByte quote) ++ [quote])

/-- Quoted texts between brackets, separated by commas. -/
def quotedList (texts : List String) : String :=
  "[" ++ ", ".intercalate (texts.map quoted) ++ "]"

end ProofPuzzles.Text
