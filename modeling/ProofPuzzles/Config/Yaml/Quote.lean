import ProofPuzzles.Config.Yaml.Cursor
import ProofPuzzles.Config.Yaml.Fault
import ProofPuzzles.Decimal.Numeral

/-!
# Quoted texts

A text between single quotes, in which a quote is written twice, or between double quotes, in
which a backslash begins an escape. The text can go on over lines, whose breaks are folded.
-/

namespace ProofPuzzles.Config.Yaml.Quote

/-- The code that an escape of one letter stands for. -/
def simpleEscape? : Char → Option Nat
  | '0' => some 0
  | 'a' => some 7
  | 'b' => some 8
  | 't' => some 9
  | '\t' => some 9
  | 'n' => some 10
  | 'v' => some 11
  | 'f' => some 12
  | 'r' => some 13
  | 'e' => some 27
  | ' ' => some 32
  | '"' => some 34
  | '/' => some 47
  | '\\' => some 92
  | 'N' => some 0x85
  | '_' => some 0xa0
  | 'L' => some 0x2028
  | 'P' => some 0x2029
  | _ => none

/-- How many hexadecimal digits follow the letter of an escape. -/
def escapeWidth? : Char → Option Nat
  | 'x' => some 2
  | 'u' => some 4
  | 'U' => some 8
  | _ => none

/-- The value of a hexadecimal digit. -/
def hexDigit? (c : Char) : Option Nat :=
  if c.toNat < 0x80 then Decimal.digitValue? 16 c else none

/-- The number with as many hexadecimal digits as there are characters. -/
def hexNumber? (cs : List Char) : Option Nat := (cs.mapM hexDigit?).map (Decimal.ofDigits 16)

/-- The greatest code. -/
def maxCode : Nat := 0x10ffff

/-- The greatest number that could be a code. -/
def maxSmallNumber : Nat := 0x7fffffff

/-- The code that an escape of digits stands for. Not all codes are characters. -/
def codeOf (n : Nat) : Except Fault Nat :=
  if maxSmallNumber < n then .error .codeTooLarge
  else if maxCode < n then .error .codeOutside
  else .ok n

/-- The breaks of lines with nothing but gaps between them, from the start of a line on. No
    document may end inside a text. The bound is above the number of characters. -/
def breaks : Nat → Cursor → Except Fault (List Char × Cursor)
  | 0, c => .ok ([], c)
  | bound + 1, c =>
    if c.isAtDocumentMark then .error .malformed
    else
      let c := c.dropWhile isGap
      match c.takeBreak with
      | (none, c) => .ok ([], c)
      | (some ch, c) => (breaks bound c).map fun (more, c) => (ch :: more, c)

/-- The code of an escape, from behind the backslash on. The break of a line can be escaped, which
    leaves out the break and the gap behind it. -/
def escape (bound : Nat) (c : Cursor) : Except Fault (List Nat × Cursor) :=
  match c.peek? with
  | none => .error .malformed
  | some ch =>
    match simpleEscape? ch, escapeWidth? ch with
    | some code, _ => .ok ([code], c.next)
    | none, some width =>
      let digits := c.next.rest.take width
      match hexNumber? digits with
      | some n =>
        if digits.length < width then .error .malformed
        else (codeOf n).map fun code => ([code], c.next.skip width)
      | none => .error .malformed
    | none, none =>
      if isBreak ch then
        (breaks bound c.next).map fun (more, c) => (more.map Char.toNat, c)
      else .error .malformed

/-- The quote that ends the text. -/
def mark (double : Bool) : Char := if double then '"' else '\''

/-- The codes up to a gap, the break of a line, or the end of the text. -/
def word (double : Bool) : Nat → Cursor → Except Fault (List Nat × Cursor)
  | 0, c => .ok ([], c)
  | bound + 1, c =>
    match c.rest with
    | [] => .ok ([], c)
    | ch :: rest =>
      if !double && ch = '\'' && rest.head? = some '\'' then
        (word double bound (c.skip 2)).map fun (codes, c) => (ch.toNat :: codes, c)
      else if ch = mark double || isGap ch || isBreak ch then .ok ([], c)
      else if double && ch = '\\' then
        match escape bound c.next with
        | .error e => .error e
        | .ok (code, c) => (word double bound c).map fun (codes, c) => (code ++ codes, c)
      else (word double bound c.next).map fun (codes, c) => (ch.toNat :: codes, c)

/-- What a gap or the break of a line counts as. -/
def space (bound : Nat) (c : Cursor) : Except Fault (List Char × Cursor) :=
  let (gap, c) := c.takeWhile isGap
  match c.peek?, c.takeBreak with
  | none, _ => .error .malformed
  | _, (none, _) => .ok (gap, c)
  | _, (some ch, c) => (breaks bound c).map fun (more, c) => (folded ch more, c)

/-- The codes up to the closing quote, and the place behind it. -/
def codes (double : Bool) : Nat → Cursor → Except Fault (List Nat × Cursor)
  | 0, _ => .error .malformed
  | bound + 1, c => do
    let (first, c) ← word double (bound + 1) c
    if c.peek? = some (mark double) then return (first, c.next)
    let (between, c) ← space (bound + 1) c
    let (more, c) ← codes double bound c
    return (first ++ between.map Char.toNat ++ more, c)

/-- The text from the opening quote on. -/
def read (double : Bool) (c : Cursor) : Except Fault (List Nat × Cursor) :=
  codes double (c.rest.length + 1) c.next

end ProofPuzzles.Config.Yaml.Quote
