/-!
# Bytes in letters

Bytes can be written with an alphabet of 64 characters, each of which stands for six bits. Other
characters in between are skipped, and equals signs fill up the last group of four.
-/

namespace ProofPuzzles.Text.Base64

/-- The six bits that a character of the alphabet stands for. -/
def sextet? (c : Char) : Option Nat :=
  if c.isUpper then some (c.toNat - 65)
  else if c.isLower then some (c.toNat - 71)
  else if c.isDigit then some (c.toNat + 4)
  else if c = '+' then some 62
  else if c = '/' then some 63
  else none

/-- Reads on with a number of characters of the current group behind us, bits left over from them,
    and a number of equals signs in a row. The bytes end when equals signs fill up a group. -/
def decodeFrom (place left fills : Nat) : List Char → Option (List Nat)
  | [] => if place = 0 then some [] else none
  | c :: cs =>
    if c = '=' then
      if 2 ≤ place ∧ 4 ≤ place + fills + 1 then some []
      else decodeFrom place left (if 2 ≤ place then fills + 1 else fills) cs
    else match sextet? c with
      | none => decodeFrom place left fills cs
      | some bits =>
        match place with
        | 0 => decodeFrom 1 bits 0 cs
        | 1 => (decodeFrom 2 (bits % 16) 0 cs).map ((left * 4 + bits / 16) :: ·)
        | 2 => (decodeFrom 3 (bits % 4) 0 cs).map ((left * 16 + bits / 4) :: ·)
        | _ => (decodeFrom 0 0 0 cs).map ((left * 64 + bits) :: ·)

/-- The bytes that characters stand for. -/
def decode? (cs : List Char) : Option (List Nat) := decodeFrom 0 0 0 cs

end ProofPuzzles.Text.Base64
