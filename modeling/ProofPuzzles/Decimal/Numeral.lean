import ProofPuzzles.Decimal.Double
import ProofPuzzles.Text.Blank
import ProofPuzzles.Text.DecimalDigit

/-!
# Numbers as people write them

Whole numbers and decimal fractions: with blanks around, a sign in front, single underscores
between digits, and digits of any script. Whole numbers can also be written in another base.
-/

namespace ProofPuzzles.Decimal

/-- Whether the character can stand around a number: any blank but the controls that separate
    records. -/
def isPadding (c : Char) : Bool :=
  Text.isBlank c && !(0x1c ≤ c.toNat && c.toNat ≤ 0x1f)

/-- The value of a digit below the base: a decimal digit of any script, or a letter, of which the
    first one stands for ten. -/
def digitValue? (base : Nat) (c : Char) : Option Nat :=
  let value? := match Text.decimalDigit? c with
    | some d => some d
    | none =>
      if c.isLower then some (c.toNat - 87)
      else if c.isUpper then some (c.toNat - 55)
      else none
  value?.filter (· < base)

/-- The values of digits that follow a digit, with single underscores between them. -/
def moreDigits? (base : Nat) : List Char → Option (List Nat)
  | [] => some []
  | '_' :: c :: cs =>
    match digitValue? base c with
    | some d => (moreDigits? base cs).map (d :: ·)
    | none => none
  | c :: cs =>
    match digitValue? base c with
    | some d => (moreDigits? base cs).map (d :: ·)
    | none => none

/-- The values of one or more digits with single underscores between them. -/
def digits? (base : Nat) : List Char → Option (List Nat)
  | [] => none
  | '_' :: _ => none
  | cs => moreDigits? base cs

def ofDigits (base : Nat) (digits : List Nat) : Nat := digits.foldl (fun n d => base * n + d) 0

/-- Splits at the first character that is neither a digit nor an underscore. -/
def spanDigits (base : Nat) (cs : List Char) : List Char × List Char :=
  cs.span fun c => c = '_' || (digitValue? base c).isSome

/-- Takes a sign from the front: whether it is a minus, and the rest. -/
def takeSign : List Char → Bool × List Char
  | '-' :: cs => (true, cs)
  | '+' :: cs => (false, cs)
  | cs => (false, cs)

/-! ## Whole numbers -/

/-- The greatest number of decimal digits that are read or shown. -/
def maxDigits : Nat := 4300

/-- Why characters are no whole number. -/
inductive IntegerFault where
  | malformed
  /-- There are more digits than are read. -/
  | tooLong (count : Nat)
  deriving Repr, DecidableEq

/-- The letter that can follow a zero in front of a number in the given base. -/
def baseMark? (base : Nat) : Option Char :=
  match base with
  | 2 => some 'b'
  | 8 => some 'o'
  | 16 => some 'x'
  | _ => none

/-- The characters behind a zero and the letter for the base, if they begin with those. An
    underscore can follow the letter. -/
def dropBaseMark (base : Nat) : List Char → List Char
  | '0' :: c :: cs =>
    if baseMark? base = some c.toLower then
      match cs with
      | '_' :: cs => cs
      | cs => cs
    else '0' :: c :: cs
  | cs => cs

/-- The whole number that characters stand for in a base. The number of digits is limited in base
    ten; what follows the digits is looked at after that. -/
def integer (base : Nat) (cs : List Char) : Except IntegerFault Int :=
  let (negative, cs) := takeSign (cs.dropWhile isPadding)
  let (run, rest) := spanDigits base (dropBaseMark base cs)
  match digits? base run with
  | none => .error .malformed
  | some digits =>
    if base = 10 ∧ maxDigits < digits.length then .error (.tooLong digits.length)
    else if !rest.all isPadding then .error .malformed
    else
      let n : Int := ofDigits base digits
      .ok (if negative then -n else n)

/-- Whether a whole number has no more digits than are shown. -/
def isShowable (n : Int) : Bool := n.natAbs < Nat.pow 10 maxDigits

/-! ## Fractions -/

/-- The number nearest to `d * 10^e`. Numbers that are far too large or too small for any exponent
    are recognized by their number of digits. -/
def nearest (d : Nat) (e : Int) : Float :=
  let size := (Nat.toDigits 10 d).length + e
  if d = 0 ∨ size < -400 then 0.0
  else if 400 < size then 1.0 / 0.0
  else Float.ofScientific d (decide (e < 0)) e.natAbs

/-- The digits of a group that may be empty. -/
def groupDigits? : List Char → Option (List Nat)
  | [] => some []
  | cs => digits? 10 cs

/-- The power of ten that an exponent asks for; nothing asks for none. -/
def exponent? : List Char → Option Int
  | [] => some 0
  | c :: cs =>
    if c = 'e' ∨ c = 'E' then
      let (negative, cs) := takeSign cs
      (digits? 10 cs).map fun digits =>
        if negative then -(ofDigits 10 digits : Int) else ofDigits 10 digits
    else none

/-- The number that an unsigned decimal stands for: digits with a point somewhere or nowhere, and
    perhaps an exponent. -/
def unsigned? (cs : List Char) : Option Float :=
  let (whole, rest) := spanDigits 10 cs
  let (fraction, rest) := match rest with
    | '.' :: rest => spanDigits 10 rest
    | rest => ([], rest)
  match groupDigits? whole, groupDigits? fraction, exponent? rest with
  | some whole, some fraction, some e =>
    if whole ++ fraction = [] then none
    else some (nearest (ofDigits 10 (whole ++ fraction)) (e - fraction.length))
  | _, _, _ => none

/-- The number that characters stand for: a decimal, or a word for infinity or for no number, in
    letters of either case. -/
def float? (cs : List Char) : Option Float :=
  let (negative, cs) := takeSign (Text.trimBy isPadding cs)
  let word := String.ofList (cs.map Char.toLower)
  let size :=
    if word = "inf" ∨ word = "infinity" then some (1.0 / 0.0)
    else if word = "nan" then some (0.0 / 0.0)
    else unsigned? cs
  size.map fun x => if negative then -x else x

end ProofPuzzles.Decimal
