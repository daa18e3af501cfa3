import ProofPuzzles.Config.Yaml.Tag
import ProofPuzzles.Config.Yaml.Fault
import ProofPuzzles.Text.Base64

/-!
# Values of words

What a word with a tag stands for: a truth value, a number, bytes, a day or a moment, nothing, or
itself.
-/

namespace ProofPuzzles.Config.Yaml

def truthOf (cs : List Char) : Except Fault Value :=
  let word := String.ofList (cs.map Char.toLower)
  if ["yes", "true", "on"].contains word then .ok (.bool true)
  else if ["no", "false", "off"].contains word then .ok (.bool false)
  else .error .noTruthValue

/-- The whole number in a base. -/
def integerOf (base : Nat) (codes : List Nat) : Except Fault Int :=
  match integerOfChars base (Text.quotedCodes codes) (charsOfCodes codes) with
  | .ok n => .ok n
  | .error e => .error (.number e)

/-- The number with a point. -/
def floatOf (codes : List Nat) : Except Fault Float :=
  match floatOfChars (Text.quotedCodes codes) (charsOfCodes codes) with
  | .ok x => .ok x
  | .error e => .error (.number e)

/-- The code of a character. -/
def codeOf (c : Char) : Nat := c.toNat

/-- The parts between colons. -/
def splitAtColons (codes : List Nat) : List (List Nat) :=
  codes.foldr (fun code parts =>
    if code = codeOf ':' then [] :: parts
    else match parts with
      | part :: parts => (code :: part) :: parts
      | [] => [[code]]) [[]]

/-- Whether there is a minus in front, and the rest behind a sign. There has to be something. -/
def signed (codes : List Nat) : Except Fault (Bool × List Nat) :=
  match codes with
  | [] => .error .noDigits
  | code :: rest =>
    if code = codeOf '-' then .ok (true, rest)
    else if code = codeOf '+' then .ok (false, rest)
    else .ok (false, code :: rest)

/-- Whether the text begins with the given one. -/
def startsWith (start : String) (codes : List Nat) : Bool :=
  (start.toList.map Char.toNat).isPrefixOf codes

/-- The codes of a text that do not stand for underscores. -/
def withoutUnderscores (codes : List Nat) : List Nat := codes.filter (· ≠ codeOf '_')

/-- The whole number of a word: binary, hexadecimal, octal, in base sixty, or decimal. -/
def wholeNumber (codes : List Nat) : Except Fault Int := do
  let (negative, codes) ← signed (withoutUnderscores codes)
  let n ←
    if codes = [codeOf '0'] then pure 0
    else if startsWith "0b" codes then integerOf 2 (codes.drop 2)
    else if startsWith "0x" codes then integerOf 16 (codes.drop 2)
    else match codes with
      | [] => .error .noDigits
      | first :: _ =>
        if first = codeOf '0' then integerOf 8 codes
        else if codes.contains (codeOf ':') then do
          let parts ← (splitAtColons codes).mapM (integerOf 10)
          pure (parts.foldl (fun n part => 60 * n + part) 0)
        else integerOf 10 codes
  return if negative then -n else n

/-- The sum of the parts of a number in base sixty, from the last one on. -/
def sumOfSixties : List Float → Nat → Float → Except Fault Float
  | [], _, sum => .ok sum
  | part :: parts, weight, sum =>
    match Value.floatOfInteger weight with
    | .ok x => sumOfSixties parts (60 * weight) (sum + part * x)
    | .error e => .error (.number e)

/-- The code of the letter in lower case, if it is one of the alphabet. -/
def lowerCode (code : Nat) : Nat := if 65 ≤ code ∧ code ≤ 90 then code + 32 else code

/-- The number of a word: infinite, none, in base sixty, or decimal. -/
def fraction (codes : List Nat) : Except Fault Float := do
  let (negative, codes) ← signed ((withoutUnderscores codes).map lowerCode)
  let apply (x : Float) : Float := if negative then -x else x
  if codes = ".inf".toList.map codeOf then return apply (1.0 / 0.0)
  else if codes = ".nan".toList.map codeOf then return 0.0 / 0.0
  else if codes.contains (codeOf ':') then
    let parts ← (splitAtColons codes).mapM floatOf
    return apply (← sumOfSixties parts.reverse 1 0.0)
  else return apply (← floatOf codes)

/-- The day or moment of a word. -/
def stampOf (cs : List Char) : Except Fault Value :=
  match Calendar.read? (Tag.dropFinalFeed cs) with
  | none => .error .noStamp
  | some stamp =>
    match stamp.fault? with
    | some e => .error (.calendar e)
    | none => .ok (.ofStamp stamp)

/-- The bytes of a word in the letters for bytes. -/
def bytesOf (cs : List Char) : Except Fault Value :=
  if cs.all fun c => c.toNat < 0x80 then
    match Text.Base64.decode? cs with
    | some bytes => .ok (.bytes bytes)
    | none => .error .malformed
  else .error .malformed

/-- The value of a word with a tag that is not for collections. -/
def scalarValue (tag : Tag) (codes : List Nat) : Except Fault Value :=
  match tag with
  | .null => .ok .null
  | .bool => truthOf (charsOfCodes codes)
  | .int => (wholeNumber codes).map .int
  | .float => (fraction codes).map .float
  | .text => .ok (.ofCodes codes)
  | .binary => bytesOf (charsOfCodes codes)
  | .stamp => stampOf (charsOfCodes codes)
  | _ => .error .malformed

end ProofPuzzles.Config.Yaml
