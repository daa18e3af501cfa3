import ProofPuzzles.Config.Calendar

/-!
# Tags

A tag says what a part of a document stands for. A word without quotes and without a tag gets one
by its spelling: a truth value, a number, nothing, a day or a moment, or itself.
-/

namespace ProofPuzzles.Config.Yaml

/-- What a part of a document stands for. -/
inductive Tag where
  | null
  | bool
  | int
  | float
  | text
  | binary
  | stamp
  | list
  | mapping
  | set
  /-- A list of pairs, in order. -/
  | pairs
  /-- A key whose value is a mapping, the entries of which belong to the mapping around it. -/
  | merge
  /-- A key whose value is what the mapping stands for. -/
  | content
  | unknown
  deriving Repr, DecidableEq

namespace Tag

/-- What the names of the known tags begin with. -/
def common : String := "tag:yaml.org,2002:"

/-- The known tags with their names, as they end. -/
def known : List (String × Tag) := [
  ("null", .null), ("bool", .bool), ("int", .int), ("float", .float), ("str", .text),
  ("binary", .binary), ("timestamp", .stamp), ("seq", .list), ("map", .mapping), ("set", .set),
  ("omap", .pairs), ("pairs", .pairs), ("merge", .merge), ("value", .content)]

def ofName (name : String) : Tag :=
  match known.find? fun t => common ++ t.1 = name with
  | some (_, t) => t
  | none => .unknown

/-- Whether the tag makes a collection of parts. -/
def isCollection : Tag → Bool
  | .list | .mapping | .set | .pairs => true
  | _ => false

/-- Whether the tag makes a value without parts. -/
def isPlain : Tag → Bool
  | .null | .bool | .int | .float | .text | .binary | .stamp => true
  | _ => false

/-! ## Spellings -/

/-- A word in small letters, with a capital first letter, and in capitals. -/
def casings (word : String) : List String :=
  let lower := word.toList
  let title := match lower with
    | c :: cs => c.toUpper :: cs
    | [] => []
  [word, String.ofList title, String.ofList (lower.map Char.toUpper)]

/-- The words for truth values. -/
def truthWords : List String := ["yes", "no", "true", "false", "on", "off"].flatMap casings

/-- The words for nothing. -/
def nullWords : List String := "" :: "~" :: casings "null"

/-- The words for what is infinite or no number, behind a point. -/
def infinityWords : List String := casings "inf"

/-- The words for what is no number, behind a point. -/
def nanWords : List String := ["nan", "NaN", "NAN"]

/-- Whether the character is a digit below the base or an underscore. -/
def isDigit (base : Nat) (c : Char) : Bool := c = '_' || c.isDigit && c.toNat - 48 < base

/-- Whether the character is a hexadecimal digit or an underscore. -/
def isHexDigit (c : Char) : Bool :=
  c = '_' || c.isDigit || 'a' ≤ c && c ≤ 'f' || 'A' ≤ c && c ≤ 'F'

/-- Whether the characters begin with a digit and go on with digits and underscores. -/
def isDigits : List Char → Bool
  | [] => false
  | c :: cs => c.isDigit && cs.all (isDigit 10)

/-- The parts between colons. -/
def splitColons (cs : List Char) : List (List Char) :=
  cs.foldr (fun c parts =>
    if c = ':' then [] :: parts
    else match parts with
      | part :: parts => (c :: part) :: parts
      | [] => [[c]]) [[]]

/-- Whether the characters are one or two digits that count sixtieths. -/
def isSixtieth : List Char → Bool
  | [c] => c.isDigit
  | [c, d] => '0' ≤ c && c ≤ '5' && d.isDigit
  | _ => false

/-- Whether the characters are a number in base sixty, with colons between its parts. -/
def isSixties (isFirst : List Char → Bool) (cs : List Char) : Bool :=
  match splitColons cs with
  | first :: rest => isFirst first && !rest.isEmpty && rest.all isSixtieth
  | [] => false

/-- Takes a sign from the front, if there is one. -/
def dropSign : List Char → List Char
  | '-' :: cs => cs
  | '+' :: cs => cs
  | cs => cs

/-- Whether unsigned characters are a whole number: binary after `0b`, hexadecimal after `0x`, octal
    after `0`, decimal, or in base sixty. -/
def isNatural : List Char → Bool
  | '0' :: 'b' :: cs => !cs.isEmpty && cs.all (isDigit 2)
  | '0' :: 'x' :: cs => !cs.isEmpty && cs.all isHexDigit
  | '0' :: cs => cs.all (isDigit 8)
  | cs => isDigits cs || isSixties (fun first => isDigits first && first.head? ≠ some '0') cs

/-- Whether the characters are an exponent, or nothing. The exponent has a sign. -/
def isExponent : List Char → Bool
  | [] => true
  | e :: sign :: cs =>
    (e = 'e' || e = 'E') && (sign = '+' || sign = '-') && !cs.isEmpty && cs.all Char.isDigit
  | _ => false

/-- Whether the characters are a number with a point. A sign, or a part in base sixty, can stand in
    front of digits before the point. -/
def isFraction (cs : List Char) : Bool :=
  let unsigned := dropSign cs
  let (whole, rest) := unsigned.span (· ≠ '.')
  match rest with
  | [] => false
  | _ :: rest =>
    let (digits, exponent) := rest.span (isDigit 10)
    isDigits whole && isExponent exponent
      || whole.isEmpty && unsigned.length = cs.length && isDigits digits && isExponent exponent
      || isSixties isDigits whole && exponent.isEmpty
      || whole.isEmpty && infinityWords.contains (String.ofList rest)
      || whole.isEmpty && unsigned.length = cs.length && nanWords.contains (String.ofList rest)

/-- Words that stand for nothing of their own. -/
def signWords : List String := ["!", "&", "*"]

/-- The characters without a line feed at the end. -/
def dropFinalFeed (cs : List Char) : List Char :=
  if cs.getLast? = some '\n' then cs.dropLast else cs

/-- The tag of a plain word. A line feed at the end is of no effect. -/
def ofPlain (cs : List Char) : Tag :=
  let spelled := dropFinalFeed cs
  let word := String.ofList spelled
  if cs.head? = some '\n' then .text
  else if truthWords.contains word then .bool
  else if isFraction spelled then .float
  else if isNatural (dropSign spelled) then .int
  else if word = "<<" then .merge
  else if nullWords.contains word then .null
  else if Calendar.isStamp spelled then .stamp
  else if word = "=" then .content
  else if signWords.contains word then .unknown
  else .text

end Tag

end ProofPuzzles.Config.Yaml
