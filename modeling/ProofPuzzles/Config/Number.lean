import ProofPuzzles.Config.Value
import ProofPuzzles.Decimal.Numeral

/-!
# Numbers in configuration files

A setting that is a number can be given as a number, as a truth value, or as a text or bytes that
read as one. A whole number can be given as a fraction, of which the part after the point is
dropped.
-/

namespace ProofPuzzles.Config

/-- Why a value is not the number that is wanted. -/
inductive NumberFault where
  /-- The text, as complaints show it, is no whole number in the base. -/
  | notAnInteger (base : Nat) (shown : String)
  /-- The text is a whole number with more digits than are read. -/
  | tooManyDigits (count : Nat)
  /-- The text, as complaints show it, is no number. -/
  | notAFloat (shown : String)
  /-- A whole number is wanted, and the value is not a number. -/
  | nanAsInteger
  /-- A whole number is wanted, and the value is infinite. -/
  | infinityAsInteger
  /-- The whole number exceeds every floating-point number. -/
  | integerTooLarge
  /-- The whole number has more digits than are shown. -/
  | unshowable
  /-- A whole number is wanted, and the value is of this kind. -/
  | noIntegerKind (kind : String)
  /-- A number is wanted, and the value is of this kind. -/
  | noFloatKind (kind : String)
  deriving Repr, DecidableEq

/-- How many characters of a text are shown that is no whole number. -/
def shownLength : Nat := 200

/-- The wording of each fault. -/
def NumberFault.message : NumberFault → String
  | .notAnInteger base shown =>
    "invalid literal for int() with base " ++ toString base ++ ": "
      ++ String.ofList (shown.toList.take shownLength)
  | .tooManyDigits count =>
    "Exceeds the limit (4300 digits) for integer string conversion: value has "
      ++ toString count ++ " digits; use sys.set_int_max_str_digits() to increase the limit"
  | .notAFloat shown => "could not convert string to float: " ++ shown
  | .nanAsInteger => "cannot convert float NaN to integer"
  | .infinityAsInteger => "cannot convert float infinity to integer"
  | .integerTooLarge => "int too large to convert to float"
  | .unshowable =>
    "Exceeds the limit (4300 digits) for integer string conversion; "
      ++ "use sys.set_int_max_str_digits() to increase the limit"
  | .noIntegerKind kind =>
    "int() argument must be a string, a bytes-like object or a real number, not '" ++ kind ++ "'"
  | .noFloatKind kind =>
    "float() argument must be a string or a real number, not '" ++ kind ++ "'"

/-- The whole number in a base that characters stand for, which complaints show as given. -/
def integerOfChars (base : Nat) (shown : String) (cs : List Char) : Except NumberFault Int :=
  match Decimal.integer base cs with
  | .ok n => .ok n
  | .error .malformed => .error (.notAnInteger base shown)
  | .error (.tooLong count) => .error (.tooManyDigits count)

/-- The whole number that a text stands for. -/
def integerOfText (text : String) : Except NumberFault Int :=
  integerOfChars 10 (Text.quoted text) text.toList

/-- The number that characters stand for, which complaints show as given. -/
def floatOfChars (shown : String) (cs : List Char) : Except NumberFault Float :=
  match Decimal.float? cs with
  | some x => .ok x
  | none => .error (.notAFloat shown)

/-- A character that is part of no number. -/
def foreignChar : Char := Char.ofNat 0xfffd

/-- The codes as characters, for reading numbers. -/
def charsOfCodes (codes : List Nat) : List Char :=
  codes.map fun code => if code.isValidChar then Char.ofNat code else foreignChar

/-- The bytes as characters, for reading numbers: only those of the ASCII count. -/
def charsOfBytes (bytes : List Nat) : List Char :=
  bytes.map fun byte => if byte < 0x80 then Char.ofNat byte else foreignChar

namespace Value

/-- The value as a whole number. -/
def toInteger (v : Value) : Except NumberFault Int :=
  match v with
  | .bool b => .ok (if b then 1 else 0)
  | .int n => .ok n
  | .float x =>
    match Decimal.Double.ofFloat x with
    | .nan => .error .nanAsInteger
    | .infinite _ => .error .infinityAsInteger
    | .finite negative m q => .ok (Decimal.Double.truncate negative m q)
  | .text s => integerOfText s
  | .codes cs => integerOfChars 10 v.shown (charsOfCodes cs)
  | .bytes bs => integerOfChars 10 v.shown (charsOfBytes bs)
  | v => .error (.noIntegerKind v.kindName)

/-- The floating-point number nearest to a whole number. -/
def floatOfInteger (n : Int) : Except NumberFault Float :=
  let x := Float.ofInt n
  if x.isFinite then .ok x else .error .integerTooLarge

/-- The value as a floating-point number. -/
def toFloat (v : Value) : Except NumberFault Float :=
  match v with
  | .bool b => .ok (if b then 1.0 else 0.0)
  | .int n => floatOfInteger n
  | .float x => .ok x
  | .text s => floatOfChars (Text.quoted s) s.toList
  | .codes cs => floatOfChars v.shown (charsOfCodes cs)
  | .bytes bs => floatOfChars v.shown (charsOfBytes bs)
  | v => .error (.noFloatKind v.kindName)

end Value

end ProofPuzzles.Config
