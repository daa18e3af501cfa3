import ProofPuzzles.Config.Calendar
import ProofPuzzles.Decimal.Numeral
import ProofPuzzles.Decimal.Shortest
import ProofPuzzles.Text.Quoted

/-!
# Values of configuration files

What a configuration file holds: plain values, lists, sets, and mappings whose entries are in
order.
-/

namespace ProofPuzzles.Config

/-- The kinds of values that have parts. -/
inductive Collection where
  | list
  | pair
  | set
  | mapping
  deriving Repr, DecidableEq

/-- A value of a configuration file. -/
inductive Value where
  | null
  | bool (b : Bool)
  | int (n : Int)
  | float (x : Float)
  | text (s : String)
  /-- A text that has codes which are no characters. -/
  | codes (codes : List Nat)
  | bytes (bytes : List Nat)
  | date (d : Calendar.Date)
  | moment (m : Calendar.Moment)
  | list (items : List Value)
  /-- Two values that belong together. -/
  | pair (first second : Value)
  | set (items : List Value)
  | mapping (entries : List (Value × Value))
  /-- A collection whose parts are left out. -/
  | elided (c : Collection)
  deriving Inhabited

namespace Value

def ofCodes (codes : List Nat) : Value :=
  if codes.all fun code => decide code.isValidChar then
    .text (String.ofList (codes.map Char.ofNat))
  else .codes codes

/-- The day or the moment as a value. -/
def ofStamp : Calendar.Stamp → Value
  | .date d => .date d
  | .moment m => .moment m

/-- What kind of value it is, as complaints call it. -/
def kindName : Value → String
  | .null => "NoneType"
  | .bool _ => "bool"
  | .int _ => "int"
  | .float _ => "float"
  | .text _ => "str"
  | .codes _ => "str"
  | .bytes _ => "bytes"
  | .date _ => "datetime.date"
  | .moment _ => "datetime.datetime"
  | .list _ => "list"
  | .pair _ _ => "tuple"
  | .set _ => "set"
  | .mapping _ => "dict"
  | .elided .list => "list"
  | .elided .pair => "tuple"
  | .elided .set => "set"
  | .elided .mapping => "dict"

mutual

/-- The value as complaints show it, with texts in quotes. -/
def shown : Value → String
  | .null => "None"
  | .bool b => if b then "True" else "False"
  | .int n => toString n
  | .float x => Decimal.floatText x
  | .text s => Text.quoted s
  | .codes cs => Text.quotedCodes cs
  | .bytes bs => Text.quotedBytes bs
  | .date d => d.shown
  | .moment m => m.shown
  | .list items => "[" ++ ", ".intercalate (shownItems items) ++ "]"
  | .pair first second => "(" ++ first.shown ++ ", " ++ second.shown ++ ")"
  | .set [] => "set()"
  | .set items => "\x7b" ++ ", ".intercalate (shownItems items) ++ "\x7d"
  | .mapping entries => "\x7b" ++ ", ".intercalate (shownEntries entries) ++ "\x7d"
  | .elided .list => "[...]"
  | .elided .pair => "(...)"
  | .elided .set => "set(...)"
  | .elided .mapping => "\x7b...\x7d"

/-- The items of a list as complaints show them. -/
def shownItems : List Value → List String
  | [] => []
  | v :: vs => v.shown :: shownItems vs

/-- The entries of a mapping as complaints show them. -/
def shownEntries : List (Value × Value) → List String
  | [] => []
  | (k, v) :: es => (k.shown ++ ": " ++ v.shown) :: shownEntries es

end

mutual

/-- Whether the value can be shown: there is no whole number in it with too many digits. -/
def isShowable : Value → Bool
  | .int n => Decimal.isShowable n
  | .list items => areShowable items
  | .pair first second => first.isShowable && second.isShowable
  | .set items => areShowable items
  | .mapping entries => entriesShowable entries
  | _ => true

/-- Whether all values can be shown. -/
def areShowable : List Value → Bool
  | [] => true
  | v :: vs => v.isShowable && areShowable vs

/-- Whether all keys and values can be shown. -/
def entriesShowable : List (Value × Value) → Bool
  | [] => true
  | (k, v) :: es => k.isShowable && v.isShowable && entriesShowable es

end

/-- The value as a text: a text is itself, days and moments have a text, and anything else is as
    complaints show it. -/
def asText : Value → String
  | .text s => s
  | .date d => d.text
  | .moment m => m.text
  | v => v.shown

/-- Whether the value counts as absent: nothing, no, zero, or empty. -/
def isVoid : Value → Bool
  | .null => true
  | .bool b => !b
  | .int n => n = 0
  | .float x => x == 0.0
  | .text s => s.isEmpty
  | .codes cs => cs.isEmpty
  | .bytes bs => bs.isEmpty
  | .list items => items.isEmpty
  | .set items => items.isEmpty
  | .mapping entries => entries.isEmpty
  | _ => false

/-- Whether two keys of a mapping are the same. Numbers are the same when their values are, and
    truth values count as one and zero. Lists, sets and mappings are no keys. -/
def sameKey : Value → Value → Bool
  | .null, .null => true
  | .text s, .text t => s = t
  | .codes s, .codes t => s = t
  | .bytes s, .bytes t => s = t
  | .date d, .date e => d = e
  | .moment m, .moment n => m.same n
  | v, w =>
    match number? v, number? w with
    | some x, some y => x = y
    | _, _ =>
      match v, w with
      | .float x, .float y => x == y || x.isNaN && y.isNaN
      | _, _ => false
where
  number? : Value → Option Int
    | .bool b => some (if b then 1 else 0)
    | .int n => some n
    | .float x =>
      match Decimal.Double.ofFloat x with
      | .finite negative m q =>
        let n := Decimal.Double.truncate negative m q
        if Float.ofInt n == x then some n else none
      | _ => none
    | _ => none

/-- The entries with one more. A key that is there keeps its place and is given the new value. -/
def insertEntry {α : Type} (key : Value) (value : α) (entries : List (Value × α)) :
    List (Value × α) :=
  if entries.any (sameKey ·.1 key) then
    entries.map fun e => if sameKey e.1 key then (e.1, value) else e
  else entries ++ [(key, value)]

/-- The value of an entry whose key is a text. -/
def lookup? (name : String) (entries : List (Value × Value)) : Option Value :=
  (entries.find? fun e => sameKey e.1 (.text name)).map (·.2)

end Value

end ProofPuzzles.Config
