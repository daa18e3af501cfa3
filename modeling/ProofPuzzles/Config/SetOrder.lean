import ProofPuzzles.Config.Value

/-!
# The order of sets

A set of numbers is listed by the places that its items take in a table. The place of a number goes
by its remainder; if it is taken, the item moves on. Other sets are listed as they are given.
-/

namespace ProofPuzzles.Config.SetOrder

/-- The prime number whose remainders count: `2^61 - 1`. -/
def modulus : Nat := 0x1fffffffffffffff

/-- The number of different words: `2^64`. -/
def wordCount : Nat := 0x10000000000000000

/-- A signed remainder as a word. Minus one counts as minus two. -/
def ofRemainder (negative : Bool) (remainder : Nat) : Nat :=
  if negative ∧ remainder ≠ 0 then wordCount - (if remainder = 1 then 2 else remainder)
  else remainder

/-- What stands for an infinite number. -/
def infiniteRemainder : Nat := 314159

/-- The remainder of a number, so that numbers with the same value have the same. Halving is
    doubling sixty times. -/
def remainder? : Value → Option Nat
  | .bool b => some (if b then 1 else 0)
  | .int n => some (ofRemainder (n < 0) (n.natAbs % modulus))
  | .float x =>
    match Decimal.Double.ofFloat x with
    | .nan => none
    | .infinite negative => some (ofRemainder negative infiniteRemainder)
    | .finite negative m q =>
      some (ofRemainder negative (m * Nat.pow 2 (q % 61).toNat % modulus))
  | _ => none

/-- The number of places in the table for so many items: a power of two. -/
def tableSize (count : Nat) : Nat :=
  if count ≤ 4 then 8 else Nat.pow 2 (Nat.log2 (2 * count) + 1)

/-- How many places behind its own an item tries, if they are in the table. -/
def runLength : Nat := 9

/-- The first free place of those that an item tries from a place on. -/
def freeIn (table : Array (Option Value)) (place : Nat) : Option Nat :=
  let tries := if place + runLength < table.size then runLength + 1 else 1
  (List.range' place tries).find? fun i => (table[i]?.join).isNone

/-- The place for an item. What is left of its remainder decides where it goes on, so that it comes
    to all places in the end. -/
def placeFor (table : Array (Option Value)) : Nat → Nat → Nat → Nat
  | 0, _, place => place
  | bound + 1, rest, place =>
    match freeIn table place with
    | some i => i
    | none =>
      let rest := rest / 32
      placeFor table bound rest ((5 * place + 1 + rest) % table.size)

/-- The table with an item put in. -/
def insert (table : Array (Option Value)) (item : Value × Nat) : Array (Option Value) :=
  let place := placeFor table (table.size + 16) item.2 (item.2 % table.size)
  table.setIfInBounds place (some item.1)

def arrange (items : List Value) : List Value :=
  match items.mapM fun v => (remainder? v).map (v, ·) with
  | none => items
  | some known =>
    let empty := Array.replicate (tableSize items.length) none
    (known.foldl insert empty).toList.filterMap id

end ProofPuzzles.Config.SetOrder
