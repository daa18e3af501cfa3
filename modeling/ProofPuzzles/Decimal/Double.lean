/-!
# What a floating-point number stands for

A finite number of double precision is a whole number below `2^53` times a power of two, with a
sign that zero has as well.
-/

namespace ProofPuzzles.Decimal

/-- A floating-point number taken apart. -/
inductive Double where
  | nan
  | infinite (negative : Bool)
  /-- The number `m * 2^q`, negated if it is negative. -/
  | finite (negative : Bool) (m : Nat) (q : Int)
  deriving Repr, DecidableEq

/-- The bit in front of the fraction, which is not stored: `2^52`. -/
def hiddenBit : Nat := 0x10000000000000

/-- Takes a number apart by its bits: a sign, eleven bits of exponent, 52 bits of fraction. -/
def Double.ofFloat (x : Float) : Double :=
  let bits := x.toBits.toNat
  let negative : Bool := bits >>> 63 = 1
  let exponent : Nat := (bits >>> 52) % 2048
  let fraction := bits % hiddenBit
  if exponent = 2047 then (if fraction = 0 then .infinite negative else .nan)
  else if exponent = 0 then .finite negative fraction (-1074)
  else .finite negative (hiddenBit + fraction) ((exponent : Int) - 1075)

/-- The whole part of a finite number. -/
def Double.truncate (negative : Bool) (m : Nat) (q : Int) : Int :=
  let n := if 0 ≤ q then m * Nat.pow 2 q.toNat else m / Nat.pow 2 (-q).toNat
  if negative then -(n : Int) else n

end ProofPuzzles.Decimal
