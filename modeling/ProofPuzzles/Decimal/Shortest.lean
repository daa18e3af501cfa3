import ProofPuzzles.Decimal.Double

/-!
# The shortest decimal form

The decimal form of a floating-point number has the fewest digits that read back as the same
number, and of those with that many digits it is the nearest one. A number has digits at a
power of ten when one of its two neighbours among the multiples of that power reads back.
-/

namespace ProofPuzzles.Decimal

/-- A positive fraction. -/
structure Fraction where
  num : Nat
  den : Nat

/-- A whole number times a power of two. -/
def Fraction.dyadic (m : Nat) (q : Int) : Fraction :=
  if 0 ≤ q then ⟨m * Nat.pow 2 q.toNat, 1⟩ else ⟨m, Nat.pow 2 (-q).toNat⟩

/-- A whole number times a power of ten. -/
def Fraction.decimal (d : Nat) (e : Int) : Fraction :=
  if 0 ≤ e then ⟨d * Nat.pow 10 e.toNat, 1⟩ else ⟨d, Nat.pow 10 (-e).toNat⟩

/-- Whether the first fraction is smaller. -/
def Fraction.lt (x y : Fraction) : Bool := x.num * y.den < y.num * x.den

/-- The whole part of a fraction times a power of ten. -/
def Fraction.scaled (x : Fraction) (e : Int) : Nat :=
  if 0 ≤ e then x.num * Nat.pow 10 e.toNat / x.den
  else x.num / (x.den * Nat.pow 10 (-e).toNat)

/-- Whether a fraction lies below, at or above the middle of two others. -/
def Fraction.compareToMiddle (x low high : Fraction) : Ordering :=
  compare (2 * x.num * (low.den * high.den))
    ((low.num * high.den + high.num * low.den) * x.den)

/-- The reals that read back as `m * 2^q` lie between these fractions. Below a power of two the
    next number is only half as far away, except at the smallest exponent. -/
def neighbourhood (m : Nat) (q : Int) : Fraction × Fraction :=
  let closer := m = hiddenBit ∧ q ≠ -1074
  (.dyadic (4 * m - (if closer then 1 else 2)) (q - 2), .dyadic (4 * m + 2) (q - 2))

/-- Whether a decimal reads back as `m * 2^q`. The ends of the neighbourhood do if `m` is
    even. -/
def readsBack (m : Nat) (q : Int) (x : Fraction) : Bool :=
  let (low, high) := neighbourhood m q
  if m % 2 = 0 then !x.lt low && !high.lt x else low.lt x && x.lt high

/-- How many digits stand before the point; if none, minus the number of zeros after it. -/
def magnitude (x : Fraction) : Int :=
  if x.den ≤ x.num then (Nat.toDigits 10 (x.num / x.den)).length
  else -(((List.range 400).find? fun j => x.den ≤ x.num * Nat.pow 10 (j + 1)).getD 0 : Nat)

/-- The multiple of `10^e` that reads back as `m * 2^q`, as a factor of `10^e`. Of two such the
    nearer one counts, and of two equally near ones the even one. -/
def onGrid? (m : Nat) (q e : Int) : Option Nat :=
  let x := Fraction.dyadic m q
  let d := x.scaled (-e)
  let low := Fraction.decimal d e
  let high := Fraction.decimal (d + 1) e
  match readsBack m q low, readsBack m q high with
  | false, false => none
  | true, false => some d
  | false, true => some (d + 1)
  | true, true =>
    match x.compareToMiddle low high with
    | .lt => some d
    | .gt => some (d + 1)
    | .eq => some (if d % 2 = 0 then d else d + 1)

/-- The digits of the shortest decimal that reads back as `m * 2^q`, and the place of the point
    relative to their start. Seventeen digits are always enough. -/
def shortestDigits (m : Nat) (q : Int) : List Char × Int :=
  let k := magnitude (.dyadic m q)
  let found := (List.range 17).findSome? fun n =>
    (onGrid? m q (k - (n + 1 : Nat))).map fun d => (d, k - (n + 1 : Nat))
  match found with
  | none => (['0'], 1)
  | some (d, e) =>
    let digits := Nat.toDigits 10 d
    ((digits.reverse.dropWhile (· = '0')).reverse, e + digits.length)

/-- Digits with a point at the given place, zeros filling the gaps. A whole number gets one zero
    after the point. -/
def positional (digits : List Char) (point : Int) : List Char :=
  if point ≤ 0 then '0' :: '.' :: (List.replicate (-point).toNat '0' ++ digits)
  else
    let whole := digits.take point.toNat
    let rest := digits.drop point.toNat
    whole ++ List.replicate (point.toNat - whole.length) '0'
      ++ '.' :: (if rest = [] then ['0'] else rest)

/-- One digit before the point, the others after it, and a power of ten with a sign and at least
    two digits. -/
def scientific (digits : List Char) (exponent : Int) : List Char :=
  let point := match digits with
    | [d] => [d]
    | d :: rest => d :: '.' :: rest
    | [] => []
  let power := Nat.toDigits 10 exponent.natAbs
  point ++ 'e' :: (if exponent < 0 then '-' else '+')
    :: (List.replicate (2 - power.length) '0' ++ power)

/-- The text of a floating-point number. Numbers from `10^-4` to below `10^16` are written with
    a point, others with a power of ten. -/
def floatText (x : Float) : String :=
  match Double.ofFloat x with
  | .nan => "nan"
  | .infinite negative => if negative then "-inf" else "inf"
  | .finite negative m q =>
    let unsigned :=
      if m = 0 then ['0', '.', '0']
      else
        let (digits, point) := shortestDigits m q
        if -4 < point ∧ point ≤ 16 then positional digits point
        else scientific digits (point - 1)
    String.ofList (if negative then '-' :: unsigned else unsigned)

end ProofPuzzles.Decimal
