/-!
# Random choices

A source of random numbers, and the choices that are made with it: an order, an element, an
element by weight. A choice that has only one outcome by its form takes no number.
-/

namespace ProofPuzzles

/-- A source that yields fractions from zero to below one, and whole numbers below a bound. -/
class RandomSource (σ : Type) where
  unit : σ → Float × σ
  below : (n : Nat) → 0 < n → σ → Fin n × σ

namespace Random

variable {σ : Type} [RandomSource σ] {α : Type}

/-- A random order of the elements: one of them goes to the end, the last one takes its place,
    and the elements before the end are ordered in the same way. -/
def shuffle (as : List α) (source : σ) : List α × σ :=
  if h : 1 < as.length then
    let (i, source) := RandomSource.below as.length (by omega) source
    let chosen := as[i]
    let rest := (as.set i (as.getLast (by grind))).dropLast
    let (rest, source) := shuffle rest source
    (rest ++ [chosen], source)
  else (as, source)
termination_by as.length
decreasing_by simp; omega

/-- An element, all places being equally likely. -/
def choose (as : List α) (h : as ≠ []) (source : σ) : α × σ :=
  let (i, source) := RandomSource.below as.length (List.length_pos_iff.mpr h) source
  (as[i], source)

/-- A whole number between two bounds, both included. -/
def between (low high : Int) (h : low ≤ high) (source : σ) : Int × σ :=
  let (i, source) := RandomSource.below (high - low + 1).toNat (by omega) source
  (low + i, source)

/-- Why no element can be chosen by weight. -/
inductive WeightError where
  | notPositive
  | notFinite
  deriving Repr, DecidableEq

/-- The wording of each reason. -/
def WeightError.message : WeightError → String
  | .notPositive => "Total of weights must be greater than zero"
  | .notFinite => "Total of weights must be finite"

/-- The sums of the weights up to each element, on top of a given sum. -/
def runningSums (sum : Float) : List (α × Float) → List (α × Float)
  | [] => []
  | (a, weight) :: rest => (a, sum + weight) :: runningSums (sum + weight) rest

/-- The first element whose running sum exceeds the level, else the last element. -/
def pick (level : Float) (a : α) (sum : Float) : List (α × Float) → α
  | [] => a
  | (b, next) :: rest => if level < sum then a else pick level b next rest

/-- An element of a row, each as likely as its weight says. -/
def chooseByWeight (first : α × Float) (others : List (α × Float)) (source : σ) :
    Except WeightError (α × σ) :=
  let sums := runningSums first.2 others
  let total := (sums.getLast?.map (·.2)).getD first.2 + 0.0
  if total ≤ 0.0 then .error .notPositive
  else if !total.isFinite then .error .notFinite
  else
    let (fraction, source) := RandomSource.unit source
    .ok (pick (fraction * total) first.1 first.2 sums, source)

end Random

end ProofPuzzles
