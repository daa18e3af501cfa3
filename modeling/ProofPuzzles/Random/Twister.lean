import ProofPuzzles.Random.Source

/-!
# The twister

A generator of random numbers with 624 words of state and the period `2^19937 - 1`. A seed of
any size is spread over the whole state.
-/

namespace ProofPuzzles

/-- The words of the state, and the place of the next word to be used. -/
structure Twister where
  words : Vector UInt32 624
  next : Nat

namespace Twister

/-- The word at a place, counted around. -/
def word (words : Vector UInt32 624) (i : Nat) : UInt32 :=
  words.get ⟨i % 624, Nat.mod_lt _ (by decide)⟩

/-- The state with another word at a place, counted around. -/
def setWord (words : Vector UInt32 624) (i : Nat) (w : UInt32) : Vector UInt32 624 :=
  words.set (i % 624) w (Nat.mod_lt _ (by decide))

/-- Combines the high bit of one word and the other bits of the next. -/
def twist (high low : UInt32) : UInt32 :=
  let y := (high &&& 0x80000000) ||| (low &&& 0x7fffffff)
  (y >>> 1) ^^^ (if y &&& 1 = 1 then 0x9908b0df else 0)

/-- The state after all its words have been used. -/
def renew (words : Vector UInt32 624) : Vector UInt32 624 :=
  Nat.fold 624 (fun i _ words =>
    setWord words i (word words (i + 397) ^^^ twist (word words i) (word words (i + 1)))) words

/-- Spreads the bits of a word of the state. -/
def temper (y : UInt32) : UInt32 :=
  let y := y ^^^ (y >>> 11)
  let y := y ^^^ ((y <<< 7) &&& 0x9d2c5680)
  let y := y ^^^ ((y <<< 15) &&& 0xefc60000)
  y ^^^ (y >>> 18)

def nextWord (t : Twister) : UInt32 × Twister :=
  if t.next < 624 then (temper (word t.words t.next), { t with next := t.next + 1 })
  else
    let words := renew t.words
    (temper (word words 0), ⟨words, 1⟩)

/-- The state that grows from one word. -/
def ofWord (seed : UInt32) : Vector UInt32 624 :=
  Nat.fold 623 (fun i _ words =>
    let previous := word words i
    setWord words (i + 1)
      ((1812433253 : UInt32) * (previous ^^^ (previous >>> 30)) + UInt32.ofNat (i + 1)))
    (Vector.replicate 624 seed)

/-- The place that follows in the state while it is mixed. From the end it goes on at the second
    place, and the first place takes over the last word. -/
def advance (words : Vector UInt32 624) (i : Nat) : Vector UInt32 624 × Nat :=
  if i + 1 < 624 then (words, i + 1) else (setWord words 0 (word words 623), 1)

/-- Mixes the words of a key into the state, round after round, from a place of the state and a
    place of the key on. -/
def mixKey (key : Array UInt32) : Nat → Vector UInt32 624 → Nat → Nat → Vector UInt32 624 × Nat
  | 0, words, i, _ => (words, i)
  | n + 1, words, i, j =>
    let previous := word words (i + 623)
    let mixed := (word words i ^^^ ((previous ^^^ (previous >>> 30)) * 1664525))
      + key.getD j 0 + UInt32.ofNat j
    let (words, i) := advance (setWord words i mixed) i
    mixKey key n words i (if j + 1 < key.size then j + 1 else 0)

/-- Mixes the words of the state with each other. -/
def mixPlaces : Nat → Vector UInt32 624 → Nat → Vector UInt32 624
  | 0, words, _ => words
  | n + 1, words, i =>
    let previous := word words (i + 623)
    let mixed := (word words i ^^^ ((previous ^^^ (previous >>> 30)) * 1566083941))
      - UInt32.ofNat i
    let (words, i) := advance (setWord words i mixed) i
    mixPlaces n words i

/-- The words of a number, the least significant first. -/
def numberWords (n : Nat) : List UInt32 :=
  if n < UInt32.size then [UInt32.ofNat n]
  else UInt32.ofNat (n % UInt32.size) :: numberWords (n / UInt32.size)
termination_by n
decreasing_by simp only [UInt32.size] at *; omega

/-- The generator that grows from a seed. The sign of the seed does not matter. -/
def ofSeed (seed : Int) : Twister :=
  let key := (numberWords seed.natAbs).toArray
  let (words, i) := mixKey key (max 624 key.size) (ofWord 19650218) 1 0
  ⟨setWord (mixPlaces 623 words i) 0 0x80000000, 624⟩

/-- A number of the given number of bits: whole words from the least significant on, and of the
    last word its highest bits. -/
def bits (k : Nat) (t : Twister) : Nat × Twister :=
  if k ≤ 32 then
    let (w, t) := t.nextWord
    (w.toNat >>> (32 - k), t)
  else
    let (w, t) := t.nextWord
    let (rest, t) := bits (k - 32) t
    (rest <<< 32 ||| w.toNat, t)
termination_by k

/-- A number below the bound, drawn among the numbers with as many bits as the bound until one
    fits. If none of very many draws fits, it is zero. -/
def belowWithin (n : Nat) (h : 0 < n) : Nat → Twister → Fin n × Twister
  | 0, t => (⟨0, h⟩, t)
  | draws + 1, t =>
    let (r, t) := t.bits (n.log2 + 1)
    if hr : r < n then (⟨r, hr⟩, t) else belowWithin n h draws t

/-- A fraction with 53 random bits. -/
def fraction (t : Twister) : Float × Twister :=
  let (a, t) := t.nextWord
  let (b, t) := t.nextWord
  (Float.ofNat ((a >>> 5).toNat * 67108864 + (b >>> 6).toNat) / 9007199254740992.0, t)

instance : RandomSource Twister where
  unit := fraction
  below n h t := belowWithin n h 10000 t

end Twister

end ProofPuzzles
