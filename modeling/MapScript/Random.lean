/-!
# Random numbers

A 256-bit generator of 64-bit words, its seeding from one word, and uniform numbers within bounds.
-/

namespace MapScript

/-- The state of a generator. -/
structure Generator where
  s0 : UInt64
  s1 : UInt64
  s2 : UInt64
  s3 : UInt64
deriving DecidableEq, Repr

namespace Generator

def rotateLeft (x k : UInt64) : UInt64 := (x <<< k) ||| (x >>> (64 - k))

/-- The next state of the congruential sequence that fills a generator. -/
def advanceSeed (state : UInt64) : UInt64 := state * 6364136223846793005 + 11634580027462260723

/-- The 32-bit word of a state of that sequence: some of its bits, turned by its top five. -/
def seedWord (state : UInt64) : UInt64 :=
  let x := (((state >>> 18) ^^^ state) >>> 27).toUInt32
  let turn := (state >>> 59).toUInt32
  ((x >>> turn) ||| (x <<< ((32 - turn) % 32))).toUInt64

/-- Two words of the sequence as one, and the state after them. -/
def seedPair (state : UInt64) : UInt64 × UInt64 :=
  let first := advanceSeed state
  let second := advanceSeed first
  (seedWord first ||| (seedWord second <<< 32), second)

/-- The generator of a seed. -/
def ofSeed (seed : UInt64) : Generator :=
  let (s0, a) := seedPair seed
  let (s1, b) := seedPair a
  let (s2, c) := seedPair b
  let (s3, _) := seedPair c
  ⟨s0, s1, s2, s3⟩

/-- A numeral is the generator of that seed. -/
instance (seed : Nat) : OfNat Generator seed where
  ofNat := .ofSeed (UInt64.ofNat seed)

/-- The next 64-bit word. -/
def next64 (g : Generator) : UInt64 × Generator :=
  let result := rotateLeft (g.s0 + g.s3) 23 + g.s0
  let s2 := g.s2 ^^^ g.s0
  let s3 := g.s3 ^^^ g.s1
  let s1 := g.s1 ^^^ s2
  let s0 := g.s0 ^^^ s3
  (result, ⟨s0, s1, s2 ^^^ (g.s1 <<< 17), rotateLeft s3 45⟩)

/-- The next 32-bit word: the upper half of a 64-bit one. -/
def next32 (g : Generator) : UInt32 × Generator :=
  let (word, g) := g.next64
  ((word >>> 32).toUInt32, g)

/-- The greatest lower half of a product that keeps a draw below `range` uniform: the multiple of
`range` by a power of two that just fits a word, less one. -/
def zone (range : UInt32) : UInt32 :=
  UInt32.ofNat (range.toNat <<< (31 - range.toNat.log2)) - 1

/-- Draws a number below `range`, the upper half of a word times `range`. A draw whose lower half
is outside the zone is thrown away; after `attempts` of them the number is zero. -/
def below (range : UInt32) : (attempts : Nat) → Generator → UInt32 × Generator
  | 0, g => (0, g)
  | attempts + 1, g =>
    let (word, g) := g.next32
    let product := word.toUInt64 * range.toUInt64
    if product.toUInt32 ≤ zone range then ((product >>> 32).toUInt32, g)
    else below range attempts g

/-- How many draws may be thrown away. At least half of all words pass, so that no generator in
use comes near it. -/
def maxAttempts : Nat := 1000

/-- A uniform number between two bounds, both included. Bounds that leave one number or none give
the lower bound and draw nothing. -/
def between (min max : Int32) (g : Generator) : Int32 × Generator :=
  if max ≤ min then (min, g)
  else
    let range := (max - min + 1).toUInt32
    if range = 0 then
      let (word, g) := g.next32
      (word.toInt32, g)
    else
      let (n, g) := below range maxAttempts g
      (min + n.toInt32, g)

end Generator

end MapScript
