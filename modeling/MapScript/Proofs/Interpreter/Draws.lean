import Mathlib.Algebra.Group.Nat.Defs
import MapScript.Interpreter.Step

/-!
# Draws stay within their bounds

A draw between two bounds takes words from the generator up to the first that passes, and scales
that word down to the numbers between the bounds.  `Sampled` says this in integers, for a word that
comes however late.  The generator computes it with words that wrap around; that it does so rightly
is `between_of_sampled`, and that no draw leaves its bounds is `draw_within_bounds`.
-/

namespace MapScript

namespace Generator

/-- The generator after some words. -/
def skip (g : Generator) : Nat → Generator
  | 0 => g
  | n + 1 => (g.next32.2).skip n

/-- The word that comes after `n` others. -/
def wordAt (g : Generator) (n : Nat) : UInt32 := (g.skip n).next32.1

/-- How many numbers there are from `min` to `max`. -/
def span (min max : Int32) : Nat := (max.toInt - min.toInt + 1).toNat

/-- What a word comes to when all words are scaled down to `count` numbers. -/
def scaled (count : Nat) (word : UInt32) : Nat := word.toNat * count / UInt32.size

/-- Whether a word passes: the lower half of its product with `count` is below the multiple of
`count` by a power of two that just fits a word. -/
def Passes (count : Nat) (word : UInt32) : Prop :=
  word.toNat * count % UInt32.size < count * 2 ^ (31 - count.log2)

instance (count : Nat) (word : UInt32) : Decidable (Passes count word) :=
  inferInstanceAs (Decidable (_ < _))

/-- A draw between two bounds has the result `r`, once `n` words have been thrown away.  Where every
number is between the bounds, no word is thrown away, and none is scaled. -/
inductive Sampled (min max : Int32) (g : Generator) : Nat → Int32 → Prop
  | whole (hspan : span min max = UInt32.size) : Sampled min max g 0 (g.wordAt 0).toInt32
  | part {n : Nat} {r : Int32} (hspan : span min max < UInt32.size)
      (hthrown : ∀ k < n, ¬ Passes (span min max) (g.wordAt k))
      (hpasses : Passes (span min max) (g.wordAt n))
      (hvalue : r.toInt = min.toInt + scaled (span min max) (g.wordAt n)) :
      Sampled min max g n r

/-! ## Words -/

theorem toNat_toUInt32 (x : Int32) : (x.toUInt32.toNat : Int) = x.toInt % UInt32.size := by
  have hbits : x.toInt = Int.bmod x.toUInt32.toNat UInt32.size := x.toBitVec.toInt_eq_toNat_bmod
  have hlt := x.toUInt32.toNat_lt
  rw [hbits, Int.bmod_emod, Int.emod_eq_of_lt (Int.natCast_nonneg _)]
  exact_mod_cast hlt

theorem toInt_toInt32 (x : UInt32) : x.toInt32.toInt = Int.bmod x.toNat UInt32.size :=
  x.toBitVec.toInt_eq_toNat_bmod

theorem toNat_product (word range : UInt32) :
    (word.toUInt64 * range.toUInt64).toNat = word.toNat * range.toNat := by
  have hlt : word.toNat * range.toNat < 2 ^ 64 :=
    calc word.toNat * range.toNat
        < 2 ^ 32 * 2 ^ 32 := Nat.mul_lt_mul'' word.toNat_lt range.toNat_lt
      _ = 2 ^ 64 := by decide
  rw [UInt64.toNat_mul, UInt32.toNat_toUInt64, UInt32.toNat_toUInt64, Nat.mod_eq_of_lt hlt]

theorem scaled_lt {count : Nat} (hcount : 0 < count) (word : UInt32) :
    scaled count word < count := by
  apply Nat.div_lt_of_lt_mul
  exact Nat.mul_lt_mul_of_pos_right word.toNat_lt hcount

theorem toNat_upper (word range : UInt32) :
    ((word.toUInt64 * range.toUInt64) >>> 32).toUInt32.toNat = scaled range.toNat word := by
  have hshift : (32 : UInt64).toNat % 64 = 32 := rfl
  have hlt : word.toNat * range.toNat / 2 ^ 32 < 2 ^ 32 := by
    apply Nat.div_lt_of_lt_mul
    exact Nat.mul_lt_mul'' word.toNat_lt range.toNat_lt
  rw [UInt64.toNat_toUInt32, UInt64.toNat_shiftRight, toNat_product, hshift,
    Nat.shiftRight_eq_div_pow, Nat.mod_eq_of_lt hlt]
  rfl

/-- The multiple of a count by the power of two fits a word. -/
theorem multiple_lt {count : Nat} (hlt : count < UInt32.size) :
    count * 2 ^ (31 - count.log2) < UInt32.size := by
  obtain rfl | hpos := Nat.eq_zero_or_pos count
  · decide
  · have hlog : count.log2 ≤ 31 := by
      have := (Nat.log2_lt (k := 32) (Nat.ne_of_gt hpos)).2 hlt
      omega
    calc count * 2 ^ (31 - count.log2)
        < 2 ^ (count.log2 + 1) * 2 ^ (31 - count.log2) :=
          Nat.mul_lt_mul_of_pos_right Nat.lt_log2_self (Nat.two_pow_pos _)
      _ = 2 ^ 32 := by rw [← Nat.pow_add]; congr 1; omega

theorem toNat_zone {range : UInt32} (hrange : 0 < range.toNat) :
    (zone range).toNat + 1 = range.toNat * 2 ^ (31 - range.toNat.log2) := by
  have hlt := multiple_lt range.toNat_lt
  have hpos : 0 < range.toNat * 2 ^ (31 - range.toNat.log2) :=
    Nat.mul_pos hrange (Nat.two_pow_pos _)
  have hone : (1 : UInt32).toNat = 1 := rfl
  rw [zone, UInt32.toNat_sub, UInt32.toNat_ofNat', Nat.shiftLeft_eq, hone]
  rw [show UInt32.size = 4294967296 from rfl] at hlt
  omega

theorem le_zone_iff {range : UInt32} (hrange : 0 < range.toNat) (word : UInt32) :
    (word.toUInt64 * range.toUInt64).toUInt32 ≤ zone range ↔ Passes range.toNat word := by
  have hzone := toNat_zone hrange
  rw [UInt32.le_iff_toNat_le, UInt64.toNat_toUInt32, toNat_product, Passes, ← hzone,
    show UInt32.size = 2 ^ 32 from rfl]
  omega

/-! ## Draws below a range -/

theorem below_of_first {range : UInt32} (hrange : 0 < range.toNat) (attempts : Nat) {g : Generator}
    (hpasses : Passes range.toNat (g.wordAt 0)) :
    below range (attempts + 1) g =
      ((((g.wordAt 0).toUInt64 * range.toUInt64) >>> 32).toUInt32, g.skip 1) :=
  if_pos ((le_zone_iff hrange _).2 hpasses)

theorem below_of_thrown {range : UInt32} (hrange : 0 < range.toNat) (attempts : Nat)
    {g : Generator} (hthrown : ¬ Passes range.toNat (g.wordAt 0)) :
    below range (attempts + 1) g = below range attempts (g.skip 1) :=
  if_neg fun hle => hthrown ((le_zone_iff hrange _).1 hle)

/-- The first word that passes is the one that counts. -/
theorem below_of_passes {range : UInt32} (hrange : 0 < range.toNat) {attempts n : Nat}
    (hn : n < attempts) {g : Generator} (hthrown : ∀ k < n, ¬ Passes range.toNat (g.wordAt k))
    (hpasses : Passes range.toNat (g.wordAt n)) :
    (below range attempts g).1.toNat = scaled range.toNat (g.wordAt n) ∧
      (below range attempts g).2 = g.skip (n + 1) := by
  induction attempts generalizing n g with
  | zero => exact absurd hn (Nat.not_lt_zero n)
  | succ attempts ih =>
      cases n with
      | zero =>
          rw [below_of_first hrange attempts hpasses]
          exact ⟨toNat_upper (g.wordAt 0) range, rfl⟩
      | succ n =>
          rw [below_of_thrown hrange attempts (hthrown 0 (Nat.succ_pos n))]
          apply ih (Nat.lt_of_succ_lt_succ hn) _ hpasses
          exact fun k hk => hthrown (k + 1) (Nat.succ_lt_succ hk)

theorem below_lt {range : UInt32} (hrange : 0 < range.toNat) (attempts : Nat) (g : Generator) :
    (below range attempts g).1.toNat < range.toNat := by
  induction attempts generalizing g with
  | zero => exact hrange
  | succ attempts ih =>
      simp only [below]
      split
      · rw [toNat_upper]
        exact scaled_lt hrange _
      · exact ih _

/-! ## Draws between bounds -/

section

variable {min max : Int32}

theorem span_bounds (h : min < max) :
    (span min max : Int) = max.toInt - min.toInt + 1 ∧ 1 < span min max ∧
      span min max ≤ UInt32.size := by
  have hlt := Int32.lt_iff_toInt_lt.1 h
  have hmin := min.le_toInt
  have hmax := max.toInt_lt
  rw [span, show UInt32.size = 4294967296 from rfl]
  omega

/-- The range is computed with words, in which the number of all words is zero. -/
theorem toNat_range (h : min < max) :
    (max - min + 1).toUInt32.toNat = span min max % UInt32.size := by
  obtain ⟨hspan, -, -⟩ := span_bounds h
  have hone : (1 : Int32).toInt = 1 := rfl
  have hrange : ((max - min + 1).toUInt32.toNat : Int) = (span min max : Int) % UInt32.size := by
    rw [toNat_toUInt32, Int32.toInt_add, Int32.toInt_sub, Int.bmod_add_bmod, hone, hspan]
    exact Int.bmod_emod
  exact Int.ofNat.inj (hrange.trans (Int.natCast_emod _ _).symm)

/-- A number below the span, added to the lower bound, does not wrap around. -/
theorem toInt_add_toInt32 (h : min < max) {n : UInt32} (hn : n.toNat < span min max) :
    (min + n.toInt32).toInt = min.toInt + n.toNat := by
  obtain ⟨hspan, -, -⟩ := span_bounds h
  have hmin := min.le_toInt
  have hmax := max.toInt_lt
  rw [Int32.toInt_add, toInt_toInt32, show UInt32.size = 2 ^ 32 from rfl, Int.add_bmod_bmod]
  apply Int.bmod_eq_of_le <;> omega

theorem between_of_le (h : max ≤ min) (g : Generator) : g.between min max = (min, g) := by
  rw [between, if_pos h]

theorem between_of_whole (h : min < max) (hspan : span min max = UInt32.size) (g : Generator) :
    g.between min max = ((g.wordAt 0).toInt32, g.skip 1) := by
  have hzero : (max - min + 1).toUInt32 = 0 := by
    apply UInt32.toNat.inj
    rw [toNat_range h, hspan]
    rfl
  simp only [between]
  rw [if_neg (Int32.not_le.2 h), if_pos hzero]
  rfl

theorem between_of_part (h : min < max) (hspan : span min max < UInt32.size) (g : Generator) :
    ∃ range : UInt32, range.toNat = span min max ∧
      g.between min max =
        (min + (below range maxAttempts g).1.toInt32, (below range maxAttempts g).2) := by
  have hrange := toNat_range h
  rw [Nat.mod_eq_of_lt hspan] at hrange
  refine ⟨(max - min + 1).toUInt32, hrange, ?_⟩
  have hne : (max - min + 1).toUInt32 ≠ 0 := by
    intro hzero
    rw [hzero, UInt32.toNat_zero] at hrange
    have := (span_bounds h).2.1
    omega
  simp only [between]
  rw [if_neg (Int32.not_le.2 h), if_neg hne]

/-- Where every number is between the bounds, so is this one. -/
theorem bounds_of_whole (h : min < max) (hspan : span min max = UInt32.size) (r : Int32) :
    min ≤ r ∧ r ≤ max := by
  obtain ⟨hcount, -, -⟩ := span_bounds h
  have hmin := min.le_toInt
  have hmax := max.toInt_lt
  have hr := r.le_toInt
  have hr' := r.toInt_lt
  rw [hspan, show UInt32.size = 4294967296 from rfl] at hcount
  rw [Int32.le_iff_toInt_le, Int32.le_iff_toInt_le]
  omega

theorem bounds_of_part (h : min < max) {r : Int32} {n : Nat} (hn : n < span min max)
    (hr : r.toInt = min.toInt + n) : min ≤ r ∧ r ≤ max := by
  obtain ⟨hcount, -, -⟩ := span_bounds h
  rw [Int32.le_iff_toInt_le, Int32.le_iff_toInt_le]
  omega

theorem Sampled.bounds {g : Generator} {n : Nat} {r : Int32} (hr : Sampled min max g n r)
    (h : min < max) : min ≤ r ∧ r ≤ max := by
  cases hr with
  | whole hspan => exact bounds_of_whole h hspan _
  | part _ _ _ hvalue =>
      have hpos : 0 < span min max := Nat.lt_of_succ_lt (span_bounds h).2.1
      exact bounds_of_part h (scaled_lt hpos _) hvalue

theorem between_bounds (h : min < max) (g : Generator) :
    min ≤ (g.between min max).1 ∧ (g.between min max).1 ≤ max := by
  obtain ⟨-, hmany, hspan⟩ := span_bounds h
  obtain hspan | hspan := Nat.lt_or_eq_of_le hspan
  · obtain ⟨range, hrange, hbetween⟩ := between_of_part h hspan g
    have hpos : 0 < range.toNat := by omega
    have hlt := below_lt hpos maxAttempts g
    rw [hrange] at hlt
    rw [hbetween]
    exact bounds_of_part h hlt (toInt_add_toInt32 h hlt)
  · exact bounds_of_whole h hspan _

/-- The generator draws as it should, as long as it does not give up first. -/
theorem between_of_sampled (h : min < max) {g : Generator} {n : Nat} {r : Int32}
    (hr : Sampled min max g n r) (hn : n < maxAttempts) :
    g.between min max = (r, g.skip (n + 1)) := by
  obtain ⟨-, hmany, -⟩ := span_bounds h
  cases hr with
  | whole hspan => exact between_of_whole h hspan g
  | part hspan hthrown hpasses hvalue =>
      obtain ⟨range, hrange, hbetween⟩ := between_of_part h hspan g
      rw [← hrange] at hthrown hpasses hvalue
      obtain ⟨hdrawn, hafter⟩ := below_of_passes (by omega) hn hthrown hpasses
      have hlt : (below range maxAttempts g).1.toNat < span min max := by
        rw [← hrange]
        exact below_lt (by omega) maxAttempts g
      have hresult : min + (below range maxAttempts g).1.toInt32 = r := by
        apply Int32.toInt_inj.1
        rw [toInt_add_toInt32 h hlt, hdrawn, hvalue]
      rw [hbetween, hresult, hafter]

end

end Generator

/-- Both forms of a draw push what the generator gives. -/
theorem step_draw {image : Image} {i : ScriptInstance} {c : Context} {min max : Int32} {next : Nat}
    {rest : List Int32}
    (hdraw : image.program.fetch i.pc = some ⟨.random, next⟩ ∧ i.stack.cells = max :: min :: rest ∨
      image.program.fetch i.pc = some ⟨.randomDirect min max, next⟩ ∧ i.stack.cells = rest)
    (hroom : rest.length < OperandStack.depth) :
    step image i c = ⟨.continue,
      { i with stack := ⟨(c.rng.between min max).1 :: rest⟩, pc := next },
      { c with rng := (c.rng.between min max).2 }⟩ := by
  have heffect : ∃ instruction, image.program.fetch i.pc = some ⟨instruction, next⟩ ∧
      instruction.effect image i c i.stack = .ok (.draw min max) ⟨rest⟩ := by
    obtain ⟨hfetch, hcells⟩ | ⟨hfetch, hcells⟩ := hdraw
    · refine ⟨.random, hfetch, ?_⟩
      simp only [Instruction.effect, Operands.pop, bind, EStateM.bind, hcells]
      rfl
    · refine ⟨.randomDirect min max, hfetch, ?_⟩
      rw [← hcells]
      rfl
  obtain ⟨instruction, hfetch, heffect⟩ := heffect
  simp only [step, hfetch, heffect, Effect.perform, pushResult, OperandStack.push, if_pos hroom]

/-- A draw pushes a number between its bounds, both for bounds on the stack, the upper on top, and
for bounds in the code.  It is the one of the first word that passes, unless the generator has given
up before, and whenever that word comes, the number is between the bounds.  Bounds that leave one
number or none give the lower one and leave the generator. -/
theorem draw_within_bounds (image : Image) (i : ScriptInstance) (c : Context) (min max : Int32)
    (next : Nat) (rest : List Int32)
    (hdraw : image.program.fetch i.pc = some ⟨.random, next⟩ ∧ i.stack.cells = max :: min :: rest ∨
      image.program.fetch i.pc = some ⟨.randomDirect min max, next⟩ ∧ i.stack.cells = rest)
    (hroom : rest.length < OperandStack.depth) :
    ∃ r rng, step image i c =
        ⟨.continue, { i with stack := ⟨r :: rest⟩, pc := next }, { c with rng }⟩ ∧
      (max ≤ min → r = min ∧ rng = c.rng) ∧
      (min < max → min ≤ r ∧ r ≤ max ∧
        ∀ n r', Generator.Sampled min max c.rng n r' → min ≤ r' ∧ r' ≤ max ∧
          (n < Generator.maxAttempts → r = r' ∧ rng = c.rng.skip (n + 1))) := by
  refine ⟨_, _, step_draw hdraw hroom, fun hle => ?_, fun hlt => ?_⟩
  · rw [Generator.between_of_le hle]
    exact ⟨rfl, rfl⟩
  · obtain ⟨hlow, hhigh⟩ := Generator.between_bounds hlt c.rng
    refine ⟨hlow, hhigh, fun n r' hsampled => ?_⟩
    obtain ⟨hlow', hhigh'⟩ := hsampled.bounds hlt
    refine ⟨hlow', hhigh', fun hn => ?_⟩
    rw [Generator.between_of_sampled hlt hsampled hn]
    exact ⟨rfl, rfl⟩

/-- A draw with its bounds on the stack, one between the least and the greatest number, and one
whose bounds are the wrong way round. -/
def drawingImage : Image :=
  { Image.empty with program := ⟨#[some ⟨.random, 1⟩,
      some ⟨.randomDirect Int32.minValue Int32.maxValue, 4⟩, some ⟨.randomDirect 6 1, 7⟩]⟩ }

def drawing (pc : Nat) (operands : List Int32) : ScriptInstance :=
  { ScriptInstance.new 0 ⟨1, 0, 0, false⟩ .zero .none with pc, stack := .ofList operands }

def drawingContext : Context where
  world := .zero
  map := .zero
  print := .new 128
  rng := .ofSeed 0
  host := .new

/-- Of so many numbers that about half of all words are thrown away, the third word is the first
that passes.  The least number is drawn like any other.  Bounds the wrong way round leave the
generator. -/
theorem draw_within_bounds_drawing :
    let c := drawingContext
    let wide := step drawingImage (drawing 0 [7, -1073741825, 1073741823]) c
    let wrong := step drawingImage (drawing 2 []) c
    (wide.inst.stack.toList = [7, 1030534992] ∧ wide.context.rng = c.rng.skip 3) ∧
    (∃ r, (step drawingImage (drawing 1 []) c).inst.stack.toList = [r] ∧
      Int32.minValue ≤ r ∧ r ≤ Int32.maxValue) ∧
    wrong.inst.stack.toList = [6] ∧ wrong.context.rng = c.rng := by
  intro c wide wrong
  have hsampled : Generator.Sampled (-1073741825) 1073741823 c.rng 2 1030534992 := by
    refine .part (by decide) ?_ (by decide +kernel) (by decide +kernel)
    decide +kernel
  obtain ⟨r, rng, hwide, -, hwithin⟩ := draw_within_bounds drawingImage
    (drawing 0 [7, -1073741825, 1073741823]) c (-1073741825) 1073741823 1 [7]
    (.inl ⟨rfl, rfl⟩) (by decide)
  obtain ⟨rfl, rfl⟩ := ((hwithin (by decide)).2.2 2 _ hsampled).2.2 (by decide)
  obtain ⟨r, rng, hwhole, -, hbounds⟩ := draw_within_bounds drawingImage (drawing 1 []) c
    Int32.minValue Int32.maxValue 4 [] (.inr ⟨rfl, rfl⟩) (by decide)
  obtain ⟨s, rng', hwrong, hleast, -⟩ := draw_within_bounds drawingImage (drawing 2 []) c 6 1 7 []
    (.inr ⟨rfl, rfl⟩) (by decide)
  obtain ⟨rfl, rfl⟩ := hleast (by decide)
  obtain ⟨hlow, hhigh, -⟩ := hbounds (by decide)
  refine ⟨?_, ⟨r, ?_, hlow, hhigh⟩, ?_⟩
  · rw [show wide = _ from hwide]
    exact ⟨rfl, rfl⟩
  · rw [hwhole]
    rfl
  · rw [show wrong = _ from hwrong]
    exact ⟨rfl, rfl⟩

end MapScript
