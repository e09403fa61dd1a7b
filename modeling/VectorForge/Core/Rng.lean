import VectorForge.Hnsw.LevelGenerator
import VectorForge.Lib.Words

/-! The generators of pseudo-random numbers, and integers below a bound. -/

namespace VectorForge

theorem splitmix64_injective : Function.Injective splitmix64 := by
  have shifts : Function.Injective fun x : UInt64 => x ^^^ (x >>> 31) := Words.xorShift_injective 31 (by decide)
  have unit : (0x94D049BB133111EB : UInt64) * 0x319642B2D24D8EC3 = 1 := by decide
  have second : Function.Injective fun x : UInt64 => (x ^^^ (x >>> 27)) * 0x94D049BB133111EB :=
    (Words.mul_injective unit).comp (Words.xorShift_injective 27 (by decide))
  have unit : (0xBF58476D1CE4E5B9 : UInt64) * 0x96DE1B173F119089 = 1 := by decide
  have first : Function.Injective fun x : UInt64 => (x ^^^ (x >>> 30)) * 0xBF58476D1CE4E5B9 :=
    (Words.mul_injective unit).comp (Words.xorShift_injective 30 (by decide))
  exact shifts.comp (second.comp (first.comp (Words.add_injective kSplitMix64Increment)))

structure SplitMix64 where
  state : UInt64

/-- `operator()`. -/
def SplitMix64.next (g : SplitMix64) : UInt64 × SplitMix64 :=
  (splitmix64 g.state, { state := g.state + kSplitMix64Increment })

/-- `std::rotl`. -/
def rotl (x r : UInt64) : UInt64 := (x <<< r) ||| (x >>> (64 - r))

structure Xoshiro256ss where
  s0 : UInt64
  s1 : UInt64
  s2 : UInt64
  s3 : UInt64
  deriving DecidableEq, Repr

namespace Xoshiro256ss

/-- The state that a seed leads to. -/
def seeded (seed : UInt64) : Xoshiro256ss :=
  let (s0, seeder) := SplitMix64.next { state := seed }
  let (s1, seeder) := seeder.next
  let (s2, seeder) := seeder.next
  let (s3, _) := seeder.next
  { s0, s1, s2, s3 }

def next (g : Xoshiro256ss) : UInt64 × Xoshiro256ss :=
  let result := rotl (g.s1 * 5) 7 * 9
  let t := g.s1 <<< 17
  let s2 := g.s2 ^^^ g.s0
  let s3 := g.s3 ^^^ g.s1
  let s1 := g.s1 ^^^ s2
  let s0 := g.s0 ^^^ s3
  (result, { s0, s1, s2 := s2 ^^^ t, s3 := rotl s3 45 })

/-- The state after so many numbers. -/
def stateAt (seed : UInt64) (count : Nat) : Xoshiro256ss := (fun g => (next g).2)^[count] (seeded seed)

def zero : Xoshiro256ss := ⟨0, 0, 0, 0⟩

theorem rotl_injective : Function.Injective fun x => rotl x 45 := by
  have value (x : UInt64) : (rotl x 45).toNat = x.toNat % 2 ^ 19 * 2 ^ 45 + x.toNat / 2 ^ 19 := by
    have high : x.toNat / 2 ^ 19 < 2 ^ 45 := by
      have := x.toNat_lt
      omega
    have low : x.toNat <<< 45 % 2 ^ 64 = (x.toNat % 2 ^ 19) <<< 45 := by
      rw [Nat.shiftLeft_eq, Nat.shiftLeft_eq]
      omega
    rw [rotl, UInt64.toNat_or, UInt64.toNat_shiftLeft, UInt64.toNat_shiftRight]
    simp only [UInt64.reduceSub, UInt64.reduceToNat, Nat.reduceMod]
    rw [low, Nat.shiftRight_eq_div_pow, ← Nat.shiftLeft_add_eq_or_of_lt high, Nat.shiftLeft_eq]
  intro x y same
  have values := congrArg UInt64.toNat same
  simp only [value] at values
  refine UInt64.toNat_inj.mp ?_
  have := x.toNat_lt
  have := y.toNat_lt
  omega

/-- Nothing of the state is lost. -/
theorem next_injective : Function.Injective fun g => (next g).2 := by
  rintro ⟨a0, a1, a2, a3⟩ ⟨b0, b1, b2, b3⟩ same
  simp only [next, mk.injEq] at same
  obtain ⟨first, second, third, fourth⟩ := same
  have turned : a3 ^^^ a1 = b3 ^^^ b1 := rotl_injective fourth
  rw [turned] at first
  obtain rfl := Words.xor_injective _ first
  -- the second and the third word together leave the shifted one only
  have cancel (a c d : UInt64) : a ^^^ c ^^^ (c ^^^ d) = a ^^^ d := by
    rw [UInt64.xor_assoc, ← UInt64.xor_assoc c c, UInt64.xor_self, UInt64.zero_xor]
  have mixed : a1 ^^^ (a1 <<< 17) = b1 ^^^ (b1 <<< 17) := by
    rw [← cancel a1 (a2 ^^^ a0), ← cancel b1 (b2 ^^^ a0), second, third]
  obtain rfl := Words.xorShiftLeft_injective 17 (by decide) mixed
  obtain rfl := Words.xor_injective _ turned
  obtain rfl := Words.xor_injective _ (Words.xor_injective _ third)
  rfl

theorem seeded_ne_zero (seed : UInt64) : seeded seed ≠ zero := by
  intro same
  simp only [seeded, SplitMix64.next, zero, mk.injEq] at same
  have twice : seed = seed + kSplitMix64Increment := splitmix64_injective (same.1.trans same.2.1.symm)
  have values := congrArg UInt64.toNat twice
  rw [UInt64.toNat_add] at values
  have increment : kSplitMix64Increment.toNat = 0x9E3779B97F4A7C15 := rfl
  have := seed.toNat_lt
  omega

/-- No seed ever leads to the state in which the generator would stay. -/
theorem never_reaches_zero (seed : UInt64) (count : Nat) : stateAt seed count ≠ zero := by
  induction count with
  | zero => exact seeded_ne_zero seed
  | succ count ih =>
    rw [stateAt, Function.iterate_succ_apply', ← stateAt]
    intro same
    have stays : (next zero).2 = zero := by decide
    exact ih (next_injective (same.trans stays.symm))

end Xoshiro256ss

/-- The high half of a product, from the products of the halves. -/
def mulHighU64 (a b : UInt64) : UInt64 :=
  let a_lo := a &&& 0xFFFFFFFF
  let a_hi := a >>> 32
  let b_lo := b &&& 0xFFFFFFFF
  let b_hi := b >>> 32
  let lo_lo := a_lo * b_lo
  let hi_lo := a_hi * b_lo
  let lo_hi := a_lo * b_hi
  let hi_hi := a_hi * b_hi
  let cross := (lo_lo >>> 32) + (hi_lo &&& 0xFFFFFFFF) + lo_hi
  hi_hi + (hi_lo >>> 32) + (cross >>> 32)

theorem toNat_low (x : UInt64) : (x &&& 0xFFFFFFFF).toNat = x.toNat % 2 ^ 32 := by
  rw [UInt64.toNat_and]
  exact Nat.and_two_pow_sub_one_eq_mod x.toNat 32

theorem toNat_high (x : UInt64) : (x >>> 32).toNat = x.toNat / 2 ^ 32 := by
  rw [UInt64.toNat_shiftRight]
  exact Nat.shiftRight_eq_div_pow x.toNat 32

/-- The product of two halves fits. -/
theorem toNat_mul_half {x y : UInt64} (left : x.toNat < 2 ^ 32) (right : y.toNat < 2 ^ 32) :
    (x * y).toNat = x.toNat * y.toNat ∧ x.toNat * y.toNat ≤ (2 ^ 32 - 1) * (2 ^ 32 - 1) := by
  have small : x.toNat * y.toNat ≤ (2 ^ 32 - 1) * (2 ^ 32 - 1) := Nat.mul_le_mul (by omega) (by omega)
  exact ⟨by rw [UInt64.toNat_mul, Nat.mod_eq_of_lt (by omega)], small⟩

/-- No carry between the four products is lost. -/
theorem toNat_carries {lo_lo hi_lo lo_hi hi_hi : UInt64} (first : lo_lo.toNat ≤ (2 ^ 32 - 1) * (2 ^ 32 - 1))
    (second : hi_lo.toNat ≤ (2 ^ 32 - 1) * (2 ^ 32 - 1)) (third : lo_hi.toNat ≤ (2 ^ 32 - 1) * (2 ^ 32 - 1))
    (fits : hi_hi.toNat * 2 ^ 64 + (hi_lo.toNat + lo_hi.toNat) * 2 ^ 32 + lo_lo.toNat < 2 ^ 64 * 2 ^ 64) :
    (hi_hi + (hi_lo >>> 32) + (((lo_lo >>> 32) + (hi_lo &&& 0xFFFFFFFF) + lo_hi) >>> 32)).toNat =
      (hi_hi.toNat * 2 ^ 64 + (hi_lo.toNat + lo_hi.toNat) * 2 ^ 32 + lo_lo.toNat) / 2 ^ 64 := by
  have cross : ((lo_lo >>> 32) + (hi_lo &&& 0xFFFFFFFF) + lo_hi).toNat = lo_lo.toNat / 2 ^ 32 + hi_lo.toNat % 2 ^
      32 + lo_hi.toNat := by
    rw [UInt64.toNat_add, UInt64.toNat_add, toNat_high, toNat_low]
    omega
  rw [UInt64.toNat_add, UInt64.toNat_add, toNat_high, toNat_high, cross]
  omega

theorem toNat_mulHighU64 (a b : UInt64) : (mulHighU64 a b).toNat = a.toNat * b.toNat / 2 ^ 64 := by
  have half (x : UInt64) : (x &&& (0xFFFFFFFF : UInt64)).toNat < 2 ^ 32 ∧ (x >>> 32).toNat < 2 ^ 32 := by
    have := x.toNat_lt
    rw [toNat_low, toNat_high]
    omega
  obtain ⟨loLo, first⟩ := toNat_mul_half (half a).1 (half b).1
  obtain ⟨hiLo, second⟩ := toNat_mul_half (half a).2 (half b).1
  obtain ⟨loHi, third⟩ := toNat_mul_half (half a).1 (half b).2
  obtain ⟨hiHi, -⟩ := toNat_mul_half (half a).2 (half b).2
  rw [← loLo] at first
  rw [← hiLo] at second
  rw [← loHi] at third
  have product : a.toNat * b.toNat = ((a >>> 32) * (b >>> 32)).toNat * 2 ^ 64 +
      (((a >>> 32) * (b &&& (0xFFFFFFFF : UInt64))).toNat + ((a &&& (0xFFFFFFFF : UInt64)) * (b >>> 32)).toNat) *
      2 ^ 32 +
      ((a &&& (0xFFFFFFFF : UInt64)) * (b &&& (0xFFFFFFFF : UInt64))).toNat := by
    have parts (x : UInt64) : x.toNat = (x >>> 32).toNat * 2 ^ 32 + (x &&& (0xFFFFFFFF : UInt64)).toNat := by
      rw [toNat_low, toNat_high]
      omega
    conv_lhs => rw [parts a, parts b]
    rw [hiHi, hiLo, loHi, loLo]
    ring
  have bound : a.toNat * b.toNat < 2 ^ 64 * 2 ^ 64 := Nat.mul_lt_mul'' a.toNat_lt b.toNat_lt
  rw [product] at bound ⊢
  unfold mulHighU64
  exact toNat_carries first second third bound

section Below
variable {σ : Type} (draw : σ → UInt64 × σ) (bound : UInt64)

/-- `while (low < threshold)`, for at most so many turns. -/
def redraw (threshold : UInt64) : Nat → σ → Option (UInt64 × σ)
  | 0, _ => none
  | fuel + 1, gen =>
    let (x, gen) := draw gen
    if x * bound < threshold then redraw threshold fuel gen else some (mulHighU64 x bound, gen)

/-- An integer below the bound, if the loop ends after so many turns. -/
def uniformBelow (fuel : Nat) (gen : σ) : Option (UInt64 × σ) :=
  let (x, gen) := draw gen
  let low := x * bound
  if low < bound then
    let threshold := (0 - bound) % bound
    if low < threshold then redraw draw bound threshold fuel gen else some (mulHighU64 x bound, gen)
  else some (mulHighU64 x bound, gen)

/-- The number with which the loop ends. -/
def Accepts (x : UInt64) : Prop := ¬ x * bound < (0 - bound) % bound

/-- The generator after so many numbers, and the next number. -/
def genAt (gen : σ) (i : Nat) : σ := (fun g => (draw g).2)^[i] gen

def numberAt (gen : σ) (i : Nat) : UInt64 := (draw (genAt draw gen i)).1

variable {draw bound}

theorem redraw_of_accepts {fuel i : Nat} (gen : σ) (enough : i < fuel)
    (first : ∀ j, j < i → ¬ Accepts bound (numberAt draw gen j)) (accepts : Accepts bound (numberAt draw gen i)) :
    redraw draw bound ((0 - bound) % bound) fuel gen =
      some (mulHighU64 (numberAt draw gen i) bound, genAt draw gen (i + 1)) := by
  induction i generalizing fuel gen with
  | zero =>
    obtain ⟨fuel, rfl⟩ := Nat.exists_eq_succ_of_ne_zero (Nat.ne_of_gt enough)
    exact if_neg accepts
  | succ i ih =>
    obtain ⟨fuel, rfl⟩ := Nat.exists_eq_succ_of_ne_zero (Nat.ne_of_gt (Nat.zero_lt_of_lt enough))
    have refused := not_not.mp (first 0 (Nat.succ_pos i))
    refine (if_pos refused).trans (ih (draw gen).2 (by omega) (fun j below => first (j + 1) (by omega)) accepts)

/-- The first number that is accepted decides. -/
theorem uniformBelow_of_accepts {fuel i : Nat} {gen : σ} (enough : i ≤ fuel)
    (first : ∀ j, j < i → ¬ Accepts bound (numberAt draw gen j))
    (accepts : Accepts bound (numberAt draw gen i)) (positive : 0 < bound.toNat) :
    uniformBelow draw bound fuel gen = some (mulHighU64 (numberAt draw gen i) bound, genAt draw gen (i + 1)) := by
  have threshold : ((0 - bound) % bound).toNat < bound.toNat := by
    rw [UInt64.toNat_mod]
    exact Nat.mod_lt _ positive
  cases i with
  | zero =>
    have kept : ¬ (draw gen).1 * bound < (0 - bound) % bound := accepts
    by_cases low : (draw gen).1 * bound < bound
    · exact (if_pos low).trans (if_neg kept)
    · exact if_neg low
  | succ i =>
    have refused : (draw gen).1 * bound < (0 - bound) % bound := not_not.mp (first 0 (Nat.succ_pos i))
    have low : (draw gen).1 * bound < bound :=
      UInt64.lt_iff_toNat_lt.mpr ((UInt64.lt_iff_toNat_lt.mp refused).trans threshold)
    refine (if_pos low).trans ((if_pos refused).trans ?_)
    exact redraw_of_accepts (draw gen).2 (by omega) (fun j below => first (j + 1) (by omega)) accepts

theorem toNat_threshold (positive : 0 < bound.toNat) : ((0 - bound) % bound).toNat = 2 ^ 64 % bound.toNat := by
  have below := bound.toNat_lt
  have negated : (0 - bound).toNat = 2 ^ 64 - bound.toNat := by
    rw [UInt64.toNat_sub]
    simp only [UInt64.reduceToNat]
    omega
  rw [UInt64.toNat_mod, negated, Nat.mod_eq_sub_mod (a := 2 ^ 64) below.le]

theorem accepts_iff (positive : 0 < bound.toNat) (x : UInt64) : Accepts bound x ↔
    2 ^ 64 % bound.toNat ≤ x.toNat * bound.toNat % 2 ^ 64 := by
  rw [Accepts, UInt64.lt_iff_toNat_lt, toNat_threshold positive, UInt64.toNat_mul, Nat.not_lt]

end Below

/-- The result is that of the first number that is accepted, it is below the bound, and each possible result
belongs to equally many of the accepted numbers. -/
theorem uniform_below_is_unbiased (bound : UInt64) (positive : 0 < bound.toNat) :
    (∀ (σ : Type) (draw : σ → UInt64 × σ) (gen : σ) (fuel i : Nat), i ≤ fuel →
      (∀ j, j < i → ¬ Accepts bound (numberAt draw gen j)) →
      Accepts bound (numberAt draw gen i) →
      uniformBelow draw bound fuel gen = some (mulHighU64 (numberAt draw gen i) bound, genAt draw gen (i + 1))) ∧
    (∀ x, (mulHighU64 x bound).toNat < bound.toNat) ∧
    ∀ r, r < bound.toNat → {x | Accepts bound x ∧ (mulHighU64 x bound).toNat = r}.ncard = 2 ^ 64 / bound.toNat := by
  refine ⟨fun σ draw gen fuel i enough first accepts => uniformBelow_of_accepts enough first accepts positive,
    fun x => ?_, fun r below => ?_⟩
  · rw [toNat_mulHighU64]
    exact Nat.div_lt_of_lt_mul (Nat.mul_lt_mul_of_pos_right x.toNat_lt positive)
  · have whole := Nat.div_add_mod (2 ^ 64) bound.toNat
    have count := Words.card_multiples (r * 2 ^ 64 + 2 ^ 64 % bound.toNat) (2 ^ 64 / bound.toNat) positive ?_
    · rw [← count]
      congr 1
      ext x
      simp only [Set.mem_ofPred_eq, accepts_iff positive, toNat_mulHighU64]
      have parts := Nat.div_add_mod (x.toNat * bound.toNat) (2 ^ 64)
      rw [Nat.mul_comm bound.toNat] at whole
      constructor
      · rintro ⟨kept, rfl⟩
        omega
      · rintro ⟨above, beyond⟩
        omega
    · rw [Nat.mul_comm bound.toNat] at whole
      have more : (r + 1) * 2 ^ 64 ≤ bound.toNat * 2 ^ 64 := Nat.mul_le_mul_right _ below
      omega

/-- A die. -/
theorem uniform_below_is_unbiased_six : {x | Accepts 6 x ∧ (mulHighU64 x 6).toNat = 5}.ncard = 2 ^ 64 / 6 :=
  (uniform_below_is_unbiased 6 (by decide)).2.2 5 (by decide)

end VectorForge
