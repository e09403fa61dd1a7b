import VectorForge.Core.Config

namespace VectorForge

def kSplitMix64Increment : UInt64 := 0x9E3779B97F4A7C15

def splitmix64 (x : UInt64) : UInt64 :=
  let z := x + kSplitMix64Increment
  let z := (z ^^^ (z >>> 30)) * 0xBF58476D1CE4E5B9
  let z := (z ^^^ (z >>> 27)) * 0x94D049BB133111EB
  z ^^^ (z >>> 31)

structure LevelGenerator where
  seed : UInt64
  m : UInt64
  maxLevel : Nat

namespace LevelGenerator

def kTwoPow53 : UInt64 := 0x20000000000000

/-- `while (level < max_level_)`, with the levels that are left as the measure. -/
def levelLoop (m bound : UInt64) : Nat → UInt64 → Nat → Nat
  | 0, _, level => level
  | left + 1, power, level => if power * m > bound then level else levelLoop m bound left (power * m) (level + 1)

def levelFor (g : LevelGenerator) (id : Nat) : Nat :=
  let bits := splitmix64 (g.seed ^^^ splitmix64 (UInt64.ofNat id))
  let v := (bits >>> 11) + 1
  levelLoop g.m (kTwoPow53 / v) g.maxLevel 1 0

theorem levelLoop_le {m bound : UInt64} : ∀ {left level : Nat} {power : UInt64},
    levelLoop m bound left power level ≤ level + left
  | 0, _, _ => Nat.le_refl _
  | left + 1, level, power => by
    rw [levelLoop]
    split
    · omega
    · have rest : levelLoop m bound left (power * m) (level + 1) ≤ level + 1 + left := levelLoop_le
      omega

theorem levelFor_le (g : LevelGenerator) (id : Nat) : g.levelFor id ≤ g.maxLevel := by
  have bound : g.levelFor id ≤ 0 + g.maxLevel := levelLoop_le
  rwa [Nat.zero_add] at bound

/-- The value of the node: `v * 2^-53` is what is drawn for it. -/
def draw (g : LevelGenerator) (id : Nat) : UInt64 :=
  (splitmix64 (g.seed ^^^ splitmix64 (UInt64.ofNat id)) >>> 11) + 1

/-- What `levelLoop` multiplies by `m`, one value for each turn. -/
def loopPowers (m bound : UInt64) : Nat → UInt64 → List UInt64
  | 0, _ => []
  | left + 1, power => power :: if power * m > bound then [] else loopPowers m bound left (power * m)

theorem toNat_kTwoPow53 : kTwoPow53.toNat = 2 ^ 53 := rfl

theorem toNat_draw (g : LevelGenerator) (id : Nat) : 1 ≤ (g.draw id).toNat ∧ (g.draw id).toNat ≤ 2 ^ 53 := by
  have small : (splitmix64 (g.seed ^^^ splitmix64 (UInt64.ofNat id)) >>> 11).toNat < 2 ^ 53 := by
    generalize splitmix64 (g.seed ^^^ splitmix64 (UInt64.ofNat id)) = bits
    have whole := bits.toNat_lt
    rw [UInt64.toNat_shiftRight]
    simp only [UInt64.reduceToNat, Nat.reduceMod, Nat.shiftRight_eq_div_pow]
    omega
  rw [draw, UInt64.toNat_add]
  simp only [UInt64.reduceToNat]
  omega

section Loop
variable {m bound : UInt64}

/-- A turn multiplies without wrapping, and compares powers of `m`. -/
theorem toNat_next {power : UInt64} (small : m.toNat ≤ 512) (limit : bound.toNat ≤ 2 ^ 53)
    (below : power.toNat ≤ bound.toNat) :
    power.toNat * m.toNat < 2 ^ 64 ∧ (power * m).toNat = power.toNat * m.toNat := by
  have product : power.toNat * m.toNat ≤ 2 ^ 53 * 512 := Nat.mul_le_mul (Nat.le_trans below limit) small
  have fits : power.toNat * m.toNat < 2 ^ 64 := by omega
  exact ⟨fits, by rw [UInt64.toNat_mul, Nat.mod_eq_of_lt fits]⟩

/-- The loop stops at the largest power that is not above the bound. -/
theorem levelLoop_spec (base : 2 ≤ m.toNat) (small : m.toNat ≤ 512) (limit : bound.toNat ≤ 2 ^ 53) :
    ∀ (left : Nat) {level : Nat} {power : UInt64}, power.toNat = m.toNat ^ level → power.toNat ≤ bound.toNat →
      level ≤ levelLoop m bound left power level ∧ m.toNat ^ levelLoop m bound left power level ≤ bound.toNat ∧
      (∀ l, l ≤ level + left → m.toNat ^ l ≤ bound.toNat → l ≤ levelLoop m bound left power level) ∧
      ∀ p ∈ loopPowers m bound left power, p.toNat * m.toNat < 2 ^ 64
  | 0, level, power, exact_, below => by
    refine ⟨Nat.le_refl _, by rw [levelLoop, ← exact_]; exact below, fun l within _ => within, fun p member => ?_⟩
    cases member
  | left + 1, level, power, exact_, below => by
    obtain ⟨fits, product⟩ := toNat_next small limit below
    have next : (power * m).toNat = m.toNat ^ (level + 1) := by rw [product, exact_, Nat.pow_succ]
    rw [levelLoop, loopPowers]
    by_cases stops : power * m > bound
    · rw [if_pos stops, if_pos stops]
      refine ⟨Nat.le_refl _, by rw [← exact_]; exact below, fun l _ power' => ?_, fun p member => ?_⟩
      · have above : bound.toNat < m.toNat ^ (level + 1) := next ▸ UInt64.lt_iff_toNat_lt.mp stops
        rcases Nat.lt_or_ge level l with beyond | within
        · have more : m.toNat ^ (level + 1) ≤ m.toNat ^ l := Nat.pow_le_pow_right (by omega) beyond
          omega
        · exact within
      · rw [List.mem_singleton.mp member]
        exact fits
    · rw [if_neg stops, if_neg stops]
      have within : (power * m).toNat ≤ bound.toNat := UInt64.le_iff_toNat_le.mp (UInt64.not_lt.mp stops)
      obtain ⟨low, result, largest, products⟩ := levelLoop_spec base small limit left next within
      refine ⟨by omega, result, fun l bounded power' => largest l (by omega) power', fun p member => ?_⟩
      rcases List.mem_cons.mp member with rfl | later
      · exact fits
      · exact products p later

end Loop

/-- The powers of `M` that the loop allows, and those that it multiplies. -/
theorem levelFor_spec (g : LevelGenerator) (id : Nat) (base : 2 ≤ g.m.toNat ∧ g.m.toNat ≤ 512) :
    (g.draw id).toNat * g.m.toNat ^ g.levelFor id ≤ 2 ^ 53 ∧
      (∀ l, l ≤ g.maxLevel → (g.draw id).toNat * g.m.toNat ^ l ≤ 2 ^ 53 → l ≤ g.levelFor id) ∧
      ∀ power ∈ loopPowers g.m (kTwoPow53 / g.draw id) g.maxLevel 1, power.toNat * g.m.toNat < 2 ^ 64 := by
  obtain ⟨positive, most⟩ := g.toNat_draw id
  have quotient : (kTwoPow53 / g.draw id).toNat = 2 ^ 53 / (g.draw id).toNat := by
    rw [UInt64.toNat_div, toNat_kTwoPow53]
  have atMost (l : Nat) : g.m.toNat ^ l ≤ (kTwoPow53 / g.draw id).toNat ↔
      (g.draw id).toNat * g.m.toNat ^ l ≤ 2 ^ 53 := by
    rw [quotient, Nat.le_div_iff_mul_le positive, Nat.mul_comm]
  have limit : (kTwoPow53 / g.draw id).toNat ≤ 2 ^ 53 := by
    rw [quotient]
    exact Nat.div_le_self _ _
  have one : (1 : UInt64).toNat ≤ (kTwoPow53 / g.draw id).toNat := by
    rw [quotient, Nat.le_div_iff_mul_le positive]
    simpa using most
  have start : (1 : UInt64).toNat = g.m.toNat ^ 0 := (Nat.pow_zero _).symm
  obtain ⟨-, result, largest, products⟩ := levelLoop_spec base.1 base.2 limit g.maxLevel start one
  exact ⟨(atMost _).mp result, fun l within power => largest l (by omega) ((atMost l).mpr power), products⟩

/-- The level is the largest one, up to the cap, that the paper's formula allows for the value that was
drawn, and no product of the loop wraps. -/
theorem level_for_is_exact (g : LevelGenerator) (id : Nat) (base : 2 ≤ g.m.toNat ∧ g.m.toNat ≤ 512) :
    g.levelFor id ≤ g.maxLevel ∧ (g.draw id).toNat * g.m.toNat ^ g.levelFor id ≤ 2 ^ 53 ∧
      (∀ l, l ≤ g.maxLevel → (g.draw id).toNat * g.m.toNat ^ l ≤ 2 ^ 53 → l ≤ g.levelFor id) ∧
      ∀ power ∈ loopPowers g.m (kTwoPow53 / g.draw id) g.maxLevel 1, power.toNat * g.m.toNat < 2 ^ 64 := by
  obtain ⟨result, largest, products⟩ := g.levelFor_spec id base
  exact ⟨g.levelFor_le id, result, largest, products⟩

theorem level_for_is_exact_default :
    let g : LevelGenerator := { seed := 0x5EEDF0A6E, m := 16, maxLevel := 16 }
    (g.draw 7).toNat * 16 ^ g.levelFor 7 ≤ 2 ^ 53 ∧
      ∀ power ∈ loopPowers g.m (kTwoPow53 / g.draw 7) g.maxLevel 1, power.toNat * g.m.toNat < 2 ^ 64 :=
  have exact_ := level_for_is_exact { seed := 0x5EEDF0A6E, m := 16, maxLevel := 16 } 7 (by decide)
  ⟨exact_.2.1, exact_.2.2.2⟩

end LevelGenerator

/-- The generator that `HnswBackend` is constructed with. -/
def HnswParams.levels (p : HnswParams) : LevelGenerator where
  seed := p.seed
  m := UInt64.ofNat p.M.toNat
  maxLevel := p.maxLevel.toNat

end VectorForge
