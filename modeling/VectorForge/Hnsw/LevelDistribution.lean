import VectorForge.Core.Rng

/-! How often each level is drawn. -/

namespace VectorForge
namespace LevelGenerator

/-- What is drawn from the mixed bits. -/
def drawn (bits : UInt64) : UInt64 := (bits >>> 11) + 1

theorem toNat_drawn (bits : UInt64) : (drawn bits).toNat = bits.toNat / 2 ^ 11 + 1 := by
  have shifted : (bits >>> 11).toNat = bits.toNat / 2 ^ 11 := by
    rw [UInt64.toNat_shiftRight]
    exact Nat.shiftRight_eq_div_pow bits.toNat 11
  have := bits.toNat_lt
  rw [drawn, UInt64.toNat_add, shifted]
  simp only [UInt64.reduceToNat]
  omega

/-- The level reaches `l` if the number that was drawn leaves room for it. -/
theorem le_levelFor_iff (g : LevelGenerator) (id : Nat) {l : Nat} (base : 2 ≤ g.m.toNat ∧ g.m.toNat ≤ 512)
    (within : l ≤ g.maxLevel) : l ≤ g.levelFor id ↔ (g.draw id).toNat * g.m.toNat ^ l ≤ 2 ^ 53 := by
  obtain ⟨result, largest, -⟩ := g.levelFor_spec id base
  constructor
  · intro below
    have fewer : g.m.toNat ^ l ≤ g.m.toNat ^ g.levelFor id := Nat.pow_le_pow_right (by omega) below
    exact (Nat.mul_le_mul_left _ fewer).trans result
  · exact fun power => largest l within power

end LevelGenerator

/-- Over all seeds a node is on level `l` exactly as often as the formula says: for `⌊2^53 / M^l⌋` of the `2^53`
numbers that can be drawn, each of which is drawn for equally many seeds. -/
theorem levels_are_distributed_exactly (id : Nat) (m : UInt64) (maxLevel l : Nat)
    (base : 2 ≤ m.toNat ∧ m.toNat ≤ 512) (within : l ≤ maxLevel) :
    {seed | l ≤ LevelGenerator.levelFor { seed, m, maxLevel } id}.ncard = 2 ^ 11 * (2 ^ 53 / m.toNat ^ l) := by
  have positive : 0 < m.toNat ^ l := Nat.pow_pos (by omega)
  have mixed : Function.Injective fun seed => splitmix64 (seed ^^^ splitmix64 (UInt64.ofNat id)) :=
    splitmix64_injective.comp (Words.xor_injective _)
  have bits (seed : UInt64) : l ≤ LevelGenerator.levelFor { seed, m, maxLevel } id ↔
      (splitmix64 (seed ^^^ splitmix64 (UInt64.ofNat id))).toNat < 2 ^ 11 * (2 ^ 53 / m.toNat ^ l) := by
    rw [LevelGenerator.le_levelFor_iff { seed, m, maxLevel } id base within]
    change (LevelGenerator.drawn (splitmix64 (seed ^^^ splitmix64 (UInt64.ofNat id)))).toNat *
      m.toNat ^ l ≤ 2 ^ 53 ↔ _
    rw [← Nat.le_div_iff_mul_le positive, LevelGenerator.toNat_drawn, Nat.succ_le_iff,
      Nat.div_lt_iff_lt_mul (by decide), Nat.mul_comm (2 ^ 11)]
  have fits : 2 ^ 11 * (2 ^ 53 / m.toNat ^ l) ≤ 2 ^ 64 := by
    have := Nat.div_le_self (2 ^ 53) (m.toNat ^ l)
    omega
  rw [← Words.card_below fits, ← Words.card_preimage mixed fun y => y.toNat < 2 ^ 11 * (2 ^ 53 / m.toNat ^ l)]
  exact congrArg Set.ncard (Set.ext bits)

theorem levels_are_distributed_exactly_default :
    {seed | 2 ≤ LevelGenerator.levelFor { seed, m := 16, maxLevel := 16 } 7}.ncard = 2 ^ 11 * (2 ^ 53 / 16 ^ 2) :=
  levels_are_distributed_exactly 7 16 16 2 (by decide) (by decide)

end VectorForge
