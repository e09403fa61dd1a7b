import Mathlib

/-! Machine words: what mixes them without loss, and how many of them there are of a kind. -/

namespace Words

/-- The top bits agree, and each bit is found with the help of one further up. -/
theorem xor_shiftRight_injective {w s : Nat} (some : 0 < s) : Function.Injective fun x : BitVec w =>
    x ^^^ (x >>> s) := by
  intro x y same
  have bits : ∀ n i, w ≤ i + n → x.getLsbD i = y.getLsbD i := by
    intro n
    induction n with
    | zero => exact fun i beyond => by rw [BitVec.getLsbD_of_ge x i beyond, BitVec.getLsbD_of_ge y i beyond]
    | succ n ih =>
      intro i near
      have bit := congrArg (fun z : BitVec w => z.getLsbD i) same
      simp only [BitVec.getLsbD_xor, BitVec.getLsbD_ushiftRight] at bit
      rw [ih (s + i) (by omega)] at bit
      exact Bool.xor_left_inj.mp bit
  exact BitVec.eq_of_getLsbD_eq fun i _ => bits w i (Nat.le_add_left w i)

theorem xorShift_injective (s : UInt64) (some : 0 < s.toNat % 64) : Function.Injective fun x : UInt64 =>
    x ^^^ (x >>> s) := by
  intro x y same
  have vectors := congrArg UInt64.toBitVec same
  simp only [UInt64.toBitVec_xor, UInt64.toBitVec_shiftRight] at vectors
  have amount : (s.toBitVec % 64).toNat = s.toNat % 64 := by simp [BitVec.toNat_umod]
  refine UInt64.toBitVec_inj.mp (xor_shiftRight_injective (s := (s.toBitVec % 64).toNat)
    (by rw [amount]; exact some) ?_)
  simpa only [BitVec.ushiftRight_eq'] using vectors

/-- The other way round, with the help of bits further down. -/
theorem xor_shiftLeft_injective {w s : Nat} (some : 0 < s) : Function.Injective fun x : BitVec w =>
    x ^^^ (x <<< s) := by
  intro x y same
  have bits : ∀ n i, i < n → x.getLsbD i = y.getLsbD i := by
    intro n
    induction n with
    | zero => exact fun i below => absurd below (Nat.not_lt_zero i)
    | succ n ih =>
      intro i near
      have bit := congrArg (fun z : BitVec w => z.getLsbD i) same
      simp only [BitVec.getLsbD_xor, BitVec.getLsbD_shiftLeft] at bit
      by_cases low : i < s
      · simpa [low] using bit
      · rw [ih (i - s) (by omega)] at bit
        exact Bool.xor_left_inj.mp bit
  exact BitVec.eq_of_getLsbD_eq fun i below => bits w i below

theorem xorShiftLeft_injective (s : UInt64) (some : 0 < s.toNat % 64) : Function.Injective fun x : UInt64 =>
    x ^^^ (x <<< s) := by
  intro x y same
  have vectors := congrArg UInt64.toBitVec same
  simp only [UInt64.toBitVec_xor, UInt64.toBitVec_shiftLeft] at vectors
  have amount : (s.toBitVec % 64).toNat = s.toNat % 64 := by simp [BitVec.toNat_umod]
  refine UInt64.toBitVec_inj.mp (xor_shiftLeft_injective (s := (s.toBitVec % 64).toNat)
    (by rw [amount]; exact some) ?_)
  simpa only [BitVec.shiftLeft_eq'] using vectors

/-- An odd factor has an inverse. -/
theorem mul_injective {factor inverse : UInt64} (unit : factor * inverse = 1) : Function.Injective fun x :
    UInt64 => x * factor := by
  intro x y same
  have restored (z : UInt64) : z * factor * inverse = z := by rw [UInt64.mul_assoc, unit, UInt64.mul_one]
  rw [← restored x, ← restored y]
  exact congrArg (· * inverse) same

theorem add_injective (c : UInt64) : Function.Injective fun x : UInt64 => x + c := fun x y same => by
  have restored (z : UInt64) : z + c - c = z := UInt64.add_sub_cancel z c
  rw [← restored x, ← restored y]
  exact congrArg (· - c) same

theorem xor_injective (c : UInt64) : Function.Injective fun x : UInt64 => x ^^^ c := fun x y same => by
  have restored (z : UInt64) : z ^^^ c ^^^ c = z := by rw [UInt64.xor_assoc, UInt64.xor_self, UInt64.xor_zero]
  rw [← restored x, ← restored y]
  exact congrArg (· ^^^ c) same

section Counting

instance finite_uInt64 : Finite UInt64 :=
  Finite.of_injective (fun x : UInt64 => (⟨x.toNat, x.toNat_lt⟩ : Fin (2 ^ 64))) fun _ _ same =>
    UInt64.toNat_inj.mp (congrArg Fin.val same)

theorem card_between (low count : Nat) (fits : low + count ≤ 2 ^ 64) :
    {x : UInt64 | low ≤ x.toNat ∧ x.toNat < low + count}.ncard = count := by
  have image : UInt64.toNat '' {x : UInt64 | low ≤ x.toNat ∧ x.toNat < low + count} =
      (Finset.Ico low (low + count) : Set Nat) := by
    ext n
    simp only [Set.mem_image, Set.mem_ofPred_eq, Finset.coe_Ico, Set.mem_Ico]
    constructor
    · rintro ⟨x, within, rfl⟩
      exact within
    · rintro within
      have value : (UInt64.ofNat n).toNat = n := UInt64.toNat_ofNat_of_lt' (by simp only [UInt64.size]; omega)
      exact ⟨UInt64.ofNat n, by rw [value]; exact within, value⟩
  have injective : Function.Injective UInt64.toNat := fun _ _ same => UInt64.toNat_inj.mp same
  rw [← Set.ncard_image_of_injective _ injective, image, Set.ncard_coe_finset, Nat.card_Ico,
    Nat.add_sub_cancel_left]

theorem card_below {count : Nat} (fits : count ≤ 2 ^ 64) : {x : UInt64 | x.toNat < count}.ncard = count := by
  have between := card_between 0 count (by omega)
  simpa only [Nat.zero_le, true_and, Nat.zero_add] using between

/-- How many multiples of a number there are in an interval whose length is one. -/
theorem card_multiples {b : Nat} (low q : Nat) (positive : 0 < b) (fits : low + q * b ≤ 2 ^ 64 * b) :
    {x : UInt64 | low ≤ x.toNat * b ∧ x.toNat * b < low + q * b}.ncard = q := by
  have atLeast (y x : Nat) : y ≤ x * b ↔ (y + (b - 1)) / b ≤ x := by
    rw [← Nat.lt_succ_iff (m := (y + (b - 1)) / b), Nat.div_lt_iff_lt_mul positive, Nat.succ_mul]
    omega
  have moved : (low + q * b + (b - 1)) / b = (low + (b - 1)) / b + q := by
    rw [Nat.add_right_comm, Nat.add_mul_div_right _ _ positive]
  have same : {x : UInt64 | low ≤ x.toNat * b ∧ x.toNat * b < low + q * b} =
      {x : UInt64 | (low + (b - 1)) / b ≤ x.toNat ∧ x.toNat < (low + (b - 1)) / b + q} := by
    ext x
    refine and_congr (atLeast low x.toNat) ?_
    rw [← not_le, ← not_le, atLeast, moved]
  rw [same]
  refine card_between _ _ ?_
  rw [← moved]
  exact (atLeast _ _).mp fits

/-- Mixing does not change how many words are of a kind. -/
theorem card_preimage {f : UInt64 → UInt64} (injective : Function.Injective f) (p : UInt64 → Prop) :
    {x | p (f x)}.ncard = {y | p y}.ncard := by
  have image : f '' {x | p (f x)} = {y | p y} := by
    ext y
    constructor
    · rintro ⟨x, holds, rfl⟩
      exact holds
    · intro holds
      obtain ⟨x, rfl⟩ := Finite.injective_iff_surjective.mp injective y
      exact ⟨x, holds, rfl⟩
  rw [← Set.ncard_image_of_injective _ injective, image]

end Counting
end Words
