import VectorForge.Lib.Crc
import VectorForge.Lib.LittleEndian

/-! Two byte strings that differ in at most four consecutive bytes have different checks. -/

/-- The strings are equally long and agree outside four consecutive positions. -/
structure Near {α : Type} (first : Nat) (l l' : List α) : Prop where
  length : l.length = l'.length
  outside : ∀ j, j < first ∨ first + 4 ≤ j → l[j]? = l'[j]?

namespace Near
variable {α : Type} {first : Nat} {l l' : List α}

theorem of_split {a w w' z : List α} (length : w.length = w'.length) (short : w.length ≤ 4) :
    Near a.length (a ++ w ++ z) (a ++ w' ++ z) := by
  refine ⟨by simp only [List.length_append, length], fun j away => ?_⟩
  rcases away with before | behind
  · simp only [List.append_assoc, List.getElem?_append_left before]
  · rw [List.getElem?_append_right (by rw [List.length_append]; omega),
      List.getElem?_append_right (by rw [List.length_append]; omega),
      List.length_append, List.length_append, length]

/-- Parts at the same position. -/
theorem slice (near : Near first l l') (offset count : Nat) :
    Near (first - offset) ((l.drop offset).take count) ((l'.drop offset).take count) := by
  refine ⟨by simp only [List.length_take, List.length_drop, near.length], fun j away => ?_⟩
  by_cases inside : j < count
  · rw [List.getElem?_take_of_lt inside, List.getElem?_take_of_lt inside, List.getElem?_drop, List.getElem?_drop]
    exact near.outside _ (by omega)
  · rw [List.getElem?_eq_none (by rw [List.length_take]; omega),
      List.getElem?_eq_none (by rw [List.length_take]; omega)]

theorem split (near : Near first l l') :
    ∃ a w w' z, l = a ++ w ++ z ∧ l' = a ++ w' ++ z ∧ w.length = w'.length ∧ w.length ≤ 4 := by
  have head : l.take first = l'.take first := by
    apply List.ext_getElem?
    intro j
    by_cases inside : j < first
    · rw [List.getElem?_take_of_lt inside, List.getElem?_take_of_lt inside]
      exact near.outside j (.inl inside)
    · rw [List.getElem?_eq_none (by rw [List.length_take]; omega),
        List.getElem?_eq_none (by rw [List.length_take]; omega)]
  have tail : l.drop (first + 4) = l'.drop (first + 4) := by
    apply List.ext_getElem?
    intro j
    rw [List.getElem?_drop, List.getElem?_drop]
    exact near.outside _ (by omega)
  have whole (x : List α) : x = x.take first ++ (x.drop first).take 4 ++ x.drop (first + 4) := by
    rw [List.append_assoc, ← List.drop_drop, List.take_append_drop, List.take_append_drop]
  refine ⟨l.take first, (l.drop first).take 4, (l'.drop first).take 4, l.drop (first + 4), whole l, ?_, ?_, ?_⟩
  · rw [head, tail]
    exact whole l'
  · simp only [List.length_take, List.length_drop, near.length]
  · rw [List.length_take]
    omega

end Near

namespace Crc
variable {poly : BitVec 32}

/-- The register loses nothing when the polynomial has its highest coefficient. -/
theorem eq_zero_of_bitStep {c : BitVec 32} (top : poly.getLsbD 31 = true)
    (zero : bitStep poly c = 0#32) : c = 0#32 := by
  rw [bitStep] at zero
  split at zero
  next =>
    have bit := congrArg (BitVec.getLsbD · 31) zero
    simp only [BitVec.getLsbD_xor, BitVec.getLsbD_ushiftRight, BitVec.getLsbD_of_ge c (1 + 31) (by omega),
      top] at bit
    cases bit
  next low =>
    apply BitVec.eq_of_getLsbD_eq
    intro i bound
    cases i with
    | zero => simpa using low
    | succ i =>
      have bit := congrArg (BitVec.getLsbD · i) zero
      simp only [BitVec.getLsbD_ushiftRight, BitVec.getLsbD_zero] at bit ⊢
      rwa [Nat.add_comm i 1]

theorem bitStep_injective (top : poly.getLsbD 31 = true) : Function.Injective (bitStep poly) := by
  intro x y same
  apply BitVec.xor_eq_zero_iff.mp
  apply eq_zero_of_bitStep top
  rw [bitStep_xor, same, BitVec.xor_self]

theorem bits_injective (top : poly.getLsbD 31 = true) (n : Nat) : Function.Injective (bits poly n) := by
  induction n with
  | zero => exact Function.injective_id
  | succ n ih => exact fun x y same => bitStep_injective top (ih same)

theorem zeroBytes_injective (top : poly.getLsbD 31 = true) (k : Nat) : Function.Injective (zeroBytes poly k) := by
  induction k with
  | zero => exact Function.injective_id
  | succ k ih => exact fun x y same => bits_injective top 8 (ih same)

/-- What follows does not make up for a difference. -/
theorem update_injective (top : poly.getLsbD 31 = true) (data : List (BitVec 8)) : Function.Injective fun c =>
    update poly c data := by
  induction data with
  | nil => exact Function.injective_id
  | cons b data ih =>
    intro x y same
    have step : byteStep poly x b = byteStep poly y b := ih same
    have mixed : x ^^^ b.setWidth 32 = y ^^^ b.setWidth 32 := bits_injective top 8 step
    exact (BitVec.xor_left_inj _).mp mixed

/-- Four bytes as a register, the first one lowest. -/
def word (b0 b1 b2 b3 : BitVec 8) : BitVec 32 :=
  b0.setWidth 32 ||| (b1.setWidth 32 <<< 8) ||| (b2.setWidth 32 <<< 16) ||| (b3.setWidth 32 <<< 24)

theorem toNat_word (b0 b1 b2 b3 : BitVec 8) :
    (word b0 b1 b2 b3).toNat = b0.toNat + 256 * (b1.toNat + 256 * (b2.toNat + 256 * b3.toNat)) := by
  have joined : word b0 b1 b2 b3 = b3 ++ b2 ++ b1 ++ b0 := by
    apply BitVec.eq_of_getLsbD_eq
    intro i bound
    simp only [word, BitVec.getLsbD_or, BitVec.getLsbD_shiftLeft, BitVec.getLsbD_setWidth, BitVec.getLsbD_append]
    by_cases first : i < 8
    · simp [first, bound, show i < 16 by omega, show i < 24 by omega]
    by_cases second : i < 16
    · simp [first, second, bound, show i < 24 by omega, show i - 8 < 8 by omega, show i - 8 < 32 by omega,
        BitVec.getLsbD_of_ge b0 i (by omega)]
    by_cases third : i < 24
    · simp [first, second, third, bound, BitVec.getLsbD_of_ge b0 i (by omega),
        BitVec.getLsbD_of_ge b1 (i - 8) (by omega),
        show ¬ i - 8 < 8 by
        omega, show i - 8 - 8 = i - 16 by omega, show i - 16 < 8 by omega, show i - 16 < 32 by omega]
    · simp [first, second, third, bound, BitVec.getLsbD_of_ge b0 i (by omega),
        BitVec.getLsbD_of_ge b1 (i - 8) (by omega),
        BitVec.getLsbD_of_ge b2 (i - 16) (by omega), show ¬ i - 8 < 8 by omega, show ¬ i - 8 - 8 < 8 by omega,
        show i - 8 - 8 - 8 = i - 24 by omega, show i - 24 < 32 by omega]
  have low0 := b0.isLt
  have low1 := b1.isLt
  have low2 := b2.isLt
  rw [joined, BitVec.toNat_append, BitVec.toNat_append, BitVec.toNat_append, ← Nat.shiftLeft_add_eq_or_of_lt low2,
    ← Nat.shiftLeft_add_eq_or_of_lt low1, ← Nat.shiftLeft_add_eq_or_of_lt low0]
  simp only [Nat.shiftLeft_eq]
  omega

theorem word_injective {a0 a1 a2 a3 b0 b1 b2 b3 : BitVec 8} (same : word a0 a1 a2 a3 = word b0 b1 b2 b3) :
    [a0, a1, a2, a3] = [b0, b1, b2, b3] := by
  have values := congrArg BitVec.toNat same
  rw [toNat_word, toNat_word] at values
  have bounds := And.intro (And.intro a0.isLt (And.intro a1.isLt (And.intro a2.isLt a3.isLt)))
    (And.intro b0.isLt (And.intro b1.isLt (And.intro b2.isLt b3.isLt)))
  have first : a0 = b0 := BitVec.eq_of_toNat_eq (by omega)
  have second : a1 = b1 := BitVec.eq_of_toNat_eq (by omega)
  have third : a2 = b2 := BitVec.eq_of_toNat_eq (by omega)
  have fourth : a3 = b3 := BitVec.eq_of_toNat_eq (by omega)
  rw [first, second, third, fourth]

/-- Four bytes go into the register as one word. -/
theorem update_four (c : BitVec 32) (b0 b1 b2 b3 : BitVec 8) :
    update poly c [b0, b1, b2, b3] = zeroBytes poly 4 (c ^^^ word b0 b1 b2 b3) := by
  rw [word, join_bytes, zeroBytes_xor, zeroBytes_xor, zeroBytes_xor, zeroBytes_xor,
    zeroBytes_shifted poly 1 3 _ (by omega),
    zeroBytes_shifted poly 2 2 _ (by omega), zeroBytes_shifted poly 3 1 _ (by omega)]
  simp only [update, List.foldl_cons, List.foldl_nil, byteStep, zeroByte_xor, zeroBytes, BitVec.xor_assoc]

/-- A string of at most four bytes can be read off the register. -/
theorem window_injective (top : poly.getLsbD 31 = true) (c : BitVec 32) {w w' : List (BitVec 8)}
    (length : w.length = w'.length)
    (short : w.length ≤ 4) (same : update poly c w = update poly c w') : w = w' := by
  have four {x x' : List (BitVec 8)} (full : x.length = 4) (full' : x'.length = 4)
      (agree : update poly c x = update poly c x') : x = x' := by
    obtain ⟨a0, a1, a2, a3, rfl⟩ := List.length_eq_four.mp full
    obtain ⟨b0, b1, b2, b3, rfl⟩ := List.length_eq_four.mp full'
    rw [update_four, update_four] at agree
    exact word_injective ((BitVec.xor_right_inj _).mp (zeroBytes_injective top 4 agree))
  -- shorter strings are brought to four bytes by zeros
  have filled : w ++ List.replicate (4 - w.length) 0 = w' ++ List.replicate (4 - w.length) 0 := by
    apply four
    · rw [List.length_append, List.length_replicate]
      omega
    · rw [List.length_append, List.length_replicate]
      omega
    · rw [update_append, update_append, same]
  exact List.append_cancel_right filled

/-- Equal checks of strings that are near each other mean equal strings. -/
theorem update_near (top : poly.getLsbD 31 = true) (c : BitVec 32) {first : Nat} {l l' : List (BitVec 8)}
    (near : Near first l l') (same : update poly c l = update poly c l') : l = l' := by
  obtain ⟨a, w, w', z, rfl, rfl, length, short⟩ := near.split
  rw [update_append, update_append, update_append, update_append] at same
  rw [window_injective top _ length short (update_injective top z same)]

end Crc
