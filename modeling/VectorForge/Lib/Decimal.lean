import Mathlib

/-! Numbers written in decimal, and read back from a text that goes on behind them. -/

namespace Decimal

def zero : UInt8 := 0x30

def isDigit (b : UInt8) : Bool := decide (0x30 ≤ b.toNat ∧ b.toNat ≤ 0x39)

def digit (d : Nat) : UInt8 := UInt8.ofNat (0x30 + d)

/-- The number without leading zeros, most significant digit first. -/
def decimal (n : Nat) : List UInt8 := if n = 0 then [zero] else ((Nat.digits 10 n).map digit).reverse

def value (text : List UInt8) : Nat := text.foldl (fun v b => 10 * v + (b.toNat - 0x30)) 0

/-- The number of up to `width` bits at the start of a text, and the text behind it. -/
def scan (width : Nat) (text : List UInt8) : Option (Nat × List UInt8) :=
  let digits := text.takeWhile isDigit
  if digits = [] ∨ 2 ^ width ≤ value digits then none else some (value digits, text.dropWhile isDigit)

/-- A text that does not start with a digit. -/
def Stops (text : List UInt8) : Prop := ∀ b ∈ text.head?, isDigit b = false

theorem toNat_digit {d : Nat} (small : d < 10) : (digit d).toNat = 0x30 + d := by
  rw [digit, UInt8.toNat_ofNat']
  omega

theorem isDigit_digit {d : Nat} (small : d < 10) : isDigit (digit d) = true := by
  rw [isDigit, toNat_digit small]
  exact decide_eq_true ⟨by omega, by omega⟩

theorem decimal_ne_nil (n : Nat) : decimal n ≠ [] := by
  rw [decimal]
  split
  next => exact List.cons_ne_nil _ _
  next nonzero => simpa [Nat.digits_eq_nil_iff_eq_zero] using nonzero

theorem isDigit_of_mem_decimal {n : Nat} {b : UInt8} (mem : b ∈ decimal n) : isDigit b = true := by
  rw [decimal] at mem
  split at mem
  next =>
    rw [List.mem_singleton.mp mem]
    decide
  next =>
    obtain ⟨d, inside, rfl⟩ := List.mem_map.mp (List.mem_reverse.mp mem)
    exact isDigit_digit (Nat.digits_lt_base (by decide) inside)

theorem value_append_digit (text : List UInt8) (b : UInt8) :
    value (text ++ [b]) = 10 * value text + (b.toNat - 0x30) := by
  rw [value, List.foldl_append]
  rfl

theorem value_reverse_digits : ∀ {ds : List Nat}, (∀ d ∈ ds, d < 10) →
    value (ds.map digit).reverse = Nat.ofDigits 10 ds
  | [], _ => rfl
  | d :: ds, small => by
    have rest := value_reverse_digits fun e mem => small e (List.mem_cons_of_mem _ mem)
    rw [List.map_cons, List.reverse_cons, value_append_digit, rest, toNat_digit (small d List.mem_cons_self),
      Nat.ofDigits_cons]
    omega

@[simp] theorem value_decimal (n : Nat) : value (decimal n) = n := by
  rw [decimal]
  split
  next none =>
    rw [none]
    rfl
  next => rw [value_reverse_digits fun d mem => Nat.digits_lt_base (by decide) mem, Nat.ofDigits_digits]

theorem value_zeros (count : Nat) (text : List UInt8) : value (List.replicate count zero ++ text) = value text := by
  induction count with
  | zero => rfl
  | succ count ih => exact ih

/-- Between them the two bounds give the number of digits. -/
theorem length_decimal_le {n k : Nat} (positive : 0 < k) (small : n < 10 ^ k) : (decimal n).length ≤ k := by
  rw [decimal]
  split
  next => exact positive
  next =>
    rw [List.length_reverse, List.length_map]
    exact (Nat.digits_length_le_iff (by decide) _).mpr small

theorem lt_length_decimal {n k : Nat} (large : 10 ^ k ≤ n) : k < (decimal n).length := by
  have nonzero : n ≠ 0 := by
    have some := Nat.pow_pos (n := k) (by decide : 0 < 10)
    omega
  rw [decimal, if_neg nonzero, List.length_reverse, List.length_map]
  exact (Nat.lt_digits_length_iff (by decide) _).mpr large

section Scan
variable {digits tail : List UInt8}

theorem takeWhile_digits (all : ∀ b ∈ digits, isDigit b = true) (stops : Stops tail) :
    (digits ++ tail).takeWhile isDigit = digits := by
  rw [List.takeWhile_append_of_pos all]
  cases tail with
  | nil => simp
  | cons b tail => rw [List.takeWhile_cons, stops b rfl]; simp

theorem dropWhile_digits (all : ∀ b ∈ digits, isDigit b = true) (stops : Stops tail) :
    (digits ++ tail).dropWhile isDigit = tail := by
  rw [List.dropWhile_append_of_pos all]
  cases tail with
  | nil => rfl
  | cons b tail => rw [List.dropWhile_cons, stops b rfl]; simp

/-- What was written is read back, up to the text behind it. -/
theorem scan_digits {width : Nat} (some : digits ≠ []) (all : ∀ b ∈ digits, isDigit b = true)
    (fits : value digits < 2 ^ width)
    (stops : Stops tail) : scan width (digits ++ tail) = Option.some (value digits, tail) := by
  rw [scan, takeWhile_digits all stops, dropWhile_digits all stops]
  exact if_neg (by simp only [some, false_or]; omega)

theorem scan_decimal {width n : Nat} (fits : n < 2 ^ width) (stops : Stops tail) :
    scan width (decimal n ++ tail) = some (n, tail) := by
  rw [scan_digits (decimal_ne_nil n) (fun _ mem => isDigit_of_mem_decimal mem) (by rw [value_decimal]; exact fits)
    stops, value_decimal]

end Scan
end Decimal
