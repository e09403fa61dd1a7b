import Mathlib

/-! The grammar of JSON texts, with the nesting of every byte. -/

namespace JsonText

/-- A text in which each byte carries the number of arrays and objects that are open behind it. -/
abbrev Marked := List (UInt8 × Nat)

namespace Marked

def bytes (t : Marked) : List UInt8 := t.map Prod.fst

def marks (t : Marked) : List Nat := t.map Prod.snd

/-- A text without arrays and objects. -/
def plain (text : List UInt8) : Marked := text.map fun b => (b, 0)

/-- The brackets of an array or object around a text. -/
def enclosed (first last : UInt8) (t : Marked) : Marked :=
  (first, 1) :: (t.map (fun x => (x.1, x.2 + 1)) ++ [(last, 0)])

@[simp] theorem bytes_append (s t : Marked) : bytes (s ++ t) = bytes s ++ bytes t := List.map_append

@[simp] theorem marks_append (s t : Marked) : marks (s ++ t) = marks s ++ marks t := List.map_append

@[simp] theorem bytes_plain (text : List UInt8) : bytes (plain text) = text := by
  rw [bytes, plain, List.map_map]
  exact List.map_id text

theorem marks_plain (text : List UInt8) : marks (plain text) = List.replicate text.length 0 := by
  rw [marks, plain, List.map_map]
  exact List.map_const'

theorem bytes_enclosed (first last : UInt8) (t : Marked) :
    bytes (enclosed first last t) = first :: (bytes t ++ [last]) := by
  rw [enclosed, bytes, List.map_cons, List.map_append, List.map_map]
  rfl

theorem marks_enclosed (first last : UInt8) (t : Marked) :
    marks (enclosed first last t) = 1 :: ((marks t).map (· + 1) ++ [0]) := by
  rw [enclosed, marks, List.map_cons, List.map_append, List.map_map, marks, List.map_map]
  rfl

end Marked

open Marked

def White (text : List UInt8) : Prop := ∀ b ∈ text, b = 0x20 ∨ b = 0x09 ∨ b = 0x0A ∨ b = 0x0D

/-- At least one decimal digit. -/
def Digits (text : List UInt8) : Prop := text ≠ [] ∧ ∀ b ∈ text, 0x30 ≤ b.toNat ∧ b.toNat ≤ 0x39

/-- `-`, an integer without leading zeros, a fraction and an exponent. -/
inductive Number : List UInt8 → Prop
  | mk {sign integer fraction exponent : List UInt8} (negative : sign = [] ∨ sign = [0x2D])
      (digits : Digits integer)
      (leading : integer = [0x30] ∨ integer.head? ≠ some 0x30) (decimals : fraction = [] ∨ ∃ f, Digits f ∧
        fraction = 0x2E :: f)
      (power : exponent = [] ∨ ∃ e s d, (e = 0x65 ∨ e = 0x45) ∧ (s = [] ∨ s = [0x2B] ∨ s = [0x2D]) ∧ Digits d ∧
        exponent = e :: (s ++ d)) :
      Number (sign ++ integer ++ fraction ++ exponent)

def HexDigit (b : UInt8) : Prop :=
  (0x30 ≤ b.toNat ∧ b.toNat ≤ 0x39) ∨ (0x41 ≤ b.toNat ∧ b.toNat ≤ 0x46) ∨ (0x61 ≤ b.toNat ∧ b.toNat ≤ 0x66)

/-- One character of a string. The bytes of characters outside ASCII are not looked at. -/
inductive StringChar : List UInt8 → Prop
  | unescaped {b : UInt8} (printable : 0x20 ≤ b.toNat) (quote : b ≠ 0x22) (backslash : b ≠ 0x5C) : StringChar [b]
  | escaped {b : UInt8} (letter : b ∈ ([0x22, 0x5C, 0x2F, 0x62, 0x66, 0x6E, 0x72, 0x74] : List UInt8)) :
      StringChar [0x5C, b]
  | unicode {digits : List UInt8} (four : digits.length = 4) (hex : ∀ b ∈ digits, HexDigit b) :
      StringChar (0x5C :: 0x75 :: digits)

inductive StringText : List UInt8 → Prop
  | mk {chars : List (List UInt8)} (all : ∀ c ∈ chars, StringChar c) :
      StringText (0x22 :: (chars.flatten ++ [0x22]))

/-- `true`, `false` and `null`. -/
def Literal (text : List UInt8) : Prop :=
  text = [0x74, 0x72, 0x75, 0x65] ∨ text = [0x66, 0x61, 0x6C, 0x73, 0x65] ∨ text = [0x6E, 0x75, 0x6C, 0x6C]

/-- A value, the elements of an array, or the members of an object. -/
inductive Part where
  | value | elements | members

/-- The texts of a part, with the nesting of its arrays and objects. -/
inductive Parses : Part → Marked → Nat → Prop
  | literal {text : List UInt8} (name : Literal text) : Parses .value (plain text) 0
  | number {text : List UInt8} (number : Number text) : Parses .value (plain text) 0
  | string {text : List UInt8} (string : StringText text) : Parses .value (plain text) 0
  | emptyArray {space : List UInt8} (white : White space) : Parses .value (enclosed 0x5B 0x5D (plain space)) 1
  | array {t : Marked} {n : Nat} (elements : Parses .elements t n) : Parses .value (enclosed 0x5B 0x5D t) (n + 1)
  | emptyObject {space : List UInt8} (white : White space) : Parses .value (enclosed 0x7B 0x7D (plain space)) 1
  | object {t : Marked} {n : Nat} (members : Parses .members t n) : Parses .value (enclosed 0x7B 0x7D t) (n + 1)
  | lastElement {a b : List UInt8} {t : Marked} {n : Nat} (before : White a) (value : Parses .value t n)
      (behind : White b) : Parses .elements (plain a ++ (t ++ plain b)) n
  | moreElements {a b : List UInt8} {t rest : Marked} {n m : Nat} (before : White a)
      (value : Parses .value t n) (behind : White b) (others : Parses .elements rest m) :
      Parses .elements (plain a ++ (t ++ (plain b ++ (plain [0x2C] ++ rest)))) (max n m)
  | lastMember {a b c d key : List UInt8} {t : Marked} {n : Nat} (before : White a) (name : StringText key)
      (between : White b) (next : White c) (value : Parses .value t n) (behind : White d) :
      Parses .members (plain a ++ (plain key ++ (plain b ++ (plain [0x3A] ++ (plain c ++ (t ++ plain d)))))) n
  | moreMembers {a b c d key : List UInt8} {t rest : Marked} {n m : Nat} (before : White a)
      (name : StringText key) (between : White b)
      (next : White c) (value : Parses .value t n) (behind : White d) (others : Parses .members rest m) :
      Parses .members (plain a ++ (plain key ++
        (plain b ++ (plain [0x3A] ++ (plain c ++ (t ++ (plain d ++ (plain [0x2C] ++ rest))))))))
        (max n m)

/-- A document: a value with white space around it. -/
inductive Document : Marked → Nat → Prop
  | mk {a b : List UInt8} {t : Marked} {n : Nat} (before : White a) (value : Parses .value t n) (behind : White b) :
      Document (plain a ++ (t ++ plain b)) n

/-- `n` is the largest mark of the text, or zero. -/
def Deepest (t : Marked) (n : Nat) : Prop := (∀ m ∈ marks t, m ≤ n) ∧ (n = 0 ∨ n ∈ marks t)

namespace Deepest
variable {s t : Marked} {m n : Nat}

theorem plain (text : List UInt8) : Deepest (Marked.plain text) 0 := by
  refine ⟨fun m mem => ?_, .inl rfl⟩
  rw [marks_plain] at mem
  exact (List.mem_replicate.mp mem).2.le

theorem append (first : Deepest s m) (second : Deepest t n) : Deepest (s ++ t) (max m n) := by
  refine ⟨fun k mem => ?_, ?_⟩
  · rw [marks_append] at mem
    rcases List.mem_append.mp mem with left | right
    · exact (first.1 k left).trans (le_max_left m n)
    · exact (second.1 k right).trans (le_max_right m n)
  · rw [marks_append, List.mem_append]
    rcases first.2 with rfl | left
    · rcases second.2 with rfl | right
      · exact .inl rfl
      · exact .inr (.inr (by simpa using right))
    · rcases second.2 with rfl | right
      · exact .inr (.inl (by simpa using left))
      · rcases max_choice m n with same | same
        · exact .inr (.inl (by rwa [same]))
        · exact .inr (.inr (by rwa [same]))

theorem plain_append (text : List UInt8) (rest : Deepest t n) : Deepest (Marked.plain text ++ t) n := by
  have both := (Deepest.plain text).append rest
  rwa [Nat.zero_max] at both

theorem append_plain (first : Deepest t n) (text : List UInt8) : Deepest (t ++ Marked.plain text) n := by
  have both := first.append (Deepest.plain text)
  rwa [Nat.max_zero] at both

theorem enclosed (first last : UInt8) (inner : Deepest t n) : Deepest (Marked.enclosed first last t) (n + 1) := by
  refine ⟨fun m mem => ?_, .inr ?_⟩
  · rw [marks_enclosed] at mem
    rcases List.mem_cons.mp mem with rfl | mem
    · omega
    rcases List.mem_append.mp mem with inside | stop
    · obtain ⟨k, old, rfl⟩ := List.mem_map.mp inside
      exact Nat.succ_le_succ (inner.1 k old)
    · rw [List.mem_singleton.mp stop]
      omega
  · rw [marks_enclosed]
    rcases inner.2 with rfl | deep
    · exact List.mem_cons_self
    · exact List.mem_cons_of_mem _ (List.mem_append_left _ (List.mem_map_of_mem deep))

end Deepest

/-- The marks of a part reach exactly its nesting. -/
theorem Parses.deepest {p : Part} {t : Marked} {n : Nat} (parses : Parses p t n) : Deepest t n := by
  induction parses with
  | literal => exact Deepest.plain _
  | number => exact Deepest.plain _
  | string => exact Deepest.plain _
  | emptyArray => exact (Deepest.plain _).enclosed _ _
  | array _ ih => exact ih.enclosed _ _
  | emptyObject => exact (Deepest.plain _).enclosed _ _
  | object _ ih => exact ih.enclosed _ _
  | lastElement _ _ _ ih => exact (ih.append_plain _).plain_append _
  | moreElements _ _ _ _ value others =>
    exact (value.append ((others.plain_append _).plain_append _)).plain_append _
  | lastMember _ _ _ _ _ _ ih =>
    exact (((((ih.append_plain _).plain_append _).plain_append _).plain_append _).plain_append _).plain_append _
  | moreMembers _ _ _ _ _ _ _ value others =>
    exact (((((value.append ((others.plain_append _).plain_append _)).plain_append _).plain_append _).plain_append
      _).plain_append _).plain_append _

theorem Document.deepest {t : Marked} {n : Nat} (document : Document t n) : Deepest t n := by
  cases document with
  | mk _ value _ => exact (value.deepest.append_plain _).plain_append _

end JsonText
