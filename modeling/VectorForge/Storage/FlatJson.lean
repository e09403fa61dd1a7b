import VectorForge.Core.Types
import VectorForge.Lib.Decimal

/-! The scanner for the small JSON objects that the program writes itself. -/

namespace VectorForge
open Decimal

/-- A text of the source as bytes. -/
def ascii (text : String) : List Byte := text.toList.map fun c => UInt8.ofNat c.toNat

/-- Bytes shown in a message. -/
def shown (text : List Byte) : String := String.ofList (text.map fun b => Char.ofNat b.toNat)

/-- `FlatJsonScanner`, held as the text that has not been scanned yet. -/
structure FlatJsonScanner where
  rest : List Byte
  deriving DecidableEq, Repr

namespace FlatJsonScanner

def kQuote : Byte := 0x22
def kBackslash : Byte := 0x5C

def isSpace (b : Byte) : Bool := b = 0x20 || b = 0x0A || b = 0x0D || b = 0x09

def skipWs (s : FlatJsonScanner) : FlatJsonScanner := ⟨s.rest.dropWhile isSpace⟩

def consume (s : FlatJsonScanner) (c : Byte) : Bool × FlatJsonScanner :=
  match s.skipWs.rest with
  | [] => (false, s.skipWs)
  | b :: tail => if b = c then (true, ⟨tail⟩) else (false, s.skipWs)

/-- A string without escapes. -/
def string (s : FlatJsonScanner) : Option (List Byte) × FlatJsonScanner :=
  match s.consume kQuote with
  | (false, s) => (none, s)
  | (true, s) =>
    let body := s.rest.takeWhile (· ≠ kQuote)
    if body.length = s.rest.length ∨ kBackslash ∈ body then (none, s)
    else (some body, ⟨s.rest.drop (body.length + 1)⟩)

def number (s : FlatJsonScanner) : Option Nat × FlatJsonScanner :=
  match scan 64 s.skipWs.rest with
  | none => (none, s.skipWs)
  | some (value, tail) => (some value, ⟨tail⟩)

def boolean (s : FlatJsonScanner) : Option Bool × FlatJsonScanner :=
  if ascii "true" <+: s.skipWs.rest then (some true, ⟨s.skipWs.rest.drop 4⟩)
  else if ascii "false" <+: s.skipWs.rest then (some false, ⟨s.skipWs.rest.drop 5⟩)
  else (none, s.skipWs)

def atEnd (s : FlatJsonScanner) : Bool := s.skipWs.rest = []

/-- How a round of the loop over the members of an object starts: the object is closed, or there is a key with its
colon. -/
inductive Member where
  | closed (s : FlatJsonScanner)
  | key (name : List Byte) (s : FlatJsonScanner)
  | noComma
  | noKey
  deriving DecidableEq, Repr

def member (first : Bool) (s : FlatJsonScanner) : Member :=
  match s.consume 0x7D with
  | (true, s) => .closed s
  | (false, s) =>
    match if first then (true, s) else s.consume 0x2C with
    | (false, _) => .noComma
    | (true, s) =>
      match s.string with
      | (none, _) => .noKey
      | (some name, s) =>
        match s.consume 0x3A with
        | (false, _) => .noKey
        | (true, s) => .key name s

/-- A text without quotes and backslashes. -/
def Plain (text : List Byte) : Prop := ∀ b ∈ text, b ≠ kQuote ∧ b ≠ kBackslash

instance (text : List Byte) : Decidable (Plain text) :=
  decidable_of_iff (text.all (fun b => b ≠ kQuote && b ≠ kBackslash) = true) (by simp [Plain])

section Reading
variable {tail : List Byte}

/-- A text that starts with something else than white space. -/
theorem skipWs_of_head {b : Byte} (solid : isSpace b = false) : skipWs ⟨b :: tail⟩ = ⟨b :: tail⟩ := by
  rw [skipWs, List.dropWhile_cons, solid]
  rfl

theorem skipWs_space {b : Byte} (space : isSpace b = true) : skipWs ⟨b :: tail⟩ = skipWs ⟨tail⟩ := by
  rw [skipWs, List.dropWhile_cons, space]
  rfl

theorem isSpace_of_isDigit {b : Byte} (digit : isDigit b = true) : isSpace b = false := by
  rw [isDigit, decide_eq_true_eq] at digit
  have apart : ∀ c : Byte, c.toNat < 0x30 → b ≠ c := by
    rintro c low rfl
    omega
  rw [isSpace, decide_eq_false (apart _ (by decide)), decide_eq_false (apart _ (by decide)),
    decide_eq_false (apart _ (by decide)),
    decide_eq_false (apart _ (by decide))]
  rfl

theorem consume_space {b : Byte} (space : isSpace b = true) (c : Byte) :
    consume ⟨b :: tail⟩ c = consume ⟨tail⟩ c := by
  rw [consume, consume, skipWs_space space]

theorem consume_hit {c : Byte} (solid : isSpace c = false) : consume ⟨c :: tail⟩ c = (true, ⟨tail⟩) := by
  rw [consume, skipWs_of_head solid]
  exact if_pos rfl

theorem consume_miss {b c : Byte} (solid : isSpace b = false) (other : b ≠ c) :
    consume ⟨b :: tail⟩ c = (false, ⟨b :: tail⟩) := by
  rw [consume, skipWs_of_head solid]
  exact if_neg other

theorem string_space {b : Byte} (space : isSpace b = true) : string ⟨b :: tail⟩ = string ⟨tail⟩ := by
  rw [string, string, consume_space space]

theorem number_space {b : Byte} (space : isSpace b = true) : number ⟨b :: tail⟩ = number ⟨tail⟩ := by
  rw [number, number, skipWs_space space]

theorem boolean_space {b : Byte} (space : isSpace b = true) : boolean ⟨b :: tail⟩ = boolean ⟨tail⟩ := by
  rw [boolean, boolean, skipWs_space space]

theorem string_text {body : List Byte} (plain : Plain body) :
    string ⟨kQuote :: (body ++ kQuote :: tail)⟩ = (some body, ⟨tail⟩) := by
  have taken : (body ++ kQuote :: tail).takeWhile (· ≠ kQuote) = body := by
    rw [List.takeWhile_append_of_pos (fun b mem => decide_eq_true (plain b mem).1), List.takeWhile_cons]
    simp
  rw [string, consume_hit (by decide)]
  simp only [taken]
  rw [if_neg]
  · rw [← List.drop_drop, List.drop_left]
    rfl
  · rw [List.length_append, List.length_cons]
    rintro (wrong | inside)
    · omega
    · exact (plain _ inside).2 rfl

/-- White space in front is skipped. -/
theorem string_spaces {space : List Byte} (white : ∀ b ∈ space, isSpace b = true) :
    string ⟨space ++ tail⟩ = string ⟨tail⟩ := by
  induction space with
  | nil => rfl
  | cons b space ih =>
    rw [List.cons_append, string_space (white b List.mem_cons_self), ih fun c mem =>
      white c (List.mem_cons_of_mem _ mem)]

theorem consume_spaces {space : List Byte} (white : ∀ b ∈ space, isSpace b = true) (c : Byte) :
    consume ⟨space ++ tail⟩ c = consume ⟨tail⟩ c := by
  induction space with
  | nil => rfl
  | cons b space ih =>
    rw [List.cons_append, consume_space (white b List.mem_cons_self), ih fun c mem =>
      white c (List.mem_cons_of_mem _ mem)]

theorem number_decimal {n : Nat} (fits : n < 2 ^ 64) (stops : Stops tail) :
    number ⟨decimal n ++ tail⟩ = (some n, ⟨tail⟩) := by
  have solid : skipWs ⟨decimal n ++ tail⟩ = ⟨decimal n ++ tail⟩ := by
    obtain ⟨b, rest, digits⟩ := List.exists_cons_of_ne_nil (decimal_ne_nil n)
    have first := isDigit_of_mem_decimal (n := n) (b := b) (by rw [digits]; exact List.mem_cons_self)
    rw [digits]
    exact skipWs_of_head (isSpace_of_isDigit first)
  rw [number, solid, scan_decimal fits stops]

/-- A key in quotes with its colon. -/
def quoted (name : List Byte) : List Byte := kQuote :: (name ++ [kQuote, 0x3A])

theorem quoted_append (name : List Byte) : quoted name ++ tail = kQuote :: (name ++ kQuote :: 0x3A :: tail) := by
  rw [quoted, List.cons_append, List.append_assoc]
  rfl

/-- The single space that separates the members. -/
theorem white_single : ∀ b ∈ ([0x20] : List Byte), isSpace b = true := fun _ mem => List.mem_singleton.mp mem ▸ rfl

theorem member_first {space name : List Byte} (white : ∀ b ∈ space, isSpace b = true) (plain : Plain name) :
    member true ⟨space ++ (quoted name ++ tail)⟩ = .key name ⟨tail⟩ := by
  rw [member, consume_spaces white, quoted_append, consume_miss (by decide) (by decide)]
  simp only [if_true]
  rw [string_text plain]
  simp only
  rw [consume_hit (by decide)]

theorem member_next {space name : List Byte} (white : ∀ b ∈ space, isSpace b = true) (plain : Plain name) :
    member false ⟨0x2C :: (space ++ (quoted name ++ tail))⟩ = .key name ⟨tail⟩ := by
  rw [member, consume_miss (by decide) (by decide)]
  simp only [Bool.false_eq_true, if_false]
  rw [consume_hit (by decide)]
  simp only
  rw [string_spaces white, quoted_append, string_text plain]
  simp only
  rw [consume_hit (by decide)]

end Reading
end FlatJsonScanner
end VectorForge
