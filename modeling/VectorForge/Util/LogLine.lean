import VectorForge.Lib.PrefixCode
import VectorForge.Storage.FlatJson

/-! Lines of the log. -/

namespace VectorForge
open PrefixCode

namespace Log

inductive Level where
  | debug | info | warn | error | off
  deriving DecidableEq, Repr

/-- `to_string`. -/
def Level.text : Level → List Byte
  | debug => ascii "debug"
  | info => ascii "info"
  | warn => ascii "warn"
  | error => ascii "error"
  | off => ascii "off"

structure Field where
  key : List Byte
  value : List Byte
  deriving DecidableEq

/-- What makes a value stand in quotes. -/
def special (c : Byte) : Bool := c.toNat ≤ 0x20 || c = 0x7F || c = 0x22 || c = 0x3D || c = 0x5C

def needsQuotes (v : List Byte) : Bool := v.isEmpty || v.any special

/-- A digit of `%02x`. -/
def hexDigit (n : Nat) : Byte := UInt8.ofNat (if n < 10 then 0x30 + n else 0x57 + n)

/-- One round of the loop of `append_value`. -/
def escape (c : Byte) : List Byte :=
  if c = 0x22 then [0x5C, 0x22]
  else if c = 0x5C then [0x5C, 0x5C]
  else if c = 0x0A then [0x5C, 0x6E]
  else if c = 0x0D then [0x5C, 0x72]
  else if c = 0x09 then [0x5C, 0x74]
  else if c.toNat < 0x20 ∨ c = 0x7F then [0x5C, 0x78, hexDigit (c.toNat / 16), hexDigit (c.toNat % 16)]
  else [c]

/-- What `append_value` appends. -/
def valueText (v : List Byte) : List Byte :=
  if !needsQuotes v then v else 0x22 :: (v.flatMap escape ++ [0x22])

def fieldText (f : Field) : List Byte := 0x20 :: (f.key ++ 0x3D :: valueText f.value)

/-- `format`, with the text that `append_timestamp` puts behind `ts=`, if there is to be one. -/
def format (level : Level) (event : List Byte) (fields : List Field) (timestamp : Option (List Byte)) : List Byte :=
  (match timestamp with
    | some stamp => ascii "ts=" ++ stamp ++ ascii " "
    | none => []) ++ ascii "level=" ++ level.text ++ ascii " event=" ++ valueText event ++ fields.flatMap fieldText

/-- A key or a timestamp as the program writes them. -/
def Plain (text : List Byte) : Prop := ∀ c ∈ text, special c = false

theorem plain_of_all {text : List Byte} (all : (text.all fun c => !special c) = true) : Plain text := by
  intro c member
  have ordinary := List.all_eq_true.mp all c member
  rwa [Bool.not_eq_true'] at ordinary

section Escape
variable {c d : Byte} {s t : List Byte}

/-- What has an escape of its own. -/
def named : List (Byte × Byte) := [(0x22, 0x22), (0x5C, 0x5C), (0x0A, 0x6E), (0x0D, 0x72), (0x09, 0x74)]

/-- What an escape looks like. -/
inductive Escaped (c : Byte) : List Byte → Prop
  | named {letter : Byte} (member : (c, letter) ∈ named) : Escaped c [0x5C, letter]
  | control (low : c.toNat < 0x80) : Escaped c [0x5C, 0x78, hexDigit (c.toNat / 16), hexDigit (c.toNat % 16)]
  | itself (quote : c ≠ 0x22) (backslash : c ≠ 0x5C) (printed : ¬(c.toNat < 0x20 ∨ c = 0x7F)) : Escaped c [c]

theorem escaped (c : Byte) : Escaped c (escape c) := by
  unfold escape
  split
  next same =>
    rw [same]
    exact .named (by decide)
  split
  next same =>
    rw [same]
    exact .named (by decide)
  split
  next same =>
    rw [same]
    exact .named (by decide)
  split
  next same =>
    rw [same]
    exact .named (by decide)
  split
  next same =>
    rw [same]
    exact .named (by decide)
  split
  next control =>
    refine .control ?_
    rcases control with low | rfl
    · omega
    · decide
  next quote backslash _ _ _ printed => exact .itself quote backslash printed

theorem hexDigit_inj {m n : Nat} (left : m < 16) (right : n < 16) (same : hexDigit m = hexDigit n) : m = n := by
  have value (n : Nat) (small : n < 16) : (hexDigit n).toNat = if n < 10 then 0x30 + n else 0x57 + n := by
    rw [hexDigit]
    exact UInt8.toNat_ofNat_of_lt' (by split <;> (change _ < 256; omega))
  have numbers := congrArg UInt8.toNat same
  rw [value m left, value n right] at numbers
  split at numbers <;> split at numbers <;> omega

theorem named_inj {letter : Byte} (left : (c, letter) ∈ named) (right : (d, letter) ∈ named) : c = d := by
  have all : (named.all fun p => named.all fun q => p.2 != q.2 || p.1 == q.1) = true := by decide
  have same := List.all_eq_true.mp (List.all_eq_true.mp all _ left) _ right
  simpa only [bne_self_eq_false, Bool.false_or, beq_iff_eq] using same

theorem named_ne_hex (member : (c, 0x78) ∈ named) : False := by
  have all : (named.all fun p => p.2 != 0x78) = true := by decide
  exact absurd (show ((0x78 : Byte) != 0x78) = true from List.all_eq_true.mp all _ member) (by decide)

theorem prefixFree_escape : PrefixFree escape := by
  intro c d s t same
  have left := escaped c
  have right := escaped d
  generalize escape c = x at left same
  generalize escape d = y at right same
  cases left with
  | named inC =>
    cases right with
    | named inD =>
      obtain ⟨rfl, rest⟩ := List.cons.inj (List.cons.inj same).2
      exact ⟨named_inj inC inD, rest⟩
    | control low =>
      obtain ⟨rfl, -⟩ := List.cons.inj (List.cons.inj same).2
      exact (named_ne_hex inC).elim
    | itself quote backslash printed => exact absurd (List.cons.inj same).1.symm backslash
  | control lowC =>
    cases right with
    | named inD =>
      obtain ⟨rfl, -⟩ := List.cons.inj (List.cons.inj same).2
      exact (named_ne_hex inD).elim
    | control lowD =>
      obtain ⟨high, rest⟩ := List.cons.inj (List.cons.inj (List.cons.inj same).2).2
      obtain ⟨low, rest⟩ := List.cons.inj rest
      have tens := hexDigit_inj (by omega) (by omega) high
      have ones := hexDigit_inj (by omega) (by omega) low
      exact ⟨UInt8.toNat_inj.mp (by omega), rest⟩
    | itself quote backslash printed => exact absurd (List.cons.inj same).1.symm backslash
  | itself quote backslash printed =>
    cases right with
    | named inD => exact absurd (List.cons.inj same).1 backslash
    | control lowD => exact absurd (List.cons.inj same).1 backslash
    | itself quoteD backslashD printedD => exact List.cons.inj same

theorem escape_ne_quote (c : Byte) (s t : List Byte) : escape c ++ s ≠ 0x22 :: t := by
  intro same
  have cases_ := escaped c
  generalize escape c = x at cases_ same
  cases cases_ with
  | named member => exact absurd (List.cons.inj same).1 (by decide)
  | control low => exact absurd (List.cons.inj same).1 (by decide)
  | itself quote backslash printed => exact quote (List.cons.inj same).1

end Escape
section Values
variable {s t : List Byte}

theorem solid_of_special {text : List Byte} (plain : Plain text) : ∀ c ∈ text, decide (c = 0x20) = false := by
  intro c member
  rw [decide_eq_false_iff_not]
  rintro rfl
  exact absurd (plain _ member) (by decide)

theorem not_needsQuotes {v : List Byte} (bare : needsQuotes v = false) : v ≠ [] ∧ Plain v := by
  rw [needsQuotes, Bool.or_eq_false_iff] at bare
  refine ⟨fun empty => ?_, fun c member => ?_⟩
  · rw [empty] at bare
    cases bare.1
  · exact (List.any_eq_false.mp bare.2 c member) |> eq_false_of_ne_true

/-- What follows a value. -/
def Ends (rest : List Byte) : Prop := ∀ c ∈ rest.head?, decide (c = 0x20) = true

/-- A bare value does not begin with a quote. -/
theorem bare_ne_quoted {v : List Byte} (bare : needsQuotes v = false) (s t : List Byte) : v ++ s ≠ 0x22 :: t := by
  obtain ⟨some, plain⟩ := not_needsQuotes bare
  intro same
  cases v with
  | nil => exact some rfl
  | cons c v =>
    rw [List.cons_append] at same
    have first := plain c List.mem_cons_self
    rw [(List.cons.inj same).1] at first
    exact absurd first (by decide)

theorem valueText_inj {v w : List Byte} (endsS : Ends s) (endsT : Ends t)
    (same : valueText v ++ s = valueText w ++ t) : v = w ∧ s = t := by
  unfold valueText at same
  cases left : needsQuotes v with
  | false =>
    cases right : needsQuotes w with
    | false =>
      rw [left, right] at same
      exact append_inj (solid_of_special (not_needsQuotes left).2)
        (solid_of_special (not_needsQuotes right).2) endsS endsT same
    | true =>
      rw [left, right] at same
      exact absurd same (bare_ne_quoted left _ _)
  | true =>
    cases right : needsQuotes w with
    | false =>
      rw [left, right] at same
      exact absurd same.symm (bare_ne_quoted right _ _)
    | true =>
      rw [left, right] at same
      have inner := (List.cons.inj same).2
      simp only [List.append_eq, List.append_assoc] at inner
      exact flatMap_inj prefixFree_escape escape_ne_quote inner

theorem ends_fields (fields : List Field) : Ends (fields.flatMap fieldText) := by
  intro c head
  cases fields with
  | nil => cases head
  | cons f fields =>
    cases head
    rfl

theorem fields_inj : ∀ {fields others : List Field}, (∀ f ∈ fields, Plain f.key) → (∀ f ∈ others, Plain f.key) →
    fields.flatMap fieldText = others.flatMap fieldText → fields = others
  | [], [], _, _, _ => rfl
  | [], f :: others, _, _, same => by cases same
  | f :: fields, [], _, _, same => by cases same
  | f :: fields, g :: others, plainF, plainG, same => by
    rw [List.flatMap_cons, List.flatMap_cons] at same
    have inner := (List.cons.inj same).2
    simp only [List.append_eq, List.append_assoc] at inner
    have solid {key : List Byte} (plain : Plain key) : ∀ c ∈ key, decide (c = 0x3D) = false := fun c member => by
      rw [decide_eq_false_iff_not]
      rintro rfl
      exact absurd (plain _ member) (by decide)
    obtain ⟨keys, inner⟩ := append_inj (solid (plainF f List.mem_cons_self)) (solid (plainG g List.mem_cons_self))
      (fun c head => by cases head; rfl)
      (fun c head => by cases head; rfl) inner
    obtain ⟨values, rest⟩ := valueText_inj (ends_fields fields) (ends_fields others) (List.cons.inj inner).2
    obtain ⟨key, value⟩ := f
    obtain ⟨key', value'⟩ := g
    obtain rfl : key = key' := keys
    obtain rfl : value = value' := values
    rw [fields_inj (fun f member => plainF f (List.mem_cons_of_mem _ member))
      (fun f member => plainG f (List.mem_cons_of_mem _ member)) rest]

end Values

section Lines
variable {level level' : Level} {event event' : List Byte} {fields fields' : List Field}
  {stamp stamp' : Option (List Byte)}

theorem plain_level (level : Level) : Plain level.text :=
  plain_of_all (by cases level <;> decide)

theorem level_text_inj (same : level.text = level'.text) : level = level' := by
  cases level <;> cases level' <;> first | rfl | (revert same; decide)

/-- What comes before the level. -/
def stampText (stamp : Option (List Byte)) : List Byte :=
  match stamp with
  | some stamp => ascii "ts=" ++ stamp ++ ascii " "
  | none => []

theorem stampText_inj {s t : List Byte} (plain : ∀ text ∈ stamp, Plain text) (plain' : ∀ text ∈ stamp', Plain text)
    (same : stampText stamp ++ ascii "level=" ++ s = stampText stamp' ++ ascii "level=" ++ t) :
    stamp = stamp' ∧ s = t := by
  cases stamp with
  | none =>
    cases stamp' with
    | none => exact ⟨rfl, List.append_cancel_left same⟩
    | some text => exact absurd (show some (0x6C : Byte) = some 0x74 from congrArg List.head? same) (by decide)
  | some text =>
    cases stamp' with
    | none => exact absurd (show some (0x74 : Byte) = some 0x6C from congrArg List.head? same) (by decide)
    | some text' =>
      simp only [stampText, List.append_assoc] at same
      have rest := List.append_cancel_left same
      have stops (s : List Byte) : ∀ c ∈ (ascii " " ++ (ascii "level=" ++ s)).head?, decide (c = 0x20) = true :=
        fun c head => by cases head; decide
      obtain ⟨rfl, tail⟩ := append_inj (solid_of_special (plain text rfl)) (solid_of_special (plain' text' rfl))
        (stops s) (stops t) rest
      exact ⟨rfl, List.append_cancel_left (List.append_cancel_left tail)⟩

/-- Nothing that would end a line, or do anything else to it. -/
def Printed (text : List Byte) : Prop := ∀ c ∈ text, 0x20 ≤ c.toNat ∧ c ≠ 0x7F

/-- For texts of the program. -/
theorem printed_of_all {text : List Byte}
    (all : (text.all fun c => 0x20 ≤ c.toNat ∧ c ≠ 0x7F) = true) : Printed text :=
  fun c member => of_decide_eq_true (List.all_eq_true.mp all c member)

theorem printed_append {first second : List Byte} (left : Printed first) (right : Printed second) :
    Printed (first ++ second) :=
  fun c member => (List.mem_append.mp member).elim (left c) (right c)

theorem printed_of_plain {text : List Byte} (plain : Plain text) : Printed text := by
  intro c member
  have ordinary := plain c member
  simp only [special, Bool.or_eq_false_iff, decide_eq_false_iff_not] at ordinary
  exact ⟨by omega, ordinary.1.1.1.2⟩

theorem printed_hexDigit {n : Nat} (small : n < 16) : Printed [hexDigit n] := by
  intro c member
  have all : ∀ n < 16, 0x20 ≤ (hexDigit n).toNat ∧ hexDigit n ≠ 0x7F := by decide
  rw [List.mem_singleton.mp member]
  exact all n small

theorem printed_escape (c : Byte) : Printed (escape c) := by
  have form := escaped c
  generalize escape c = text at form
  cases form with
  | @named letter member =>
    have all : (named.all fun p => 0x20 ≤ p.2.toNat ∧ p.2 ≠ 0x7F) = true := by decide
    intro d inside
    rcases List.mem_cons.mp inside with rfl | last
    · decide
    · rw [List.mem_singleton.mp last]
      exact of_decide_eq_true (List.all_eq_true.mp all _ member)
  | control low =>
    have start : Printed [0x5C, 0x78] := printed_of_all (by decide)
    exact printed_append start (printed_append (printed_hexDigit (by omega)) (printed_hexDigit (by omega)))
  | itself quote backslash printed =>
    intro d inside
    rw [List.mem_singleton.mp inside]
    exact ⟨by omega, fun del => printed (.inr del)⟩

theorem printed_valueText (v : List Byte) : Printed (valueText v) := by
  unfold valueText
  cases bare : needsQuotes v with
  | false => exact printed_of_plain (not_needsQuotes bare).2
  | true =>
    have quote : Printed [0x22] := printed_of_all (by decide)
    refine printed_append quote (printed_append (fun c member => ?_) quote)
    obtain ⟨d, -, inside⟩ := List.mem_flatMap.mp member
    exact printed_escape d c inside

theorem printed_format (plainStamp : ∀ text ∈ stamp, Plain text) (plain : ∀ f ∈ fields, Plain f.key) :
    Printed (format level event fields stamp) := by
  have ts : Printed (ascii "ts=") := printed_of_all (by decide)
  have blank : Printed (ascii " ") := printed_of_all (by decide)
  have levelKey : Printed (ascii "level=") := printed_of_all (by decide)
  have eventKey : Printed (ascii " event=") := printed_of_all (by decide)
  have start : Printed (stampText stamp) := by
    cases stamp with
    | none => nofun
    | some text => exact printed_append (printed_append ts (printed_of_plain (plainStamp text rfl))) blank
  refine printed_append (printed_append (printed_append
    (printed_append (printed_append start levelKey) (printed_of_plain (plain_level level))) eventKey)
    (printed_valueText event)) fun c member => ?_
  obtain ⟨f, known, inside⟩ := List.mem_flatMap.mp member
  have equals : Printed [0x3D] := printed_of_all (by decide)
  exact printed_append blank (printed_append (printed_of_plain (plain f known))
    (printed_append equals (printed_valueText f.value))) c inside

theorem format_inj (plainStamp : ∀ text ∈ stamp, Plain text) (plainStamp' : ∀ text ∈ stamp', Plain text)
    (plain : ∀ f ∈ fields, Plain f.key) (plain' : ∀ f ∈ fields', Plain f.key)
    (same : format level event fields stamp = format level' event' fields' stamp') :
    (level = level' ∧ event = event') ∧ fields = fields' ∧ stamp = stamp' := by
  have whole : stampText stamp ++ ascii "level=" ++
      (level.text ++ (ascii " event=" ++ (valueText event ++ fields.flatMap fieldText))) =
      stampText stamp' ++ ascii "level=" ++
      (level'.text ++ (ascii " event=" ++ (valueText event' ++ fields'.flatMap fieldText))) := by
    simp only [← List.append_assoc]
    exact same
  obtain ⟨rfl, head⟩ := stampText_inj plainStamp plainStamp' whole
  have stops (s : List Byte) : ∀ c ∈ (ascii " event=" ++ s).head?, decide (c = 0x20) = true :=
    fun c head => by cases head; decide
  obtain ⟨levels, rest⟩ := append_inj (solid_of_special (plain_level level)) (solid_of_special (plain_level level'))
    (stops _) (stops _) head
  obtain ⟨rfl, more⟩ := valueText_inj (ends_fields fields) (ends_fields fields') (List.append_cancel_left rest)
  exact ⟨⟨level_text_inj levels, rfl⟩, fields_inj plain plain' more, rfl⟩

end Lines
end Log
open Log

/-- Whatever is logged, a record is one line of printed characters, and no other record gives the same line. -/
theorem log_lines_are_unambiguous (level : Level) (event : List Byte) (fields : List Field)
    (stamp : Option (List Byte)) (plainStamp : ∀ text ∈ stamp, Plain text) (plain : ∀ f ∈ fields, Plain f.key) :
    (∀ c ∈ format level event fields stamp, 0x20 ≤ c.toNat ∧ c ≠ 0x7F) ∧
    ∀ level' event' fields' stamp', (∀ text ∈ stamp', Plain text) → (∀ f ∈ fields', Plain f.key) →
      format level event fields stamp = format level' event' fields' stamp' → (level = level' ∧ event = event') ∧
      fields = fields' ∧ stamp = stamp' :=
  ⟨printed_format plainStamp plain, fun _ _ _ _ plainStamp' plain' same =>
    format_inj plainStamp plainStamp' plain plain' same⟩

/-- A path that tries to end the line. -/
theorem log_lines_are_unambiguous_newline :
    Printed (format .info (ascii "request") [⟨ascii "path", ascii "/a\nlevel=error"⟩] none) :=
  (log_lines_are_unambiguous .info (ascii "request") [⟨ascii "path", ascii "/a\nlevel=error"⟩] none nofun
    (List.forall_mem_singleton.mpr (plain_of_all (by decide)))).1

end VectorForge
