import VectorForge.Storage.BinaryIo
import VectorForge.Storage.FlatJson
import VectorForge.Lib.Text

/-! The header of a .npy file. -/

namespace VectorForge
open Decimal Text LittleEndian

inductive NpyDtype where
  | float32 | int32 | int64 | uint64
  deriving DecidableEq, Repr

namespace NpyDtype

def descr : NpyDtype → List Byte
  | .float32 => ascii "<f4"
  | .int32 => ascii "<i4"
  | .int64 => ascii "<i8"
  | .uint64 => ascii "<u8"

def itemSize : NpyDtype → Nat
  | .float32 | .int32 => 4
  | .int64 | .uint64 => 8

end NpyDtype

structure NpyHeader where
  dtype : NpyDtype := .float32
  shape : List UInt64 := []
  dataOffset : Nat := 0
  deriving DecidableEq, Repr

namespace NpyHeader

/-- `"\x93NUMPY"`. -/
def kNpyMagic : List Byte := 0x93 :: ascii "NUMPY"
def kMaxNpyHeaderLen : Nat := 1048576

def corrupt {α : Type} (what : String) : Result α := .error (.corruptData what)

/-- `std::isspace` in the C locale. -/
def isSpace (b : Byte) : Bool := b = 0x20 || b = 0x09 || b = 0x0A || b = 0x0B || b = 0x0C || b = 0x0D

/-- The text behind `'key':`, up to the end of the dictionary. -/
def dictValue (dict : List Byte) (key : List Byte) : Result (List Byte) :=
  let quoted := 0x27 :: (key ++ [0x27])
  match find quoted dict with
  | none => corrupt ("npy header lacks key " ++ shown quoted)
  | some pos =>
    match trim isSpace (dict.drop (pos + quoted.length)) with
    | [] => corrupt ("npy header: malformed entry for " ++ shown quoted)
    | colon :: rest =>
      if colon ≠ 0x3A then corrupt ("npy header: malformed entry for " ++ shown quoted)
      else .ok (trim isSpace rest)

def parseDescr (value : List Byte) : Result NpyDtype :=
  match value with
  | [] | [_] => corrupt "npy header: descr is not a string"
  | quote :: rest =>
    if quote ≠ 0x27 ∧ quote ≠ 0x22 then corrupt "npy header: descr is not a string"
    else if quote ∉ rest then corrupt "npy header: unterminated descr"
    else
      let descr := rest.takeWhile (· ≠ quote)
      if descr = ascii "<f4" then .ok .float32
      else if descr = ascii "<i4" then .ok .int32
      else if descr = ascii "<i8" then .ok .int64
      else if descr = ascii "<u8" then .ok .uint64
      else .error (.unsupportedVersion ("npy dtype '" ++ shown descr ++
        "' is not supported (expected <f4, <i4, <i8 or <u8)"))

/-- The entries of a shape, which are at most three before the loop gives up. -/
def parseEntries (shape : List UInt64) (inner : List Byte) : Result (List UInt64) :=
  let inner := trim isSpace inner
  if inner = [] then .ok shape
  else
    match scan 64 inner with
    | none => corrupt "npy header: invalid shape entry"
    | some (dim, tail) =>
      let shape' := shape ++ [UInt64.ofNat dim]
      match trim isSpace tail with
      | [] =>
        if shape'.length > 2 then
          .error (.unsupportedVersion "npy arrays with more than 2 dimensions are not supported")
        else .ok shape'
      | separator :: rest =>
        if separator ≠ 0x2C then corrupt "npy header: invalid shape separator"
        else if _more : shape'.length > 2 then
          .error (.unsupportedVersion "npy arrays with more than 2 dimensions are not supported")
        else parseEntries shape' rest
termination_by 3 - shape.length
decreasing_by
  simp only [shape', List.length_append, List.length_cons, List.length_nil] at _more
  simp only [List.length_append, List.length_cons, List.length_nil]
  omega

def parseShape (value : List Byte) : Result (List UInt64) :=
  match value with
  | [] => corrupt "npy header: shape is not a tuple"
  | front :: rest =>
    if front ≠ 0x28 then corrupt "npy header: shape is not a tuple"
    else if (0x29 : Byte) ∉ rest then corrupt "npy header: unterminated shape tuple"
    else do
      let shape ← parseEntries [] (rest.takeWhile (· ≠ 0x29))
      if shape = [] then .error (.unsupportedVersion "npy scalars (0-d arrays) are not supported") else .ok shape

/-- The length of the preamble and of the dictionary behind it. -/
def preamble (bytes : List Byte) : Result (Nat × Nat) :=
  let major := bytes.getD 6 0
  if major = 1 then .ok (10, (bytes.getD 8 0).toNat ||| ((bytes.getD 9 0).toNat <<< 8))
  else if major = 2 ∨ major = 3 then
    if bytes.length < 12 then corrupt "truncated .npy preamble" else .ok (12, leValue ((bytes.drop 8).take 4))
  else .error (.unsupportedVersion ("unsupported .npy format version " ++ toString major.toNat))

def parseNpyHeader (bytes : List Byte) : Result NpyHeader :=
  if bytes.length < 10 ∨ bytes.take 6 ≠ kNpyMagic then corrupt "not a .npy file (bad magic)"
  else do
    let (pre, headerLen) ← preamble bytes
    if headerLen > kMaxNpyHeaderLen ∨ pre + headerLen > bytes.length then
      corrupt "truncated or oversized .npy header"
    else do
      let dict := (bytes.drop pre).take headerLen
      let descrText ← dictValue dict (ascii "descr")
      let dtype ← parseDescr descrText
      let orderText ← dictValue dict (ascii "fortran_order")
      if ascii "True" <+: orderText then .error (.unsupportedVersion "Fortran-order .npy arrays are not supported")
      else if ¬ ascii "False" <+: orderText then corrupt "npy header: invalid fortran_order"
      else do
        let shapeText ← dictValue dict (ascii "shape")
        let shape ← parseShape shapeText
        .ok { dtype, shape, dataOffset := pre + headerLen }

/-- The dictionary before it is padded. -/
def dictText (dtype : NpyDtype) (rows cols : UInt64) (oneDimensional : Bool) : List Byte :=
  ascii "\x7b'descr': '" ++ dtype.descr ++ ascii "', 'fortran_order': False, 'shape': (" ++ decimal rows.toNat ++
    (if oneDimensional then ascii "," else ascii ", " ++ decimal cols.toNat) ++ ascii "), \x7d"

def makeNpyHeader (dtype : NpyDtype) (rows cols : UInt64) (oneDimensional : Bool) : List Byte :=
  let dict := dictText dtype rows cols oneDimensional
  let unpadded := 10 + dict.length + 1
  let total := (unpadded + 63) / 64 * 64
  let dict := dict ++ List.replicate (total - unpadded) 0x20 ++ [0x0A]
  let len := dict.length % 2 ^ 16
  kNpyMagic ++ [0x01, 0x00, UInt8.ofNat (len &&& 0xFF), UInt8.ofNat ((len >>> 8) &&& 0xFF)] ++ dict

section Reading

/-- A text that is neither empty nor has white space at its ends. -/
structure Solid (text : List Byte) : Prop where
  head : ∀ b ∈ text.head?, isSpace b = false
  last : ∀ b ∈ text.getLast?, isSpace b = false

theorem Solid.trim {text : List Byte} (solid : Solid text) : trim isSpace text = text :=
  trim_solid solid.head solid.last

theorem isSpace_of_digit {b : Byte} (digit : isDigit b = true) : isSpace b = false := by
  rw [isDigit, decide_eq_true_eq] at digit
  have apart : ∀ c : Byte, c.toNat < 0x30 → b ≠ c := by
    rintro c low rfl
    omega
  simp only [isSpace, decide_eq_false (apart _ (by decide : (0x20 : Byte).toNat < 0x30)),
    decide_eq_false (apart _ (by decide : (0x09 : Byte).toNat < 0x30)),
    decide_eq_false (apart _ (by decide : (0x0A : Byte).toNat < 0x30)),
    decide_eq_false (apart _ (by decide : (0x0B : Byte).toNat < 0x30)),
    decide_eq_false (apart _ (by decide : (0x0C : Byte).toNat < 0x30)),
    decide_eq_false (apart _ (by decide : (0x0D : Byte).toNat < 0x30))]
  rfl

/-- The value of a key in a dictionary that is padded with white space. -/
theorem dictValue_eq {text key value white : List Byte} {pos : Nat}
    (found : find (0x27 :: (key ++ [0x27])) text = some pos)
    (length : text.length = pos + (key.length + 2)) (some : value ≠ []) (solid : Solid value)
    (all : ∀ b ∈ white, isSpace b = true) :
    dictValue (text ++ (0x3A :: 0x20 :: value ++ white)) key = .ok value := by
  have rest : (text ++ (0x3A :: 0x20 :: value ++ white)).drop (pos + (0x27 :: (key ++ [0x27])).length) = 0x3A ::
      0x20 :: value ++ white := by
    rw [List.length_cons, List.length_append]
    exact List.drop_left' length
  have trimmed : Text.trim isSpace (0x3A :: 0x20 :: value ++ white) = 0x3A :: 0x20 :: value := by
    refine trim_append (List.cons_ne_nil _ _) (fun b head => ?_) (fun b last => solid.last b ?_) all
    · cases head
      decide
    · rwa [List.getLast?_cons_cons, List.getLast?_cons_of_ne_nil some] at last
  rw [dictValue, find_append _ found]
  simp only [rest, trimmed]
  rw [if_neg (by decide), trim_cons (by decide), solid.trim]

theorem parseDescr_descr (dtype : NpyDtype) (tail : List Byte) :
    parseDescr (0x27 :: (dtype.descr ++ 0x27 :: tail)) = .ok dtype := by
  have absent : (0x27 : Byte) ∉ dtype.descr := by cases dtype <;> decide
  have taken := takeWhile_ne tail absent
  have some : dtype.descr ++ 0x27 :: tail ≠ [] := by simp
  rw [parseDescr]
  · simp only [taken]
    rw [if_neg (by decide), if_neg (by simp)]
    cases dtype <;> rfl
  · exact some

/-- The entries of a shape as the header writes them. -/
def entries (rows cols : UInt64) (oneDimensional : Bool) : List Byte :=
  decimal rows.toNat ++ (if oneDimensional then ascii "," else ascii ", " ++ decimal cols.toNat)

theorem solid_decimal (n : Nat) : Solid (decimal n) where
  head _ head := isSpace_of_digit (isDigit_of_mem_decimal (List.mem_of_mem_head? head))
  last _ last := isSpace_of_digit (isDigit_of_mem_decimal (List.mem_of_mem_getLast? last))

/-- A decimal number with something solid behind it. -/
theorem solid_decimal_append {n : Nat} {tail : List Byte} (some : tail ≠ [])
    (last : ∀ b ∈ tail.getLast?, isSpace b = false) : Solid (decimal n ++ tail) where
  head b head := by
    rw [List.head?_append_of_ne_nil _ (decimal_ne_nil n)] at head
    exact (solid_decimal n).head b head
  last b inside := by
    rw [List.getLast?_append_of_ne_nil _ some] at inside
    exact last b inside

theorem parseEntries_last {shape : List UInt64} {inner : List Byte} {n : UInt64}
    (text : Text.trim isSpace inner = decimal n.toNat)
    (short : shape.length < 2) : parseEntries shape inner = .ok (shape ++ [n]) := by
  have scanned : scan 64 (decimal n.toNat ++ []) = some (n.toNat, []) :=
    scan_decimal n.toNat_lt fun b head => (by cases head)
  have none : Text.trim isSpace [] = [] := rfl
  rw [List.append_nil] at scanned
  rw [parseEntries]
  simp only [text, scanned, none, UInt64.ofNat_toNat]
  rw [if_neg (decimal_ne_nil _), if_neg]
  rw [List.length_append, List.length_singleton]
  omega

theorem parseEntries_next {shape : List UInt64} {inner rest : List Byte} {n : UInt64}
    (text : Text.trim isSpace inner = decimal n.toNat ++ 0x2C :: rest) (solid : Solid (0x2C :: rest))
    (short : shape.length < 2) : parseEntries shape inner = parseEntries (shape ++ [n]) rest := by
  have scanned : scan 64 (decimal n.toNat ++ 0x2C :: rest) = some (n.toNat, 0x2C :: rest) :=
    scan_decimal n.toNat_lt fun b head => Option.some.inj head ▸ rfl
  rw [parseEntries]
  simp only [text, scanned, solid.trim, UInt64.ofNat_toNat]
  rw [if_neg (by simp), if_neg (by decide), dif_neg]
  rw [List.length_append, List.length_singleton]
  omega

theorem parseEntries_entries (rows cols : UInt64) (oneDimensional : Bool) :
    parseEntries [] (entries rows cols oneDimensional) = .ok (if oneDimensional then [rows] else [rows, cols]) := by
  cases oneDimensional with
  | true =>
    have solid : Solid (decimal rows.toNat ++ [0x2C]) := solid_decimal_append (List.cons_ne_nil _ _) fun b last =>
      Option.some.inj last ▸ rfl
    have stop : parseEntries [rows] [] = .ok [rows] := by
      rw [parseEntries]
      rfl
    exact (parseEntries_next solid.trim ⟨fun b head => Option.some.inj head ▸ rfl,
      fun b last => Option.some.inj last ▸ rfl⟩ (by decide)).trans stop
  | false =>
    have last : ∀ b ∈ (0x2C :: 0x20 :: decimal cols.toNat).getLast?, isSpace b = false := by
      intro b inside
      rw [List.getLast?_cons_cons, List.getLast?_cons_of_ne_nil (decimal_ne_nil _)] at inside
      exact (solid_decimal _).last b inside
    have solid : Solid (decimal rows.toNat ++ 0x2C :: 0x20 :: decimal cols.toNat) :=
      solid_decimal_append (List.cons_ne_nil _ _) last
    have second : parseEntries [rows] (0x20 :: decimal cols.toNat) = .ok [rows, cols] :=
      parseEntries_last (by rw [trim_cons (by decide), (solid_decimal _).trim]) (by simp)
    exact (parseEntries_next solid.trim ⟨fun b head => Option.some.inj head ▸ rfl, last⟩ (by decide)).trans second

theorem parseShape_entries (rows cols : UInt64) (oneDimensional : Bool) (tail : List Byte) :
    parseShape (0x28 :: (entries rows cols oneDimensional ++ 0x29 :: tail)) =
      .ok (if oneDimensional then [rows] else [rows, cols]) := by
  have digits : ∀ n, (0x29 : Byte) ∉ decimal n := fun n mem => absurd (isDigit_of_mem_decimal mem) (by decide)
  have absent : (0x29 : Byte) ∉ entries rows cols oneDimensional := by
    have comma : (0x29 : Byte) ∉ ascii "," ∧ (0x29 : Byte) ∉ ascii ", " := by decide
    cases oneDimensional <;> simp [entries, digits, comma]
  rw [parseShape, if_neg (by decide), if_neg (by simp), takeWhile_ne tail absent, parseEntries_entries]
  cases oneDimensional <;> rfl

end Reading

section RoundTrip
variable (dtype : NpyDtype) (rows cols : UInt64) (oneDimensional : Bool)

/-- The text from the value of each key on. -/
def shapeText : List Byte := 0x28 :: (entries rows cols oneDimensional ++ 0x29 :: ascii ", \x7d")

def orderText : List Byte := ascii "False, 'shape': " ++ shapeText rows cols oneDimensional

def descrText : List Byte :=
  0x27 :: (dtype.descr ++ 0x27 :: (ascii ", 'fortran_order': " ++ orderText rows cols oneDimensional))

theorem shapeText_ends : ∃ front, shapeText rows cols oneDimensional = front ++ [0x7D] := by
  have stop : 0x29 :: ascii ", \x7d" = [0x29, 0x2C, 0x20] ++ [0x7D] := by decide
  exact ⟨0x28 :: (entries rows cols oneDimensional ++ [0x29, 0x2C, 0x20]), by
    rw [shapeText, stop, ← List.append_assoc]; rfl⟩

/-- A text with something in front of the shape. -/
theorem solid_of_shapeText {front text : List Byte} {b : Byte}
    (ends : text = b :: (front ++ shapeText rows cols oneDimensional)) (head : isSpace b = false) : Solid text := by
  obtain ⟨before, stop⟩ := shapeText_ends rows cols oneDimensional
  rw [stop, ← List.append_assoc] at ends
  refine ⟨fun c inside => ?_, fun c inside => ?_⟩
  · rw [ends] at inside
    exact Option.some.inj inside ▸ head
  · rw [ends, ← List.cons_append, List.getLast?_concat] at inside
    exact Option.some.inj inside ▸ rfl

theorem solid_shapeText : Solid (shapeText rows cols oneDimensional) := by
  obtain ⟨before, stop⟩ := shapeText_ends rows cols oneDimensional
  refine ⟨fun c inside => Option.some.inj inside ▸ rfl, fun c inside => ?_⟩
  rw [stop, List.getLast?_concat] at inside
  exact Option.some.inj inside ▸ rfl

theorem solid_orderText : Solid (orderText rows cols oneDimensional) := by
  have front : ascii "False, 'shape': " = 0x46 :: ascii "alse, 'shape': " := by decide
  exact solid_of_shapeText rows cols oneDimensional (by rw [orderText, front]; rfl) (by decide)

theorem solid_descrText : Solid (descrText dtype rows cols oneDimensional) := by
  have ends : descrText dtype rows cols oneDimensional =
      0x27 :: ((dtype.descr ++ 0x27 :: (ascii ", 'fortran_order': " ++ ascii "False, 'shape': ")) ++
        shapeText rows cols oneDimensional) := by
    simp only [descrText, orderText, List.append_assoc, List.cons_append]
  exact solid_of_shapeText rows cols oneDimensional ends (by decide)

/-- The dictionary, split in front of the value of each key. -/
theorem dictText_shape : dictText dtype rows cols oneDimensional =
    ascii "\x7b'descr': '" ++ dtype.descr ++ ascii "', 'fortran_order': False, 'shape'" ++
      (0x3A :: 0x20 :: shapeText rows cols oneDimensional) := by
  have order : ascii "', 'fortran_order': False, 'shape': (" = ascii "', 'fortran_order': False, 'shape'" ++
      [0x3A, 0x20, 0x28] := by decide
  have stop : ascii "), \x7d" = 0x29 :: ascii ", \x7d" := by decide
  rw [dictText, order, stop, shapeText, entries]
  simp only [List.append_assoc, List.cons_append, List.nil_append]

theorem dictText_order : dictText dtype rows cols oneDimensional =
    ascii "\x7b'descr': '" ++ dtype.descr ++ ascii "', 'fortran_order'" ++
      (0x3A :: 0x20 :: orderText rows cols oneDimensional) := by
  have order : ascii "', 'fortran_order': False, 'shape'" ++ [0x3A, 0x20] = ascii "', 'fortran_order'" ++
      (0x3A :: 0x20 :: ascii "False, 'shape': ") := by
    decide
  have joined := congrArg (· ++ shapeText rows cols oneDimensional) order
  simp only [List.append_assoc, List.cons_append, List.nil_append] at joined
  rw [dictText_shape, orderText, List.append_assoc, List.append_assoc, joined]
  simp only [List.append_assoc]

theorem dictText_descr : dictText dtype rows cols oneDimensional = ascii "\x7b'descr'" ++
    (0x3A :: 0x20 :: descrText dtype rows cols oneDimensional) := by
  have front : ascii "\x7b'descr': '" = ascii "\x7b'descr'" ++ [0x3A, 0x20, 0x27] := by decide
  have order : ascii "', 'fortran_order'" ++ [0x3A, 0x20] = 0x27 :: ascii ", 'fortran_order': " := by decide
  have joined := congrArg (· ++ orderText rows cols oneDimensional) order
  simp only [List.append_assoc, List.cons_append, List.nil_append] at joined
  rw [dictText_order, front, descrText]
  simp only [List.append_assoc, List.cons_append, List.nil_append, joined]

/-- Each key is found where it was written. -/
theorem found_keys : find (0x27 :: (ascii "descr" ++ [0x27])) (ascii "\x7b'descr'") = some 1 ∧
    find (0x27 :: (ascii "fortran_order" ++ [0x27]))
      (ascii "\x7b'descr': '" ++ dtype.descr ++ ascii "', 'fortran_order'") = some 17 ∧
      find (0x27 :: (ascii "shape" ++ [0x27]))
        (ascii "\x7b'descr': '" ++ dtype.descr ++ ascii "', 'fortran_order': False, 'shape'") = some 41 := by
  cases dtype <;> decide

theorem length_dictText : (dictText dtype rows cols oneDimensional).length ≤ 97 := by
  have rowDigits := length_decimal_le (k := 20) (by decide) (rows.toNat_lt.trans (by decide))
  have colDigits := length_decimal_le (k := 20) (by decide) (cols.toNat_lt.trans (by decide))
  have ends : (ascii "\x7b'descr': '").length = 11 ∧ dtype.descr.length = 3 ∧
      (ascii "', 'fortran_order': False, 'shape': (").length = 37 ∧
      (ascii "), \x7d").length = 4 ∧ (ascii ",").length = 1 ∧ (ascii ", ").length = 2 := by cases dtype <;> decide
  cases oneDimensional <;> simp only [dictText, List.length_append, if_true, Bool.false_eq_true, if_false] <;> omega

/-- The padding: spaces and a newline. -/
def padding : List Byte :=
  List.replicate ((10 + (dictText dtype rows cols oneDimensional).length + 1 + 63) / 64 * 64 -
    (10 + (dictText dtype rows cols oneDimensional).length + 1)) 0x20 ++ [0x0A]

theorem isSpace_of_mem_padding {b : Byte} (mem : b ∈ padding dtype rows cols oneDimensional) :
    isSpace b = true := by
  rcases List.mem_append.mp mem with space | newline
  · rw [(List.mem_replicate.mp space).2]
    decide
  · rw [List.mem_singleton.mp newline]
    decide

theorem length_padded : (dictText dtype rows cols oneDimensional ++ padding dtype rows cols oneDimensional).length +
    10 =
    (10 + (dictText dtype rows cols oneDimensional).length + 1 + 63) / 64 * 64 := by
  rw [List.length_append, padding, List.length_append, List.length_replicate, List.length_singleton]
  omega

/-- The two bytes of the length field. -/
theorem length_field {len : Nat} (fits : len < 2 ^ 16) :
    (UInt8.ofNat (len &&& 0xFF)).toNat ||| ((UInt8.ofNat ((len >>> 8) &&& 0xFF)).toNat <<< 8) = len := by
  have low : (UInt8.ofNat (len &&& 0xFF)).toNat = len % 256 := by
    rw [UInt8.toNat_ofNat', show 0xFF = 2 ^ 8 - 1 from rfl, Nat.and_two_pow_sub_one_eq_mod]
    omega
  have high : (UInt8.ofNat ((len >>> 8) &&& 0xFF)).toNat = len / 256 := by
    rw [UInt8.toNat_ofNat', show 0xFF = 2 ^ 8 - 1 from rfl, Nat.and_two_pow_sub_one_eq_mod,
      Nat.shiftRight_eq_div_pow]
    omega
  rw [low, high, Nat.or_comm, ← Nat.shiftLeft_add_eq_or_of_lt (by omega : len % 256 < 2 ^ 8), Nat.shiftLeft_eq]
  omega

/-- The header: magic, version, length field and dictionary. -/
theorem makeNpyHeader_eq : ∃ lo hi : Byte, makeNpyHeader dtype rows cols oneDimensional = kNpyMagic ++
    0x01 :: 0x00 :: lo :: hi ::
      (dictText dtype rows cols oneDimensional ++ padding dtype rows cols oneDimensional) ∧
    lo.toNat ||| (hi.toNat <<< 8) = (dictText dtype rows cols oneDimensional ++
      padding dtype rows cols oneDimensional).length := by
  have bound := length_dictText dtype rows cols oneDimensional
  have padded := length_padded dtype rows cols oneDimensional
  have fits : (dictText dtype rows cols oneDimensional ++ padding dtype rows cols oneDimensional).length < 2 ^
      16 := by omega
  refine ⟨_, _, ?_, length_field fits⟩
  rw [makeNpyHeader]
  simp only [List.append_assoc, List.cons_append, List.nil_append]
  rw [← padding, Nat.mod_eq_of_lt fits]

theorem parse_dict {dict : List Byte}
    (padded : dict = dictText dtype rows cols oneDimensional ++ padding dtype rows cols oneDimensional) :
    dictValue dict (ascii "descr") = .ok (descrText dtype rows cols oneDimensional) ∧
      dictValue dict (ascii "fortran_order") = .ok (orderText rows cols oneDimensional) ∧
        dictValue dict (ascii "shape") = .ok (shapeText rows cols oneDimensional) := by
  obtain ⟨descr, order, shape⟩ := found_keys dtype
  have white : ∀ b ∈ padding dtype rows cols oneDimensional, isSpace b = true :=
    fun b mem => isSpace_of_mem_padding _ _ _ _ mem
  refine ⟨?_, ?_, ?_⟩
  · rw [padded, dictText_descr, List.append_assoc]
    exact dictValue_eq descr (by decide) (List.cons_ne_nil _ _)
      (solid_descrText dtype rows cols oneDimensional) white
  · rw [padded, dictText_order, List.append_assoc]
    exact dictValue_eq order (by cases dtype <;> decide) (List.append_ne_nil_of_left_ne_nil (by decide) _)
      (solid_orderText rows cols oneDimensional) white
  · rw [padded, dictText_shape, List.append_assoc]
    exact dictValue_eq shape (by cases dtype <;> decide) (List.cons_ne_nil _ _)
      (solid_shapeText rows cols oneDimensional) white

/-- The order is `False`. -/
theorem orderText_order : ascii "False" <+: orderText rows cols oneDimensional ∧
    ¬ ascii "True" <+: orderText rows cols oneDimensional := by
  have front : ascii "False, 'shape': " = ascii "False" ++ ascii ", 'shape': " := by decide
  refine ⟨⟨ascii ", 'shape': " ++ shapeText rows cols oneDimensional, by rw [orderText, front, List.append_assoc]⟩,
    ?_⟩
  rintro ⟨tail, same⟩
  have here : (ascii "True" ++ tail).head? = some 0x54 := rfl
  have there : (orderText rows cols oneDimensional).head? = some 0x46 := by
    rw [orderText, front]
    rfl
  rw [same, there] at here
  exact absurd here (by decide)

/-- The header for a shape is read back as that shape, its length is a multiple of 64, and the length field holds
what is behind it. -/
def HeaderRoundTrips : Prop :=
  let header := makeNpyHeader dtype rows cols oneDimensional
  parseNpyHeader header = .ok { dtype, shape := if oneDimensional then [rows] else [rows, cols]
                                dataOffset := header.length } ∧
    64 ∣ header.length ∧ leValue ((header.drop 8).take 2) + 10 = header.length

theorem header_round_trips : HeaderRoundTrips dtype rows cols oneDimensional := by
  obtain ⟨lo, hi, header, field⟩ := makeNpyHeader_eq dtype rows cols oneDimensional
  have padded := length_padded dtype rows cols oneDimensional
  have bound := length_dictText dtype rows cols oneDimensional
  have parsed := @parse_dict dtype rows cols oneDimensional
  generalize dictText dtype rows cols oneDimensional ++ padding dtype rows cols oneDimensional = dict at *
  have magic : kNpyMagic = [0x93, 0x4E, 0x55, 0x4D, 0x50, 0x59] := by decide
  rw [magic] at header
  have length : (makeNpyHeader dtype rows cols oneDimensional).length = dict.length + 10 := by
    rw [header]
    rfl
  obtain ⟨descr, order, shape⟩ := parsed rfl
  have start : preamble (makeNpyHeader dtype rows cols oneDimensional) = .ok (10, dict.length) := by
    rw [header, ← field]
    rfl
  refine ⟨?_, ?_, ?_⟩
  · have behind : ((makeNpyHeader dtype rows cols oneDimensional).drop 10).take dict.length = dict := by
      rw [header]
      exact List.take_length
    have first : (makeNpyHeader dtype rows cols oneDimensional).take 6 = kNpyMagic := by
      rw [header, magic]
      rfl
    rw [parseNpyHeader, if_neg (by rw [first]; simp only [ne_eq, not_true_eq_false, or_false]; omega), start]
    change (if dict.length > kMaxNpyHeaderLen ∨
      10 + dict.length > (makeNpyHeader dtype rows cols oneDimensional).length then _ else _) = _
    rw [if_neg (by rw [length, kMaxNpyHeaderLen]; omega), behind, descr, order, shape]
    have named : parseDescr (descrText dtype rows cols oneDimensional) = .ok dtype := parseDescr_descr dtype _
    have shaped : parseShape (shapeText rows cols oneDimensional) =
        .ok (if oneDimensional then [rows] else [rows, cols]) :=
      parseShape_entries rows cols oneDimensional _
    obtain ⟨isFalse, notTrue⟩ := orderText_order rows cols oneDimensional
    simp only [bind, Except.bind, named, shaped, isFalse, notTrue, not_true, if_false]
    rw [length, Nat.add_comm]
  · rw [length]
    omega
  · have bytes : ((makeNpyHeader dtype rows cols oneDimensional).drop 8).take 2 = [lo, hi] := by
      rw [header]
      rfl
    have word := leValue_or [lo] hi
    simp only [List.length_singleton, leValue_cons, leValue_nil, Nat.mul_zero, Nat.add_zero, Nat.mul_one] at word
    rw [bytes, length, ← field]
    exact congrArg (· + 10) word.symm

end RoundTrip
end NpyHeader
end VectorForge
