import VectorForge.Storage.FlatJson

/-! The MANIFEST of a snapshot directory. -/

namespace VectorForge
open Decimal

structure Manifest where
  format : UInt32 := 1
  generation : UInt64 := 0
  file : List Byte := []
  crc32c : UInt32 := 0
  deriving DecidableEq, Repr

namespace Manifest

def kMaxManifestBytes : Nat := 4096

def kPrefix : List Byte := ascii "index."
def kSuffix : List Byte := ascii ".vfidx"

def isDigits (s : List Byte) : Bool := s ≠ [] && s.all isDigit

/-- `parse_index_name`: the generation of `index.<digits>.vfidx`. -/
def parseIndexName (name : List Byte) : Option UInt64 :=
  if kPrefix <+: name ∧ kSuffix <:+ name then
    let digits := (name.drop kPrefix.length).take (name.length - kPrefix.length - kSuffix.length)
    if isDigits digits = false then none else (scan 64 digits).map fun (value, _) => UInt64.ofNat value
  else none

/-- What `snprintf` formats with `"index.%06llu.vfidx"`. -/
def formatted (generation : UInt64) : List Byte :=
  kPrefix ++ List.replicate (6 - (decimal generation.toNat).length) zero ++ decimal generation.toNat ++ kSuffix

/-- `snprintf` into a buffer of 32 zeros: at most 31 characters fit in front of the terminating zero. -/
def printed (text : List Byte) : List Byte := text.take 31 ++ List.replicate (32 - (text.take 31).length) 0

/-- The string takes as many characters from the buffer as `snprintf` says it would have written. -/
def indexFileName (generation : UInt64) : List Byte :=
  (printed (formatted generation)).take (formatted generation).length

def encodeManifest (m : Manifest) : List Byte :=
  ascii "\x7b\"format\": " ++ decimal m.format.toNat ++ ascii ", \"generation\": " ++ decimal m.generation.toNat ++
    ascii ", \"file\": \"" ++ m.file ++ ascii "\", \"crc32c\": " ++ decimal m.crc32c.toNat ++ ascii "\x7d\n"

def bad {α : Type} (what : String) : Result α := .error (.corruptData ("MANIFEST: " ++ what))

/-- The manifest so far and the keys that have been read. -/
structure Keys where
  manifest : Manifest := {}
  haveFormat : Bool := false
  haveGeneration : Bool := false
  haveFile : Bool := false
  haveCrc : Bool := false

def Keys.missing (k : Keys) : Nat :=
  (if k.haveFormat then 0 else 1) + (if k.haveGeneration then 0 else 1) + (if k.haveFile then 0 else 1) +
    (if k.haveCrc then 0 else 1)

/-- The value of one key. -/
def decodeKey (k : Keys) (key : List Byte) (s : FlatJsonScanner) : Result (Keys × FlatJsonScanner) :=
  let malformed := bad ("unknown, duplicate or malformed key '" ++ shown key ++ "'")
  if key = ascii "format" ∧ k.haveFormat = false then
    match s.number with
    | (none, _) => malformed
    | (some number, s) =>
      if number ≠ 1 then .error (.unsupportedVersion ("MANIFEST format " ++ toString number)) else
        .ok ({ k with haveFormat := true }, s)
  else if key = ascii "generation" ∧ k.haveGeneration = false then
    match s.number with
    | (none, _) => malformed
    | (some number, s) =>
      .ok ({ k with manifest := { k.manifest with generation := UInt64.ofNat number }, haveGeneration := true }, s)
  else if key = ascii "file" ∧ k.haveFile = false then
    match s.string with
    | (none, _) => malformed
    | (some file, s) => .ok ({ k with manifest := { k.manifest with file }, haveFile := true }, s)
  else if key = ascii "crc32c" ∧ k.haveCrc = false then
    match s.number with
    | (none, _) => malformed
    | (some number, s) =>
      if number ≤ 0xFFFFFFFF then
        .ok ({ k with manifest := { k.manifest with crc32c := UInt32.ofNat number }, haveCrc := true },
          s) else malformed
  else malformed

/-- Every round of the loop reads a key that was missing. -/
theorem missing_of_decodeKey {k k' : Keys} {key : List Byte} {s s' : FlatJsonScanner}
    (run : decodeKey k key s = .ok (k', s')) : k'.missing < k.missing := by
  rw [decodeKey] at run
  split at run
  next new =>
    split at run
    next => cases run
    next =>
      split at run
      next => cases run
      next =>
        cases run
        simp only [Keys.missing, new.2, if_true, Bool.false_eq_true, if_false]
        omega
  next =>
    split at run
    next new =>
      split at run
      next => cases run
      next =>
        cases run
        simp only [Keys.missing, new.2, if_true, Bool.false_eq_true, if_false]
        omega
    next =>
      split at run
      next new =>
        split at run
        next => cases run
        next =>
          cases run
          simp only [Keys.missing, new.2, if_true, Bool.false_eq_true, if_false]
          omega
      next =>
        split at run
        next new =>
          split at run
          next => cases run
          next =>
            split at run
            next =>
              cases run
              simp only [Keys.missing, new.2, if_true, Bool.false_eq_true, if_false]
              omega
            next => cases run
        next => cases run

/-- The loop over the keys, up to the closing brace. -/
def decodeKeys (first : Bool) (k : Keys) (s : FlatJsonScanner) : Result (Keys × FlatJsonScanner) :=
  match s.member first with
  | .closed s => if first then bad "empty object" else .ok (k, s)
  | .noComma => bad "expected ','"
  | .noKey => bad "expected a key"
  | .key key s =>
    match _run : decodeKey k key s with
    | .error e => .error e
    | .ok (k', s) => decodeKeys false k' s
termination_by k.missing
decreasing_by exact missing_of_decodeKey _run

def decodeManifest (text : List Byte) : Result Manifest :=
  match FlatJsonScanner.consume ⟨text⟩ 0x7B with
  | (false, _) => bad "expected an object"
  | (true, s) => do
    let (k, s) ← decodeKeys true {} s
    if s.atEnd = false then bad "trailing characters"
    else if k.haveFormat = false ∨ k.haveGeneration = false ∨ k.haveFile = false ∨ k.haveCrc = false then
      bad "missing keys"
    else if parseIndexName k.manifest.file ≠ some k.manifest.generation ∨
        k.manifest.file ≠ indexFileName k.manifest.generation then
      bad "file name does not match the generation"
    else .ok k.manifest

/-- `read_manifest` on the contents of the file, of which at most one byte too many is read. -/
def readManifest (content : List Byte) : Result Manifest :=
  let text := content.take (kMaxManifestBytes + 1)
  if text.length > kMaxManifestBytes then bad ("larger than " ++ toString kMaxManifestBytes ++ " bytes")
  else decodeManifest text

section Reading
variable {k k' : Keys} {s s' : FlatJsonScanner} {tail : List Byte}

theorem decodeKeys_key {first : Bool} {key : List Byte} (found : s.member first = .key key s') {t : FlatJsonScanner}
    (run : decodeKey k key s' = .ok (k', t)) : decodeKeys first k s = decodeKeys false k' t := by
  rw [decodeKeys, found]
  simp only
  split
  next failed =>
    rw [run] at failed
    cases failed
  next found' =>
    rw [run] at found'
    cases found'
    rfl

theorem decodeKeys_closed {t : FlatJsonScanner} (found : s.member false = .closed t) :
    decodeKeys false k s = .ok (k, t) := by
  rw [decodeKeys, found]
  rfl

theorem number_of_member {n : Nat} {b : Byte} (fits : n < 2 ^ 64) (stop : isDigit b = false) :
    FlatJsonScanner.number ⟨0x20 :: (decimal n ++ b :: tail)⟩ = (some n, ⟨b :: tail⟩) := by
  rw [FlatJsonScanner.number_space (by decide)]
  exact FlatJsonScanner.number_decimal fits fun c head => Option.some.inj head ▸ stop

/-- The text of a manifest, key by key. -/
theorem encodeManifest_eq (m : Manifest) : encodeManifest m =
    0x7B :: ([] ++ (FlatJsonScanner.quoted (ascii "format") ++ 0x20 :: (decimal m.format.toNat ++
    0x2C :: ([0x20] ++ (FlatJsonScanner.quoted (ascii "generation") ++ 0x20 :: (decimal m.generation.toNat ++
    0x2C :: ([0x20] ++ (FlatJsonScanner.quoted (ascii "file") ++ 0x20 ::
      (FlatJsonScanner.kQuote :: (m.file ++ FlatJsonScanner.kQuote ::
    0x2C :: ([0x20] ++ (FlatJsonScanner.quoted (ascii "crc32c") ++ 0x20 :: (decimal m.crc32c.toNat ++
    [0x7D, 0x0A]))))))))))))) := by
  have format : ascii "\x7b\"format\": " = 0x7B :: (FlatJsonScanner.quoted (ascii "format") ++ [0x20]) := by decide
  have generation : ascii ", \"generation\": " = 0x2C :: 0x20 ::
      (FlatJsonScanner.quoted (ascii "generation") ++ [0x20]) := by decide
  have file : ascii ", \"file\": \"" = 0x2C :: 0x20 ::
      (FlatJsonScanner.quoted (ascii "file") ++ [0x20, FlatJsonScanner.kQuote]) := by decide
  have crc : ascii "\", \"crc32c\": " = FlatJsonScanner.kQuote :: 0x2C :: 0x20 ::
      (FlatJsonScanner.quoted (ascii "crc32c") ++ [0x20]) := by decide
  have stop : ascii "\x7d\n" = [0x7D, 0x0A] := by decide
  rw [encodeManifest, format, generation, file, crc, stop]
  simp only [List.append_assoc, List.cons_append, List.nil_append]

/-- Only the last check looks at the name. -/
theorem decodeManifest_encodeManifest {m : Manifest} (format : m.format = 1)
    (plain : FlatJsonScanner.Plain m.file) : decodeManifest (encodeManifest m) =
      if parseIndexName m.file ≠ some m.generation ∨ m.file ≠ indexFileName m.generation then
        bad "file name does not match the generation"
      else .ok m := by
  obtain ⟨_, generation, file, crc⟩ := m
  dsimp only at format plain
  subst format
  rw [encodeManifest_eq, decodeManifest, FlatJsonScanner.consume_hit (by decide)]
  simp only
  have crcFits := crc.toNat_lt
  have readFormat : ∀ tail, decodeKey {} (ascii "format") ⟨0x20 :: (decimal (1 : UInt32).toNat ++ 0x2C :: tail)⟩ =
      .ok ({ haveFormat := true }, ⟨0x2C :: tail⟩) := by
    intro tail
    rw [decodeKey, if_pos ⟨rfl, rfl⟩, number_of_member (by decide) (by decide)]
    rfl
  have readGeneration : ∀ tail, decodeKey { haveFormat := true } (ascii "generation")
      ⟨0x20 :: (decimal generation.toNat ++ 0x2C :: tail)⟩ =
      .ok ({ manifest := { generation }, haveFormat := true, haveGeneration := true }, ⟨0x2C :: tail⟩) := by
    intro tail
    rw [decodeKey, if_neg (by decide), if_pos ⟨rfl, rfl⟩, number_of_member generation.toNat_lt (by decide)]
    simp only [UInt64.ofNat_toNat]
  have readFile : ∀ tail, decodeKey { manifest := { generation }, haveFormat := true, haveGeneration := true }
      (ascii "file")
      ⟨0x20 :: (FlatJsonScanner.kQuote :: (file ++ FlatJsonScanner.kQuote :: 0x2C :: tail))⟩ =
      .ok ({ manifest := { generation, file }, haveFormat := true, haveGeneration := true, haveFile := true },
        ⟨0x2C :: tail⟩) := by
    intro tail
    rw [decodeKey, if_neg (fun same => absurd same.1 (by decide)), if_neg (fun same => absurd same.1 (by decide)),
      if_pos ⟨rfl, rfl⟩, FlatJsonScanner.string_space (by decide),
      FlatJsonScanner.string_text plain]
  have readCrc : ∀ tail,
      decodeKey { manifest := { generation, file }, haveFormat := true, haveGeneration := true, haveFile := true }
      (ascii "crc32c") ⟨0x20 :: (decimal crc.toNat ++ 0x7D :: tail)⟩ =
      .ok ({ manifest := { generation, file, crc32c := crc }, haveFormat := true, haveGeneration := true
             haveFile := true, haveCrc := true }, ⟨0x7D :: tail⟩) := by
    intro tail
    rw [decodeKey, if_neg (fun same => absurd same.1 (by decide)), if_neg (fun same => absurd same.1 (by decide)),
      if_neg (fun same => absurd same.1 (by decide)), if_pos ⟨rfl, rfl⟩, number_of_member (by omega) (by decide)]
    simp only
    rw [if_pos (by omega), UInt32.ofNat_toNat]
  rw [decodeKeys_key (FlatJsonScanner.member_first (by simp) (by decide)) (readFormat _),
    decodeKeys_key (FlatJsonScanner.member_next FlatJsonScanner.white_single (by decide)) (readGeneration _),
    decodeKeys_key (FlatJsonScanner.member_next FlatJsonScanner.white_single (by decide)) (readFile _),
    decodeKeys_key (FlatJsonScanner.member_next FlatJsonScanner.white_single (by decide)) (readCrc _),
    decodeKeys_closed (t := ⟨[0x0A]⟩) (by decide)]
  rfl

end Reading

section Names
variable {generation : UInt64}

/-- The digits of a name, padded to six. -/
def padded (generation : UInt64) : List Byte :=
  List.replicate (6 - (decimal generation.toNat).length) zero ++ decimal generation.toNat

theorem formatted_eq (generation : UInt64) : formatted generation = kPrefix ++ padded generation ++ kSuffix := by
  rw [formatted, padded, ← List.append_assoc]

theorem isDigit_of_mem_padded {b : Byte} (mem : b ∈ padded generation) : isDigit b = true := by
  rcases List.mem_append.mp mem with pad | digit
  · rw [(List.mem_replicate.mp pad).2]
    decide
  · exact isDigit_of_mem_decimal digit

theorem length_padded_le (generation : UInt64) : (padded generation).length ≤ 20 := by
  have small := length_decimal_le (k := 20) (by decide) (generation.toNat_lt.trans (by decide))
  rw [padded, List.length_append, List.length_replicate]
  omega

theorem length_formatted : (formatted generation).length = (padded generation).length + 12 := by
  rw [formatted_eq, List.length_append, List.length_append]
  have ends : kPrefix.length = 6 ∧ kSuffix.length = 6 := by decide
  omega

/-- The digits in a name are its generation. -/
theorem parseIndexName_formatted (generation : UInt64) :
    parseIndexName (formatted generation) = some generation := by
  have digits : ((formatted generation).drop kPrefix.length).take
      ((formatted generation).length - kPrefix.length - kSuffix.length) =
      padded generation := by
    rw [formatted_eq, List.append_assoc, List.drop_left, List.length_append, List.length_append]
    exact List.take_left' (by omega)
  have some : padded generation ≠ [] := fun none => decimal_ne_nil _ (List.append_eq_nil_iff.mp none).2
  have value : Decimal.value (padded generation) = generation.toNat := by rw [padded, value_zeros, value_decimal]
  have scanned : scan 64 (padded generation ++ []) = Option.some (Decimal.value (padded generation), []) :=
    scan_digits some (fun b mem => isDigit_of_mem_padded mem) (by rw [value]; exact generation.toNat_lt)
    (fun b mem => (by cases mem))
  rw [List.append_nil, value] at scanned
  rw [parseIndexName, if_pos]
  · simp only [digits, scanned, Option.map_some, UInt64.ofNat_toNat]
    rw [if_neg]
    rw [Bool.not_eq_false, isDigits]
    simpa [some] using fun b mem => isDigit_of_mem_padded mem
  · rw [formatted_eq]
    exact ⟨by rw [List.append_assoc]; exact List.prefix_append _ _, List.suffix_append _ _⟩

/-- Up to 19 digits the name fits the buffer. -/
theorem indexFileName_of_small (small : generation.toNat < 10 ^ 19) :
    indexFileName generation = formatted generation := by
  have digits := length_decimal_le (k := 19) (by decide) small
  have length : (formatted generation).length ≤ 31 := by
    rw [length_formatted, padded, List.length_append, List.length_replicate]
    omega
  rw [indexFileName, printed, List.take_of_length_le length, List.take_left]

/-- With 20 digits its last character is lost to the terminating zero. -/
theorem indexFileName_of_large (large : 10 ^ 19 ≤ generation.toNat) :
    indexFileName generation = (formatted generation).take 31 ++ [0] := by
  have digits := lt_length_decimal large
  have length : (formatted generation).length = 32 := by
    have bound := length_padded_le generation
    rw [length_formatted]
    rw [padded, List.length_append, List.length_replicate] at bound ⊢
    omega
  have taken : ((formatted generation).take 31).length = 31 := by
    rw [List.length_take, length]
    rfl
  rw [indexFileName, printed, taken, length]
  exact List.take_of_length_le (by rw [List.length_append, taken]; decide)

theorem parseIndexName_of_large (large : 10 ^ 19 ≤ generation.toNat) :
    parseIndexName (indexFileName generation) = none := by
  rw [indexFileName_of_large large, parseIndexName, if_neg]
  rintro ⟨-, front, ends⟩
  have last := congrArg List.getLast? ends
  have suffix : kSuffix.getLast? = some 0x78 := by decide
  rw [List.getLast?_append, List.getLast?_concat, suffix] at last
  rw [Option.some_or] at last
  exact absurd last (by decide)

theorem plain_indexFileName (generation : UInt64) : FlatJsonScanner.Plain (indexFileName generation) := by
  intro b mem
  have parts : b ∈ formatted generation ∨ b = 0 := by
    rcases List.mem_append.mp (List.mem_of_mem_take mem) with text | rest
    · exact .inl (List.mem_of_mem_take text)
    · exact .inr (List.mem_replicate.mp rest).2
  have ends : FlatJsonScanner.Plain kPrefix ∧ FlatJsonScanner.Plain kSuffix := by decide
  have digits : isDigit FlatJsonScanner.kQuote = false ∧ isDigit FlatJsonScanner.kBackslash = false := by decide
  rcases parts with text | rfl
  · rw [formatted_eq, List.append_assoc] at text
    rcases List.mem_append.mp text with front | text
    · exact ends.1 b front
    rcases List.mem_append.mp text with digit | back
    · have digit := isDigit_of_mem_padded digit
      constructor
      · rintro rfl
        rw [digits.1] at digit
        cases digit
      · rintro rfl
        rw [digits.2] at digit
        cases digit
    · exact ends.2 b back
  · decide

end Names

/-- A manifest for a generation is read back as it was written, from its text and from the file, and its file name
belongs to it. -/
def RoundTrips (generation : UInt64) (crc : UInt32) : Prop :=
  let m : Manifest := { generation, file := indexFileName generation, crc32c := crc }
  decodeManifest (encodeManifest m) = .ok m ∧ parseIndexName (indexFileName generation) = some generation ∧
    readManifest (encodeManifest m) = .ok m

/-- The text of a manifest is far below the limit of its reader. -/
theorem readManifest_encodeManifest {m : Manifest} (short : m.file.length ≤ 32) :
    readManifest (encodeManifest m) = decodeManifest (encodeManifest m) := by
  have format := length_decimal_le (k := 20) (by decide) (m.format.toNat_lt.trans (by decide))
  have generation := length_decimal_le (k := 20) (by decide) (m.generation.toNat_lt.trans (by decide))
  have crc := length_decimal_le (k := 20) (by decide) (m.crc32c.toNat_lt.trans (by decide))
  have ends : (ascii "\x7b\"format\": ").length = 11 ∧ (ascii ", \"generation\": ").length = 16 ∧
      (ascii ", \"file\": \"").length = 11 ∧
      (ascii "\", \"crc32c\": ").length = 13 ∧ (ascii "\x7d\n").length = 2 := by decide
  have length : (encodeManifest m).length ≤ kMaxManifestBytes := by
    simp only [encodeManifest, List.length_append, kMaxManifestBytes]
    omega
  rw [readManifest, List.take_of_length_le (by omega)]
  exact if_neg (by omega)

theorem length_indexFileName (generation : UInt64) : (indexFileName generation).length ≤ 32 := by
  have bound := length_padded_le generation
  rw [indexFileName, List.length_take, length_formatted]
  omega

theorem round_trips_of_small {generation : UInt64} (crc : UInt32) (small : generation.toNat < 10 ^ 19) :
    RoundTrips generation crc := by
  have name : parseIndexName (indexFileName generation) = some generation := by
    rw [indexFileName_of_small small, parseIndexName_formatted]
  have text : decodeManifest (encodeManifest { generation, file := indexFileName generation, crc32c := crc }) =
      .ok { generation, file := indexFileName generation, crc32c := crc } := by
    rw [decodeManifest_encodeManifest rfl (plain_indexFileName generation), if_neg]
    simp only [name, ne_eq, not_true_eq_false, or_self, not_false_eq_true]
  exact ⟨text, name, (readManifest_encodeManifest (length_indexFileName generation)).trans text⟩

theorem not_round_trips_of_large {generation : UInt64} (crc : UInt32) (large : 10 ^ 19 ≤ generation.toNat) :
    ¬ RoundTrips generation crc := by
  rintro ⟨-, name, -⟩
  rw [parseIndexName_of_large large] at name
  cases name

/-- The round trip holds exactly for the generations with up to 19 digits. -/
theorem manifest_round_trips_iff (generation : UInt64) (crc : UInt32) : RoundTrips generation crc ↔
    generation.toNat < 10 ^ 19 := by
  constructor
  · intro trips
    by_contra large
    exact not_round_trips_of_large crc (Nat.not_lt.mp large) trips
  · exact round_trips_of_small crc

/-- The name of the first generation with 20 digits ends in a zero byte, and the manifest that carries it is
refused. -/
theorem name_is_truncated : indexFileName 10000000000000000000 = ascii "index.10000000000000000000.vfid" ++ [0] ∧
    decodeManifest (encodeManifest
      { generation := 10000000000000000000, file := indexFileName 10000000000000000000, crc32c := 7 }) =
      bad "file name does not match the generation" ∧ ¬ RoundTrips 10000000000000000000 7 := by
  refine ⟨by decide, ?_, not_round_trips_of_large 7 (by decide)⟩
  rw [decodeManifest_encodeManifest rfl (plain_indexFileName 10000000000000000000), if_pos]
  exact .inl (by simp [parseIndexName_of_large (show 10 ^ 19 ≤ (10000000000000000000 : UInt64).toNat by decide)])

end Manifest
end VectorForge
