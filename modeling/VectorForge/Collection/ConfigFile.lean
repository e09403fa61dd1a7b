import VectorForge.Core.Config
import VectorForge.Storage.FlatJson

/-! The config.json of a collection directory. -/

namespace VectorForge
open Decimal

namespace Metric

/-- `to_string`. -/
def text : Metric → List Byte
  | .l2 => ascii "l2"
  | .innerProduct => ascii "ip"
  | .cosine => ascii "cosine"

/-- `parse_metric`. -/
def parse (text : List Byte) : Result Metric :=
  if text = ascii "l2" then .ok .l2
  else if text = ascii "ip" ∨ text = ascii "inner_product" then .ok .innerProduct
  else if text = ascii "cosine" then .ok .cosine
  else .error (.invalidArgument ("unknown metric '" ++ shown text ++
    "' (expected l2, ip, inner_product or cosine)"))

theorem parse_text (m : Metric) : parse m.text = .ok m := by cases m <;> rfl

theorem plain_text (m : Metric) : FlatJsonScanner.Plain m.text := by cases m <;> decide

end Metric

namespace IndexType

/-- `to_string`. -/
def text : IndexType → List Byte
  | .flat => ascii "flat"
  | .hnsw => ascii "hnsw"

/-- `parse_index_type`. -/
def parse (text : List Byte) : Result IndexType :=
  if text = ascii "flat" then .ok .flat
  else if text = ascii "hnsw" then .ok .hnsw
  else .error (.invalidArgument ("unknown index type '" ++ shown text ++ "' (expected flat or hnsw)"))

theorem parse_text (t : IndexType) : parse t.text = .ok t := by cases t <;> rfl

theorem plain_text (t : IndexType) : FlatJsonScanner.Plain t.text := by cases t <;> decide

end IndexType

namespace ConfigFile
open FlatJsonScanner

def kMaxConfigBytes : Nat := 4096

def encodeConfig (c : CollectionConfig) : List Byte :=
  ascii "\x7b\n" ++ ascii "  \"format\": 1,\n" ++
  ascii "  \"dim\": " ++ decimal c.dim.toNat ++ ascii ",\n" ++
  ascii "  \"metric\": \"" ++ c.metric.text ++ ascii "\",\n" ++
  ascii "  \"normalize\": " ++ (if c.normalize then ascii "true" else ascii "false") ++ ascii ",\n" ++
  ascii "  \"index\": \"" ++ c.index.text ++ ascii "\",\n" ++
  ascii "  \"M\": " ++ decimal c.hnsw.M.toNat ++ ascii ",\n" ++
  ascii "  \"ef_construction\": " ++ decimal c.hnsw.efConstruction.toNat ++ ascii ",\n" ++
  ascii "  \"ef_search\": " ++ decimal c.hnsw.efSearch.toNat ++ ascii ",\n" ++
  ascii "  \"max_level\": " ++ decimal c.hnsw.maxLevel.toNat ++ ascii ",\n" ++
  ascii "  \"seed\": " ++ decimal c.hnsw.seed.toNat ++ ascii "\n" ++
  ascii "\x7d\n"

def bad {α : Type} (what : String) : Result α := .error (.corruptData ("config.json: " ++ what))

/-- The keys that are known. -/
inductive Key where
  | format | dim | metric | normalize | index | m | efConstruction | efSearch | maxLevel | seed
  deriving DecidableEq, Repr

namespace Key

def name : Key → List Byte
  | format => ascii "format"
  | dim => ascii "dim"
  | metric => ascii "metric"
  | normalize => ascii "normalize"
  | index => ascii "index"
  | m => ascii "M"
  | efConstruction => ascii "ef_construction"
  | efSearch => ascii "ef_search"
  | maxLevel => ascii "max_level"
  | seed => ascii "seed"

def all : List Key := [format, dim, metric, normalize, index, m, efConstruction, efSearch, maxLevel, seed]

/-- The key with a name. -/
def ofName (text : List Byte) : Option Key := all.find? fun k => k.name = text

theorem mem_all (k : Key) : k ∈ all := by cases k <;> decide

theorem ofName_name (k : Key) : ofName k.name = some k := by cases k <;> decide

theorem plain_name (k : Key) : Plain k.name := by cases k <;> decide

end Key

/-- A number up to a bound. -/
def bounded (s : FlatJsonScanner) (bound : Nat) : Option (Nat × FlatJsonScanner) :=
  match s.number with
  | (some number, s) => if number ≤ bound then some (number, s) else none
  | (none, _) => none

/-- The value of a key. -/
def readValue (c : CollectionConfig) (s : FlatJsonScanner) : Key → Option (CollectionConfig × FlatJsonScanner)
  | .format =>
    match s.number with
    | (some number, s) => if number = 1 then some (c, s) else none
    | (none, _) => none
  | .dim => (bounded s kMaxDim).map fun (number, s) => ({ c with dim := UInt32.ofNat number }, s)
  | .metric =>
    match s.string with
    | (some text, s) => (Metric.parse text).toOption.map fun metric => ({ c with metric }, s)
    | (none, _) => none
  | .normalize =>
    match s.boolean with
    | (some normalize, s) => some ({ c with normalize }, s)
    | (none, _) => none
  | .index =>
    match s.string with
    | (some text, s) => (IndexType.parse text).toOption.map fun index => ({ c with index }, s)
    | (none, _) => none
  | .m =>
    (bounded s HnswParams.kMaxM).map fun (number, s) =>
      ({ c with hnsw := { c.hnsw with M := UInt32.ofNat number } }, s)
  | .efConstruction =>
    (bounded s HnswParams.kMaxEf).map fun (number, s) =>
      ({ c with hnsw := { c.hnsw with efConstruction := UInt32.ofNat number } }, s)
  | .efSearch =>
    (bounded s HnswParams.kMaxEf).map fun (number, s) =>
      ({ c with hnsw := { c.hnsw with efSearch := UInt32.ofNat number } }, s)
  | .maxLevel =>
    (bounded s HnswParams.kMaxLevelCap).map fun (number, s) =>
      ({ c with hnsw := { c.hnsw with maxLevel := UInt8.ofNat number } }, s)
  | .seed =>
    match s.number with
    | (some number, s) => some ({ c with hnsw := { c.hnsw with seed := UInt64.ofNat number } }, s)
    | (none, _) => none

/-- The known keys that have not been seen. -/
def unseen (seen : List Key) : List Key := Key.all.filter fun k => decide (k ∉ seen)

theorem unseen_cons_lt {seen : List Key} {k : Key} (fresh : k ∉ seen) :
    (unseen (k :: seen)).length < (unseen seen).length := by
  have split : unseen (k :: seen) = (unseen seen).filter fun j => decide (j ≠ k) := by
    rw [unseen, unseen, List.filter_filter]
    exact List.filter_congr fun j _ => by simp [not_or]
  rw [split]
  exact List.length_filter_lt_length_iff_exists.mpr
    ⟨k, List.mem_filter.mpr ⟨k.mem_all, by simpa using fresh⟩, by simp⟩

/-- The loop over the keys, each of which has to be new. -/
def decodeKeys (first : Bool) (seen : List Key) (c : CollectionConfig) (s : FlatJsonScanner) :
    Result (List Key × CollectionConfig × FlatJsonScanner) :=
  match s.member first with
  | .closed s => .ok (seen, c, s)
  | .noComma => bad "expected ','"
  | .noKey => bad "expected a new key"
  | .key name s =>
    match Key.ofName name with
    | none => bad ("unknown or malformed key '" ++ shown name ++ "'")
    | some k =>
      if _fresh : k ∈ seen then bad "expected a new key"
      else
        match readValue c s k with
        | none => bad ("unknown or malformed key '" ++ shown name ++ "'")
        | some (c, s) => decodeKeys false (k :: seen) c s
termination_by (unseen seen).length
decreasing_by exact unseen_cons_lt _fresh

def decodeConfig (text : List Byte) : Result CollectionConfig :=
  match consume ⟨text⟩ 0x7B with
  | (false, _) => bad "expected an object"
  | (true, s) => do
    let (seen, c, s) ← decodeKeys true [] {} s
    if s.atEnd = false then bad "trailing characters"
    else if seen.length ≠ 10 then bad "missing keys"
    else
      match c.validate with
      | .error st => bad st.message
      | .ok () => .ok c

section RoundTrip
variable (cfg : CollectionConfig)

/-- What is written behind a key. -/
def valueText : Key → List Byte
  | .format => ascii "1"
  | .dim => decimal cfg.dim.toNat
  | .metric => kQuote :: (cfg.metric.text ++ [kQuote])
  | .normalize => if cfg.normalize then ascii "true" else ascii "false"
  | .index => kQuote :: (cfg.index.text ++ [kQuote])
  | .m => decimal cfg.hnsw.M.toNat
  | .efConstruction => decimal cfg.hnsw.efConstruction.toNat
  | .efSearch => decimal cfg.hnsw.efSearch.toNat
  | .maxLevel => decimal cfg.hnsw.maxLevel.toNat
  | .seed => decimal cfg.hnsw.seed.toNat

/-- The bound that the reader has for the value of a key. -/
def Within : Key → Prop
  | .dim => cfg.dim.toNat ≤ kMaxDim
  | .m => cfg.hnsw.M.toNat ≤ HnswParams.kMaxM
  | .efConstruction => cfg.hnsw.efConstruction.toNat ≤ HnswParams.kMaxEf
  | .efSearch => cfg.hnsw.efSearch.toNat ≤ HnswParams.kMaxEf
  | .maxLevel => cfg.hnsw.maxLevel.toNat ≤ HnswParams.kMaxLevelCap
  | _ => True

/-- `c` with the value of one key from `cfg`. -/
def copyField (c : CollectionConfig) : Key → CollectionConfig
  | .format => c
  | .dim => { c with dim := cfg.dim }
  | .metric => { c with metric := cfg.metric }
  | .normalize => { c with normalize := cfg.normalize }
  | .index => { c with index := cfg.index }
  | .m => { c with hnsw := { c.hnsw with M := cfg.hnsw.M } }
  | .efConstruction => { c with hnsw := { c.hnsw with efConstruction := cfg.hnsw.efConstruction } }
  | .efSearch => { c with hnsw := { c.hnsw with efSearch := cfg.hnsw.efSearch } }
  | .maxLevel => { c with hnsw := { c.hnsw with maxLevel := cfg.hnsw.maxLevel } }
  | .seed => { c with hnsw := { c.hnsw with seed := cfg.hnsw.seed } }

variable {cfg} {tail : List Byte} {b : Byte}

theorem number_of_text {n : Nat} (fits : n < 2 ^ 64) (stop : isDigit b = false) :
    number ⟨0x20 :: (decimal n ++ b :: tail)⟩ = (some n, ⟨b :: tail⟩) := by
  rw [number_space (by decide)]
  exact number_decimal fits fun c head => Option.some.inj head ▸ stop

theorem bounded_of_text {n bound : Nat} (fits : n < 2 ^ 64) (stop : isDigit b = false) (below : n ≤ bound) :
    bounded ⟨0x20 :: (decimal n ++ b :: tail)⟩ bound = some (n, ⟨b :: tail⟩) := by
  rw [bounded, number_of_text fits stop]
  exact if_pos below

theorem bounded_of_excess {n bound : Nat} (fits : n < 2 ^ 64) (stop : isDigit b = false) (above : ¬ n ≤ bound) :
    bounded ⟨0x20 :: (decimal n ++ b :: tail)⟩ bound = none := by
  rw [bounded, number_of_text fits stop]
  exact if_neg above

theorem string_of_text {text : List Byte} (plain : Plain text) :
    string ⟨0x20 :: ((kQuote :: (text ++ [kQuote])) ++ tail)⟩ = (some text, ⟨tail⟩) := by
  rw [string_space (by decide), List.cons_append, List.append_assoc]
  exact string_text plain

theorem boolean_of_text (value : Bool) : boolean ⟨(if value then ascii "true" else ascii "false") ++ tail⟩ =
    (some value, ⟨tail⟩) := by
  cases value with
  | true =>
    rw [if_pos rfl, boolean, show skipWs ⟨ascii "true" ++ tail⟩ = ⟨ascii "true" ++ tail⟩ from rfl]
    exact if_pos (List.prefix_append _ _)
  | false =>
    rw [if_neg Bool.false_ne_true, boolean, show skipWs ⟨ascii "false" ++ tail⟩ = ⟨ascii "false" ++ tail⟩ from rfl,
      if_neg]
    · exact if_pos (List.prefix_append _ _)
    · rintro ⟨rest, same⟩
      have here : (ascii "true" ++ rest).head? = some 0x74 := rfl
      have there : (ascii "false" ++ tail).head? = some 0x66 := rfl
      exact absurd ((congrArg List.head? same).symm.trans here |>.symm.trans there) (by decide)

/-- A value within its bound is read back. -/
theorem readValue_of_within (c : CollectionConfig) (stop : isDigit b = false) {k : Key} (within : Within cfg k) :
    readValue c ⟨0x20 :: (valueText cfg k ++ b :: tail)⟩ k = some (copyField cfg c k, ⟨b :: tail⟩) := by
  have dim := cfg.dim.toNat_lt
  have m := cfg.hnsw.M.toNat_lt
  have construction := cfg.hnsw.efConstruction.toNat_lt
  have search := cfg.hnsw.efSearch.toNat_lt
  have level := cfg.hnsw.maxLevel.toNat_lt
  cases k with
  | format =>
    have one : ascii "1" = decimal 1 := by decide
    rw [readValue, valueText, one, number_of_text (by decide) stop]
    rfl
  | dim =>
    rw [readValue, valueText, bounded_of_text (by omega) stop within]
    simp only [Option.map_some, UInt32.ofNat_toNat, copyField]
  | metric =>
    rw [readValue, valueText, string_of_text cfg.metric.plain_text]
    simp only [Metric.parse_text, Except.toOption, Option.map_some, copyField]
  | normalize =>
    rw [readValue, valueText, boolean_space (by decide), boolean_of_text]
    rfl
  | index =>
    rw [readValue, valueText, string_of_text cfg.index.plain_text]
    simp only [IndexType.parse_text, Except.toOption, Option.map_some, copyField]
  | m =>
    rw [readValue, valueText, bounded_of_text (by omega) stop within]
    simp only [Option.map_some, UInt32.ofNat_toNat, copyField]
  | efConstruction =>
    rw [readValue, valueText, bounded_of_text (by omega) stop within]
    simp only [Option.map_some, UInt32.ofNat_toNat, copyField]
  | efSearch =>
    rw [readValue, valueText, bounded_of_text (by omega) stop within]
    simp only [Option.map_some, UInt32.ofNat_toNat, copyField]
  | maxLevel =>
    rw [readValue, valueText, bounded_of_text (by omega) stop within]
    simp only [Option.map_some, UInt8.ofNat_toNat, copyField]
  | seed =>
    rw [readValue, valueText, number_of_text cfg.hnsw.seed.toNat_lt stop]
    simp only [UInt64.ofNat_toNat, copyField]

theorem readValue_of_excess (c : CollectionConfig) (stop : isDigit b = false) {k : Key} (excess : ¬ Within cfg k) :
    readValue c ⟨0x20 :: (valueText cfg k ++ b :: tail)⟩ k = none := by
  have dim := cfg.dim.toNat_lt
  have m := cfg.hnsw.M.toNat_lt
  have construction := cfg.hnsw.efConstruction.toNat_lt
  have search := cfg.hnsw.efSearch.toNat_lt
  have level := cfg.hnsw.maxLevel.toNat_lt
  cases k with
  | dim => rw [readValue, valueText, bounded_of_excess (by omega) stop excess]; rfl
  | m => rw [readValue, valueText, bounded_of_excess (by omega) stop excess]; rfl
  | efConstruction => rw [readValue, valueText, bounded_of_excess (by omega) stop excess]; rfl
  | efSearch => rw [readValue, valueText, bounded_of_excess (by omega) stop excess]; rfl
  | maxLevel => rw [readValue, valueText, bounded_of_excess (by omega) stop excess]; rfl
  | format | metric | normalize | index | seed => exact absurd trivial excess

/-- The text from the comma in front of a key on. -/
def membersText (cfg : CollectionConfig) : List Key → List Byte
  | [] => [0x0A, 0x7D, 0x0A]
  | k :: rest =>
    0x2C :: ([0x0A, 0x20, 0x20] ++ (quoted k.name ++ 0x20 :: (valueText cfg k ++ membersText cfg rest)))

theorem membersText_head (cfg : CollectionConfig) (keys : List Key) : ∃ b tail, membersText cfg keys = b :: tail ∧
    isDigit b = false := by
  cases keys with
  | nil => exact ⟨_, _, rfl, by decide⟩
  | cons k rest => exact ⟨_, _, rfl, by decide⟩

theorem white_indent : ∀ b ∈ ([0x0A, 0x20, 0x20] : List Byte), isSpace b = true := by
  simp [isSpace]

theorem decodeKeys_closed {seen : List Key} {c : CollectionConfig} :
    decodeKeys false seen c ⟨[0x0A, 0x7D, 0x0A]⟩ = .ok (seen, c, ⟨[0x0A]⟩) := by
  rw [decodeKeys, show member false ⟨[0x0A, 0x7D, 0x0A]⟩ = .closed ⟨[0x0A]⟩ by decide]

/-- One round of the loop. -/
theorem decodeKeys_key {first : Bool} {seen : List Key} {c c' : CollectionConfig}
    {s t u : FlatJsonScanner} {k : Key}
    (found : s.member first = .key k.name t) (fresh : k ∉ seen) (value : readValue c t k = some (c', u)) :
    decodeKeys first seen c s = decodeKeys false (k :: seen) c' u := by
  rw [decodeKeys, found]
  simp only [Key.ofName_name]
  rw [dif_neg fresh, value]

theorem decodeKeys_excess {first : Bool} {seen : List Key} {c : CollectionConfig} {s t : FlatJsonScanner} {k : Key}
    (found : s.member first = .key k.name t) (fresh : k ∉ seen) (value : readValue c t k = none) :
    ∃ st, decodeKeys first seen c s = .error st := by
  rw [decodeKeys, found]
  simp only [Key.ofName_name]
  rw [dif_neg fresh, value]
  exact ⟨_, rfl⟩

/-- The loop over what is left of the keys. -/
theorem decodeKeys_membersText (cfg : CollectionConfig) :
    ∀ (keys seen : List Key) (c : CollectionConfig), keys.Nodup →
    (∀ k ∈ keys, k ∉ seen) →
      ((∀ k ∈ keys, Within cfg k) →
        decodeKeys false seen c ⟨membersText cfg keys⟩ =
          .ok (keys.reverse ++ seen, keys.foldl (copyField cfg) c, ⟨[0x0A]⟩)) ∧
      ((∃ k ∈ keys, ¬ Within cfg k) → ∃ st, decodeKeys false seen c ⟨membersText cfg keys⟩ = .error st)
  | [], seen, c, _, _ => ⟨fun _ => decodeKeys_closed, fun ⟨k, mem, _⟩ => by cases mem⟩
  | k :: rest, seen, c, distinct, fresh => by
    obtain ⟨b, tail, head, stop⟩ := membersText_head cfg rest
    have apart := List.nodup_cons.mp distinct
    have found : member false ⟨membersText cfg (k :: rest)⟩ = .key k.name
        ⟨0x20 :: (valueText cfg k ++ membersText cfg rest)⟩ :=
      member_next white_indent k.plain_name
    have new := fresh k List.mem_cons_self
    rw [head] at found
    by_cases within : Within cfg k
    · have round := decodeKeys_key found new (readValue_of_within c stop within)
      rw [← head] at round
      have later := decodeKeys_membersText cfg rest (k :: seen) (copyField cfg c k) apart.2 fun j mem => by
        rw [List.mem_cons, not_or]
        exact ⟨fun same => apart.1 (same ▸ mem), fresh j (List.mem_cons_of_mem _ mem)⟩
      rw [round]
      refine ⟨fun all => ?_, fun ⟨j, mem, excess⟩ => later.2 ⟨j, ?_, excess⟩⟩
      · rw [later.1 fun j mem => all j (List.mem_cons_of_mem _ mem), List.reverse_cons, List.append_assoc]
        rfl
      · exact (List.mem_cons.mp mem).resolve_left fun same => excess (same ▸ within)
    · exact ⟨fun all => absurd (all k List.mem_cons_self) within, fun _ =>
        decodeKeys_excess found new (readValue_of_excess c stop within)⟩

/-- The keys behind the first one. -/
def others : List Key := [.dim, .metric, .normalize, .index, .m, .efConstruction, .efSearch, .maxLevel, .seed]

theorem encodeConfig_eq (cfg : CollectionConfig) : encodeConfig cfg =
    0x7B :: ([0x0A, 0x20, 0x20] ++ (quoted Key.format.name ++ 0x20 ::
      (valueText cfg .format ++ membersText cfg others))) := by
  have start : ascii "\x7b\n" = [0x7B, 0x0A] := by decide
  have comma : ascii ",\n" = [0x2C, 0x0A] := by decide
  have quote : ascii "\",\n" = [kQuote, 0x2C, 0x0A] := by decide
  have line : ascii "\n" = [0x0A] := by decide
  have stop : ascii "\x7d\n" = [0x7D, 0x0A] := by decide
  have format : ascii "  \"format\": 1,\n" = [0x20, 0x20] ++
      (quoted Key.format.name ++ 0x20 :: (ascii "1" ++ [0x2C, 0x0A])) := by decide
  have dim : ascii "  \"dim\": " = [0x20, 0x20] ++ (quoted Key.dim.name ++ [0x20]) := by decide
  have metric : ascii "  \"metric\": \"" = [0x20, 0x20] ++ (quoted Key.metric.name ++ [0x20, kQuote]) := by decide
  have normalize : ascii "  \"normalize\": " = [0x20, 0x20] ++ (quoted Key.normalize.name ++ [0x20]) := by decide
  have index : ascii "  \"index\": \"" = [0x20, 0x20] ++ (quoted Key.index.name ++ [0x20, kQuote]) := by decide
  have m : ascii "  \"M\": " = [0x20, 0x20] ++ (quoted Key.m.name ++ [0x20]) := by decide
  have construction : ascii "  \"ef_construction\": " = [0x20, 0x20] ++
      (quoted Key.efConstruction.name ++ [0x20]) := by decide
  have search : ascii "  \"ef_search\": " = [0x20, 0x20] ++ (quoted Key.efSearch.name ++ [0x20]) := by decide
  have level : ascii "  \"max_level\": " = [0x20, 0x20] ++ (quoted Key.maxLevel.name ++ [0x20]) := by decide
  have seed : ascii "  \"seed\": " = [0x20, 0x20] ++ (quoted Key.seed.name ++ [0x20]) := by decide
  unfold encodeConfig
  simp only [List.append_assoc]
  simp only [start, comma, quote, line, stop, format, dim, metric, normalize, index, m, construction,
    search, level, seed]
  simp only [others, membersText, valueText]
  simp only [List.append_assoc, List.cons_append, List.nil_append]

theorem foldl_copyField (cfg : CollectionConfig) :
    others.foldl (copyField cfg) (copyField cfg {} .format) = { cfg with concurrency := .concurrent } := by
  simp only [others, List.foldl, copyField]

/-- The bounds that the reader has for all keys. -/
def InLimits (cfg : CollectionConfig) : Prop :=
  cfg.hnsw.M.toNat ≤ HnswParams.kMaxM ∧ cfg.hnsw.efConstruction.toNat ≤ HnswParams.kMaxEf ∧
    cfg.hnsw.efSearch.toNat ≤ HnswParams.kMaxEf ∧
    cfg.hnsw.maxLevel.toNat ≤ HnswParams.kMaxLevelCap

theorem inLimits_iff {cfg : CollectionConfig} (valid : cfg.validate = .ok ()) : InLimits cfg ↔
    ∀ k ∈ others, Within cfg k := by
  obtain ⟨⟨-, dim⟩, -⟩ := CollectionConfig.validate_ok_iff.mp valid
  constructor
  · rintro ⟨m, construction, search, level⟩ k -
    cases k with
    | dim => exact dim
    | m => exact m
    | efConstruction => exact construction
    | efSearch => exact search
    | maxLevel => exact level
    | format | metric | normalize | index | seed => trivial
  · intro all
    exact ⟨all .m (by decide), all .efConstruction (by decide), all .efSearch (by decide),
      all .maxLevel (by decide)⟩

theorem consume_brace {tail : List Byte} : consume ⟨0x7B :: tail⟩ 0x7B = (true, ⟨tail⟩) := consume_hit (by decide)

/-- The first key, in front of which there is no comma. -/
theorem decodeKeys_start (cfg : CollectionConfig) :
    decodeKeys true [] {} ⟨[0x0A, 0x20, 0x20] ++
      (quoted Key.format.name ++ 0x20 :: (valueText cfg .format ++ membersText cfg others))⟩ =
      decodeKeys false [.format] (copyField cfg {} .format) ⟨membersText cfg others⟩ := by
  obtain ⟨b, tail, head, stop⟩ := membersText_head cfg others
  have found : member true ⟨[0x0A, 0x20, 0x20] ++
      (quoted Key.format.name ++ 0x20 :: (valueText cfg .format ++ membersText cfg others))⟩ =
      .key Key.format.name ⟨0x20 :: (valueText cfg .format ++ membersText cfg others)⟩ :=
      member_first white_indent Key.format.plain_name
  rw [head] at found ⊢
  exact decodeKeys_key found (by decide) (readValue_of_within {} stop trivial)

theorem validate_default (cfg : CollectionConfig) :
    { cfg with concurrency := .concurrent }.validate = cfg.validate := rfl

theorem others_fresh : ∀ k ∈ others, k ∉ [Key.format] := by decide

theorem decodeConfig_of_inLimits {cfg : CollectionConfig} (valid : cfg.validate = .ok ()) (limits : InLimits cfg) :
    decodeConfig (encodeConfig cfg) = .ok { cfg with concurrency := .concurrent } := by
  have keys := (decodeKeys_membersText cfg others [.format] (copyField cfg {} .format) (by decide) others_fresh).1
    ((inLimits_iff valid).mp limits)
  rw [decodeConfig, encodeConfig_eq, consume_brace]
  simp only [decodeKeys_start, keys, bind, Except.bind]
  rw [if_neg (by decide), if_neg (by decide), foldl_copyField, validate_default, valid]

theorem decodeConfig_of_excess {cfg : CollectionConfig} (valid : cfg.validate = .ok ()) (excess : ¬ InLimits cfg) :
    ∃ st, decodeConfig (encodeConfig cfg) = .error st := by
  rw [inLimits_iff valid] at excess
  simp only [not_forall] at excess
  obtain ⟨k, mem, beyond⟩ := excess
  obtain ⟨st, run⟩ := (decodeKeys_membersText cfg others [.format] (copyField cfg {} .format)
    (by decide) others_fresh).2 ⟨k, mem, beyond⟩
  rw [decodeConfig, encodeConfig_eq, consume_brace]
  simp only [decodeKeys_start, run, bind, Except.bind]
  exact ⟨st, rfl⟩

end RoundTrip
end ConfigFile
end VectorForge
