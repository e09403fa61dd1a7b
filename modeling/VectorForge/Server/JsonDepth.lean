import VectorForge.Core.Types
import VectorForge.Lib.JsonText

/-! The nesting of a JSON body, found without parsing it. -/

namespace VectorForge
open JsonText Marked

namespace JsonDepth

def kMaxJsonDepth : Nat := 8

/-- The variables of the loop. -/
structure Scan where
  depth : Nat := 0
  inString : Bool := false
  escaped : Bool := false
  deriving DecidableEq, Repr

/-- One round; nothing where the function returns `false`. -/
def scanByte (maxDepth : Nat) (s : Scan) (c : Byte) : Option Scan :=
  if s.inString then
    if s.escaped then some { s with escaped := false }
    else if c = 0x5C then some { s with escaped := true }
    else if c = 0x22 then some { s with inString := false }
    else some s
  else if c = 0x22 then some { s with inString := true }
  else if c = 0x5B ∨ c = 0x7B then if s.depth + 1 > maxDepth then none else some { s with depth := s.depth + 1 }
  else if (c = 0x5D ∨ c = 0x7D) ∧ s.depth > 0 then some { s with depth := s.depth - 1 }
  else some s

def scanAll (maxDepth : Nat) : Scan → List Byte → Option Scan
  | s, [] => some s
  | s, c :: rest => (scanByte maxDepth s c).bind fun s => scanAll maxDepth s rest

/-- `within_depth`. -/
def withinDepth (body : List Byte) (maxDepth : Nat) : Bool := (scanAll maxDepth {} body).isSome

/-- The same round without a limit. -/
def step (s : Scan) (c : Byte) : Scan := (scanByte (s.depth + 1) s c).getD s

/-- The state behind some bytes. -/
def run (s : Scan) (text : List Byte) : Scan := text.foldl step s

/-- The depths behind each of some bytes. -/
def depths : Scan → List Byte → List Nat
  | _, [] => []
  | s, c :: rest => (step s c).depth :: depths (step s c) rest

/-- With a limit the round is the same, or it would go beyond the limit. -/
theorem scanByte_eq (maxDepth : Nat) {s : Scan} (below : s.depth ≤ maxDepth) (c : Byte) :
    scanByte maxDepth s c = if (step s c).depth ≤ maxDepth then some (step s c) else none := by
  by_cases opens : s.inString = false ∧ c ≠ 0x22 ∧ (c = 0x5B ∨ c = 0x7B)
  · have deeper : step s c = { s with depth := s.depth + 1 } := by
      rw [step, scanByte, if_neg (by simp [opens.1]), if_neg opens.2.1, if_pos opens.2.2,
        if_neg (by omega), Option.getD_some]
    rw [deeper, scanByte, if_neg (by simp [opens.1]), if_neg opens.2.1, if_pos opens.2.2]
    by_cases inside : s.depth + 1 ≤ maxDepth
    · rw [if_neg (by omega), if_pos inside]
    · rw [if_pos (by omega), if_neg inside]
  · have kept : ∃ t : Scan, t.depth ≤ s.depth ∧ ∀ m, scanByte m s c = some t := by
      unfold scanByte
      by_cases string : s.inString = true
      · simp only [string, if_true]
        split_ifs
        · refine ⟨_, ?_, fun _ => rfl⟩
          exact Nat.le_refl s.depth
        · refine ⟨_, ?_, fun _ => rfl⟩
          exact Nat.le_refl s.depth
        · refine ⟨_, ?_, fun _ => rfl⟩
          exact Nat.le_refl s.depth
        · refine ⟨_, ?_, fun _ => rfl⟩
          exact Nat.le_refl s.depth
      · by_cases quote : c = 0x22
        · simp only [string, quote, if_true, Bool.false_eq_true, if_false]
          refine ⟨_, ?_, fun _ => rfl⟩
          exact Nat.le_refl s.depth
        · have brackets : ¬ (c = 0x5B ∨ c = 0x7B) := fun bracket => opens ⟨by simpa using string, quote, bracket⟩
          simp only [string, quote, brackets, Bool.false_eq_true, if_false]
          split_ifs
          · exact ⟨_, Nat.sub_le _ _, fun _ => rfl⟩
          · refine ⟨_, ?_, fun _ => rfl⟩
            exact Nat.le_refl s.depth
    obtain ⟨t, lower, found⟩ := kept
    rw [step, found, found, Option.getD_some, if_pos (by omega)]

theorem scanAll_isSome (maxDepth : Nat) : ∀ (text : List Byte) {s : Scan}, s.depth ≤ maxDepth →
    ((scanAll maxDepth s text).isSome = true ↔ ∀ n ∈ depths s text, n ≤ maxDepth)
  | [], s, _ => by simp [scanAll, depths]
  | c :: rest, s, below => by
    rw [scanAll, scanByte_eq maxDepth below, depths, List.forall_mem_cons]
    split
    next inside =>
      rw [Option.bind_some, scanAll_isSome maxDepth rest inside]
      exact ⟨fun all => ⟨inside, all⟩, fun both => both.2⟩
    next outside => exact ⟨fun no => (by cases no), fun both => absurd both.1 outside⟩

theorem withinDepth_iff (body : List Byte) (maxDepth : Nat) : withinDepth body maxDepth = true ↔
    ∀ n ∈ depths {} body, n ≤ maxDepth :=
  scanAll_isSome maxDepth body (Nat.zero_le _)

theorem depths_append : ∀ (s : Scan) (first second : List Byte), depths s (first ++ second) = depths s first ++
    depths (run s first) second
  | _, [], _ => rfl
  | s, c :: first, second => by
    rw [List.cons_append, depths, depths, depths_append, List.cons_append]
    rfl

theorem length_depths : ∀ (s : Scan) (text : List Byte), (depths s text).length = text.length
  | _, [] => rfl
  | s, c :: rest => congrArg (· + 1) (length_depths (step s c) rest)

theorem run_append (s : Scan) (first second : List Byte) :
    run s (first ++ second) = run (run s first) second := List.foldl_append

/-- Outside strings the scanner follows the marks of a text and is outside strings again behind it. -/
def Follows (t : Marked) : Prop :=
  ∀ depth, run { depth } t.bytes = { depth } ∧ depths { depth } t.bytes = t.marks.map (depth + ·)

namespace Follows
variable {s t : Marked}

theorem append (first : Follows s) (second : Follows t) : Follows (s ++ t) := by
  intro depth
  rw [bytes_append, marks_append, run_append, depths_append, (first depth).1, (first depth).2, List.map_append]
  exact ⟨(second depth).1, congrArg _ (second depth).2⟩

/-- A byte that is no quote, bracket or brace. -/
theorem single {b : Byte} (quote : b ≠ 0x22) (opens : b ≠ 0x5B ∧ b ≠ 0x7B) (closes : b ≠ 0x5D ∧ b ≠ 0x7D) :
    Follows (plain [b]) := by
  intro depth
  have same : step { depth } b = { depth } := by
    rw [step, scanByte, if_neg Bool.false_ne_true, if_neg quote, if_neg (by simp [opens]),
      if_neg (by simp [closes]), Option.getD_some]
  rw [bytes_plain, run, List.foldl_cons, List.foldl_nil, depths, depths, same]
  exact ⟨rfl, rfl⟩

/-- A byte that the scanner passes over outside strings. -/
def ordinary (b : Byte) : Bool := b ≠ 0x22 && (b ≠ 0x5B && b ≠ 0x7B) && (b ≠ 0x5D && b ≠ 0x7D)

theorem plain_of_all {text : List Byte} (all : text.all ordinary = true) : Follows (plain text) := by
  induction text with
  | nil => exact fun _ => ⟨rfl, rfl⟩
  | cons b text ih =>
    rw [List.all_cons, Bool.and_eq_true] at all
    have first := all.1
    simp only [ordinary, Bool.and_eq_true, decide_eq_true_eq] at first
    exact (single first.1.1 first.1.2 first.2).append (ih all.2)

theorem enclosed {first last : Byte} (opens : first = 0x5B ∨ first = 0x7B) (closes : last = 0x5D ∨ last = 0x7D)
    (inner : Follows t) : Follows (Marked.enclosed first last t) := by
  intro depth
  have up : step { depth } first = { depth := depth + 1 } := by
    rcases opens with rfl | rfl
    · simp [step, scanByte]
    · simp [step, scanByte]
  have down : step { depth := depth + 1 } last = { depth } := by
    rcases closes with rfl | rfl
    · simp [step, scanByte]
    · simp [step, scanByte]
  obtain ⟨behind, marks⟩ := inner (depth + 1)
  have shifted : t.marks.map (depth + 1 + ·) = (t.marks.map (· + 1)).map (depth + ·) := by
    rw [List.map_map]
    exact List.map_congr_left fun n _ => by simp only [Function.comp_apply]; omega
  rw [bytes_enclosed, marks_enclosed]
  constructor
  · rw [run, List.foldl_cons, up, ← run, run_append, behind]
    exact down
  · rw [depths, up, depths_append, behind, marks, shifted, depths, down, List.map_cons, List.map_append]
    rfl

/-- The bytes of a string, inside its quotes. -/
def Quoted (text : List Byte) : Prop :=
  ∀ depth, run { depth, inString := true } text = { depth, inString := true } ∧
    depths { depth, inString := true } text = List.replicate text.length depth

theorem quoted_append {first second : List Byte} (left : Quoted first) (right : Quoted second) :
    Quoted (first ++ second) := by
  intro depth
  rw [run_append, depths_append, (left depth).1, (left depth).2, (right depth).1, (right depth).2,
    List.length_append, List.replicate_add]
  exact ⟨rfl, rfl⟩

theorem quoted_single {b : Byte} (quote : b ≠ 0x22) (backslash : b ≠ 0x5C) : Quoted [b] := by
  intro depth
  have same : step { depth, inString := true } b = { depth, inString := true } := by
    simp [step, scanByte, quote, backslash]
  rw [run, List.foldl_cons, List.foldl_nil, depths, depths, same]
  exact ⟨rfl, rfl⟩

/-- A backslash hides the byte behind it. -/
theorem quoted_escape (b : Byte) : Quoted [0x5C, b] := by
  intro depth
  have first : step { depth, inString := true } 0x5C = { depth, inString := true, escaped := true } := by
    simp [step, scanByte]
  have second : step { depth, inString := true, escaped := true } b = { depth, inString := true } := by
    simp [step, scanByte]
  rw [run, List.foldl_cons, List.foldl_cons, List.foldl_nil, depths, depths, depths, first, second]
  exact ⟨rfl, rfl⟩

theorem quoted_of_all {text : List Byte} (all : ∀ b ∈ text, b ≠ 0x22 ∧ b ≠ 0x5C) : Quoted text := by
  induction text with
  | nil => exact fun _ => ⟨rfl, rfl⟩
  | cons b text ih =>
    obtain ⟨quote, backslash⟩ := all b List.mem_cons_self
    exact quoted_append (quoted_single quote backslash) (ih fun c mem => all c (List.mem_cons_of_mem _ mem))

theorem quoted_char {text : List Byte} (char : StringChar text) : Quoted text := by
  cases char with
  | unescaped _ quote backslash => exact quoted_single quote backslash
  | escaped _ => exact quoted_escape _
  | unicode _ hex =>
    refine quoted_append (quoted_escape 0x75) (quoted_of_all fun b mem => ?_)
    have digit := hex b mem
    constructor
    · rintro rfl
      exact absurd digit (by unfold HexDigit; decide)
    · rintro rfl
      exact absurd digit (by unfold HexDigit; decide)

theorem string {text : List Byte} (string : StringText text) : Follows (plain text) := by
  cases string with
  | @mk chars all =>
    have inner : Quoted chars.flatten := by
      induction chars with
      | nil => exact fun _ => ⟨rfl, rfl⟩
      | cons c chars ih =>
        exact quoted_append (quoted_char (all c List.mem_cons_self))
          (ih fun d mem => all d (List.mem_cons_of_mem _ mem))
    intro depth
    have start : step { depth } 0x22 = { depth, inString := true } := by simp [step, scanByte]
    have stop : step { depth, inString := true } 0x22 = { depth } := by simp [step, scanByte]
    obtain ⟨behind, marks⟩ := inner depth
    rw [bytes_plain, marks_plain]
    constructor
    · rw [run, List.foldl_cons, start, ← run, run_append, behind]
      exact stop
    · rw [depths, start, depths_append, behind, marks, depths, stop, List.map_replicate,
        List.length_cons, List.length_append,
        List.replicate_succ, List.replicate_add]
      rfl

/-- A text whose bytes are no quotes and no brackets. -/
theorem white {text : List Byte} (white : White text) : Follows (plain text) :=
  plain_of_all (List.all_eq_true.mpr fun b mem => by
    rcases white b mem with rfl | rfl | rfl | rfl
    · decide
    · decide
    · decide
    · decide)

theorem ordinary_of_digit {b : Byte} (low : 0x30 ≤ b.toNat) (high : b.toNat ≤ 0x39) : ordinary b = true := by
  have apart : ∀ c : Byte, c.toNat < 0x30 ∨ 0x39 < c.toNat → b ≠ c := by
    rintro c outside rfl
    omega
  simp only [ordinary, Bool.and_eq_true, decide_eq_true_eq]
  exact ⟨⟨apart _ (by decide), apart _ (by decide), apart _ (by decide)⟩, apart _ (by decide), apart _ (by decide)⟩

theorem digits {text : List Byte} (digits : Digits text) : Follows (plain text) :=
  plain_of_all (List.all_eq_true.mpr fun b mem => ordinary_of_digit (digits.2 b mem).1 (digits.2 b mem).2)

theorem plain_append {first second : List Byte} (left : Follows (plain first)) (right : Follows (plain second)) :
    Follows (plain (first ++ second)) := by
  rw [plain, List.map_append]
  exact left.append right

theorem number {text : List Byte} (number : Number text) : Follows (plain text) := by
  cases number with
  | mk negative integer _ decimals power =>
    refine plain_append (plain_append (plain_append ?_ (digits integer)) ?_) ?_
    · rcases negative with rfl | rfl
      · exact plain_of_all rfl
      · exact plain_of_all (by decide)
    · rcases decimals with rfl | ⟨f, fraction, rfl⟩
      · exact plain_of_all rfl
      · exact (single (b := 0x2E) (by decide) (by decide) (by decide)).append (digits fraction)
    · rcases power with rfl | ⟨e, s, d, letter, sign, exponent, rfl⟩
      · exact plain_of_all rfl
      · have first : Follows (plain [e]) := by
          rcases letter with rfl | rfl
          · exact single (by decide) (by decide) (by decide)
          · exact single (by decide) (by decide) (by decide)
        have second : Follows (plain s) := by
          rcases sign with rfl | rfl | rfl
          · exact plain_of_all rfl
          · exact plain_of_all (by decide)
          · exact plain_of_all (by decide)
        exact first.append (plain_append second (digits exponent))

theorem literal {text : List Byte} (literal : Literal text) : Follows (plain text) := by
  rcases literal with rfl | rfl | rfl
  · exact plain_of_all (by decide)
  · exact plain_of_all (by decide)
  · exact plain_of_all (by decide)

theorem comma : Follows (plain [0x2C]) := single (by decide) (by decide) (by decide)

theorem colon : Follows (plain [0x3A]) := single (by decide) (by decide) (by decide)

end Follows

/-- The scanner follows the marks of everything the grammar derives. -/
theorem follows_of_parses {p : Part} {t : Marked} {n : Nat} (parses : Parses p t n) : Follows t := by
  induction parses with
  | literal name => exact .literal name
  | number number => exact .number number
  | string string => exact .string string
  | emptyArray space => exact .enclosed (.inl rfl) (.inl rfl) (.white space)
  | array _ ih => exact ih.enclosed (.inl rfl) (.inl rfl)
  | emptyObject space => exact .enclosed (.inr rfl) (.inr rfl) (.white space)
  | object _ ih => exact ih.enclosed (.inr rfl) (.inr rfl)
  | lastElement before _ behind ih => exact (Follows.white before).append (ih.append (.white behind))
  | moreElements before _ behind _ value others =>
    exact (Follows.white before).append (value.append ((Follows.white behind).append (Follows.comma.append others)))
  | lastMember before name between next _ behind ih =>
    exact (Follows.white before).append
      ((Follows.string name).append ((Follows.white between).append (Follows.colon.append
      ((Follows.white next).append (ih.append (.white behind))))))
  | moreMembers before name between next _ behind _ value others =>
    exact (Follows.white before).append
      ((Follows.string name).append ((Follows.white between).append (Follows.colon.append
      ((Follows.white next).append (value.append ((Follows.white behind).append (Follows.comma.append others)))))))

theorem follows_of_document {t : Marked} {n : Nat} (document : Document t n) : Follows t := by
  cases document with
  | mk before value behind => exact (Follows.white before).append ((follows_of_parses value).append (.white behind))

theorem depths_of_document {t : Marked} {n : Nat} (document : Document t n) : depths {} (bytes t) = marks t := by
  rw [(follows_of_document document 0).2]
  simp

/-- On a document the guard compares its nesting with the limit; and in a body that passes, no beginning of a
document has more arrays and objects open behind any of its bytes than the limit. -/
theorem within_depth_is_exact (maxDepth : Nat) :
    (∀ t n, Document t n → (withinDepth (bytes t) maxDepth = true ↔ n ≤ maxDepth)) ∧
      ∀ body, withinDepth body maxDepth = true → ∀ t n, Document t n → ∀ text, text <+: body → text <+: bytes t →
        ∀ m ∈ (marks t).take text.length, m ≤ maxDepth := by
  constructor
  · intro t n document
    obtain ⟨bound, deepest⟩ := document.deepest
    rw [withinDepth_iff, depths_of_document document]
    constructor
    · intro all
      rcases deepest with rfl | here
      · exact Nat.zero_le _
      · exact all n here
    · exact fun within m mem => (bound m mem).trans within
  · rintro body within t n document text ⟨rest, rfl⟩ ⟨tail, whole⟩ m mem
    rw [withinDepth_iff, depths_append] at within
    have same := depths_of_document document
    have length : (depths {} text).length = text.length := length_depths {} text
    rw [← whole, depths_append] at same
    rw [← same, List.take_left' length] at mem
    exact within m (List.mem_append_left _ mem)

/-- An array with a bracket in a string has one level. -/
theorem within_depth_is_exact_string : withinDepth [0x5B, 0x22, 0x5B, 0x22, 0x5D] 1 = true ∧
    ¬ withinDepth [0x5B, 0x22, 0x5B, 0x22, 0x5D] 0 = true := by
  have chars : ∀ c ∈ ([[0x5B]] : List (List Byte)), StringChar c := fun c mem => by
    rw [List.mem_singleton.mp mem]
    exact .unescaped (by decide) (by decide) (by decide)
  have name : StringText [0x22, 0x5B, 0x22] := .mk chars
  have none : White [] := fun b mem => by cases mem
  have document := Document.mk none (.array (.lastElement none (.string name) none)) none
  exact ⟨((within_depth_is_exact 1).1 _ _ document).mpr (by decide),
    fun no => absurd (((within_depth_is_exact 0).1 _ _ document).mp no) (by decide)⟩

end JsonDepth
end VectorForge
