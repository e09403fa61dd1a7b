import VectorForge.Core.Config

/-! Validation and normalisation of vectors, and distances. Arithmetic that rounds is a parameter. -/

namespace VectorForge

namespace F32

def zero : F32 := ⟨0⟩
def one : F32 := ⟨0x3F800000⟩
def two : F32 := ⟨0x40000000⟩

/-- Unary minus flips the sign. -/
def neg (x : F32) : F32 := ⟨x.bits ^^^ 0x80000000⟩

/-- `std::max(0.0F, x)`. -/
def clamp (x : F32) : F32 := if zero.lt x then x else zero

def isInf (x : F32) : Bool := decide (x.magnitude = 0x7F800000)

def isFinite (x : F32) : Bool := decide (x.magnitude < 0x7F800000)

/-- `std::to_string` of a finite float of at least 2^24, all of which are integers. -/
def largeToString (x : F32) : String :=
  let value := (0x800000 + x.magnitude % 0x800000) * 2 ^ (x.magnitude / 0x800000 - 150)
  (if x.negative then "-" else "") ++ toString value ++ ".000000"

end F32

/-- `KernelTable`, with the rounding operations on single floats that the code around it uses. -/
structure KernelTable where
  dot : List F32 → List F32 → F32
  l2sq : List F32 → List F32 → F32
  norm2 : List F32 → F32
  dot1ToN : List F32 → List (List F32) → List F32
  l2sq1ToN : List F32 → List (List F32) → List F32
  mul : F32 → F32 → F32
  sub : F32 → F32 → F32
  /-- `1.0 / std::sqrt(x)` in double precision, then rounded. -/
  inverseSqrt : F32 → F32

section Validation

def invalidComponentStatus (values : List F32) (index rowDim : Nat) : Status :=
  let x := values.getD index F32.zero
  let place := if rowDim ≠ 0 then "row " ++ toString (index / rowDim) ++ " component " ++ toString (index % rowDim)
    else "component " ++ toString index
  if x.isNan then .invalidArgument (place ++ " is NaN")
  else if x.isInf then .invalidArgument (place ++ " is infinite")
  else .invalidArgument (place ++ " = " ++ x.largeToString ++ " exceeds the supported magnitude 1e16")

def validateVector (vector : List F32) (expectedDim : Nat) : Result Unit :=
  if vector.length ≠ expectedDim then
    .error (.dimensionMismatch ("expected dimension " ++ toString expectedDim ++ ", got " ++
      toString vector.length))
  else if findInvalidComponent vector ≠ vector.length then
    .error (invalidComponentStatus vector (findInvalidComponent vector) 0)
  else .ok ()

def validateBatch (values : List F32) (rows dim : Nat) : Result Unit :=
  if ¬rows * dim < 2 ^ 64 ∨ values.length ≠ rows * dim then
    .error (.dimensionMismatch ("expected " ++ toString rows ++ " rows of dimension " ++ toString dim ++ ", got " ++
      toString values.length ++ " values"))
  else if findInvalidComponent values ≠ values.length then
    .error (invalidComponentStatus values (findInvalidComponent values) dim)
  else .ok ()

theorem validateVector_ok {vector : List F32} {dim : Nat} (run : validateVector vector dim = .ok ()) :
    vector.length = dim ∧ ∀ x ∈ vector, x.acceptable = true := by
  unfold validateVector at run
  split at run
  · cases run
  split at run
  · cases run
  next length ok => exact ⟨by simpa using length, findInvalidComponent_eq_length.mp (by simpa using ok)⟩

theorem validateBatch_ok {values : List F32} {rows dim : Nat} (run : validateBatch values rows dim = .ok ()) :
    values.length = rows * dim ∧ ∀ x ∈ values, x.acceptable = true := by
  unfold validateBatch at run
  split at run
  · cases run
  split at run
  · cases run
  next length ok =>
    rw [not_or] at length
    exact ⟨by simpa using length.2, findInvalidComponent_eq_length.mp (by simpa using ok)⟩

end Validation

section Normalisation
variable (k : KernelTable)

def inverseNorm (vector : List F32) : Result F32 :=
  if vector.isEmpty then .error (.invalidArgument "cannot normalize an empty vector")
  else
    let normSq := k.norm2 vector
    if !(F32.zero.lt normSq) || !normSq.isFinite then
      .error (.invalidArgument "cannot normalize a vector with zero or non-finite norm")
    else
      let scale := k.inverseSqrt normSq
      if !scale.isFinite then .error (.invalidArgument "vector norm is too small to normalize") else .ok scale

/-- The vector that `normalize_inplace` leaves behind. -/
def normalizeInplace (vector : List F32) : Result (List F32) := do
  let scale ← inverseNorm k vector
  return vector.map fun x => k.mul x scale

theorem length_normalizeInplace {vector unit : List F32} (run : normalizeInplace k vector = .ok unit) :
    unit.length = vector.length := by
  unfold normalizeInplace at run
  cases norm : inverseNorm k vector with
  | error e => rw [norm] at run; cases run
  | ok scale =>
    rw [norm] at run
    cases run
    exact List.length_map _

end Normalisation

/-- A prepared query: for normalised collections `invNorm` scales the dot products. -/
structure QueryView where
  data : List F32
  invNorm : F32 := F32.one

inductive ScoreMode where
  | l2 | negDot | normalizedCos | normalizedL2 | normalizedIp
  deriving DecidableEq, Repr

def scoreMode (metric : Metric) (normalized : Bool) : ScoreMode :=
  if !normalized then if metric = .l2 then .l2 else .negDot
  else match metric with
    | .l2 => .normalizedL2
    | .innerProduct => .normalizedIp
    | .cosine => .normalizedCos

def queryDistance (k : KernelTable) (mode : ScoreMode) (query : QueryView) (row : List F32) : F32 :=
  match mode with
  | .l2 => k.l2sq query.data row
  | .negDot => (k.dot query.data row).neg
  | .normalizedCos => (k.sub F32.one (k.mul (k.dot query.data row) query.invNorm)).clamp
  | .normalizedL2 => (k.sub F32.two (k.mul (k.mul F32.two (k.dot query.data row)) query.invNorm)).clamp
  | .normalizedIp => (k.mul (k.dot query.data row) query.invNorm).neg

end VectorForge
