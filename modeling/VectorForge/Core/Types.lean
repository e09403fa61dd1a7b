import VectorForge.Lib.Outcome

namespace VectorForge

/-- `vf::ErrorCode` without its `Ok` value, which a `Status` of the model never carries. -/
inductive ErrorCode where
  | invalidArgument | dimensionMismatch | notFound | alreadyExists | corruptData
  | unsupportedVersion | ioError | resourceExhausted | failedPrecondition | unavailable | internal
  deriving DecidableEq, Repr

/-- A reported error. The OK status of the source is a successful `Result`. -/
structure Status where
  code : ErrorCode
  message : String
  deriving DecidableEq, Repr

namespace Status

def invalidArgument (message : String) : Status := ⟨.invalidArgument, message⟩
def dimensionMismatch (message : String) : Status := ⟨.dimensionMismatch, message⟩
def notFound (message : String) : Status := ⟨.notFound, message⟩
def alreadyExists (message : String) : Status := ⟨.alreadyExists, message⟩
def corruptData (message : String) : Status := ⟨.corruptData, message⟩
def unsupportedVersion (message : String) : Status := ⟨.unsupportedVersion, message⟩
def ioError (message : String) : Status := ⟨.ioError, message⟩
def resourceExhausted (message : String) : Status := ⟨.resourceExhausted, message⟩
def unavailable (message : String) : Status := ⟨.unavailable, message⟩
def internal (message : String) : Status := ⟨.internal, message⟩

end Status

abbrev Result (α : Type) := Except Status α

/-- A `Result` computation in which out-of-bounds accesses, wrapped sizes and
failed `VF_CHECK`s are outcomes of their own. -/
abbrev Checked (α : Type) := Outcome Status α

abbrev Byte := UInt8

/-- User-facing vector identifier. -/
abbrev ExternalId := UInt64

def kInvalidExternalId : ExternalId := 0xFFFFFFFFFFFFFFFF

/-- Internal ids are row and graph node numbers, `std::uint32_t` in the source and `Nat` here. -/
def kInvalidInternalId : Nat := 0xFFFFFFFF
def kMaxDim : Nat := 65536

/-- Every internal id except the reserved one. -/
def kMaxVectorsPerCollection : Nat := kInvalidInternalId

inductive Metric where
  | l2 | innerProduct | cosine
  deriving DecidableEq, Repr

inductive IndexType where
  | flat | hnsw
  deriving DecidableEq, Repr

inductive Concurrency where
  | coarse | concurrent
  deriving DecidableEq, Repr

namespace Metric

def toByte : Metric → UInt8
  | l2 => 0 | innerProduct => 1 | cosine => 2

/-- The enumerator with a stored value; `none` where `is_valid` is false. -/
def ofByte (b : UInt8) : Option Metric :=
  if b = 0 then some l2 else if b = 1 then some innerProduct else if b = 2 then some cosine else none

@[simp] theorem ofByte_toByte (m : Metric) : ofByte m.toByte = some m := by
  cases m <;> rfl

end Metric

namespace IndexType

def toByte : IndexType → UInt8
  | flat => 0 | hnsw => 1

def ofByte (b : UInt8) : Option IndexType :=
  if b = 0 then some flat else if b = 1 then some hnsw else none

@[simp] theorem ofByte_toByte (t : IndexType) : ofByte t.toByte = some t := by
  cases t <;> rfl

end IndexType

/-- IEEE binary32 as its bit pattern. -/
structure F32 where
  bits : UInt32
  deriving DecidableEq, Repr

namespace F32

/-- The pattern with the sign cleared, which is what `std::fabs` returns. -/
def magnitude (x : F32) : Nat := x.bits.toNat % 2 ^ 31

def negative (x : F32) : Bool := decide (2 ^ 31 ≤ x.bits.toNat)

def isNan (x : F32) : Bool := decide (0x7F800000 < x.magnitude)

/-- Position on the number line: equal for the two zeros, and otherwise the order
of `operator<` on everything that is not a NaN. -/
def rank (x : F32) : Int := if x.negative then -(x.magnitude : Int) else x.magnitude

/-- `a < b` on floats, false as soon as one side is a NaN. -/
def lt (a b : F32) : Bool := !a.isNan && !b.isNan && decide (a.rank < b.rank)

/-- `a == b` on floats. -/
def feq (a b : F32) : Bool := !a.isNan && !b.isNan && decide (a.rank = b.rank)

/-- `kMaxAbsComponent`, the float nearest to 1e16. -/
def kMaxAbsComponent : F32 := ⟨0x5A0E1BCA⟩

/-- `std::fabs(x) <= kMaxAbsComponent`. Magnitudes compare like their patterns,
and every NaN pattern is larger than the bound. -/
def acceptable (x : F32) : Bool := decide (x.magnitude ≤ kMaxAbsComponent.magnitude)

end F32

/-- Index of the first component that is a NaN, infinite or out of range; the size if none is. -/
def findInvalidComponent (values : List F32) : Nat := values.findIdx (fun x => !x.acceptable)

theorem findInvalidComponent_eq_length {values : List F32} :
    findInvalidComponent values = values.length ↔ ∀ x ∈ values, x.acceptable = true := by
  simp [findInvalidComponent, List.findIdx_eq_length]

end VectorForge
