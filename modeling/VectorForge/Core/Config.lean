import VectorForge.Core.Types

namespace VectorForge

/-- `HnswParams` with the widths of the source's fields and its defaults. -/
structure HnswParams where
  M : UInt32 := 16
  efConstruction : UInt32 := 200
  efSearch : UInt32 := 50
  maxLevel : UInt8 := 16
  seed : UInt64 := 0x5EEDF0A6E
  deriving DecidableEq, Repr

structure CollectionConfig where
  dim : UInt32 := 0
  metric : Metric := .l2
  normalize : Bool := false
  index : IndexType := .hnsw
  hnsw : HnswParams := {}
  concurrency : Concurrency := .concurrent
  deriving DecidableEq, Repr

/-- Checksum verification when an index file is loaded. -/
inductive Verify where
  | auto | none | metadata | full
  deriving DecidableEq, Repr

def rangeMessage (name : String) (value lo hi : Nat) : String :=
  name ++ " = " ++ toString value ++ " is outside [" ++ toString lo ++ ", " ++ toString hi ++ "]"

namespace HnswParams

def kMinM : Nat := 2
def kMaxM : Nat := 512
def kMaxEf : Nat := 1048576
def kMaxLevelCap : Nat := 32

def validate (p : HnswParams) : Result Unit :=
  if p.M.toNat < kMinM ∨ p.M.toNat > kMaxM then
    .error (.invalidArgument (rangeMessage "hnsw.M" p.M.toNat kMinM kMaxM))
  else if p.efConstruction.toNat < p.M.toNat ∨ p.efConstruction.toNat > kMaxEf then
    .error (.invalidArgument
      (rangeMessage "hnsw.ef_construction" p.efConstruction.toNat p.M.toNat kMaxEf ++ " (must be >= M)"))
  else if p.efSearch.toNat < 1 ∨ p.efSearch.toNat > kMaxEf then
    .error (.invalidArgument (rangeMessage "hnsw.ef_search" p.efSearch.toNat 1 kMaxEf))
  else if p.maxLevel.toNat < 1 ∨ p.maxLevel.toNat > kMaxLevelCap then
    .error (.invalidArgument (rangeMessage "hnsw.max_level" p.maxLevel.toNat 1 kMaxLevelCap))
  else .ok ()

/-- `2 * M` in 32-bit arithmetic. -/
def maxLinksLevel0 (p : HnswParams) : UInt32 := 2 * p.M

/-- The four range checks of `validate`, read as one statement. -/
structure Valid (p : HnswParams) : Prop where
  minM : 2 ≤ p.M.toNat
  maxM : p.M.toNat ≤ 512
  minEfConstruction : p.M.toNat ≤ p.efConstruction.toNat
  maxEfConstruction : p.efConstruction.toNat ≤ kMaxEf
  minEfSearch : 1 ≤ p.efSearch.toNat
  maxEfSearch : p.efSearch.toNat ≤ kMaxEf
  minLevel : 1 ≤ p.maxLevel.toNat
  maxLevel : p.maxLevel.toNat ≤ 32

theorem validate_ok_iff {p : HnswParams} : p.validate = .ok () ↔ p.Valid := by
  unfold validate
  constructor
  · intro run
    split at run
    · cases run
    split at run
    · cases run
    split at run
    · cases run
    split at run
    · cases run
    · next m ec es ml =>
      simp only [kMinM, kMaxM, kMaxLevelCap] at m ml
      constructor <;> omega
  · rintro ⟨minM, maxM, minEc, maxEc, minEs, maxEs, minLevel, maxLevel⟩
    have atM : ¬(p.M.toNat < kMinM ∨ p.M.toNat > kMaxM) := by simp only [kMinM, kMaxM]; omega
    have atEc : ¬(p.efConstruction.toNat < p.M.toNat ∨ p.efConstruction.toNat > kMaxEf) := by omega
    have atEs : ¬(p.efSearch.toNat < 1 ∨ p.efSearch.toNat > kMaxEf) := by omega
    have atLevel : ¬(p.maxLevel.toNat < 1 ∨ p.maxLevel.toNat > kMaxLevelCap) := by
      simp only [kMaxLevelCap]; omega
    rw [if_neg atM, if_neg atEc, if_neg atEs, if_neg atLevel]

end HnswParams

namespace CollectionConfig

def effectiveNormalize (c : CollectionConfig) : Bool := c.normalize || decide (c.metric = .cosine)

/-- Enumerators outside their enumeration cannot be written down here, so the
three checks for them have no counterpart. -/
def validate (c : CollectionConfig) : Result Unit :=
  if c.dim.toNat < 1 ∨ c.dim.toNat > kMaxDim then
    .error (.invalidArgument (rangeMessage "dim" c.dim.toNat 1 kMaxDim))
  else if c.index = .hnsw then c.hnsw.validate
  else .ok ()

theorem validate_ok_iff {c : CollectionConfig} : c.validate = .ok () ↔
    (1 ≤ c.dim.toNat ∧ c.dim.toNat ≤ kMaxDim) ∧ (c.index = .hnsw → c.hnsw.Valid) := by
  unfold validate
  constructor
  · intro run
    split at run
    · cases run
    · next dim =>
      refine ⟨by omega, ?_⟩
      intro hnsw
      rw [if_pos hnsw] at run
      exact HnswParams.validate_ok_iff.mp run
  · rintro ⟨dim, hnsw⟩
    rw [if_neg (by omega)]
    split
    · next graph => exact HnswParams.validate_ok_iff.mpr (hnsw graph)
    · rfl

end CollectionConfig
end VectorForge
