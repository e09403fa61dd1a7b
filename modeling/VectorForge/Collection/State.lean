import VectorForge.Hnsw.Backend
import VectorForge.Storage.IdMap

namespace VectorForge

/-- `IndexBackend`: the flat backend owns nothing. -/
inductive IndexBackend where
  | flat
  | hnsw (backend : HnswBackend)

def IndexBackend.type : IndexBackend → IndexType
  | .flat => .flat
  | .hnsw _ => .hnsw

def IndexBackend.graph? : IndexBackend → Option HnswGraph
  | .flat => none
  | .hnsw b => some b.graph

/-- `CollectionState` without the kernel table, which is a parameter of whatever computes
a distance. -/
structure CollectionState where
  config : CollectionConfig
  normalized : Bool := config.effectiveNormalize
  creator : List Byte := []
  createdUnixMs : UInt64 := 0
  vectors : VectorStore
  ids : IdMap := {}
  deleted : TombstoneSet := {}
  backend : IndexBackend

/-- The backend is the configured one and knows the rows. -/
def IndexBackend.Fits (backend : IndexBackend) (config : CollectionConfig) (rows : Nat) : Prop :=
  match backend with
  | .flat => config.index = .flat
  | .hnsw b => config.index = .hnsw ∧ b.Fits config.hnsw rows

namespace CollectionState

/-- The couplings between rows, labels, id map, tombstones and backend. -/
structure Coupled (s : CollectionState) : Prop where
  store : s.vectors.Wf
  dim : s.vectors.dim = s.config.dim.toNat
  limit : s.vectors.maxRows = kMaxVectorsPerCollection
  dimRange : 1 ≤ s.config.dim.toNat ∧ s.config.dim.toNat ≤ kMaxDim
  normalized : s.normalized = s.config.effectiveNormalize
  labels : s.ids.labels.length = s.vectors.size
  settled : s.ids.Settled s.deleted
  tracks : s.deleted.Tracks s.vectors.size
  backend : s.backend.Fits s.config s.vectors.size

/-- The representation invariant: the couplings, and for HNSW a graph that passes
`check_invariants`. -/
structure RepInv (s : CollectionState) : Prop extends Coupled s where
  graph : ∀ b, s.backend = .hnsw b → HnswValidator.checkInvariants b.graph = .ok ()

/-- Every stored component passes `find_invalid_component`. -/
def ComponentsOk (s : CollectionState) : Prop :=
  ∀ row ∈ s.vectors.rows, findInvalidComponent row = row.length

variable {s : CollectionState}

theorem Coupled.rows_le (coupled : s.Coupled) : s.vectors.size ≤ kMaxVectorsPerCollection :=
  coupled.limit ▸ coupled.store.bounded

theorem Coupled.labels_le (coupled : s.Coupled) : s.ids.labels.length ≤ kMaxVectorsPerCollection :=
  coupled.labels ▸ coupled.rows_le

/-- Every row is counted once, as live or as marked. -/
theorem Coupled.live_add_count (coupled : s.Coupled) : s.ids.live + s.deleted.count = s.vectors.size := by
  rw [← coupled.labels]
  exact coupled.settled.live_add_count (coupled.labels ▸ coupled.tracks)

end CollectionState
end VectorForge
