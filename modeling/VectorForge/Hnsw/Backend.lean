import VectorForge.Hnsw.Validator
import VectorForge.Core.Config

namespace VectorForge

inductive NeighborSelection where
  | heuristic | simple
  deriving DecidableEq, Repr

/-- Construction switches; the two chunk sizes are always the defaults in a collection. -/
structure HnswBuildOptions where
  selection : NeighborSelection := .heuristic
  keepPruned : Bool := true
  repairOrphans : Bool := true
  deriving DecidableEq, Repr

/-- What `HnswBackend` owns. The rows and the tombstones belong to the collection,
and scratch memory and statistics have no influence on the graph. -/
structure HnswBackend where
  params : HnswParams
  options : HnswBuildOptions := {}
  graph : HnswGraph

namespace HnswBackend

def create (params : HnswParams) : Result HnswBackend := do
  params.validate
  let graph ← HnswGraph.create { m := params.M.toNat, maxLevel := params.maxLevel.toNat }
  return { params, graph }

/-- A backend over a graph that was read from a file, for a store of `rows` rows. -/
def createLoaded (rows : Nat) (params : HnswParams) (graph : HnswGraph) : Checked HnswBackend := do
  Outcome.lift params.validate
  Outcome.check (decide (graph.m = params.M.toNat ∧ graph.nodeCount = rows))
    "HnswBackend::create_loaded: graph does not match parameters or vectors"
  return { params, graph }

/-- The backend of a collection of `rows` rows with these parameters. -/
structure Fits (b : HnswBackend) (p : HnswParams) (rows : Nat) : Prop where
  params : b.params = p
  valid : p.Valid
  options : b.options = {}
  m : b.graph.m = p.M.toNat
  maxLevel : b.graph.maxLevel = p.maxLevel.toNat
  nodes : b.graph.nodeCount = rows
  laid : b.graph.Laid

theorem create_fits {params : HnswParams} {b : HnswBackend} (run : create params = .ok b) :
    b.Fits params 0 ∧ HnswValidator.Invariants b.graph := by
  unfold create at run
  cases checked : params.validate with
  | error e => rw [checked] at run; cases run
  | ok u =>
    rw [checked] at run
    cases made : HnswGraph.create { m := params.M.toNat, maxLevel := params.maxLevel.toNat } with
    | error e => simp only [made, bind, Except.bind] at run; cases run
    | ok graph =>
      simp only [made, bind, Except.bind, pure, Except.pure, Except.ok.injEq] at run
      subst run
      obtain ⟨rfl, _, _⟩ := HnswGraph.create_blank made
      refine ⟨⟨rfl, HnswParams.validate_ok_iff.mp checked, rfl, rfl, rfl, rfl, HnswGraph.blank_laid _ _⟩, ?_⟩
      refine ⟨fun _ => rfl, fun some => absurd rfl some, ?_, ?_⟩
      · intro id bound
        exact absurd bound (Nat.not_lt_zero id)
      · intro id l bound
        exact absurd bound (Nat.not_lt_zero id)

theorem create_eq {params : HnswParams} (valid : params.Valid) :
    create params = .ok { params, graph := HnswGraph.blank params.M.toNat params.maxLevel.toNat } := by
  have made := HnswGraph.create_ok valid.minM valid.maxM valid.minLevel valid.maxLevel
  rw [create, HnswParams.validate_ok_iff.mpr valid, made]
  rfl

end HnswBackend
end VectorForge
