import VectorForge.Hnsw.Linking

/-! Runs of a backend: any sequence of `add` calls and of sections in which reserved nodes are
linked concurrently. -/

namespace VectorForge

namespace HnswContext
variable (ctx : HnswContext)

/-- `reserve_node` for the next id. -/
def reserveNode (g : HnswGraph) : Result HnswGraph := g.addNode (ctx.params.levels.levelFor g.nodeCount)

/-- `count` nodes, one after the other. -/
def reserveNodes : (count : Nat) → HnswGraph → Result HnswGraph
  | 0, g => .ok g
  | count + 1, g => ctx.reserveNode g >>= reserveNodes count

end HnswContext

/-- A backend between operations, in the middle of a section of links, or in the middle of `add`. -/
inductive HnswRun where
  | idle (s : SharedGraph)
  | linking (s : SharedGraph) (pool : Nat → GraphProg Bool)
  | adding (id : Nat) (s : SharedGraph) (pool : Nat → GraphProg (Option (Result Unit)))

namespace HnswRun

def shared : HnswRun → SharedGraph
  | idle s | linking s _ | adding _ s _ => s

/-- No insertion of a section runs out of memory here; `add` may at any of its allocations. -/
inductive Step (ctx : HnswContext) : HnswRun → HnswRun → Prop where
  | reserve {s : SharedGraph} {count : Nat} {g : HnswGraph} {visited : Nat → VisitedSet}
      (run : ctx.reserveNodes count s.graph = .ok g) (prepared : ∀ i, g.nodeCount ≤ (visited i).marks.length) :
      Step ctx (idle s) (linking { s with graph := g } (linkPool ctx visited s.graph.nodeCount g.nodeCount))
  | link {s s' : SharedGraph} {pool pool' : Nat → GraphProg Bool}
      (step : (linkDiscipline ctx.params (fun _ => False) none).Step (s, pool) (s', pool')) :
      Step ctx (linking s pool) (linking s' pool')
  | linked {s : SharedGraph} {pool : Nat → GraphProg Bool} {results : Nat → Bool}
    (ended : pool = fun i => .done (results i)) :
      Step ctx (linking s pool) (idle s)
  | add {s : SharedGraph} {visited : VisitedSet} (prepared : s.graph.nodeCount ≤ visited.marks.length) :
      Step ctx (idle s) (adding s.graph.nodeCount s (addPool ctx visited s.graph.nodeCount))
  | insert {id : Nat} {s s' : SharedGraph} {pool pool' : Nat → GraphProg (Option (Result Unit))}
      (step : (linkDiscipline ctx.params (fun _ => True) (some id)).Step (s, pool) (s', pool')) :
      Step ctx (adding id s pool) (adding id s' pool')
  | added {id : Nat} {s : SharedGraph} {pool : Nat → GraphProg (Option (Result Unit))}
      {results : Nat → Option (Result Unit)} (ended : pool = fun i => .done (results i)) :
      Step ctx (adding id s pool) (idle s)

/-- From a created backend, or from one over a loaded graph that passes the validator. -/
inductive Reachable (ctx : HnswContext) : HnswRun → Prop where
  | created {b : HnswBackend} (run : HnswBackend.create ctx.params = .ok b) :
      Reachable ctx (idle { graph := b.graph })
  | loaded {b : HnswBackend} {rows : Nat} (fits : b.Fits ctx.params rows) (small : rows ≤ kMaxVectorsPerCollection)
      (valid : HnswValidator.checkInvariants b.graph = .ok ()) : Reachable ctx (idle { graph := b.graph })
  | step {a b : HnswRun} (before : Reachable ctx a) (step : Step ctx a b) : Reachable ctx b

end HnswRun

/-- Node `v` exists, is on level `l` or above, and its lists on the levels it was linked on have
been written. -/
structure SharedGraph.Names (s : SharedGraph) (l v : Nat) : Prop where
  node : v < s.graph.nodeCount
  high : l ≤ s.graph.level v
  written : ∀ l', l' < s.joined v → s.stored v l' = true

/-- What any reader can find: ids below the count of a list, and the entry point. -/
structure SharedGraph.Readable (s : SharedGraph) : Prop where
  slots : ∀ c l k, s.graph.hasList c l = true → k < s.graph.words c l 0 → s.Names l (s.graph.words c l (1 + k))
  entry : s.graph.entry.valid = true → s.Names s.graph.entry.level s.graph.entry.id

theorem LinkInv.readable {params : HnswParams} {solo : Option Nat} {s : SharedGraph} {γ : LinkGhost}
    (inv : LinkInv params solo s γ) : s.Readable where
  slots := by
    intro c l k listed below
    obtain ⟨known, _, high⟩ := inv.may c l _ (inv.slots c l k (below.trans_le (inv.counts c l listed)))
    exact ⟨inv.inside _ known, high, inv.written _ known⟩
  entry := by
    intro valid
    obtain ⟨known, level⟩ := inv.entry valid
    exact ⟨inv.inside _ known, level.ge, inv.written _ known⟩

namespace HnswRun
variable {ctx : HnswContext}

theorem reserveNodes_reserved {params : HnswParams} {first : Nat} {lost : Nat → Prop} :
    ∀ {count : Nat} {s : SharedGraph} {g : HnswGraph},
    Reserved params first lost s → ctx.reserveNodes count s.graph = .ok g →
    Reserved params first lost { s with graph := g } := by
  intro count
  induction count with
  | zero =>
    intro s g reserved run
    cases run
    exact reserved
  | succ count ih =>
    intro s g reserved run
    rw [HnswContext.reserveNodes] at run
    cases first : ctx.reserveNode s.graph with
    | error e => rw [first] at run; cases run
    | ok next =>
      rw [first] at run
      have more : Reserved params _ lost { s with graph := next } := reserved.addNode first
      exact ih (s := { s with graph := next }) more run

/-- What holds in every reachable state: rest between operations, and in the middle of one that
every thread is safe from here on. -/
def Sound (ctx : HnswContext) : HnswRun → Prop
  | idle s => Resting ctx.params (fun _ => False) s
  | linking s pool => ∃ γ first s₀, LinkInv ctx.params none s γ ∧
      ∀ i, LinkOk ctx.params (fun _ => False) none i (pool i)
        (LinkPost (fun _ => False) (fun _ => False) first s₀ i) s γ
  | adding id s pool => ∃ γ s₀, LinkInv ctx.params (some id) s γ ∧ s₀.graph.nodeCount = id ∧
      Resting ctx.params (fun _ => False) s₀ ∧
      ∀ i, LinkOk ctx.params (fun _ => True) (some id) i (pool i)
        (AddPost ctx (fun _ => True) (fun _ => False) s₀ i) s γ

theorem Sound.readable {run : HnswRun} (sound : Sound ctx run) : run.shared.Readable := by
  cases run with
  | idle s => exact (Resting.inv sound none).readable
  | linking s pool =>
    obtain ⟨γ, _, _, inv, _⟩ := sound
    exact inv.readable
  | adding id s pool =>
    obtain ⟨γ, _, inv, _⟩ := sound
    exact inv.readable

theorem Sound.step {a b : HnswRun} (wide : 1 ≤ ctx.params.efConstruction.toNat) (sound : Sound ctx a)
    (step : Step ctx a b) : Sound ctx b := by
  cases step with
  | @reserve s count g visited run prepared =>
    have rest : Resting ctx.params (fun _ => False) s := sound
    have reserved := reserveNodes_reserved (Reserved.start rest) run
    exact ⟨_, s.graph.nodeCount, { s with graph := g }, reserved.rest.inv none,
      linkPool_ok reserved rfl wide prepared⟩
  | link step =>
    obtain ⟨γ, first, s₀, inv, all⟩ := sound
    obtain ⟨γ', inv', all'⟩ := Discipline.Ok.step inv all step
    exact ⟨γ', first, s₀, inv', all'⟩
  | @linked s pool results ended =>
    obtain ⟨γ, first, s₀, inv, all⟩ := sound
    subst ended
    have each (i : Nat) : LinkPost (fun _ => False) (fun _ => False) first s₀ i (results i) s γ :=
      (all i).finished inv
    have count : s.graph.nodeCount = s₀.graph.nodeCount := by
      rw [HnswGraph.nodeCount, (each 0).levels]
      rfl
    refine (section_rests inv each).congr ?_
    -- nobody may run out of memory, so nothing is lost
    rintro x node
    refine ⟨False.elim, ?_⟩
    rintro (⟨_, gone⟩ | ⟨high, failed⟩)
    · exact gone
    · exact (((each x).new high (node.trans_eq count)).failed failed).1
  | @add s visited prepared =>
    have rest : Resting ctx.params (fun _ => False) s := sound
    exact ⟨_, s, rest.inv _, rfl, rest, addPool_ok rest rfl wide prepared⟩
  | insert step =>
    obtain ⟨γ, s₀, inv, count, rest, all⟩ := sound
    obtain ⟨γ', inv', all'⟩ := Discipline.Ok.step inv all step
    exact ⟨γ', s₀, inv', count, rest, all'⟩
  | @added id s pool results ended =>
    obtain ⟨γ, s₀, inv, count, rest, all⟩ := sound
    subst ended count
    refine (add_rests inv rest fun i => (all i).finished inv).congr ?_
    exact fun x _ => ⟨False.elim, And.right⟩

theorem valid_of_reachable {run : HnswRun} (reach : Reachable ctx run) : ctx.params.Valid := by
  induction reach with
  | created run =>
    obtain ⟨fits, _⟩ := HnswBackend.create_fits run
    exact fits.valid
  | loaded fits _ _ => exact fits.valid
  | step _ _ ih => exact ih

theorem sound_of_fits {b : HnswBackend} {rows : Nat} (fits : b.Fits ctx.params rows)
    (small : rows ≤ kMaxVectorsPerCollection) (valid : HnswValidator.Invariants b.graph) :
    Sound ctx (idle { graph := b.graph }) := by
  exact Resting.of_invariants valid fits.m fits.maxLevel fits.laid (fits.nodes.trans_le small)

theorem Reachable.sound {run : HnswRun} (reach : Reachable ctx run) : Sound ctx run := by
  have params := valid_of_reachable reach
  have wide : 1 ≤ ctx.params.efConstruction.toNat := by
    have minM := params.minM
    have minEf := params.minEfConstruction
    omega
  induction reach with
  | created run =>
    obtain ⟨fits, valid⟩ := HnswBackend.create_fits run
    exact sound_of_fits fits (Nat.zero_le _) valid
  | loaded fits small valid => exact sound_of_fits fits small (HnswValidator.checkInvariants_ok_iff.mp valid)
  | step _ step ih => exact ih.step wide step

/-- Along every run, in whatever order the insertions take their steps: between operations the graph
passes the validator, and at every moment what can be read names nodes of the right levels whose
lists have been written. -/
theorem concurrent_linking_keeps_invariants (ctx : HnswContext) (run : HnswRun) (reach : Reachable ctx run) :
    (∀ s, run = idle s → HnswValidator.checkInvariants s.graph = .ok ()) ∧ run.shared.Readable := by
  have sound := reach.sound
  refine ⟨?_, sound.readable⟩
  rintro s rfl
  have rest : Resting ctx.params (fun _ => False) s := sound
  exact HnswValidator.checkInvariants_ok_iff.mpr (rest.invariants_iff.mpr fun _ _ => False.elim)

theorem Reachable.runs {s s' : SharedGraph} {pool pool' : Nat → GraphProg Bool}
    (reach : Reachable ctx (linking s pool))
    (runs : (linkDiscipline ctx.params (fun _ => False) none).Runs (s, pool) (s', pool')) :
    Reachable ctx (linking s' pool') := by
  generalize target : (s', pool') = b at runs
  induction runs generalizing s' pool' with
  | refl =>
    cases target
    exact reach
  | @tail b c _ step ih =>
    subst target
    obtain ⟨sb, poolB⟩ := b
    exact (ih rfl).step (.link step)

/-- A backend with the default parameters over rows that are all alike. -/
def plain : HnswContext := { params := {}, distance := fun _ _ => ⟨0⟩ }

theorem plain_valid : plain.params.Valid := HnswParams.validate_ok_iff.mp rfl

/-- Three threads that link a reserved node each, in the order of the schedule. -/
def scheduled (schedule : List Nat) (g : HnswGraph) : SharedGraph × (Nat → GraphProg Bool) :=
  Prog.runSchedule (SharedGraph.answer true) schedule
    ({ graph := g }, linkPool plain (fun _ => { marks := [0, 0, 0] }) 0 3)

theorem scheduled_runs (schedule : List Nat) (g : HnswGraph) :
    (linkDiscipline plain.params (fun _ => False) none).Runs
    ({ graph := g }, linkPool plain (fun _ => { marks := [0, 0, 0] }) 0 3) (scheduled schedule g) :=
  (Discipline.runs_of_schedule id (fun _ => True) (fun _ o s r s' _ answered =>
    ⟨linkDiscipline_answer (fun lacks => Bool.noConfusion lacks) o s r s' answered,
      trivial⟩) schedule _ _ trivial).1

theorem concurrent_linking_keeps_invariants_plain : ∃ s : SharedGraph,
    (List.range 3).map (s.graph.links · 0) = [[1, 2], [0, 2], [0, 1]] ∧ Reachable plain (idle s) ∧
    HnswValidator.checkInvariants s.graph = .ok () ∧ s.Readable := by
  -- one operation of each thread in turn
  let turns : List Nat := (List.replicate 100 [0, 1, 2]).flatten
  have evaluated : (plain.reserveNodes 3 (HnswGraph.blank 16 16)).toOption.any (fun g => g.nodeCount == 3 &&
      (List.range 3).map (fun i => ((scheduled turns g).2 i).result?) == List.replicate 3 (some true) &&
      (List.range 3).map ((scheduled turns g).1.graph.links · 0) ==
      [[1, 2], [0, 2], [0, 1]]) = true := by decide +kernel
  clear_value turns
  obtain ⟨g, run, values⟩ := (Option.any_eq_true _ _).mp evaluated
  simp only [Bool.and_eq_true, beq_iff_eq] at values
  obtain ⟨⟨count, results⟩, links⟩ := values
  have reserves : plain.reserveNodes 3 (HnswGraph.blank 16 16) = .ok g := by
    cases known : plain.reserveNodes 3 (HnswGraph.blank 16 16) with
    | error e =>
      rw [known] at run
      cases run
    | ok g' =>
      rw [known] at run
      cases run
      rfl
  have created : Reachable plain (idle { graph := HnswGraph.blank 16 16 }) :=
    .created (HnswBackend.create_eq plain_valid)
  have reserved : Reachable plain (linking { graph := g }
      (linkPool plain (fun _ => { marks := [0, 0, 0] }) 0 3)) := by
    rw [← count]
    exact created.step (.reserve reserves fun _ => count.le)
  have ended : (scheduled turns g).2 = fun _ => .done true := by
    funext i
    by_cases mine : i < 3
    · have result : ((List.range 3).map fun i => ((scheduled turns g).2 i).result?)[i]? = some (some true) := by
        rw [results, List.getElem?_replicate, if_pos mine]
      rw [List.getElem?_map, List.getElem?_range mine] at result
      exact Prog.eq_done_of_result? (Option.some.inj result)
    · exact Prog.runSchedule_done (if_neg fun inside => mine inside.2)
  have idle := (reserved.runs (scheduled_runs turns g)).step (.linked ended)
  obtain ⟨valid, readable⟩ := concurrent_linking_keeps_invariants plain _ idle
  exact ⟨_, links, idle, valid _ rfl, readable⟩

end HnswRun
end VectorForge
