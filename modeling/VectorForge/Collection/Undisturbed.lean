import VectorForge.Collection.Answers

/-! Runs in which memory never runs out: nothing is ever lost, so what they reach goes through a file. -/

namespace VectorForge
open Effect
open IndexReader (SameState)

namespace Collection
open Op CollectionState
variable {k : KernelTable} {s t u : CollectionState} {b : Batch} {w : World}

/-- A collection and what mutations make of it, none of which runs out of memory. -/
inductive Undisturbed (k : KernelTable) (start : CollectionState) : CollectionState → Prop
  | refl : Undisturbed k start start
  | step {s : CollectionState} {w : World} {c : Command} {result : Except Exit Reply} {τ : Session}
      (before : Undisturbed k start s)
      (ample : w.Ample) (run : c.run k ⟨s, w⟩ = (result, τ)) (ended : result ≠ .error .stuck) :
      Undisturbed k start τ.state

section Components

theorem components_iff : s.ComponentsOk ↔ ∀ row ∈ s.vectors.rows, ∀ x ∈ row, x.acceptable = true := by
  simp only [ComponentsOk, findInvalidComponent_eq_length]

theorem storedVector_acceptable (normalises : k.Normalises) {config : CollectionConfig} {vector row : List F32}
    (run : storedVector k config vector = .ok row) : ∀ x ∈ row, x.acceptable = true := by
  unfold storedVector at run
  cases valid : validateVector vector config.dim.toNat with
  | error e => rw [valid] at run; cases run
  | ok u =>
    rw [valid] at run
    have small := (validateVector_ok valid).2
    change (if config.effectiveNormalize = true then normalizeInplace k vector else pure vector) = .ok row at run
    split at run
    · exact normalises vector row small run
    · cases run
      exact small

theorem Admitted.acceptable {ids : List ExternalId} {rows data : List F32} {upsert : Bool}
    {pool : Option ThreadPool} {i j : Nat}
    (admitted : Admitted k s ids rows upsert data) (normalises : k.Normalises) (coupled : s.Coupled)
    (inside : j ≤ ids.length) :
    ∀ row ∈ ((batchOf s.config ids data upsert pool).between i j).map Prod.snd, ∀ x ∈ row, x.acceptable = true := by
  intro row member
  obtain ⟨entry, listed, rfl⟩ := List.mem_map.mp member
  obtain ⟨n, range, rfl⟩ := List.mem_map.mp listed
  obtain ⟨_, _, _, each⟩ := admitted.batch pool coupled
  have below := List.mem_range'_1.mp range
  exact storedVector_acceptable normalises (each n (by omega))

end Components

/-- What one mutation keeps when there is enough memory. -/
structure Evolved (k : KernelTable) (s t : CollectionState) : Prop where
  sound : t.Sound fun _ => False
  config : t.config = s.config
  creator : t.creator = s.creator
  components : k.Normalises → s.ComponentsOk → t.ComponentsOk

theorem Evolved.of_rows (sound : t.Sound fun _ => False) (config : t.config = s.config)
    (creator : t.creator = s.creator) {more : List (List F32)} (rows : t.vectors.rows = s.vectors.rows ++ more)
    (acceptable : k.Normalises → ∀ row ∈ more, ∀ x ∈ row, x.acceptable = true) : Evolved k s t := by
  refine ⟨sound, config, creator, fun normalises ok => ?_⟩
  rw [components_iff] at ok ⊢
  intro row member
  rw [rows] at member
  rcases List.mem_append.mp member with old | new
  · exact ok row old
  · exact acceptable normalises row new

theorem Evolved.of_kept (kept : Kept s t) (sound : s.Sound fun _ => False) (coupled : t.Coupled) : Evolved k s t :=
  .of_rows (kept.sound sound coupled) kept.config kept.creator (kept.rows.trans (List.append_nil _).symm)
    fun _ _ member => by cases member

theorem Evolved.of_rowsAdded {upsert : Bool} {xs : List (ExternalId × List F32)}
    (added : RowsAdded k (fun _ => False) upsert s xs t) (sound : t.Sound fun _ => False)
    (acceptable : k.Normalises → ∀ row ∈ xs.map Prod.snd, ∀ x ∈ row, x.acceptable = true) : Evolved k s t :=
  .of_rows sound added.config (RowsAdded.creator added) added.rows acceptable

theorem Evolved.trans (first : Evolved k s t) (second : Evolved k t u) : Evolved k s u where
  sound := second.sound
  config := second.config.trans first.config
  creator := second.creator.trans first.creator
  components := fun normalises ok => second.components normalises (first.components normalises ok)

theorem liveRows_acceptable (ok : s.ComponentsOk) : ∀ row ∈ (liveRows s).map Prod.snd, ∀ x ∈ row,
    x.acceptable = true := by
  intro row member
  obtain ⟨entry, listed, rfl⟩ := List.mem_map.mp member
  obtain ⟨r, inside, rfl⟩ := List.mem_map.mp listed
  have below : r < s.vectors.size := List.mem_range.mp (List.mem_filter.mp inside).1
  refine components_iff.mp ok _ (List.mem_iff_getElem?.mpr ⟨r, ?_⟩)
  rw [VectorStore.getElem?_rows, if_pos below]

section Batch
variable {ids : List ExternalId} {rows data : List F32} {upsert : Bool} {pool : Option ThreadPool}

theorem SectionDone.evolved {done count : Nat} {linked : List Bool} (admitted : Admitted k t ids rows upsert data)
    (coupled : t.Coupled) (finished : SectionDone (fun _ => False) (batchOf t.config ids data upsert pool)
      done s count linked u)
    (all : ∀ l ∈ linked, l = true) : Evolved k s u := by
  refine .of_rows (Sound.congr finished.sound fun x => ⟨False.elim, ?_⟩) finished.config
    finished.creator finished.rows
    fun normalises => admitted.acceptable normalises coupled finished.inside
  rintro (⟨_, gone⟩ | ⟨_, failed⟩)
  · exact gone
  · dsimp only at failed
    rw [List.getD_eq_getElem?_getD] at failed
    cases known : linked[x - s.vectors.size]? with
    | none => rw [known] at failed; cases failed
    | some l =>
      rw [known, Option.getD_some, all l (List.mem_of_getElem? known)] at failed
      cases failed

theorem BatchAdded.evolved (admitted : Admitted k s ids rows upsert data) (sound : s.Sound fun _ => False)
    (added : BatchAdded k (fun _ => False) s (batchOf s.config ids data upsert pool) t)
    (held : t.Sound fun _ => False) : Evolved k s t := by
  by_cases kind : s.config.Sectioned
  · exact (added.sectioned kind).2.evolved admitted sound.toCoupled fun l member => List.eq_of_mem_replicate member
  · exact .of_rowsAdded (added.plain kind) held fun normalises =>
      admitted.acceptable normalises sound.toCoupled (Nat.le_refl _)

theorem BatchStopped.evolved {e : Exit} {τ : Session} (admitted : Admitted k s ids rows upsert data)
    (sound : s.Sound fun _ => False)
    (stopped : BatchStopped k (fun _ => False) w s (batchOf s.config ids data upsert pool) e τ) (ample : w.Ample)
    (ended : e ≠ .stuck) : Evolved k s τ.state := by
  cases stopped with
  | plain _ j stopped =>
    obtain ⟨_, inside, u, held, added, untouched⟩ := stopped
    have first : Evolved k s u := .of_rowsAdded added held fun normalises =>
      admitted.acceptable normalises sound.toCoupled inside.le
    exact first.trans (.of_kept untouched.kept held untouched.coupled)
  | sectioned kind exit =>
    rcases exit with untouched | ⟨m, u, w', _, later, linked, last⟩
    · exact .of_kept untouched.kept sound untouched.coupled
    · have first : Evolved k s u := linked.2.evolved admitted sound.toCoupled fun l member =>
        List.eq_of_mem_replicate member
      cases last with
      | untouched untouched => exact first.trans (.of_kept untouched.kept first.sound untouched.coupled)
      | @notLinked σ _ rows _ grown state _ why =>
        cases why with
        | lacked _ fails =>
          have enough : σ.world.memory = [] := grown.later.ample (later.ample ample)
          rw [enough] at fails
          cases fails
        | stuck => exact absurd rfl ended
      | ended _ _ finished all _ =>
        exact first.trans (finished.evolved admitted sound.toCoupled (all (later.ample ample)))

end Batch

/-- One mutation with enough memory. -/
theorem Command.run_evolves (c : Command) (sound : s.Sound fun _ => False) (ample : w.Ample) :
    Ends (c.run k) ⟨s, w⟩ (fun _ τ => Evolved k s τ.state) fun e τ => e ≠ .stuck → Evolved k s τ.state := by
  have unchanged {refusal : Option Status} (e : Exit) (τ : Session)
      (untouched : Untouched w refusal s e τ) (_ : e ≠ .stuck) :
      Evolved k s τ.state := .of_kept untouched.kept sound untouched.coupled
  cases c with
  | add id vector upsert =>
    refine Ends.bind ((add_ends sound).mono ?_ unchanged)
    rintro _ τ ⟨_, _, row, stored, added⟩
    refine Ends.pure (.of_rowsAdded (.single added) added.sound fun normalises => ?_)
    intro other member
    rw [List.mem_singleton.mp member]
    exact storedVector_acceptable normalises stored
  | addBatch ids rows upsert pool =>
    refine Ends.bind ((addBatch_ends sound).mono ?_ ?_)
    · rintro _ τ ⟨_, _, held, data, admitted, added⟩
      exact Ends.pure (added.evolved admitted sound held)
    · rintro e τ (untouched | ⟨data, admitted, stopped⟩) ended
      · exact unchanged e τ untouched ended
      · exact stopped.evolved admitted sound ample ended
  | remove id =>
    refine Ends.bind ((remove_ends sound).mono ?_ unchanged)
    rintro _ τ ⟨_, _, removed, held⟩
    have frame := removed.frame
    have rows : τ.state.vectors.rows = s.vectors.rows ++ [] := by rw [frame, List.append_nil]
    refine Ends.pure (.of_rows held ?_ ?_ rows fun _ _ member => by cases member)
    · rw [frame]
    · rw [frame]
  | compact =>
    refine Ends.bind ((compact_ends sound).mono ?_ ?_)
    · rintro _ τ ⟨_, ⟨_, same, _⟩ | ⟨_, _, held, start, emptied, added⟩⟩
      · exact Ends.pure (.of_kept (same ▸ .refl s) sound (same ▸ sound.toCoupled))
      · refine Ends.pure ⟨held, added.config.trans emptied.config, (RowsAdded.creator added).trans emptied.creator,
          fun _ ok => ?_⟩
        rw [components_iff, added.rows, emptied.rows, List.nil_append]
        exact liveRows_acceptable ok
    · rintro e τ ⟨same, _⟩ _
      exact .of_kept (same ▸ .refl s) sound (same ▸ sound.toCoupled)

theorem Undisturbed.evolved (run : Undisturbed k s t) (sound : s.Sound fun _ => False) : Evolved k s t := by
  induction run with
  | refl => exact .of_kept (.refl s) sound sound.toCoupled
  | @step u w c result τ _ ample run ended ih =>
    obtain ⟨values, exits⟩ := Command.run_evolves (k := k) (w := w) c ih.sound ample
    refine ih.trans ?_
    cases result with
    | ok reply => exact values reply τ run
    | error e => exact exits e τ run fun stuck => ended (by rw [stuck])

/-- Where runs begin. -/
inductive Opened : CollectionState → Prop
  | created {simd : Result Unit} {now : UInt64} {config : CollectionConfig} {s : CollectionState}
      (run : create simd now config = .ok s) : Opened s
  | loaded {simd : Result Unit} {file : List Byte} {options : IndexReader.ReadOptions} {s : CollectionState}
      (resolved : options.verify ≠ .auto) (run : IndexReader.readIndex simd file options = .ok s) : Opened s

theorem Opened.sound (opened : Opened s) : s.Sound fun _ => False := by
  cases opened with
  | created run => exact (create_sound run).1
  | @loaded simd file options _ resolved run =>
    exact RepInv.sound ((IndexReader.readIndex_sat simd file resolved).value run).inv

theorem Undisturbed.reachable (run : Undisturbed k s t) (opened : Opened s) : Reachable k t := by
  induction run with
  | refl =>
    cases opened with
    | created run => exact .created run
    | loaded resolved run => exact .loaded resolved run
  | step _ _ run ended ih => exact .step ih run ended

theorem Sound.repInv (sound : s.Sound fun _ => False) : s.RepInv :=
  { sound.toCoupled with
    graph := fun b kind => HnswValidator.checkInvariants_ok_iff.mpr ((sound.rests b kind).invariants_iff.mpr
      fun _ _ => False.elim) }

end Collection
end VectorForge
