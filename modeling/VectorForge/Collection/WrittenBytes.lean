import VectorForge.Collection.Persistence
import VectorForge.Storage.OutputFile

/-! Writing an index to one sink or another. -/

namespace VectorForge

/-- Two kinds of sinks that take the same bytes in the same way. -/
structure SameSinks (σ τ : Type) [ByteSink σ] [ByteSink τ] (R : σ → τ → Prop) : Prop where
  write : ∀ {s t}, R s t → ∀ data, ∃ s' t', ByteSink.write s data = .ok s' ∧
    ByteSink.write t data = .ok t' ∧ R s' t'
  head : ∀ {s t}, R s t → ∀ data : List Byte, data.length < 2 ^ 64 →
    (∃ s' t', ByteSink.writeAt s 0 data = .ok s' ∧ ByteSink.writeAt t 0 data = .ok t' ∧ R s' t') ∨
      ∃ st st', ByteSink.writeAt s 0 data = .error st ∧ ByteSink.writeAt t 0 data = .error st'

/-- Two writers that have been given the same. -/
structure WrittenAlike {σ τ : Type} (R : σ → τ → Prop) (w : BinaryWriter σ) (v : BinaryWriter τ) : Prop where
  sinks : R w.sink v.sink
  status : w.status = none ∧ v.status = none
  position : w.position = v.position
  crc : w.crc = v.crc

namespace WrittenAlike
variable {σ τ : Type} [ByteSink σ] [ByteSink τ] {R : σ → τ → Prop} {w : BinaryWriter σ} {v : BinaryWriter τ}

theorem bytes (same : SameSinks σ τ R) (alike : WrittenAlike R w v) (data : List Byte) :
    WrittenAlike R (w.bytes data) (v.bytes data) := by
  obtain ⟨sinks, ⟨goodW, goodV⟩, position, crc⟩ := alike
  by_cases empty : data = []
  · rw [BinaryWriter.bytes, BinaryWriter.bytes, if_pos (.inr empty), if_pos (.inr empty)]
    exact ⟨sinks, ⟨goodW, goodV⟩, position, crc⟩
  · obtain ⟨s', t', left, right, after⟩ := same.write sinks data
    rw [BinaryWriter.bytes, BinaryWriter.bytes, if_neg (by simp [goodW, empty]),
      if_neg (by simp [goodV, empty]), left, right]
    exact ⟨after, ⟨goodW, goodV⟩, by simp only [position], by simp only [crc]⟩

theorem zeros (same : SameSinks σ τ R) (alike : WrittenAlike R w v) (count : Nat) :
    WrittenAlike R (w.zeros count) (v.zeros count) := by
  induction count using Nat.strong_induction_on generalizing w v with
  | _ count ih =>
    unfold BinaryWriter.zeros
    by_cases none : count = 0
    · rw [if_pos (.inl none), if_pos (.inl none)]
      exact alike
    · rw [if_neg (by simp [none, alike.status.1]), if_neg (by simp [none, alike.status.2])]
      refine ih _ ?_ (alike.bytes same _)
      simp only [BinaryWriter.kBlock]
      omega

omit [ByteSink σ] [ByteSink τ] in
theorem beginCrc (alike : WrittenAlike R w v) : WrittenAlike R w.beginCrc v.beginCrc :=
  ⟨alike.sinks, alike.status, alike.position, rfl⟩

theorem array (same : SameSinks σ τ R) (alike : WrittenAlike R w v) (width : Nat) (values : List Nat) :
    WrittenAlike R (w.array width values) (v.array width values) := alike.bytes same _

omit [ByteSink σ] [ByteSink τ] in
theorem foldl {α : Type} {f : BinaryWriter σ → α → BinaryWriter σ} {g : BinaryWriter τ → α → BinaryWriter τ}
    (alike : WrittenAlike R w v) (step : ∀ {w v}, WrittenAlike R w v →
      ∀ a, WrittenAlike R (f w a) (g v a)) (l : List α) :
    WrittenAlike R (l.foldl f w) (l.foldl g v) := by
  induction l generalizing w v with
  | nil => exact alike
  | cons a rest ih => exact ih (step alike a)

theorem encodeSectionEntry (same : SameSinks σ τ R) (alike : WrittenAlike R w v) (e : Format.SectionEntry) :
    WrittenAlike R (Format.encodeSectionEntry w e) (Format.encodeSectionEntry v e) :=
  (((((alike.bytes same _).bytes same _).bytes same _).bytes same _).bytes same _).bytes same _

theorem encodeMetadata (same : SameSinks σ τ R) (alike : WrittenAlike R w v) (m : Format.Metadata) :
    WrittenAlike R (Format.encodeMetadata w m) (Format.encodeMetadata v m) := by
  have first := ((((alike.bytes same (leBytes 4 m.dim.toNat)).bytes same (leBytes 1 m.metric.toNat)).bytes same
    (leBytes 1 m.indexType.toNat)).bytes same (leBytes 1 m.normalize.toNat)).bytes same (leBytes 1 0)
  have second :=
    (((((first.bytes same (leBytes 8 m.nodeCount.toNat)).bytes same (leBytes 8 m.liveCount.toNat)).bytes same
    (leBytes 4 m.m.toNat)).bytes same (leBytes 4
    m.m0.toNat)).bytes same (leBytes 4 m.efConstruction.toNat)).bytes same
    (leBytes 4 m.efSearch.toNat)
  have third :=
    (((((second.bytes same (leBytes 1 m.maxLevelCap.toNat)).bytes same (leBytes 1 m.maxLevel.toNat)).bytes same
    (leBytes 2 0)).bytes same (leBytes 4 m.entryPoint.toNat)).bytes same
    (leBytes 8 m.seed.toNat)).bytes same (leBytes 8 0)
  exact ((third.bytes same _).bytes same _).bytes same _

theorem writeL0Links (same : SameSinks σ τ R) (alike : WrittenAlike R w v) (g : HnswGraph) :
    WrittenAlike R (HnswIo.writeL0Links w g) (HnswIo.writeL0Links v g) := by
  have step : ∀ {w v}, WrittenAlike R w v → ∀ i, WrittenAlike R (HnswIo.writeList w (g.links i 0) (g.capacity 0))
      (HnswIo.writeList v (g.links i 0) (g.capacity 0)) := fun alike _ => alike.array same _ _
  exact alike.foldl step _

theorem writeUpperIndex (same : SameSinks σ τ R) (alike : WrittenAlike R w v) (g : HnswGraph) :
    WrittenAlike R (HnswIo.writeUpperIndex w g) (HnswIo.writeUpperIndex v g) := by
  have step : ∀ {w v}, WrittenAlike R w v → ∀ offset, WrittenAlike R (w.bytes (leBytes 8 offset))
      (v.bytes (leBytes 8 offset)) := fun alike _ => alike.bytes same _
  exact alike.foldl step _

theorem writeUpperLinks (same : SameSinks σ τ R) (alike : WrittenAlike R w v) (g : HnswGraph) :
    WrittenAlike R (HnswIo.writeUpperLinks w g) (HnswIo.writeUpperLinks v g) := by
  have level : ∀ i {w v}, WrittenAlike R w v →
      ∀ k, WrittenAlike R (HnswIo.writeList w (g.links i (k + 1)) (g.capacity (k + 1)))
      (HnswIo.writeList v (g.links i (k + 1)) (g.capacity (k + 1))) := fun i _ _ alike k => alike.array same _ _
  have node : ∀ {w v}, WrittenAlike R w v → ∀ i,
      WrittenAlike R ((List.range (g.level i)).foldl
        (fun w k => HnswIo.writeList w (g.links i (k + 1)) (g.capacity (k + 1))) w)
        ((List.range (g.level i)).foldl (fun v k => HnswIo.writeList v (g.links i (k + 1))
          (g.capacity (k + 1))) v) :=
    fun alike i => alike.foldl (level i) _
  exact alike.foldl node _

theorem writeVectors (same : SameSinks σ τ R) (alike : WrittenAlike R w v) (s : CollectionState) :
    WrittenAlike R (IndexWriter.writeVectors s w) (IndexWriter.writeVectors s v) := by
  have chunk : ∀ {w v}, WrittenAlike R w v → ∀ c,
      WrittenAlike R (w.array 4
        (((s.vectors.chunkData c).take (s.vectors.rowsInChunk c * s.config.dim.toNat)).map (·.bits.toNat)))
        (v.array 4 (((s.vectors.chunkData c).take (s.vectors.rowsInChunk c * s.config.dim.toNat)).map
          (·.bits.toNat))) :=
    fun alike _ => alike.array same _ _
  exact alike.foldl chunk _

end WrittenAlike

namespace IndexWriter
open Format
variable {σ τ : Type} [ByteSink σ] [ByteSink τ] {R : σ → τ → Prop}

/-- Two plans for the same section. -/
structure SamePlan (R : σ → τ → Prop) (p : PlannedSection σ) (q : PlannedSection τ) : Prop where
  type : p.type = q.type
  size : p.size = q.size
  alignment : p.alignment = q.alignment
  write : ∀ {w v}, WrittenAlike R w v → WrittenAlike R (p.write w) (q.write v)

theorem plan_same (same : SameSinks σ τ R) (s : CollectionState) : List.Forall₂ (SamePlan R) (plan s) (plan s) := by
  unfold plan
  refine List.rel_append (List.rel_append (List.rel_append ?_ ?_) ?_) ?_
  · exact .cons ⟨rfl, rfl, rfl, fun alike => alike.encodeMetadata same _⟩
      (.cons ⟨rfl, rfl, rfl, fun alike => alike.array same _ _⟩ .nil)
  · split
    · exact .cons ⟨rfl, rfl, rfl, fun alike => alike.array same _ _⟩ .nil
    · exact .nil
  · cases s.backend.graph? with
    | none => exact .nil
    | some g =>
      refine .cons ⟨rfl, rfl, rfl, fun alike => alike.array same _ _⟩ (.cons ⟨rfl, rfl, rfl, fun alike => ?_⟩
        (.cons ⟨rfl, rfl, rfl, fun alike => ?_⟩ (.cons ⟨rfl, rfl, rfl, fun alike => ?_⟩ .nil)))
      · exact alike.writeL0Links same g
      · exact alike.writeUpperIndex same g
      · exact alike.writeUpperLinks same g
  · exact .cons ⟨rfl, rfl, rfl, fun alike => alike.writeVectors same s⟩ .nil

omit [ByteSink σ] [ByteSink τ] in
theorem layout_same {p : List (PlannedSection σ)} {q : List (PlannedSection τ)}
    (plans : List.Forall₂ (SamePlan R) p q) : ∀ position, layout position p = layout position q := by
  induction plans with
  | nil => exact fun _ => rfl
  | @cons p q _ _ first _ ih =>
    intro position
    rw [layout, layout, first.alignment, first.type, first.size]
    cases aligned position q.alignment with
    | error stop => rfl
    | ok start =>
      rw [Outcome.ok_bind, Outcome.ok_bind, ih]

/-- Two computations that both fail, or both succeed with results that are related. -/
def Together {α β : Type} (good : α → β → Prop) (x : Checked α) (y : Checked β) : Prop :=
  match x, y with
  | .ok a, .ok b => good a b
  | .error _, .error _ => True
  | _, _ => False

theorem Together.bind {α β γ δ : Type} {good : α → β → Prop} {last : γ → δ → Prop} {x : Checked α} {y : Checked β}
    {f : α → Checked γ} {g : β → Checked δ} (first : Together good x y)
    (rest : ∀ a b, good a b → Together last (f a) (g b)) : Together last (x >>= f) (y >>= g) := by
  cases x with
  | error stop =>
    cases y with
    | error _ => exact trivial
    | ok _ => exact first.elim
  | ok a =>
    cases y with
    | error _ => exact first.elim
    | ok b => exact rest a b first

theorem Together.refl {α : Type} (x : Checked α) : Together (· = ·) x x := by
  cases x with
  | error _ => exact trivial
  | ok _ => exact rfl

theorem Together.mono {α β : Type} {good better : α → β → Prop} {x : Checked α} {y : Checked β}
    (both : Together good x y) (mono : ∀ a b, good a b → better a b) : Together better x y := by
  cases x with
  | error _ =>
    cases y with
    | error _ => exact trivial
    | ok _ => exact both.elim
  | ok a =>
    cases y with
    | error _ => exact both.elim
    | ok b => exact mono a b both

theorem writeSections_same (same : SameSinks σ τ R) {p : List (PlannedSection σ)} {q : List (PlannedSection τ)}
    (plans : List.Forall₂ (SamePlan R) p q) (entries : List SectionEntry) {w : BinaryWriter σ} {v : BinaryWriter τ}
    (alike : WrittenAlike R w v) :
    Together (fun a b => WrittenAlike R a.1 b.1 ∧ a.2 = b.2) (writeSections w (p.zip entries))
      (writeSections v (q.zip entries)) := by
  induction plans generalizing entries w v with
  | nil => exact ⟨alike, rfl⟩
  | @cons p q _ _ first _ ih =>
    cases entries with
    | nil => exact ⟨alike, rfl⟩
    | cons e entries =>
      have written := first.write (alike.zeros same (e.offset.toNat - w.position)).beginCrc
      rw [List.zip_cons_cons, List.zip_cons_cons, writeSections, writeSections, ← alike.position,
        written.status.1, written.status.2,
        written.position, written.crc]
      refine Together.bind (Together.refl _) fun _ _ _ => ?_
      refine Together.bind (ih entries written) ?_
      rintro a b ⟨after, rest⟩
      exact ⟨after, by rw [rest]⟩

theorem writeHeader_same (same : SameSinks σ τ R) {s : σ} {t : τ} (sinks : R s t) (h : FileHeader) :
    Together R (Outcome.lift (ByteSink.writeAt s 0 (encodeHeader h)))
      (Outcome.lift (ByteSink.writeAt t 0 (encodeHeader h))) := by
  rcases same.head sinks (encodeHeader h) (by rw [length_encodeHeader]; decide) with
    ⟨s', t', left, right, after⟩ | ⟨st, st', left, right⟩
  · rw [left, right]
    exact after
  · rw [left, right]
    trivial

/-- An index is written to either sink, or to neither. -/
theorem writeIndex_same (same : SameSinks σ τ R) (s : CollectionState) {a : σ} {b : τ} (sinks : R a b) :
    Together R (writeIndex s a) (writeIndex s b) := by
  have start : WrittenAlike R (BinaryWriter.zeros { sink := a } kHeaderSize)
      (BinaryWriter.zeros { sink := b } kHeaderSize) :=
    WrittenAlike.zeros same ⟨sinks, ⟨rfl, rfl⟩, rfl, rfl⟩ kHeaderSize
  unfold writeIndex
  refine Together.bind (Together.refl _) fun _ _ _ => ?_
  simp only
  rw [← layout_same (plan_same same s)]
  refine Together.bind (Together.refl _) ?_
  rintro ⟨entries, position⟩ _ rfl
  refine Together.bind (Together.refl _) ?_
  rintro tableOffset _ rfl
  refine Together.bind (writeSections_same same (plan_same same s) entries start) ?_
  rintro ⟨w, entries'⟩ ⟨v, _⟩ ⟨alike, rfl⟩
  have table := (alike.zeros same (tableOffset - w.position)).beginCrc.foldl
    (fun alike e => alike.encodeSectionEntry same e) entries'
  simp only
  rw [← alike.position, table.status.1, table.status.2, table.position, table.crc]
  refine Together.bind (Together.refl _) fun _ _ _ => ?_
  exact writeHeader_same same table.sinks _

end IndexWriter

namespace OutputFile
open IndexWriter

theorem writeAt_of_accepted {f : OutputFile} {offset : Nat} {data : List Byte}
    (accepted : (f.writeAtCall offset data).2 = .ok ()) :
    f.writeAt offset data = .ok (f.writeAtCall offset data).1 := by
  rw [OutputFile.writeAt]
  split
  next file run => rw [run]
  next run =>
    rw [run] at accepted
    cases accepted

theorem writeAt_of_refused {f : OutputFile} {offset : Nat} {data : List Byte} {st : Status}
    (refused : (f.writeAtCall offset data).2 = .error st) : f.writeAt offset data = .error st := by
  rw [OutputFile.writeAt]
  split
  next run =>
    rw [run] at refused
    cases refused
  next run =>
    rw [run] at refused
    rw [Except.error.inj refused]

theorem sameSinks : SameSinks OutputFile MemorySink (fun f s => Mirrors s f) where
  write mirrors data := by
    obtain ⟨f', run, after⟩ := mirrors.write data
    exact ⟨f', _, run, rfl, after⟩
  head mirrors data fits := by
    have both := mirrors.writeAt 0 data (.inl (by omega))
    rcases both with ⟨s', memory, file, after⟩ | ⟨⟨st, st', memory, file⟩, -⟩
    · exact .inl ⟨_, s', writeAt_of_accepted file, memory, after⟩
    · exact .inr ⟨st', st, writeAt_of_refused file, memory⟩

/-- Whatever is written to a new file, the file accepts what a sink in memory accepts and, once closed, holds what
that sink holds; so an index is written to both alike. A vector holds fewer than 2^64 bytes. -/
theorem file_mirrors_memory (path : String) (calls : List Call) (fits : appended calls < 2 ^ 64)
    (state : CollectionState) : (callsOn Call.onFile { path } calls).2 = (callsOn Call.onMemory {} calls).2 ∧
      (callsOn Call.onFile { path } calls).1.close.file = (callsOn Call.onMemory {} calls).1.bytes ∧
      Together (fun f s => f.close.file = s.bytes) (writeIndex state { path : OutputFile })
        (writeIndex state ({} : MemorySink)) := by
  obtain ⟨after, accepted⟩ := Mirrors.calls calls (mirrors_create path) (by simpa using fits)
  refine ⟨accepted.symm, after.close, ?_⟩
  exact (writeIndex_same sameSinks state (mirrors_create path)).mono fun _ _ mirrors => mirrors.close

/-- A write behind the buffer, then an overwrite of its first byte. -/
theorem file_mirrors_memory_overwritten :
    (callsOn Call.onFile { path := "index" } [.write [1, 2], .writeAt 0 [3], .writeAt 2 [4]]).2 =
      [true, true, false] ∧
      (callsOn Call.onFile { path := "index" } [.write [1, 2], .writeAt 0 [3], .writeAt 2 [4]]).1.close.file = [3,
        2] := by
  have both := file_mirrors_memory "index" [.write [1, 2], .writeAt 0 [3], .writeAt 2 [4]] (by decide)
    { config := {}, vectors := { dim := 1, rowsPerChunk := 1, maxRows := 0 }, backend := .flat }
  exact ⟨both.1.trans (by decide), both.2.1.trans (by decide)⟩

end OutputFile
end VectorForge
