import VectorForge.Collection.Queries

/-! With enough memory, what an operation returns and leaves behind depends on the content of the
collection alone: not on the chunks and words it is kept in, on old scratch memory, on the clock
or on the concurrency mode. -/

namespace VectorForge
open Effect
open IndexReader (SameState)

namespace CollectionState
variable {k : KernelTable} {lost lost' : Nat → Prop} {upsert : Bool} {s s' t t' u : CollectionState}
  {x : ExternalId × List F32} {xs ys : List (ExternalId × List F32)} {r r' : Option Status}

/-- Two sound states with the same content. -/
structure Alike (s t : CollectionState) : Prop where
  same : SameState s t
  left : ∃ lost, s.Sound lost
  right : ∃ lost, t.Sound lost
  creator : s.creator.length ≤ Format.kMaxCreatorLength

/-- The graphs have the same entry point, even where there is none. -/
def SameEntry (s t : CollectionState) : Prop := ∀ b c, s.backend = .hnsw b → t.backend = .hnsw c →
    b.graph.entry = c.graph.entry

theorem SameEntry.of_backends {u : CollectionState} (entry : SameEntry s t) (left : s'.backend = s.backend)
    (right : u.backend = t.backend) : SameEntry s' u :=
  fun b c kind kind' => entry b c (left.symm.trans kind) (right.symm.trans kind')

/-- Once a row has been linked, there is an entry point. -/
theorem RowAdded.sameEntry (added : RowAdded k lost upsert s x.1 x.2 t) (sound : s.Sound lost) {u : CollectionState}
    (same : SameState u t) : SameEntry u t := by
  intro b c kind kind'
  obtain ⟨_, _, _, _, _, inserted⟩ := added.inserted
  have size : t.vectors.size = s.vectors.size + 1 := by
    rw [← VectorStore.length_rows, inserted.rows, List.length_append, VectorStore.length_rows]
    rfl
  have nodes : c.graph.nodeCount = t.vectors.size := (added.sound.fits kind').2.nodes
  have kept : ¬lost s.vectors.size := fun gone => Nat.lt_irrefl _ (sound.bounded _ gone)
  obtain ⟨valid, _⟩ := (added.sound.rests c kind').reach s.vectors.size
    (show s.vectors.size < c.graph.nodeCount by omega) kept
  have backends := same.backend
  rw [kind, kind'] at backends
  exact backends.2.2.entry valid

/-- Rows added one after the other until one is refused. -/
inductive AddsRows (k : KernelTable) (lost : Nat → Prop) (upsert : Bool) :
    CollectionState → List (ExternalId × List F32) → Option Status → CollectionState → Prop
  | nil {s t : CollectionState} (kept : Kept s t) : AddsRows k lost upsert s [] none t
  | refused {s t : CollectionState} {x : ExternalId × List F32} {xs : List (ExternalId × List F32)} {e : Status}
      (refusal : s.keyRefusal x.1 upsert = some e) (kept : Kept s t) : AddsRows k lost upsert s (x :: xs) (some e) t
  | cons {s t u : CollectionState} {x : ExternalId × List F32}
      {xs : List (ExternalId × List F32)} {r : Option Status}
      (added : RowAdded k lost upsert s x.1 x.2 t) (rest : AddsRows k lost upsert t xs r u) :
      AddsRows k lost upsert s (x :: xs) r u

theorem RowsAdded.adds (added : RowsAdded k lost upsert s xs t) : AddsRows k lost upsert s xs none t := by
  induction added with
  | nil kept => exact .nil kept
  | cons one _ ih => exact .cons one ih

theorem RowsAdded.adds_until (added : RowsAdded k lost upsert s xs t) (sound : s.Sound lost)
    (coupled : t.Coupled) {e : Status} (refusal : t.keyRefusal x.1 upsert = some e) (kept : Kept t u) :
    AddsRows k lost upsert s (xs ++ x :: ys) (some e) u := by
  induction added with
  | nil before =>
    exact .refused ((before.keyRefusal sound.toCoupled coupled).symm.trans refusal) (before.trans kept)
  | cons one _ ih => exact .cons one (ih one.sound coupled refusal kept)

theorem RowAdded.creator (added : RowAdded k lost upsert s x.1 x.2 t) : t.creator = s.creator := by
  obtain ⟨_, _, _, _, _, inserted⟩ := added.inserted
  exact inserted.creator

theorem AddsRows.creator (adds : AddsRows k lost upsert s xs r t) : t.creator = s.creator := by
  induction adds with
  | nil kept => exact kept.creator
  | refused _ kept => exact kept.creator
  | cons added _ ih => exact ih.trans added.creator

/-- The same rows on the same content: the same of them are added, and the same one is refused. -/
theorem AddsRows.same (first : AddsRows k lost upsert s xs r t) (second : AddsRows k lost' upsert s' xs r' t')
    (start : SameState s s') (sound : s.Sound lost) (sound' : s'.Sound lost') : r = r' ∧ SameState t t' := by
  induction first generalizing s' t' with
  | nil kept =>
    cases second with
    | nil kept' => exact ⟨rfl, ((SameState.of_kept kept).trans start).trans (SameState.of_kept kept').symm⟩
  | refused refusal kept =>
    rw [start.keyRefusal sound.toCoupled sound'.toCoupled] at refusal
    cases second with
    | refused refusal' kept' =>
      rw [refusal] at refusal'
      cases refusal'
      exact ⟨rfl, ((SameState.of_kept kept).trans start).trans (SameState.of_kept kept').symm⟩
    | cons one _ =>
      rw [one.allowed] at refusal
      cases refusal
  | cons one _ ih =>
    cases second with
    | refused refusal' _ =>
      rw [← start.keyRefusal sound.toCoupled sound'.toCoupled, one.allowed] at refusal'
      cases refusal'
    | cons one' rest => exact ih rest (start.rowAdded sound sound' one one') one.sound one'.sound

theorem AddsRows.sameEntry (first : AddsRows k lost upsert s xs r t) (second : AddsRows k lost' upsert s' xs r' t')
    (start : SameState s s')
    (sound : s.Sound lost) (sound' : s'.Sound lost') (entry : SameEntry s s') : SameEntry t t' := by
  induction first generalizing s' t' with
  | nil kept =>
    cases second with
    | nil kept' => exact entry.of_backends kept.backend kept'.backend
  | refused refusal kept =>
    cases second with
    | refused _ kept' => exact entry.of_backends kept.backend kept'.backend
    | cons one _ =>
      rw [start.keyRefusal sound.toCoupled sound'.toCoupled, one.allowed] at refusal
      cases refusal
  | cons one _ ih =>
    cases second with
    | refused refusal' _ =>
      rw [← start.keyRefusal sound.toCoupled sound'.toCoupled, one.allowed] at refusal'
      cases refusal'
    | cons one' rest =>
      have same := start.rowAdded sound sound' one one'
      exact ih rest same one.sound one'.sound (one'.sameEntry sound' same)

end CollectionState

namespace Collection
open Op CollectionState
variable {k : KernelTable} {α β : Type} {s t : CollectionState} {lost : Nat → Prop} {w v : World}
  {refusal : Option Status}

/-- In an environment with enough memory an operation is decided by its checks. -/
theorem decided {p : Op α} {post : α → Session → Prop}
    (ends : Ends p ⟨s, w⟩ post (Untouched w refusal s)) (ample : w.Ample) :
    (∃ a τ, p ⟨s, w⟩ = (.ok a, τ) ∧ post a τ) ∨
      ∃ e τ, refusal = some e ∧ p ⟨s, w⟩ = (.error (.status e), τ) ∧ Kept s τ.state ∧ τ.state.Coupled := by
  cases run : p ⟨s, w⟩ with
  | mk result τ =>
    cases result with
    | ok a => exact .inl ⟨a, τ, rfl, ends.1 a τ run⟩
    | error e =>
      have untouched := ends.2 e τ run
      rcases untouched.reason with ⟨_, lacks⟩ | ⟨status, rfl, refused⟩
      · exact absurd ample lacks
      · exact .inr ⟨status, τ, refused, rfl, untouched.kept, untouched.coupled⟩

/-- Both operations end with the same value or status, on states that are alike. -/
def Agree (p q : Op α) (s t : CollectionState) (w v : World) : Prop :=
  ∃ r σ τ, p ⟨s, w⟩ = (r, σ) ∧ q ⟨t, v⟩ = (r, τ) ∧
    (Alike σ.state τ.state ∧ (SameEntry s t → SameEntry σ.state τ.state)) ∧
    ((∃ a, r = .ok a) ∨ ∃ e, r = .error (.status e))

theorem Agree.map {p q : Op α} {f : α → β} (agree : Agree p q s t w v) :
    Agree (p >>= fun a => pure (f a)) (q >>= fun a => pure (f a)) s t w v := by
  obtain ⟨r, σ, τ, left, right, alike, ⟨a, rfl⟩ | ⟨e, rfl⟩⟩ := agree
  · exact ⟨.ok (f a), σ, τ, bind_of_ok left, bind_of_ok right, alike, .inl ⟨_, rfl⟩⟩
  · exact ⟨.error (.status e), σ, τ, bind_of_error left, bind_of_error right, alike, .inr ⟨e, rfl⟩⟩

theorem Agree.refused {p q : Op α} {e : Status} {σ τ : Session} (alike : Alike s t)
    (left : p ⟨s, w⟩ = (.error (.status e), σ))
    (right : q ⟨t, v⟩ = (.error (.status e), τ)) (kept : Kept s σ.state) (coupled : σ.state.Coupled)
    (kept' : Kept t τ.state) (coupled' : τ.state.Coupled) : Agree p q s t w v := by
  obtain ⟨lost, sound⟩ := alike.left
  obtain ⟨lost', sound'⟩ := alike.right
  refine ⟨.error (.status e), σ, τ, left, right,
    ⟨⟨?_, ⟨lost, kept.sound sound coupled⟩, ⟨lost', kept'.sound sound' coupled'⟩, ?_⟩,
    fun entry => entry.of_backends kept.backend kept'.backend⟩, .inr ⟨e, rfl⟩⟩
  · exact ((SameState.of_kept kept).trans alike.same).trans (SameState.of_kept kept').symm
  · rw [kept.creator]
    exact alike.creator

theorem storedVector_congr (same : SameState s t) (vector : List F32) :
    storedVector k s.config vector = storedVector k t.config vector := by
  rw [storedVector, storedVector, same.config]
  rfl

/-- Two operations that are decided by the same checks. -/
theorem agree_of {p q : Op α} {post post' : α → Session → Prop} {refusal' : Option Status}
    (alike : Alike s t) (ample : w.Ample)
    (ample' : v.Ample) (checks : refusal' = refusal) (ends : Ends p ⟨s, w⟩ post (Untouched w refusal s))
    (ends' : Ends q ⟨t, v⟩ post' (Untouched v refusal' t)) (allowed : ∀ a σ, post a σ → refusal = none)
    (allowed' : ∀ a τ, post' a τ → refusal' = none)
    (values : ∀ a σ b τ, post a σ → post' b τ → a = b ∧ Alike σ.state τ.state ∧
      (SameEntry s t → SameEntry σ.state τ.state)) :
    Agree p q s t w v := by
  rcases decided ends ample with ⟨a, σ, left, holds⟩ | ⟨e, σ, refused, left, kept, coupled⟩
  · rcases decided ends' ample' with ⟨b, τ, right, holds'⟩ | ⟨e, τ, refused, _⟩
    · obtain ⟨rfl, after⟩ := values a σ b τ holds holds'
      exact ⟨_, σ, τ, left, right, after, .inl ⟨a, rfl⟩⟩
    · rw [checks, allowed a σ holds] at refused
      cases refused
  · rcases decided ends' ample' with ⟨b, τ, _, holds'⟩ | ⟨e', τ, refused', right, kept', coupled'⟩
    · rw [← checks, allowed' b τ holds'] at refused
      cases refused
    · rw [checks, refused] at refused'
      cases refused'
      exact .refused alike left right kept coupled kept' coupled'

section Mutations

theorem add_agree {id : ExternalId} {vector : List F32} {upsert : Bool} (alike : Alike s t) (ample : w.Ample)
    (ample' : v.Ample) : Agree (add k id vector upsert) (add k id vector upsert) s t w v := by
  obtain ⟨lost, sound⟩ := alike.left
  obtain ⟨lost', sound'⟩ := alike.right
  have refusal : addRefusal k t id vector upsert = addRefusal k s id vector upsert := by
    rw [addRefusal, addRefusal, storedVector_congr alike.same,
      alike.same.keyRefusal sound.toCoupled sound'.toCoupled]
  refine agree_of alike ample ample' refusal (add_ends sound) (add_ends sound') (fun _ _ holds => holds.2.1)
    (fun _ _ holds => holds.2.1) ?_
  rintro _ σ _ τ ⟨_, _, row, stored, added⟩ ⟨_, _, row', stored', added'⟩
  rw [storedVector_congr alike.same, stored'] at stored
  cases stored
  have creator : σ.state.creator = s.creator := RowAdded.creator (x := (id, _)) added
  have same := alike.same.rowAdded sound sound' added added'
  exact ⟨rfl, ⟨same, ⟨lost, added.sound⟩, ⟨lost', added'.sound⟩, creator ▸ alike.creator⟩,
    fun _ => RowAdded.sameEntry (x := (id, _)) added' sound' same⟩

/-- With enough memory `add` succeeds unless its arguments are refused. -/
theorem add_returns {id : ExternalId} {vector : List F32} {upsert : Bool} (sound : s.Sound lost) (ample : w.Ample)
    (allowed : addRefusal k s id vector upsert = none) : ∃ τ, add k id vector upsert ⟨s, w⟩ = (.ok (), τ) ∧
      ∃ row, storedVector k s.config vector = .ok row ∧ RowAdded k lost upsert s id row τ.state := by
  rcases decided (add_ends sound) ample with ⟨_, τ, run, _, _, added⟩ | ⟨e, _, refused, _⟩
  · exact ⟨τ, run, added⟩
  · rw [allowed] at refused
    cases refused

theorem remove_agree {id : ExternalId} (alike : Alike s t) (ample : w.Ample) (ample' : v.Ample) :
    Agree (remove id) (remove id) s t w v := by
  obtain ⟨lost, sound⟩ := alike.left
  obtain ⟨lost', sound'⟩ := alike.right
  have refusal : removeRefusal t id = removeRefusal s id := by rw [removeRefusal, removeRefusal, alike.same.ids]
  refine agree_of alike ample ample' refusal (remove_ends sound) (remove_ends sound') (fun _ _ holds => holds.2.1)
    (fun _ _ holds => holds.2.1) ?_
  rintro _ σ _ τ ⟨_, _, removed, held⟩ ⟨_, _, removed', held'⟩
  refine ⟨rfl, ⟨?_, ⟨lost, held⟩, ⟨lost', held'⟩, by rw [removed.frame]; exact alike.creator⟩,
    fun entry => entry.of_backends (by rw [removed.frame]) (by rw [removed'.frame])⟩
  obtain ⟨row, erased, marks, count⟩ := removed.erased
  obtain ⟨row', erased', marks', count'⟩ := removed'.erased
  rw [alike.same.ids, erased'] at erased
  obtain ⟨ids, rfl⟩ := Prod.mk.inj (Except.ok.inj erased)
  have same := alike.same
  rw [removed.frame, removed'.frame]
  exact { same with
    ids := ids.symm
    marks := fun i => by rw [marks, marks', same.marks]
    count := by rw [count, count', same.count] }

section Batch
variable (ids : List ExternalId) (rows : List F32) (upsert : Bool)

theorem batchData_congr (same : SameState s t) : batchData k s.config ids rows = batchData k t.config ids rows := by
  rw [batchData, batchData, same.config]
  rfl

theorem batchRefusal_congr (k : KernelTable) (same : SameState s t) (coupled : s.Coupled) (coupled' : t.Coupled) :
    batchRefusal k s ids rows upsert = batchRefusal k t ids rows upsert := by
  have dim : s.config.dim = t.config.dim := by rw [same.config]
  have admitted : admission s ids upsert = admission t ids upsert := by
    rw [admission, admission, same.ids, same.size, coupled.limit, coupled'.limit]
  rw [batchRefusal, batchRefusal, batchData_congr ids rows same, dim, admitted]

theorem between_split {b : Batch} {j n : Nat} (inside : j < n) :
    b.between 0 n = b.between 0 j ++ b.entry j :: b.between (j + 1) n := by
  rw [← Batch.between_append (Nat.zero_le j) inside.le, ← Batch.between_append (Nat.le_succ j) inside,
    Batch.between_succ]
  rfl

/-- How `add_batch` ends when its rows are inserted in order and there is enough memory. -/
theorem addBatch_decided (k : KernelTable) {pool : Option ThreadPool} (sound : s.Sound lost)
    (order : ¬s.config.Sectioned ∨ pool = none) (ample : w.Ample) :
    (∃ e τ, batchRefusal k s ids rows upsert = some e ∧
      addBatch k ids rows upsert pool ⟨s, w⟩ = (.error (.status e), τ) ∧
      Kept s τ.state ∧ τ.state.Coupled) ∨
    ∃ data r τ, Admitted k s ids rows upsert data ∧ τ.state.Sound lost ∧
      AddsRows k lost upsert s ((batchOf s.config ids data upsert none).between 0 ids.length) r τ.state ∧
      addBatch k ids rows upsert pool ⟨s, w⟩ = (match r with
        | none => .ok ids.length
        | some e => .error (.status e), τ) := by
  have ends := addBatch_rows (k := k) ids rows upsert sound (order.imp_right fun serial => ⟨serial, ample⟩)
  cases run : addBatch k ids rows upsert pool ⟨s, w⟩ with
  | mk result τ =>
    cases result with
    | ok n =>
      obtain ⟨rfl, _, held, data, admitted, added⟩ := ends.1 n τ run
      exact .inr ⟨data, none, τ, admitted, held, added.adds, rfl⟩
    | error e =>
      rcases ends.2 e τ run with untouched | ⟨data, admitted, j, _, inside, t, held, added, untouched⟩
      · rcases untouched.reason with ⟨_, lacks⟩ | ⟨status, rfl, refused⟩
        · exact absurd ample lacks
        · exact .inl ⟨status, τ, refused, rfl, untouched.kept, untouched.coupled⟩
      · rcases untouched.reason with ⟨_, lacks⟩ | ⟨status, rfl, refused⟩
        · exact absurd ample lacks
        · refine .inr ⟨data, some status, τ, admitted, untouched.sound held, ?_, rfl⟩
          rw [between_split (show j < ids.length from inside)]
          exact added.adds_until sound held.toCoupled refused untouched.kept

/-- The rows of a batch are the same for both states, whatever the modes and the pools. -/
theorem addBatch_agree {pool pool' : Option ThreadPool} (alike : Alike s t)
    (order : ¬s.config.Sectioned ∨ pool = none)
    (order' : ¬t.config.Sectioned ∨ pool' = none) (ample : w.Ample) (ample' : v.Ample) :
    Agree (addBatch k ids rows upsert pool) (addBatch k ids rows upsert pool') s t w v := by
  obtain ⟨lost, sound⟩ := alike.left
  obtain ⟨lost', sound'⟩ := alike.right
  have refusal := batchRefusal_congr ids rows upsert k alike.same sound.toCoupled sound'.toCoupled
  rcases addBatch_decided ids rows upsert k sound order ample with
    ⟨e, σ, refused, left, kept, coupled⟩ | ⟨data, r, σ, admitted, held, adds, left⟩
  · rcases addBatch_decided ids rows upsert k sound' order' ample' with
      ⟨e', τ, refused', right, kept', coupled'⟩ | ⟨_, _, _, admitted', _⟩
    · rw [← refusal, refused] at refused'
      cases refused'
      exact .refused alike left right kept coupled kept' coupled'
    · rw [refusal, admitted'.allowed] at refused
      cases refused
  · rcases addBatch_decided ids rows upsert k sound' order' ample' with
      ⟨e', τ, refused', _⟩ | ⟨data', r', τ, admitted', held', adds', right⟩
    · rw [← refusal, admitted.allowed] at refused'
      cases refused'
    · have stored := admitted.stored
      rw [batchData_congr ids rows alike.same, admitted'.stored] at stored
      cases stored
      have dim : batchOf s.config ids data upsert none = batchOf t.config ids data upsert none := by
        rw [batchOf, batchOf, alike.same.config]
      rw [dim] at adds
      obtain ⟨rfl, after⟩ := adds.same adds' alike.same sound sound'
      refine ⟨_, σ, τ, left, right, ⟨⟨after, ⟨lost, held⟩, ⟨lost', held'⟩, adds.creator ▸ alike.creator⟩,
        adds.sameEntry adds' alike.same sound sound'⟩, ?_⟩
      cases r with
      | none => exact .inl ⟨_, rfl⟩
      | some e => exact .inr ⟨e, rfl⟩

end Batch

theorem liveRows_congr (same : SameState s t) : liveRows s = liveRows t := by
  rw [liveRows, liveRows, same.size]
  simp only [same.marks, same.ids]
  refine List.map_congr_left fun r member => ?_
  have inside : r < t.vectors.size := List.mem_range.mp (List.mem_filter.mp member).1
  rw [row_eq_getD s (same.size ▸ inside), row_eq_getD t inside, same.rows]

theorem Emptied.same {a b : CollectionState} (left : Emptied s a) (right : Emptied t b)
    (same : SameState s t) : SameState a b where
  config := by rw [left.config, right.config, ← same.config]
  rows := left.rows.trans right.rows.symm
  ids := left.ids.trans right.ids.symm
  marks := fun i => by rw [left.deleted, right.deleted]
  count := by rw [left.deleted, right.deleted]
  backend := by
    have one := left.backend
    have config : attachBackend s.config = attachBackend t.config := by
      rw [attachBackend, attachBackend, same.config]
    rw [config, right.backend] at one
    rw [Except.ok.inj one]
    exact .refl _
  creator := left.creator.trans (same.creator.trans right.creator.symm)
  createdUnixMs := left.createdUnixMs.trans (same.createdUnixMs.trans right.createdUnixMs.symm)

theorem Emptied.sameEntry {a b : CollectionState} (left : Emptied s a) (right : Emptied t b)
    (same : SameState s t) : SameEntry a b := by
  intro c d kind kind'
  have one := left.backend
  have config : attachBackend s.config = attachBackend t.config := by
    rw [attachBackend, attachBackend, same.config]
  rw [config, right.backend, kind, kind'] at one
  rw [IndexBackend.hnsw.inj (Except.ok.inj one)]

/-- How `compact` ends when there is enough memory. -/
theorem compact_decided (sound : s.Sound lost) (ample : w.Ample) :
    (s.deleted.count = 0 ∧ ∃ τ, compact k ⟨s, w⟩ =
      (.ok ⟨s.vectors.size, s.deleted.count, s.vectors.size⟩, τ) ∧ τ.state = s) ∨
    s.deleted.count ≠ 0 ∧ ∃ start r u τ, Emptied s start ∧
    AddsRows k (fun _ => False) false start (liveRows s) r u ∧
      ((r = none ∧ compact k ⟨s, w⟩ = (.ok ⟨s.vectors.size, s.deleted.count, u.vectors.size⟩, τ) ∧ τ.state = u ∧
        u.Sound fun _ => False) ∨
        ∃ e, r = some e ∧ compact k ⟨s, w⟩ = (.error (.status e), τ) ∧ τ.state = s) := by
  have ends := compact_ends (k := k) (w := w) sound
  cases run : compact k ⟨s, w⟩ with
  | mk result τ =>
    cases result with
    | ok stats =>
      obtain ⟨_, ⟨none, same, rfl⟩ | ⟨some, rfl, held, start, emptied, added⟩⟩ := ends.1 stats τ run
      · exact .inl ⟨none, τ, rfl, same⟩
      · exact .inr ⟨some, start, none, τ.state, τ, emptied, added.adds, .inl ⟨rfl, rfl, rfl, held⟩⟩
    | error e =>
      obtain ⟨same, some, _, ⟨_, lacks⟩ | ⟨start, _, emptied, _, done, x, rest, u, split, held, added, reason⟩⟩ :=
        ends.2 e τ run
      · exact absurd ample lacks
      · rcases reason with ⟨_, lacks⟩ | ⟨status, rfl, refused⟩
        · exact absurd ample lacks
        · refine .inr ⟨some, start, Option.some status, u, τ, emptied, ?_, .inr ⟨status, rfl, rfl, same⟩⟩
          rw [split]
          exact added.adds_until emptied.sound held.toCoupled refused (.refl u)

theorem compact_agree (alike : Alike s t) (ample : w.Ample) (ample' : v.Ample) :
    Agree (compact k) (compact k) s t w v := by
  obtain ⟨lost, sound⟩ := alike.left
  obtain ⟨lost', sound'⟩ := alike.right
  have same := alike.same
  rcases compact_decided (k := k) sound ample with
    ⟨none, σ, left, atS⟩ | ⟨some, start, r, u, σ, emptied, adds, outcome⟩
  · rcases compact_decided (k := k) sound' ample' with ⟨_, τ, right, atT⟩ | ⟨some, _⟩
    · rw [← same.size, ← same.count] at right
      exact ⟨_, σ, τ, left, right, ⟨atS ▸ atT ▸ alike, fun entry => atS ▸ atT ▸ entry⟩, .inl ⟨_, rfl⟩⟩
    · exact absurd (same.count.symm.trans none) some
  · rcases compact_decided (k := k) sound' ample' with ⟨none, _⟩ | ⟨_, start', r', u', τ, emptied', adds', outcome'⟩
    · exact absurd (same.count.trans none) some
    · rw [liveRows_congr same] at adds
      obtain ⟨rfl, after⟩ := adds.same adds' (emptied.same emptied' same) emptied.sound emptied'.sound
      rcases outcome with ⟨rfl, left, atU, held⟩ | ⟨e, rfl, left, atS⟩
      · rcases outcome' with ⟨_, right, atU', held'⟩ | ⟨_, refused, _⟩
        · rw [← same.size, ← same.count, ← after.size] at right
          refine ⟨_, σ, τ, left, right, ?_, .inl ⟨_, rfl⟩⟩
          rw [atU, atU']
          refine ⟨⟨after, ⟨_, held⟩, ⟨_, held'⟩, (adds.creator.trans emptied.creator) ▸ alike.creator⟩, fun _ => ?_⟩
          exact adds.sameEntry adds' (emptied.same emptied' same) emptied.sound emptied'.sound
            (emptied.sameEntry emptied' same)
        · cases refused
      · rcases outcome' with ⟨refused, _⟩ | ⟨e', refused, right, atT⟩
        · cases refused
        · cases refused
          exact ⟨_, σ, τ, left, right, ⟨atS ▸ atT ▸ alike, fun entry => atS ▸ atT ▸ entry⟩, .inr ⟨e, rfl⟩⟩

end Mutations
end Collection
end VectorForge
