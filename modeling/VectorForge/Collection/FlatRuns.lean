import VectorForge.Collection.FlatAnswers

/-! A Flat collection refines the map that it holds, over all sequences of calls. -/

namespace VectorForge
open Effect
open IndexReader (SameState)

namespace Collection
open Op CollectionState
variable {k : KernelTable} {s t : CollectionState} {m : KeyedMap} {w : World} {leased : Nat → VisitedSet}
  {expected : Except ErrorCode Answer × KeyedMap}

/-- The same value, or errors with the same code. -/
inductive Agrees : Except Exit Answer → Except ErrorCode Answer → Prop
  | value (a : Answer) : Agrees (.ok a) (.ok a)
  | refused (e : Status) : Agrees (.error (.status e)) (.error e.code)

/-- A Flat collection between two calls, and the map that it holds. -/
structure Holds (k : KernelTable) (s : CollectionState) (m : KeyedMap) : Prop where
  sound : s.Sound fun _ => False
  flat : s.config.index = .flat
  real : m.Values (KeyedMap.RealRow k s.config)
  represents : Represents s m

/-- A call that has ended as it does in the map. -/
structure Follows (k : KernelTable) (s : CollectionState) (ended : Except Exit Answer × Session)
    (expected : Except ErrorCode Answer × KeyedMap) : Prop where
  agrees : Agrees ended.1 expected.1
  represents : Represents ended.2.state expected.2
  evolved : Evolved k s ended.2.state

theorem Holds.backend (holds : Holds k s m) : s.backend = .flat := flat_of_config holds.sound.toCoupled holds.flat

theorem Holds.next {ended : Except Exit Answer × Session} {c : MapCall} (holds : Holds k s m)
    (numeric : KeyedMap.Numeric k s.config) (follows : Follows k s ended (m.answer k s.config c)) :
    Holds k ended.2.state (m.answer k s.config c).2 where
  sound := follows.evolved.sound
  flat := follows.evolved.config ▸ holds.flat
  real := by
    rw [follows.evolved.config]
    exact holds.real.answer numeric.real c
  represents := follows.represents

section Queries

theorem reads {α : Type} {p : Op α} {f : α → Answer} {r : Result α} {value : Except ErrorCode α}
    (holds : Holds k s m) (ample : w.Ample) (replies : Replies p s r) (same : coded r = value) :
    Follows k s ((p >>= fun a => pure (f a)) ⟨s, w⟩) (value.map f, m) := by
  have evolved : Evolved k s s := .of_kept (.refl s) holds.sound holds.sound.toCoupled
  have run := replies.ample ample
  subst same
  cases r with
  | ok a =>
    rw [show (p >>= fun a => pure (f a)) ⟨s, w⟩ = (.ok (f a), ⟨s, w⟩) from bind_of_ok run]
    exact ⟨.value _, holds.represents, evolved⟩
  | error e =>
    rw [show (p >>= fun a => pure (f a)) ⟨s, w⟩ = (.error (.status e), ⟨s, w⟩) from bind_of_error run]
    exact ⟨.refused e, holds.represents, evolved⟩

theorem get_replies (id : ExternalId) : Replies (get id) s (match s.ids.find id with
    | none => .error (.notFound ("id " ++ toString id ++ " not found"))
    | some internal => .ok (s.vectors.row internal)) := by
  refine Replies.state.bind ?_
  cases s.ids.find id with
  | none => exact (Replies.lift _).of_eq fun _ => rfl
  | some internal => exact Replies.allocate.bind (Replies.pure _)

theorem get_follows (holds : Holds k s m) (ample : w.Ample) (id : ExternalId) :
    Follows k s (Operation.run k leased (.get id) ⟨s, w⟩) (m.answer k s.config (.get id)) := by
  refine reads holds ample (get_replies id) ?_
  have value := holds.represents.find_value id holds.sound
  rw [vectorOf] at value
  rw [KeyedMap.get]
  cases found : s.ids.find id with
  | none =>
    rw [found, Option.map_none, Option.map_eq_none_iff] at value
    rw [value]
    rfl
  | some internal =>
    rw [found] at value
    obtain ⟨e, known, same⟩ := Option.map_eq_some_iff.mp value
    rw [known]
    exact congrArg Except.ok same.symm

theorem contains_follows (holds : Holds k s m) (ample : w.Ample) (id : ExternalId) :
    Follows k s (Operation.run k leased (.contains id) ⟨s, w⟩) (m.answer k s.config (.contains id)) := by
  have replies : Replies (contains id) s (.ok (s.ids.contains id)) := Replies.state.bind (Replies.pure _)
  refine reads holds ample replies (show coded _ = .ok (m.map.contains id) from ?_)
  rw [holds.represents.contains_eq holds.sound]
  rfl

theorem size_follows (holds : Holds k s m) (ample : w.Ample) :
    Follows k s (Operation.run k leased .size ⟨s, w⟩) (m.answer k s.config .size) := by
  have replies : Replies size s (.ok s.ids.size) := Replies.state.bind (Replies.pure _)
  refine reads holds ample replies (show coded _ = .ok m.map.size from ?_)
  rw [holds.represents.size_eq holds.sound]
  rfl

theorem search_follows (holds : Holds k s m) (batched : k.Batched) (ample : w.Ample)
    (settled : (leased 0).Settled) (query : List F32)
    (params : SearchParams) : Follows k s (Operation.run k leased (.search query params) ⟨s, w⟩)
      (m.answer k s.config (.search query params)) := by
  refine reads holds ample (search_replies query params batched holds.sound settled) ?_
  rw [answer, KeyedMap.search]
  cases valid : params.validate with
  | error e => rfl
  | ok u =>
    rw [← coded_prepareQuery holds.sound]
    cases prepared : prepareQuery k s query with
    | error e => rfl
    | ok view =>
      refine congrArg Except.ok ?_
      rw [neighbors, found_clamped batched holds.sound view (SearchParams.validate_ok valid)]
      exact nearest_found holds.represents holds.sound holds.backend batched holds.real prepared _

end Queries

section Mutations

theorem mutates {c : Command} {r : Except Exit Reply} {τ : Session} (holds : Holds k s m) (ample : w.Ample)
    (run : c.run k ⟨s, w⟩ = (r, τ))
    (agrees : Agrees (r.map .reply) expected.1) (represents : Represents τ.state expected.2) :
    Follows k s (Operation.run k leased (.mutate c) ⟨s, w⟩) expected := by
  obtain ⟨values, exits⟩ := Command.run_evolves (k := k) (w := w) c holds.sound ample
  cases r with
  | ok a =>
    rw [show Operation.run k leased (.mutate c) ⟨s, w⟩ = (.ok (.reply a), τ) from bind_of_ok run]
    exact ⟨agrees, represents, values a τ run⟩
  | error e =>
    rw [show Operation.run k leased (.mutate c) ⟨s, w⟩ = (.error e, τ) from bind_of_error run]
    refine ⟨agrees, represents, exits e τ run ?_⟩
    rintro rfl
    cases agrees

/-- The status with which `add` refuses, in the map. -/
theorem addRefusal_code (holds : Holds k s m) (id : ExternalId) (vector : List F32) (upsert : Bool) :
    (addRefusal k s id vector upsert).map Status.code = failure (m.add k s.config id vector upsert) := by
  rw [addRefusal, KeyedMap.add]
  cases storedVector k s.config vector with
  | error e => rfl
  | ok row => exact keyRefusal_code id upsert holds.represents holds.sound holds.backend row

theorem insert_eq {id : ExternalId} {row : List F32} {upsert : Bool} {n : KeyedMap}
    (run : m.insert id row upsert = .ok n) : n = { map := m.map.put id row, used := m.used + 1 } := by
  unfold KeyedMap.insert at run
  split at run
  · cases run
  split at run
  · cases run
  split at run
  · cases run
  · cases run; rfl

theorem add_follows (holds : Holds k s m) (ample : w.Ample) (id : ExternalId) (vector : List F32) (upsert : Bool) :
    Follows k s (Operation.run k leased (.mutate (.add id vector upsert)) ⟨s, w⟩) (m.after do
      let n ← m.add k s.config id vector upsert
      return (.reply .done, n)) := by
  have code := addRefusal_code (k := k) holds id vector upsert
  rcases decided (add_ends holds.sound) ample with
    ⟨_, τ, run, _, allowed, row, stored, added⟩ | ⟨e, τ, refused, run, kept, _⟩
  · rw [allowed] at code
    cases result : m.add k s.config id vector upsert with
    | error e => rw [result] at code; cases code
    | ok n =>
      have same : m.insert id row upsert = .ok n := by
        rw [KeyedMap.add, stored] at result
        exact result
      refine mutates holds ample (bind_of_ok run) (.value _) ?_
      rw [insert_eq same]
      exact holds.represents.put holds.sound added
  · rw [refused] at code
    cases result : m.add k s.config id vector upsert with
    | ok n => rw [result] at code; cases code
    | error c =>
      rw [result] at code
      cases code
      exact mutates holds ample (bind_of_error run) (.refused e) (holds.represents.of_kept kept)

theorem addBatch_follows (holds : Holds k s m) (ample : w.Ample) (ids : List ExternalId)
    (rows : List F32) (upsert : Bool) (pool : Option ThreadPool) :
      Follows k s (Operation.run k leased (.mutate (.addBatch ids rows upsert pool)) ⟨s, w⟩)
      (m.answer k s.config (.addBatch ids rows upsert pool)) := by
  have code := batchRefusal_code (k := k) upsert ids rows holds.represents holds.sound
  have plain : ¬s.config.Sectioned := fun sectioned => absurd (holds.flat.symm.trans sectioned.1) (by decide)
  rw [KeyedMap.answer]
  have ends : _ ∨ ∃ data r τ, Admitted k s ids rows upsert data ∧ _ ∧ _ ∧
      addBatch k ids rows upsert pool ⟨s, w⟩ = _ :=
    addBatch_decided ids rows upsert k holds.sound (.inl plain) ample
  rcases ends with
    ⟨e, τ, refused, run, kept, _⟩ | ⟨data, r, τ, admitted, _, adds, run⟩
  · rw [refused] at code
    cases result : m.addBatch k s.config ids rows upsert with
    | ok n => rw [result] at code; cases code
    | error c =>
      rw [result] at code
      cases code
      exact mutates holds ample (bind_of_error run) (.refused e) (holds.represents.of_kept kept)
  · rw [admitted.allowed] at code
    cases result : m.addBatch k s.config ids rows upsert with
    | error c => rw [result] at code; cases code
    | ok n =>
      obtain ⟨_, distinct, real, _⟩ := admitted.batch none holds.sound.toCoupled
      have length : ((batchOf s.config ids data upsert none).between 0 ids.length).length = ids.length := by
        rw [Batch.between, List.length_map, List.length_range', Nat.sub_zero]
      have keys := between_ids admitted holds.sound
      -- the checks of the whole batch are stronger than those of its rows
      obtain ⟨rfl, room, free⟩ := addBatch_ok admitted holds.sound holds.represents result
      have free : upsert = true ∨ ∀ x ∈ (batchOf s.config ids data upsert none).between 0 ids.length,
          m.map.contains x.1 = false := by
        refine free.imp_right fun unknown x member => Bool.eq_false_iff.mpr fun known => ?_
        have listed : x.1 ∈ ids := keys ▸ List.mem_map_of_mem member
        rw [List.any_eq_false] at unknown
        exact unknown x.1 listed known
      obtain ⟨rfl, rep⟩ := Represents.putAll adds holds.sound holds.flat holds.represents (keys.symm ▸ distinct)
        (keys.symm ▸ real) free
        (by rw [length]; exact room)
      refine mutates holds ample (bind_of_ok run) (.value _) ?_
      rw [length] at rep
      exact rep

theorem removeRefusal_code (holds : Holds k s m) (id : ExternalId) :
    (removeRefusal s id).map Status.code = failure (m.remove id) := by
  have present : m.map.contains id = (s.ids.map.lookup id).isSome :=
    (holds.represents.contains_eq holds.sound).trans (lookup_of_contains holds.sound)
  rw [removeRefusal, IdMap.erase, KeyedMap.remove, present]
  cases found : s.ids.map.lookup id with
  | none => rfl
  | some entry =>
    have quiet := holds.sound.settled.quiet id entry found
    have real : entry.current ≠ kInvalidInternalId := by
      have inside := holds.sound.settled.row_lt found
      have few := holds.sound.toCoupled.labels_le
      simp only [kMaxVectorsPerCollection] at few
      omega
    simp only [if_neg real, quiet]
    rfl

theorem remove_follows (holds : Holds k s m) (ample : w.Ample) (id : ExternalId) :
    Follows k s (Operation.run k leased (.mutate (.remove id)) ⟨s, w⟩) (m.answer k s.config (.remove id)) := by
  have code := removeRefusal_code holds id
  rw [KeyedMap.answer]
  have ends : Ends (remove id) ⟨s, w⟩ _ _ := remove_ends holds.sound
  rcases decided ends ample with ⟨_, τ, run, _, allowed, removed, _⟩ | ⟨e, τ, refused, run, kept, _⟩
  · rw [allowed] at code
    unfold KeyedMap.remove at code ⊢
    split
    · exact mutates holds ample (bind_of_ok run) (.value _) (holds.represents.erase holds.sound removed)
    next absent =>
      rw [if_neg absent] at code
      cases code
  · rw [refused] at code
    unfold KeyedMap.remove at code ⊢
    split
    next known =>
      rw [if_pos known] at code
      cases code
    next absent =>
      rw [if_neg absent] at code
      have code : e.code = .notFound := Option.some.inj code
      exact mutates holds ample (bind_of_error run) (code ▸ .refused e) (holds.represents.of_kept kept)

theorem compact_follows (holds : Holds k s m) (ample : w.Ample) :
    Follows k s (Operation.run k leased (.mutate .compact) ⟨s, w⟩) (m.answer k s.config .compact) := by
  have live := holds.represents.size_eq holds.sound
  have total := holds.sound.toCoupled.live_add_count
  have stats {rows : Nat} (dense : rows = m.map.size) :
      (⟨s.vectors.size, s.deleted.count, rows⟩ : CompactStats) = m.compact.1 := by
    rw [KeyedMap.compact, dense, holds.represents.used]
    refine congrArg (CompactStats.mk s.vectors.size · m.map.size) ?_
    rw [IdMap.size] at live
    omega
  rcases compact_decided (k := k) holds.sound ample with
    ⟨none, τ, run, same⟩ | ⟨_, start, r, u, τ, emptied, adds, outcome⟩
  · have all : s.vectors.size = m.map.size := by
      rw [IdMap.size] at live
      omega
    rw [stats all] at run
    refine mutates holds ample (bind_of_ok run) (.value _) ?_
    rw [same]
    exact ⟨holds.represents.pairs, all.symm⟩
  · -- the live rows are under different ids, and there was room for them
    have empty : Represents start {} := by
      have none : start.vectors.size = 0 := by
        rw [← VectorStore.length_rows, emptied.rows]
        rfl
      refine ⟨?_, none.symm⟩
      rw [liveRows, none]
      rfl
    have keys : ((liveRows s).map Prod.fst).Nodup := by
      rw [← holds.represents.pairs, OrderedMap.pairs, List.map_map]
      exact m.map.distinct
    have real : kInvalidExternalId ∉ (liveRows s).map Prod.fst := by
      rw [← holds.represents.pairs, ← OrderedMap.contains_iff, holds.represents.contains_eq holds.sound,
        lookup_of_contains holds.sound,
        holds.sound.settled.unreserved]
      exact Bool.false_ne_true
    have length : (liveRows s).length = m.map.size := by rw [← holds.represents.pairs, OrderedMap.length_pairs]
    have room : ({} : KeyedMap).used + (liveRows s).length ≤ kMaxVectorsPerCollection := by
      have few := holds.sound.toCoupled.rows_le
      rw [IdMap.size] at live
      change 0 + (liveRows s).length ≤ _
      omega
    have flat : start.config.index = .flat := emptied.config ▸ holds.flat
    obtain ⟨rfl, rep⟩ := Represents.putAll adds emptied.sound flat empty keys real (.inr fun _ _ => rfl) room
    have rows : u.vectors.size = m.map.size := by
      have used := rep.used
      change 0 + (liveRows s).length = _ at used
      omega
    rcases outcome with ⟨_, run, same, _⟩ | ⟨e, wrong, _⟩
    · obtain ⟨dense, _⟩ := (compact_dense holds.sound).1 _ τ run
      rw [stats rows] at run
      refine mutates holds ample (bind_of_ok run) (.value _) ⟨holds.represents.pairs.trans dense.rows.symm, ?_⟩
      rw [same, rows]
      rfl
    · cases wrong

end Mutations

/-- Every call ends as it does in the map. -/
theorem call_follows (holds : Holds k s m) (batched : k.Batched) (c : MapCall) (here : Setting) :
    Follows k s (c.operation.run k here.leased ⟨s, here.world⟩) (m.answer k s.config c) := by
  cases c with
  | add id vector => exact add_follows holds here.ample id vector false
  | upsert id vector => exact add_follows holds here.ample id vector true
  | addBatch ids rows upsert pool => exact addBatch_follows holds here.ample ids rows upsert pool
  | remove id => exact remove_follows holds here.ample id
  | get id => exact get_follows holds here.ample id
  | contains id => exact contains_follows holds here.ample id
  | size => exact size_follows holds here.ample
  | search query params => exact search_follows holds batched here.ample (here.settled 0) query params
  | compact => exact compact_follows holds here.ample

/-- And so does every sequence of calls. -/
theorem calls_follow : ∀ (calls : List MapCall) (settings : Nat → Setting) {s : CollectionState} {m : KeyedMap},
    Holds k s m →
    KeyedMap.Numeric k s.config → List.Forall₂ Agrees (follow k (calls.map MapCall.operation) settings s).1
      (m.follow k s.config calls).1 ∧
      Represents (follow k (calls.map MapCall.operation) settings s).2 (m.follow k s.config calls).2
  | [], _, _, _, holds, _ => ⟨.nil, holds.represents⟩
  | c :: calls, settings, s, m, holds, numeric => by
    have follows := call_follows holds numeric.toBatched c (settings 0)
    have config := follows.evolved.config
    obtain ⟨answers, last⟩ := calls_follow calls (fun i => settings (i + 1)) (holds.next numeric follows)
      (config.symm ▸ numeric)
    rw [config] at answers last
    simp only [List.map_cons, follow, KeyedMap.follow]
    exact ⟨.cons follows.agrees answers, last⟩

/-- The map that a collection holds. -/
def contentOf (s : CollectionState) : KeyedMap where
  map := OrderedMap.putAll {} (liveRows s)
  used := s.vectors.size

theorem contentOf_empty (none : s.vectors.size = 0) : contentOf s = {} := by
  rw [contentOf, liveRows, none]
  rfl

theorem liveRows_distinct {lost : Nat → Prop} (sound : s.Sound lost) : ((liveRows s).map Prod.fst).Nodup := by
  have rows : (liveIds s).Nodup := (List.pairwise_lt_range.filter _ : (liveIds s).Pairwise (· < ·)).imp Nat.ne_of_lt
  rw [liveRows_eq, List.map_map]
  refine rows.map_on fun a left b right same => ?_
  obtain ⟨inside, live⟩ := mem_liveIds.mp right
  have label : s.ids.labels[b]? = some (pairAt s b).1 := by
    rw [pairAt, List.getD_eq_getElem _ _ (sound.labels ▸ inside), List.getElem?_eq_getElem (sound.labels ▸ inside)]
  exact (label_iff sound left label live).mp same

theorem represents_contentOf {lost : Nat → Prop} (sound : s.Sound lost) : Represents s (contentOf s) where
  pairs := OrderedMap.pairs_putAll (liveRows_distinct sound) fun _ _ => List.not_mem_nil
  used := rfl

/-- A flat index loses nothing. -/
theorem sound_of_flat {lost : Nat → Prop} (sound : s.Sound lost) (flat : s.config.index = .flat) :
    s.Sound fun _ => False :=
  { sound with
    bounded := fun _ => False.elim
    rests := fun b kind => by cases (flat_of_config sound.toCoupled flat).symm.trans kind }

end Collection

namespace Guarantees
open Collection CollectionState

/-- Whatever a Flat collection is asked for, it answers as the map from ids to vectors that it holds, in which
the entries know the order of their insertion. -/
theorem flat_collection_refines_map {k : KernelTable} {s : CollectionState} (reached : Reachable k s)
    (flat : s.config.index = .flat)
    (numeric : KeyedMap.Numeric k s.config) (real : ∀ row ∈ s.vectors.rows, KeyedMap.RealRow k s.config row)
    (calls : List MapCall) (settings : Nat → Setting) :
    List.Forall₂ Agrees (follow k (calls.map MapCall.operation) settings s).1
      ((contentOf s).follow k s.config calls).1 ∧
      Represents (follow k (calls.map MapCall.operation) settings s).2 ((contentOf s).follow k s.config calls).2 ∧
      (s.vectors.size = 0 → contentOf s = {}) := by
  obtain ⟨⟨lost, sound⟩, _⟩ := reached.sound
  have represents := represents_contentOf sound
  have values : (contentOf s).Values (KeyedMap.RealRow k s.config) := by
    intro x member
    rw [represents.pairs] at member
    obtain ⟨r, live, rfl⟩ := List.mem_map.mp member
    have inside : r < s.vectors.size := List.mem_range.mp (List.mem_filter.mp live).1
    refine real _ (List.mem_iff_getElem?.mpr ⟨r, ?_⟩)
    rw [VectorStore.getElem?_rows, if_pos inside]
  obtain ⟨answers, last⟩ := calls_follow calls settings ⟨sound_of_flat sound flat, flat, values, represents⟩ numeric
  exact ⟨answers, last, contentOf_empty⟩

theorem zeroKernels_sane : zeroKernels.Sane where
  toBatched := zeroKernels_batched
  real := by
    have positive : F32.zero.isNan = false := by decide
    have negative : F32.zero.neg.isNan = false := by decide
    intro mode _ _ _ _ _ _ _
    cases mode with
    | l2 => exact positive
    | negDot => exact negative
    | normalizedCos => exact positive
    | normalizedL2 => exact positive
    | normalizedIp => exact negative
  normalises := zeroKernels_normalises

/-- A row is added, replaced and found again. -/
theorem flat_collection_refines_map_replaced : ∃ s, create (.ok ()) 0 smallConfig = .ok s ∧
    ∀ settings, List.Forall₂ Agrees
    (follow zeroKernels ([.add 7 [F32.zero], .upsert 7 [F32.one], .get 7, .size].map
      MapCall.operation) settings s).1
      [.ok (.reply .done), .ok (.reply .done), .ok (.vector [F32.one]), .ok (.count 1)] := by
  obtain ⟨s, created⟩ := create_ok 0 (show smallConfig.validate = .ok () by decide)
  obtain ⟨_, config, _, rows, _⟩ := create_sound created
  have none : s.vectors.size = 0 := by
    rw [← VectorStore.length_rows, rows]
    rfl
  have config : s.config = smallConfig := config
  refine ⟨s, created, fun settings => ?_⟩
  obtain ⟨answers, _, empty⟩ := flat_collection_refines_map (.created created) (by rw [config]; rfl)
    (numeric_of_sane zeroKernels_sane (by rw [config]; decide))
    (by rw [rows]; exact nofun) [.add 7 [F32.zero], .upsert 7 [F32.one], .get 7, .size] settings
  rw [empty none, config] at answers
  exact answers

end Guarantees
end VectorForge
