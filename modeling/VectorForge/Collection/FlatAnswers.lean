import VectorForge.Collection.FlatRefinement

/-! Every call of a Flat collection ends as the same call of the map. -/

namespace VectorForge
open Effect
open IndexReader (SameState)

theorem inverseNorm_code {k : KernelTable} {vector : List F32} {e : Status}
    (run : inverseNorm k vector = .error e) : e.code = .invalidArgument := by
  unfold inverseNorm at run
  dsimp only at run
  split at run
  · cases run; rfl
  split at run
  · cases run; rfl
  split at run
  · cases run; rfl
  · cases run

theorem inverseNorm_finite {k : KernelTable} {vector : List F32} {scale : F32}
    (run : inverseNorm k vector = .ok scale) : scale.isFinite = true := by
  unfold inverseNorm at run
  dsimp only at run
  split at run
  · cases run
  split at run
  · cases run
  split at run
  · cases run
  next finite =>
    cases run
    simpa using finite

theorem normalizeInplace_code {k : KernelTable} {vector : List F32} {e : Status}
    (run : normalizeInplace k vector = .error e) : e.code = .invalidArgument := by
  unfold normalizeInplace at run
  cases norm : inverseNorm k vector with
  | error e' =>
    rw [norm] at run
    cases run
    exact inverseNorm_code norm
  | ok scale => rw [norm] at run; cases run

namespace Collection
open Op CollectionState
variable {k : KernelTable} {lost : Nat → Prop} {s t : CollectionState} {m : KeyedMap}
  {id : ExternalId} {query : List F32} {params : SearchParams} {view : QueryView} {upsert : Bool} {w : World}

section Search

theorem coded_prepareQuery (sound : s.Sound lost) :
    coded (prepareQuery k s query) = KeyedMap.viewOf k s.config query := by
  rw [prepareQuery, KeyedMap.viewOf, sound.normalized]
  cases validateVector query s.config.dim.toNat with
  | error e => rfl
  | ok u =>
    cases s.config.effectiveNormalize with
    | false => rfl
    | true =>
      cases norm : inverseNorm k query with
      | error e =>
        have code := inverseNorm_code norm
        change Except.error ErrorCode.invalidArgument = Except.error e.code
        rw [code]
      | ok scale => rfl

/-- Finite operands that have a distance are enough. -/
theorem numeric_of_sane (sane : k.Sane) {config : CollectionConfig} (dims : config.dim.toNat ≤ kMaxDim) :
    KeyedMap.Numeric k config where
  toBatched := sane.toBatched
  real := by
    intro vector row stored query view prepared
    have length := length_storedVector stored
    have short : row.length ≤ kMaxDim := length.trans_le dims
    have small := storedVector_acceptable sane.normalises stored
    unfold KeyedMap.viewOf at prepared
    cases valid : validateVector query config.dim.toNat with
    | error e => rw [valid] at prepared; cases prepared
    | ok u =>
      rw [valid] at prepared
      obtain ⟨same, acceptable⟩ := validateVector_ok valid
      change (if config.effectiveNormalize = true then _ else _) = _ at prepared
      split at prepared
      · cases norm : inverseNorm k query with
        | error e => rw [norm] at prepared; cases prepared
        | ok scale =>
          rw [norm] at prepared
          cases prepared
          exact sane.real _ _ _ (same.trans length.symm) short acceptable small (inverseNorm_finite norm)
      · cases prepared
        exact sane.real _ _ _ (same.trans length.symm) short acceptable small
          (show F32.one.isFinite = true by decide)

/-- A live row and the entry of the map. -/
def SameRow (k : KernelTable) (s : CollectionState) (view : QueryView) (e : OrderedMap.Entry ExternalId (List F32))
    (c : ScoredId) : Prop :=
  e.key = s.ids.labels.getD c.id kInvalidExternalId ∧ KeyedMap.distanceTo k s.config view e.value = c.distance

/-- The scored rows go with the entries of the map. -/
theorem scored_aligned (rep : Represents s m) (sound : s.Sound lost) (view : QueryView) :
    List.Forall₂ (SameRow k s view) m.map.entries
      (FlatBackend.liveScored k (scoreMode s.config.metric s.normalized) view s.deleted s.vectors
        s.vectors.size) := by
  have pairs := rep.pairs
  rw [OrderedMap.pairs, liveRows_eq, ← List.forall₂_eq_eq_eq, List.forall₂_map_left_iff,
    List.forall₂_map_right_iff] at pairs
  rw [liveScored_eq, List.forall₂_map_right_iff]
  refine pairs.imp fun e r same => ?_
  obtain ⟨key, value⟩ := Prod.mk.inj same
  refine ⟨key, ?_⟩
  rw [KeyedMap.distanceTo, value, FlatBackend.scoredRow, sound.normalized]

/-- The search of the rows finds the nearest entries of the map. -/
theorem nearest_found (rep : Represents s m) (sound : s.Sound lost) (flat : s.backend = .flat) (batched : k.Batched)
    (real : m.Values (KeyedMap.RealRow k s.config)) (prepared : prepareQuery k s query = .ok view)
    (knobs : SearchKnobs) : labelled s (found k s view knobs) =
      (m.map.nearest (fun row => (KeyedMap.distanceTo k s.config view row).rank) knobs.k).map fun e =>
      { id := e.key, distance := KeyedMap.distanceTo k s.config view e.value } := by
  have aligned := scored_aligned (k := k) rep sound view
  generalize rows : FlatBackend.liveScored k (scoreMode s.config.metric s.normalized) view s.deleted s.vectors
    s.vectors.size = records
    at aligned
  have numbered : records.Pairwise fun a b => a.id < b.id := by
    rw [← rows, liveScored_eq, List.pairwise_map]
    exact (List.pairwise_lt_range.filter _ : (liveIds s).Pairwise (· < ·))
  obtain ⟨sorted, members, entries, ids, ascending⟩ :=
    OrderedMap.mergeSort_aligned (fun c : ScoredId => c.distance.rank) ScoredId.id
    (fun row => (KeyedMap.distanceTo k s.config view row).rank) numbered
    (aligned.imp fun e c same => congrArg F32.rank same.2)
  have viewed : KeyedMap.viewOf k s.config query = .ok view := by
    rw [← coded_prepareQuery sound, prepared]
    rfl
  have first : found k s view knobs = (sorted.map Prod.snd).take knobs.k := by
    rw [found, flat]
    refine FlatBackend.search_sorted batched sound.store sound.tracks rfl ?_ ?_ ascending
    · intro r inside live
      have member : pairAt s r ∈ m.map.pairs := by
        rw [rep.pairs, liveRows_eq]
        exact List.mem_map_of_mem (mem_liveIds.mpr ⟨inside, live⟩)
      rw [sound.normalized]
      exact real _ member query view viewed
    · rw [← ids, rows]
      exact List.mergeSort_perm _ _
  rw [first, labelled, OrderedMap.nearest, entries, ← List.map_take, ← List.map_take, List.map_map, List.map_map]
  refine List.map_congr_left fun z member => ?_
  obtain ⟨key, distance⟩ := (List.forall₂_iff_zip.mp aligned).2 (members z (List.mem_of_mem_take member))
  simp only [Function.comp_apply, key, distance]

end Search

section Batch
variable {ids : List ExternalId} {rows data : List F32} {config : CollectionConfig}

theorem mapM_of_forall₂ {α β ε : Type} {f : α → Except ε β} {xs : List α} {ys : List β}
    (each : List.Forall₂ (fun x y => f x = .ok y) xs ys) : xs.mapM f = .ok ys := by
  induction each with
  | nil => rfl
  | cons first _ ih => rw [List.mapM_cons, first, ih]; rfl

/-- Where a row has none, there is an error, and it is the one of a row. -/
theorem mapM_error {α β ε : Type} {f : α → Except ε β} {xs : List α} {x : α} (member : x ∈ xs) {e : ε}
    (fails : f x = .error e) : ∃ y ∈ xs, ∃ e', f y = .error e' ∧ xs.mapM f = .error e' := by
  induction xs with
  | nil => cases member
  | cons first rest ih =>
    rw [List.mapM_cons]
    cases here : f first with
    | error e' => exact ⟨first, List.mem_cons_self, e', here, rfl⟩
    | ok b =>
      rcases List.mem_cons.mp member with rfl | later
      · cases here.symm.trans fails
      · obtain ⟨y, listed, e', known, run⟩ := ih later
        exact ⟨y, List.mem_cons_of_mem _ listed, e', known, by rw [run]; rfl⟩

theorem adjacentFind_eq_some {l : List ExternalId} {dup : ExternalId}
    (found : adjacentFind l = some dup) : ¬l.Nodup := by
  induction l with
  | nil => cases found
  | cons a rest ih =>
    cases rest with
    | nil => cases found
    | cons b rest =>
      intro distinct
      obtain ⟨first, others⟩ := List.nodup_cons.mp distinct
      rw [adjacentFind] at found
      split at found
      next same => exact first (same ▸ List.mem_cons_self)
      · exact ih found others

theorem checkKeys_error {e : Status} (run : checkKeys ids = .error e) :
    e.code = .invalidArgument ∧ (¬ids.Nodup ∨ kInvalidExternalId ∈ ids) := by
  have perm := List.mergeSort_perm ids fun a b => decide (a ≤ b)
  unfold checkKeys at run
  dsimp only at run
  split at run
  next dup found =>
    cases run
    exact ⟨rfl, .inl fun distinct => adjacentFind_eq_some found (perm.nodup_iff.mpr distinct)⟩
  · split at run
    next last =>
      cases run
      exact ⟨rfl, .inr (perm.mem_iff.mp (List.mem_of_getLast? last))⟩
    · cases run

theorem normalizeRows_error {dim : Nat} {e : Status} :
    ∀ {left i : Nat}, normalizeRows k rows dim left i = .error e →
    e.code = .invalidArgument ∧ ∃ j < left, ∃ e',
      normalizeInplace k ((rows.drop ((i + j) * dim)).take dim) = .error e' := by
  intro left
  induction left with
  | zero => exact fun run => by cases run
  | succ left ih =>
    intro i run
    rw [normalizeRows] at run
    split at run
    next e' unit =>
      cases run
      exact ⟨rfl, 0, Nat.succ_pos _, e', unit⟩
    next row unit =>
      cases rest : normalizeRows k rows dim left (i + 1) with
      | error e' =>
        rw [rest] at run
        cases run
        obtain ⟨code, j, below, e'', failed⟩ := ih rest
        exact ⟨code, j + 1, by omega, e'', by rwa [show i + (j + 1) = i + 1 + j by omega]⟩
      | ok more => rw [rest] at run; cases run

theorem storedVector_given (valid : validateBatch rows ids.length config.dim.toNat = .ok ())
    {x : ExternalId × List F32} (member : x ∈ givenRows config ids rows ids.length) :
    storedVector k config x.2 = if config.effectiveNormalize then normalizeInplace k x.2 else pure x.2 := by
  obtain ⟨j, below, rfl⟩ := List.mem_map.mp member
  rw [storedVector, validateBatch_row valid (List.mem_range.mp below)]
  rfl

/-- Why the rows of a batch are refused. -/
theorem batchData_error {e : Status} (run : batchData k config ids rows = .error e)
    (valid : validateBatch rows ids.length config.dim.toNat = .ok ()) : e.code = .invalidArgument ∧
      (¬ids.Nodup ∨ kInvalidExternalId ∈ ids ∨
        ∃ x ∈ givenRows config ids rows ids.length, ∃ e', storedVector k config x.2 = .error e') := by
  unfold batchData at run
  cases keys : checkKeys ids with
  | error e' =>
    rw [keys] at run
    cases run
    obtain ⟨code, why⟩ := checkKeys_error keys
    exact ⟨code, why.imp_right .inl⟩
  | ok u =>
    rw [keys] at run
    change (if config.effectiveNormalize = true then normalizeRows k rows config.dim.toNat ids.length 0 else
      .ok rows) = .error e at run
    split at run
    next normalizes =>
      obtain ⟨code, j, below, e', failed⟩ := normalizeRows_error run
      rw [Nat.zero_add] at failed
      have member : (ids.getD j kInvalidExternalId, (rows.drop (j * config.dim.toNat)).take config.dim.toNat) ∈
          givenRows config ids rows ids.length := List.mem_map_of_mem (List.mem_range.mpr below)
      exact ⟨code, .inr (.inr ⟨_, member, e', by
        rw [storedVector_given valid member, if_pos normalizes]; exact failed⟩)⟩
    · cases run

theorem coded_given (valid : validateBatch rows ids.length config.dim.toNat = .ok ()) {x : ExternalId × List F32}
    (member : x ∈ givenRows config ids rows ids.length) {e : ErrorCode}
    (run : coded (storedVector k config x.2) = .error e) : e = .invalidArgument := by
  rw [storedVector_given valid member] at run
  split at run
  · cases unit : normalizeInplace k x.2 with
    | error e' =>
      rw [unit] at run
      cases run
      exact normalizeInplace_code unit
    | ok row => rw [unit] at run; cases run
  · cases run

theorem givenRows_ids : (givenRows config ids rows ids.length).map Prod.fst = ids := by
  rw [givenRows, List.map_map]
  refine List.ext_getElem (by rw [List.length_map, List.length_range]) fun j inside inside' => ?_
  rw [List.getElem_map, List.getElem_range]
  exact List.getD_eq_getElem _ _ inside'

variable (upsert) in
/-- The rows of a batch as they are stored. -/
theorem given_vectors (valid : validateBatch rows ids.length s.config.dim.toNat = .ok ())
    (stored : batchData k s.config ids rows = .ok data) :
    (givenRows s.config ids rows ids.length).mapM (fun x => coded (storedVector k s.config x.2)) =
      .ok (((batchOf s.config ids data upsert none).between 0 ids.length).map Prod.snd) := by
  obtain ⟨_, _, _, each⟩ := batchData_ok valid stored
  refine mapM_of_forall₂ ?_
  rw [givenRows, Batch.between, Nat.sub_zero, ← List.range_eq_range', List.map_map, List.forall₂_map_left_iff,
    List.forall₂_map_right_iff,
    List.forall₂_same]
  intro j member
  dsimp only
  rw [each j (List.mem_range.mp member)]
  rfl

/-- Their ids. -/
theorem between_ids (admitted : Admitted k s ids rows upsert data) (sound : s.Sound lost) :
    ((batchOf s.config ids data upsert none).between 0 ids.length).map Prod.fst = ids := by
  have stores : List.Forall₂ (Stores k s.config) (givenRows s.config ids rows ids.length)
      ((batchOf s.config ids data upsert none).between 0 ids.length) :=
      admitted.stores sound.toCoupled (Nat.le_refl _)
  have keys : List.Forall₂ (· = ·) ((givenRows s.config ids rows ids.length).map Prod.fst)
      (((batchOf s.config ids data upsert none).between 0 ids.length).map Prod.fst) :=
    List.forall₂_map_left_iff.mpr (List.forall₂_map_right_iff.mpr (stores.imp fun raw x same => same.1))
  rw [List.forall₂_eq_eq_eq, givenRows_ids] at keys
  exact keys.symm

theorem taken_eq (rep : Represents s m) (sound : s.Sound lost) :
    ids.any m.map.contains = (ids.find? s.ids.contains).isSome := by
  rw [List.isSome_find?]
  congr 1
  funext id
  exact rep.contains_eq sound

variable (ids rows upsert) in
/-- A batch is refused for the reasons for which the map refuses it. -/
theorem batchRefusal_code (rep : Represents s m) (sound : s.Sound lost) :
    (batchRefusal k s ids rows upsert).map Status.code = failure (m.addBatch k s.config ids rows upsert) := by
  rw [batchRefusal, KeyedMap.addBatch]
  cases valid : validateBatch rows ids.length s.config.dim.toNat with
  | error e => rfl
  | ok u =>
    change _ = failure (if ids = [] then (Except.ok m : Except ErrorCode KeyedMap) else _)
    by_cases empty : ids = []
    · rw [if_pos empty, if_pos (List.length_eq_zero_iff.mpr empty)]
      rfl
    rw [if_neg empty, if_neg fun none => empty (List.length_eq_zero_iff.mp none)]
    cases stored : batchData k s.config ids rows with
    | error e =>
      obtain ⟨code, why⟩ := batchData_error stored valid
      change some e.code = _
      rw [code]
      by_cases keys : ¬ids.Nodup ∨ kInvalidExternalId ∈ ids
      · rw [if_pos keys]
        rfl
      · rw [if_neg keys]
        rcases why with twice | reserved | ⟨x, member, e', failed⟩
        · exact absurd (.inl twice) keys
        · exact absurd (.inr reserved) keys
        · have fails : coded (storedVector k s.config x.2) = .error e'.code := by rw [failed]; rfl
          obtain ⟨y, listed, e'', known, run⟩ :=
            mapM_error (f := fun x => coded (storedVector k s.config x.2)) member fails
          rw [run, coded_given valid listed known]
          rfl
    | ok data =>
      change (admission s ids upsert).map Status.code = _
      obtain ⟨distinct, real, _⟩ := batchData_ok valid stored
      rw [if_neg (by rw [not_or, not_not]; exact ⟨distinct, real⟩)]
      rw [given_vectors upsert valid stored]
      generalize ((batchOf s.config ids data upsert none).between 0 ids.length).map Prod.snd = vectors
      change _ = failure (if !upsert && ids.any m.map.contains then
        (Except.error ErrorCode.alreadyExists : Except ErrorCode KeyedMap)
        else if kMaxVectorsPerCollection < m.used + ids.length then .error .resourceExhausted else _)
      rw [admission, taken_eq rep sound, rep.used, sound.limit]
      have capacity : (if s.vectors.size + ids.length > kMaxVectorsPerCollection then
            some (Status.resourceExhausted ("batch of " ++ toString ids.length ++
              " vectors exceeds collection capacity"))
          else none).map Status.code = failure (if kMaxVectorsPerCollection < s.vectors.size + ids.length then
            (Except.error ErrorCode.resourceExhausted : Except ErrorCode KeyedMap) else
            .ok { map := m.map.putAll (ids.zip vectors), used := s.vectors.size + ids.length }) := by
        by_cases full : kMaxVectorsPerCollection < s.vectors.size + ids.length
        · rw [if_pos full, if_pos full]
          rfl
        · rw [if_neg full, if_neg full]
          rfl
      cases upsert with
      | true => exact capacity
      | false =>
        cases taken : ids.find? s.ids.contains with
        | none =>
          simp only [Bool.not_false, Bool.true_and, Option.isSome_none, Bool.false_eq_true, if_false]
          exact capacity
        | some id =>
          simp only [Bool.not_false, Bool.true_and, Option.isSome_some, if_true]
          rfl

/-- What an admitted batch leaves in the map, which has room for it. -/
theorem addBatch_ok (admitted : Admitted k s ids rows upsert data) (sound : s.Sound lost)
    (rep : Represents s m) {n : KeyedMap} (run : m.addBatch k s.config ids rows upsert = .ok n) :
    n = { map := m.map.putAll ((batchOf s.config ids data upsert none).between 0 ids.length)
          used := m.used + ids.length } ∧
      m.used + ids.length ≤ kMaxVectorsPerCollection ∧ (upsert = true ∨ ids.any m.map.contains = false) := by
  have zipped : ids.zip (((batchOf s.config ids data upsert none).between 0 ids.length).map Prod.snd) =
      (batchOf s.config ids data upsert none).between 0 ids.length :=
      (List.zip_of_prod (between_ids admitted sound) rfl).symm
  rw [KeyedMap.addBatch, admitted.valid] at run
  change (if ids = [] then (Except.ok m : Except ErrorCode KeyedMap) else _) = .ok n at run
  split at run
  next empty =>
    cases run
    subst empty
    exact ⟨rfl, rep.used ▸ sound.toCoupled.rows_le, .inr rfl⟩
  · split at run
    · cases run
    · rw [given_vectors upsert admitted.valid admitted.stored] at run
      change (if !upsert && ids.any m.map.contains then
        (Except.error ErrorCode.alreadyExists : Except ErrorCode KeyedMap)
        else if kMaxVectorsPerCollection < m.used + ids.length then .error .resourceExhausted else _) = .ok n at run
      split at run
      · cases run
      next free =>
        split at run
        · cases run
        next room =>
          rw [zipped] at run
          cases run
          refine ⟨rfl, Nat.le_of_not_lt room, ?_⟩
          rw [Bool.not_eq_true, Bool.and_eq_false_iff, Bool.not_eq_false'] at free
          exact free

end Batch
end Collection
end VectorForge
