import VectorForge.Collection.Adding

/-! `add_batch` up to the first row, and the loop that inserts the rows one after the other. -/

namespace VectorForge
open Effect
open IndexReader (SameState)

namespace CollectionState
variable {k : KernelTable} {lost lost' : Nat → Prop} {upsert : Bool}
  {s s' t t' u : CollectionState} {row : List F32} {external : ExternalId} {xs ys : List (ExternalId × List F32)}

/-- Rows added one after the other. -/
inductive RowsAdded (k : KernelTable) (lost : Nat → Prop) (upsert : Bool) :
    CollectionState → List (ExternalId × List F32) → CollectionState → Prop
  | nil {s t : CollectionState} (kept : Kept s t) : RowsAdded k lost upsert s [] t
  | cons {s t u : CollectionState} {x : ExternalId × List F32} {xs : List (ExternalId × List F32)}
      (added : RowAdded k lost upsert s x.1 x.2 t) (rest : RowsAdded k lost upsert t xs u) :
      RowsAdded k lost upsert s (x :: xs) u

theorem Kept.keyRefusal (kept : Kept s t) (coupled : s.Coupled) (coupled' : t.Coupled) :
    t.keyRefusal external upsert = s.keyRefusal external upsert :=
  (SameState.of_kept kept).keyRefusal coupled' coupled

/-- The row could as well have been added to the state before memory was set aside. -/
theorem RowAdded.of_kept (kept : Kept s t) (coupled : s.Coupled) (coupled' : t.Coupled)
    (added : RowAdded k lost upsert t external row u) : RowAdded k lost upsert s external row u where
  sound := added.sound
  allowed := (kept.keyRefusal coupled coupled').symm.trans added.allowed
  inserted := by
    obtain ⟨ids, reservation, backend, reserves, links, inserted⟩ := added.inserted
    refine ⟨ids, reservation, backend, kept.ids ▸ reserves, ?_, ?_⟩
    · rw [LinksRow, kept.backend, kept.rows, mode, kept.config, kept.normalized] at links
      exact links
    · exact ⟨inserted.config.trans kept.config, inserted.normalized.trans kept.normalized,
        inserted.creator.trans kept.creator, inserted.createdUnixMs.trans kept.createdUnixMs, by
        rw [inserted.rows, kept.rows],
        by rw [inserted.ids, kept.ids], fun i => by rw [inserted.marks, kept.marks, kept.size],
        by rw [inserted.count, kept.count], inserted.backend⟩

namespace RowsAdded

theorem append (first : RowsAdded k lost upsert s xs t) (sound : s.Sound lost) (middle : t.Coupled)
    (second : RowsAdded k lost upsert t ys u) : RowsAdded k lost upsert s (xs ++ ys) u := by
  induction first with
  | nil kept =>
    cases second with
    | nil more => exact .nil (kept.trans more)
    | cons added rest => exact .cons (added.of_kept kept sound.toCoupled middle) rest
  | cons added _ ih => exact .cons added (ih added.sound middle second)

theorem then_kept (first : RowsAdded k lost upsert s xs t) (kept : Kept t u) : RowsAdded k lost upsert s xs u := by
  induction first with
  | nil before => exact .nil (before.trans kept)
  | cons added _ ih => exact .cons added (ih kept)

theorem single (added : RowAdded k lost upsert s external row t) : RowsAdded k lost upsert s [(external, row)] t :=
  .cons added (.nil (.refl t))

/-- The same rows added to the same content give the same content. -/
theorem same (first : RowsAdded k lost upsert s xs t) (second : RowsAdded k lost' upsert s' xs t')
    (start : SameState s s') (sound : s.Sound lost) (sound' : s'.Sound lost') : SameState t t' := by
  induction first generalizing s' t' with
  | nil kept =>
    cases second with
    | nil kept' => exact ((SameState.of_kept kept).trans start).trans (SameState.of_kept kept').symm
  | cons added _ ih =>
    cases second with
    | cons added' rest => exact ih rest (start.rowAdded sound sound' added added') added.sound added'.sound

theorem rows (added : RowsAdded k lost upsert s xs t) : t.vectors.rows = s.vectors.rows ++ xs.map Prod.snd := by
  induction added with
  | nil kept => rw [kept.rows, List.map_nil, List.append_nil]
  | cons added _ ih =>
    obtain ⟨_, _, _, _, _, inserted⟩ := added.inserted
    rw [ih, inserted.rows, List.map_cons, List.append_assoc]
    rfl

theorem labels (added : RowsAdded k lost upsert s xs t) : t.ids.labels = s.ids.labels ++ xs.map Prod.fst := by
  induction added with
  | nil kept => rw [kept.ids, List.map_nil, List.append_nil]
  | cons added _ ih =>
    obtain ⟨_, reservation, _, reserves, _, inserted⟩ := added.inserted
    obtain ⟨_, key, _⟩ := IdMap.reserve_spec reserves
    rw [ih, inserted.ids, IdMap.committed, key, List.map_cons, List.append_assoc]
    rfl

theorem config (added : RowsAdded k lost upsert s xs t) : t.config = s.config := by
  induction added with
  | nil kept => exact kept.config
  | cons added _ ih =>
    obtain ⟨_, _, _, _, _, inserted⟩ := added.inserted
    exact ih.trans inserted.config

end RowsAdded
end CollectionState

/-- Row `i` with its id. -/
def Batch.entry (b : Batch) (i : Nat) : ExternalId × List F32 :=
  (b.ids.getD i kInvalidExternalId, (b.data.drop (i * b.dim)).take b.dim)

/-- The rows from `i` up to, but without, `j`. -/
def Batch.between (b : Batch) (i j : Nat) : List (ExternalId × List F32) := (List.range' i (j - i)).map b.entry

namespace Batch
variable {b : Batch} {i j l : Nat}

theorem between_self (b : Batch) (i : Nat) : b.between i i = [] := by
  rw [between, Nat.sub_self]
  rfl

theorem between_append (first : i ≤ j) (second : j ≤ l) : b.between i j ++ b.between j l = b.between i l := by
  rw [between, between, between, ← List.map_append, show l - i = (j - i) + (l - j) by omega]
  congr 1
  rw [← List.range'_append_1, show i + (j - i) = j by omega]

theorem between_succ (b : Batch) (i : Nat) : b.between i (i + 1) = [b.entry i] := by
  rw [between, show i + 1 - i = 1 by omega]
  rfl

theorem row_ok (size : b.data.length = b.ids.length * b.dim) (inside : i < b.ids.length) :
    b.row i = .ok (b.entry i) := by
  have fits : i * b.dim + b.dim ≤ b.data.length := by
    rw [size, ← Nat.succ_mul]
    exact Nat.mul_le_mul_right _ inside
  rw [row, Outcome.index_ok inside, Outcome.ok_bind, Outcome.slice_ok fits, Outcome.ok_bind, entry,
    List.getD_eq_getElem _ _ inside]
  rfl

theorem length_entry (size : b.data.length = b.ids.length * b.dim) (inside : i < b.ids.length) :
    (b.entry i).2.length = b.dim := by
  have fits : i * b.dim + b.dim ≤ b.data.length := by
    rw [size, ← Nat.succ_mul]
    exact Nat.mul_le_mul_right _ inside
  rw [entry, List.length_take, List.length_drop]
  omega

end Batch

namespace Collection
open Op CollectionState
variable {k : KernelTable} {s : CollectionState} {lost : Nat → Prop} {b : Batch} {w : World}

/-- The batch fits the collection: `ids.length` rows of its dimension. -/
structure Batch.Fits (b : Batch) (s : CollectionState) : Prop where
  size : b.data.length = b.ids.length * b.dim
  dim : b.dim = s.vectors.dim

/-- A batch that stopped at row `j` of those from row `i` on. -/
structure Stopped (k : KernelTable) (lost : Nat → Prop) (b : Batch) (w : World) (s : CollectionState)
    (i j : Nat) (e : Exit) (τ : Session) : Prop where
  from_ : i ≤ j
  inside : j < b.ids.length
  added : ∃ t, t.Sound lost ∧ RowsAdded k lost b.upsert s (b.between i j) t ∧
    Untouched w (t.keyRefusal (b.entry j).1 b.upsert) t e τ

theorem insertRow_ends {i : Nat} (sound : s.Sound lost) (fits : Batch.Fits b s) (inside : i < b.ids.length) :
    Ends (insertRow b i (backendAdd k)) ⟨s, w⟩
      (fun _ τ => w.Later τ.world ∧ RowAdded k lost b.upsert s (b.entry i).1 (b.entry i).2 τ.state)
      (Untouched w (s.keyRefusal (b.entry i).1 b.upsert) s) := by
  have length : (b.entry i).2.length = s.vectors.dim := (Batch.length_entry fits.size inside).trans fits.dim
  refine ends_checked (Batch.row_ok fits.size inside)
    (reserveId_ends sound.toCoupled fun ids reservation w' run later => ?_)
  refine Ends.bind ((reserved_ends sound.toCoupled length (fun t => backendAdd_indexes sound)
    (fun _ => LinksRow.fits sound)
    run later).mono ?_ fun _ _ holds => holds)
  rintro _ τ ⟨more, allowed, coupled, ⟨_, reserves⟩, backend, links, inserted⟩
  exact Ends.pure ⟨more, .of sound reserves links inserted coupled allowed⟩

theorem Batch.Fits.of_config {t : CollectionState} (fits : Batch.Fits b s) (coupled : s.Coupled)
    (coupled' : t.Coupled) (config : t.config = s.config) : Batch.Fits b t :=
  ⟨fits.size, by rw [fits.dim, coupled.dim, coupled'.dim, config]⟩

theorem sliceOver_ends {α : Type} {f : Bool → Op α} {post : α → Session → Prop} {exits : Exit → Session → Prop}
    (rest : ∀ ended w', w.Later w' → Ends (f ended) ⟨s, w'⟩ post exits) :
    Ends (sliceOver >>= f) ⟨s, w⟩ post exits :=
  rest _ _ (World.later_of_memory rfl)

/-- A row was added before the batch stopped. -/
theorem Stopped.after {i m j : Nat} {t : CollectionState} {w' : World} {e : Exit} {τ : Session}
    (stopped : Stopped k lost b w' t m j e τ)
    (added : RowsAdded k lost b.upsert s (b.between i m) t) (sound : s.Sound lost)
    (middle : t.Coupled) (low : i ≤ m) (later : w.Later w') : Stopped k lost b w s i j e τ := by
  obtain ⟨from_, inside, u, held, rest, untouched⟩ := stopped
  refine ⟨low.trans from_, inside, u, held, ?_, untouched.of_later later⟩
  rw [← Batch.between_append low from_]
  exact added.append sound middle rest

theorem addSlice_ends : ∀ {left i : Nat} {s : CollectionState} {w : World}, s.Sound lost → Batch.Fits b s →
    i + (left + 1) ≤ b.ids.length → Ends (addSlice k b (left + 1) i) ⟨s, w⟩
      (fun m τ => i < m ∧ m ≤ b.ids.length ∧ w.Later τ.world ∧ τ.state.Sound lost ∧
        RowsAdded k lost b.upsert s (b.between i m) τ.state)
      fun e τ => ∃ j, Stopped k lost b w s i j e τ := by
  intro left
  induction left with
  | zero =>
    intro i s w sound fits inside
    refine Ends.bind ((insertRow_ends sound fits (by omega)).mono ?_ ?_)
    · rintro _ τ ⟨later, added⟩
      refine Ends.pure ⟨by omega, inside, later, added.sound, ?_⟩
      rw [Batch.between_succ]
      exact .single added
    · exact fun e τ untouched => ⟨i, Nat.le_refl i, by
        omega, s, sound, by rw [Batch.between_self]; exact .nil (.refl s), untouched⟩
  | succ left ih =>
    intro i s w sound fits inside
    refine Ends.bind ((insertRow_ends sound fits (by omega)).mono ?_ ?_)
    · rintro _ ⟨t, w₁⟩ ⟨later₁, added⟩
      dsimp only at later₁ added
      have one : RowsAdded k lost b.upsert s (b.between i (i + 1)) t := by
        rw [Batch.between_succ]
        exact .single added
      rw [if_neg (Nat.succ_ne_zero left)]
      refine sliceOver_ends fun ended w₂ later₂ => ?_
      split
      · exact Ends.pure ⟨by omega, by omega, later₁.trans later₂, added.sound, one⟩
      · refine (ih added.sound (fits.of_config sound.toCoupled added.sound.toCoupled one.config)
          (by omega)).mono ?_ ?_
        · rintro m τ ⟨high, low, more, held, rest⟩
          refine ⟨by omega, low, (later₁.trans later₂).trans more, held, ?_⟩
          rw [← Batch.between_append (Nat.le_succ i) high.le]
          exact one.append sound added.sound.toCoupled rest
        · rintro e τ ⟨j, stopped⟩
          exact ⟨j, stopped.after one sound added.sound.toCoupled (Nat.le_succ i) (later₁.trans later₂)⟩
    · exact fun e τ untouched => ⟨i, Nat.le_refl i, by
        omega, s, sound, by rw [Batch.between_self]; exact .nil (.refl s), untouched⟩

/-- Slices of any length: all rows from row `i` on are added, or all up to the one that stopped it. -/
theorem addSlices_ends : ∀ {fuel i : Nat} {s : CollectionState} {w : World}, s.Sound lost → Batch.Fits b s →
    i ≤ b.ids.length → b.ids.length ≤ i + fuel → Ends (addSlices k b fuel i) ⟨s, w⟩
      (fun m τ => m = b.ids.length ∧ w.Later τ.world ∧ τ.state.Sound lost ∧
        RowsAdded k lost b.upsert s (b.between i b.ids.length) τ.state)
      fun e τ => ∃ j, Stopped k lost b w s i j e τ := by
  intro fuel
  induction fuel with
  | zero =>
    intro i s w sound fits low high
    obtain rfl : i = b.ids.length := by omega
    rw [addSlices, if_neg (Nat.lt_irrefl _)]
    refine Ends.pure ⟨rfl, .refl w, sound, ?_⟩
    rw [Batch.between_self]
    exact .nil (.refl s)
  | succ fuel ih =>
    intro i s w sound fits low high
    rw [addSlices]
    split
    next more =>
      obtain ⟨left, count⟩ : ∃ left, b.ids.length - i = left + 1 := ⟨b.ids.length - i - 1, by omega⟩
      rw [count]
      refine Ends.bind ((addSlice_ends sound fits (by omega)).mono ?_ fun _ _ holds => holds)
      rintro m ⟨t, w₁⟩ ⟨after, inside, later, held, added⟩
      dsimp only at later held added
      refine (ih held (fits.of_config sound.toCoupled held.toCoupled added.config) inside (by omega)).mono ?_ ?_
      · rintro n τ ⟨all, more, kept, rest⟩
        refine ⟨all, later.trans more, kept, ?_⟩
        rw [← Batch.between_append after.le inside]
        exact added.append sound held.toCoupled rest
      · rintro e τ ⟨j, stopped⟩
        exact ⟨j, stopped.after added sound held.toCoupled after.le later⟩
    next none =>
      obtain rfl : i = b.ids.length := by omega
      refine Ends.pure ⟨rfl, .refl w, sound, ?_⟩
      rw [Batch.between_self]
      exact .nil (.refl s)

section Validation
variable {ids : List ExternalId} {rows data : List F32} {upsert : Bool}

/-- The rows of a valid batch as they are stored. -/
def batchData (k : KernelTable) (config : CollectionConfig) (ids : List ExternalId) (rows : List F32) :
    Result (List F32) := do
  checkKeys ids
  if config.effectiveNormalize then normalizeRows k rows config.dim.toNat ids.length 0 else return rows

/-- The status of the checks under the lock. -/
def admission (s : CollectionState) (ids : List ExternalId) (upsert : Bool) : Option Status :=
  match if upsert then none else ids.find? s.ids.contains with
  | some id => some (.alreadyExists ("id " ++ toString id ++ " already exists"))
  | none =>
    if s.vectors.size + ids.length > s.vectors.maxRows then
      some (.resourceExhausted ("batch of " ++ toString ids.length ++ " vectors exceeds collection capacity"))
    else none

/-- The status with which `add_batch` refuses its arguments. -/
def batchRefusal (k : KernelTable) (s : CollectionState) (ids : List ExternalId) (rows : List F32)
    (upsert : Bool) : Option Status :=
  match validateBatch rows ids.length s.config.dim.toNat with
  | .error e => some e
  | .ok _ =>
    if ids.length = 0 then none
    else match batchData k s.config ids rows with
      | .error e => some e
      | .ok _ => admission s ids upsert

theorem adjacentFind_eq_none {l : List ExternalId} (sorted : l.Pairwise (· ≤ ·))
    (none : adjacentFind l = none) : l.Nodup := by
  induction l with
  | nil => exact List.nodup_nil
  | cons a rest ih =>
    obtain ⟨head, tail⟩ := List.pairwise_cons.mp sorted
    cases rest with
    | nil => exact List.nodup_singleton a
    | cons b rest =>
      rw [adjacentFind] at none
      split at none
      · cases none
      next different =>
        refine List.nodup_cons.mpr ⟨?_, ih tail none⟩
        intro member
        rcases List.mem_cons.mp member with equal | later
        · exact different equal
        · have low := head b List.mem_cons_self
          have high := (List.pairwise_cons.mp tail).1 a later
          exact different (UInt64.le_antisymm low high)

/-- A batch that passes the check has every id once, and not the reserved one. -/
theorem checkKeys_ok (run : checkKeys ids = .ok ()) : ids.Nodup ∧ kInvalidExternalId ∉ ids := by
  have sorted : (ids.mergeSort fun a b => decide (a ≤ b)).Pairwise (· ≤ ·) := by
    have transitive (a b c : ExternalId) : decide (a ≤ b) = true → decide (b ≤ c) = true →
        decide (a ≤ c) = true := by
      simp only [decide_eq_true_eq]
      exact UInt64.le_trans
    have total (a b : ExternalId) : (decide (a ≤ b) || decide (b ≤ a)) = true := by
      simp only [Bool.or_eq_true, decide_eq_true_eq]
      exact UInt64.le_total a b
    exact (List.pairwise_mergeSort transitive total ids).imp fun le => by simpa using le
  have perm := List.mergeSort_perm ids fun a b => decide (a ≤ b)
  unfold checkKeys at run
  dsimp only at run
  split at run
  · cases run
  next none =>
    split at run
    · cases run
    next last =>
      refine ⟨perm.nodup_iff.mp (adjacentFind_eq_none sorted none), ?_⟩
      intro member
      -- the reserved id is the greatest, so it would be the last
      have held : kInvalidExternalId ∈ ids.mergeSort fun a b => decide (a ≤ b) := perm.mem_iff.mpr member
      generalize (ids.mergeSort fun a b => decide (a ≤ b)) = l at sorted last held
      obtain ⟨front, greatest, rfl⟩ : ∃ front greatest, l = front ++ [greatest] :=
        ⟨_, _, (List.dropLast_append_getLast (List.ne_nil_of_mem held)).symm⟩
      rw [List.getLast?_concat] at last
      refine last (congrArg some ?_)
      have above : kInvalidExternalId ≤ greatest := by
        rcases List.mem_append.mp held with early | late
        · exact (List.pairwise_append.mp sorted).2.2 _ early _ (List.mem_singleton_self _)
        · exact (List.mem_singleton.mp late) ▸ UInt64.le_refl _
      refine UInt64.le_antisymm ?_ above
      have bound := greatest.toNat_lt
      rw [UInt64.le_iff_toNat_le, show kInvalidExternalId.toNat = 2 ^ 64 - 1 from rfl]
      omega

/-- Row by row the batch is normalised as single vectors are. -/
theorem normalizeRows_ok {dim : Nat} : ∀ {left i : Nat} {data : List F32}, (i + left) * dim ≤ rows.length →
    normalizeRows k rows dim left i = .ok data → data.length = left * dim ∧ ∀ j, j < left →
      normalizeInplace k ((rows.drop ((i + j) * dim)).take dim) = .ok ((data.drop (j * dim)).take dim) := by
  intro left
  induction left with
  | zero =>
    intro i data _ run
    cases run
    exact ⟨by rw [Nat.zero_mul]; rfl, fun j none => absurd none (Nat.not_lt_zero j)⟩
  | succ left ih =>
    intro i data fits run
    rw [normalizeRows] at run
    split at run
    · cases run
    next row unit =>
      cases rest : normalizeRows k rows dim left (i + 1) with
      | error e => rw [rest] at run; cases run
      | ok more =>
        rw [rest] at run
        cases run
        obtain ⟨size, each⟩ := ih (by rwa [show i + 1 + left = i + (left + 1) by omega]) rest
        have length : row.length = dim := by
          have bound : i * dim + dim ≤ rows.length := by
            refine Nat.le_trans ?_ fits
            rw [← Nat.succ_mul]
            exact Nat.mul_le_mul_right _ (by omega)
          rw [length_normalizeInplace k unit, List.length_take, List.length_drop]
          omega
        refine ⟨by rw [List.length_append, size, length, Nat.succ_mul, Nat.add_comm], ?_⟩
        intro j below
        cases j with
        | zero => rw [Nat.add_zero, Nat.zero_mul, List.drop_zero, List.take_left' length, unit]
        | succ j =>
          have next := each j (by omega)
          rw [show i + 1 + j = i + (j + 1) by omega] at next
          rw [next, Nat.succ_mul, Nat.add_comm (j * dim) dim, ← List.drop_drop, List.drop_left' length]

/-- A row of a valid batch is a valid vector. -/
theorem validateBatch_row {n dim j : Nat} (valid : validateBatch rows n dim = .ok ()) (below : j < n) :
    validateVector ((rows.drop (j * dim)).take dim) dim = .ok () := by
  obtain ⟨length, components⟩ := validateBatch_ok valid
  have bound : j * dim + dim ≤ rows.length := by
    rw [length, ← Nat.succ_mul]
    exact Nat.mul_le_mul_right _ below
  have size : ((rows.drop (j * dim)).take dim).length = dim := by
    rw [List.length_take, List.length_drop]
    omega
  have accepted : findInvalidComponent ((rows.drop (j * dim)).take dim) = dim := by
    refine Eq.trans (findInvalidComponent_eq_length.mpr fun x member => ?_) size
    exact components x (List.mem_of_mem_drop (List.mem_of_mem_take member))
  rw [validateVector, if_neg (not_not_intro size), if_neg (not_not_intro (accepted.trans size.symm))]

/-- The data of a batch: as many rows as ids, each as `add` would store it. -/
theorem batchData_ok {config : CollectionConfig} (valid : validateBatch rows ids.length config.dim.toNat = .ok ())
    (run : batchData k config ids rows = .ok data) : ids.Nodup ∧ kInvalidExternalId ∉ ids ∧
      data.length = ids.length * config.dim.toNat ∧ ∀ j, j < ids.length →
        storedVector k config ((rows.drop (j * config.dim.toNat)).take config.dim.toNat) =
          .ok ((data.drop (j * config.dim.toNat)).take config.dim.toNat) := by
  have length := (validateBatch_ok valid).1
  unfold batchData at run
  cases keys : checkKeys ids with
  | error e => rw [keys] at run; cases run
  | ok u =>
    rw [keys] at run
    obtain ⟨distinct, real⟩ := checkKeys_ok keys
    change (if config.effectiveNormalize = true then normalizeRows k rows config.dim.toNat ids.length 0 else
      .ok rows) = .ok data at run
    refine ⟨distinct, real, ?_⟩
    split at run
    next normalizes =>
      obtain ⟨size, each⟩ := normalizeRows_ok (by rw [Nat.zero_add]; exact length.ge) run
      refine ⟨size, fun j below => ?_⟩
      have unit := each j below
      rw [Nat.zero_add] at unit
      rw [storedVector, validateBatch_row valid below]
      exact (if_pos normalizes).trans unit
    next plain =>
      cases run
      refine ⟨length, fun j below => ?_⟩
      rw [storedVector, validateBatch_row valid below]
      exact if_neg plain

theorem admitBatch_ends {α : Type} {f : Unit → Op α} {post : α → Session → Prop} {exits : Exit → Session → Prop}
    (refused : ∀ e, admission s ids upsert = some e → exits (.status e) ⟨s, w⟩)
    (rest : admission s ids upsert = none → s.vectors.size + ids.length ≤ s.vectors.maxRows →
      Ends (f ()) ⟨s, w⟩ post exits) :
    Ends (admitBatch ids upsert >>= f) ⟨s, w⟩ post exits := by
  refine Ends.bind (ends_state ?_)
  have capacity (known : (if upsert then none else ids.find? s.ids.contains) = none) :
      Ends (if s.vectors.size + ids.length > s.vectors.maxRows then
        Effect.leave (.status (.resourceExhausted
          ("batch of " ++ toString ids.length ++ " vectors exceeds collection capacity")))
      else pure () : Op Unit) ⟨s, w⟩ (fun a τ => Ends (f a) τ post exits) exits := by
    split
    next full => exact Ends.leave (refused _ (by simp only [admission, known]; exact if_pos full))
    next room =>
      refine Ends.pure (rest ?_ (Nat.le_of_not_lt room))
      simp only [admission, known]
      exact if_neg room
  cases upsert with
  | true => exact capacity rfl
  | false =>
    cases known : ids.find? s.ids.contains with
    | none =>
      simp only [Bool.not_false, if_true]
      exact capacity (by rw [if_neg Bool.false_ne_true, known])
    | some id =>
      simp only [Bool.not_false, if_true]
      exact Ends.bind (Ends.leave (refused _ (by simp only [admission, known, Bool.false_eq_true, if_false])))

theorem prepareBatch_ends {α : Type} {f : List F32 → Op α} {post : α → Session → Prop}
    {exits : Exit → Session → Prop}
    {refusal : Option Status} (coupled : s.Coupled) (refused : ∀ e τ, Untouched w refusal s e τ → exits e τ)
    (invalid : ∀ e, batchData k s.config ids rows = .error e → refusal = some e)
    (rest : ∀ data w', batchData k s.config ids rows = .ok data → w.Later w' → Ends (f data) ⟨s, w'⟩ post exits) :
    Ends (prepareBatch k s.config ids rows >>= f) ⟨s, w⟩ post exits := by
  refine Ends.bind (ends_allocate (fun w' lacked => refused _ _ (untouched_lacked coupled lacked))
    fun w₁ spent => ends_lift ?_ ?_)
  · intro _ keys
    have data : batchData k s.config ids rows =
        if s.config.effectiveNormalize then normalizeRows k rows s.config.dim.toNat ids.length 0 else .ok rows := by
      rw [batchData, keys]
      rfl
    split
    next normalizes =>
      rw [if_pos normalizes] at data
      refine ends_allocate (fun w' lacked =>
        refused _ _ (untouched_lacked coupled (spent.lacked lacked))) fun w₂ more => ?_
      cases unit : normalizeRows k rows s.config.dim.toNat ids.length 0 with
      | ok d => exact Ends.pure (rest d w₂ (data.trans unit) (spent.trans more).later)
      | error e =>
        have no := untouched_refused (w := w₂) coupled (invalid e (data.trans unit))
        exact Ends.leave (refused _ _ (no.of_later (spent.trans more).later))
    next plain =>
      rw [if_neg plain] at data
      exact Ends.pure (rest rows w₁ data spent.later)
  · intro e wrong
    have data : batchData k s.config ids rows = .error e := by
      rw [batchData, wrong]
      rfl
    exact refused _ _ ((untouched_refused coupled (invalid e data)).of_later spent.later)

end Validation

section Reserve
variable {α : Type} {post : α → Session → Prop} {exits : Exit → Session → Prop}

theorem addChunk_kept (coupled : s.Coupled) : Kept s { s with vectors := s.vectors.addChunk } ∧
    ({ s with vectors := s.vectors.addChunk } : CollectionState).Coupled := by
  have rows := coupled.store.rows_addChunk
  refine ⟨⟨rfl, rfl, rfl, rfl, rows, rfl, fun _ => rfl, rfl, rfl⟩, ?_⟩
  exact { coupled with store := coupled.store.addChunk }

/-- Setting memory aside for rows changes nothing, whether it works or not. -/
theorem reserveChunks_ends (rows : Nat) : ∀ {fuel : Nat} {s : CollectionState} {w : World}, s.Coupled →
    Ends (reserveChunks rows fuel) ⟨s, w⟩ (fun _ τ => w.Later τ.world ∧ Kept s τ.state ∧ τ.state.Coupled)
      fun e τ => Untouched w none s e τ := by
  intro fuel
  induction fuel with
  | zero => exact fun coupled => Ends.pure ⟨.refl _, .refl _, coupled⟩
  | succ fuel ih =>
    intro s w coupled
    obtain ⟨kept, grown⟩ := addChunk_kept coupled
    refine ends_state ?_
    dsimp only
    split
    · refine ends_allocate (fun w' lacked => untouched_lacked coupled lacked) fun w₁ spent => ends_setState ?_
      refine (ih grown).mono ?_ ?_
      · exact fun _ τ ⟨later, same, held⟩ => ⟨spent.later.trans later, kept.trans same, held⟩
      · rintro e τ untouched
        have all := untouched.of_later spent.later
        exact ⟨all.later, all.reason, kept.trans all.kept, all.coupled⟩
    · exact Ends.pure ⟨.refl w, .refl s, coupled⟩

theorem reserveVectors_ends {rows : Nat} (coupled : s.Coupled) (room : rows ≤ s.vectors.maxRows) :
    Ends (reserveVectors rows) ⟨s, w⟩ (fun _ τ => w.Later τ.world ∧ Kept s τ.state ∧ τ.state.Coupled)
      (Untouched w none s) := by
  refine ends_state ?_
  have ok : s.vectors.reserve rows = .ok (VectorStore.reserveLoop rows rows s.vectors) :=
    if_neg (Nat.not_lt_of_le room)
  dsimp only
  rw [ok]
  exact reserveChunks_ends rows coupled

theorem Untouched.of_kept {t : CollectionState} {refusal : Option Status} {e : Exit} {τ : Session}
    (untouched : Untouched w refusal t e τ) (kept : Kept s t) : Untouched w refusal s e τ :=
  ⟨untouched.later, untouched.reason, kept.trans untouched.kept, untouched.coupled⟩

/-- An exception says nothing about the arguments. -/
theorem Untouched.of_none {refusal : Option Status} {e : Exit} {τ : Session} (untouched : Untouched w none s e τ) :
    Untouched w refusal s e τ := by
  refine ⟨untouched.later, ?_, untouched.kept, untouched.coupled⟩
  rcases untouched.reason with threw | ⟨status, _, none⟩
  · exact .inl threw
  · cases none

/-- Memory for rows, labels and bits. -/
theorem reserveAll_ends {rows labels : Nat} (coupled : s.Coupled) (room : rows ≤ s.vectors.maxRows) {p : Op α}
    (rest : ∀ t w', w.Later w' → Kept s t → t.Coupled → TombstoneSet.wordsFor labels ≤ t.deleted.words.length →
      Ends p ⟨t, w'⟩ post exits) (refused : ∀ e τ, Untouched w none s e τ → exits e τ) :
    Ends (do reserveVectors rows; allocate; ensureSize labels; p) ⟨s, w⟩ post exits := by
  refine Ends.bind ((reserveVectors_ends coupled room).mono ?_ refused)
  rintro _ ⟨t, w₁⟩ ⟨later, kept, held⟩
  dsimp only at later kept held
  refine ends_allocate (fun w' lacked =>
    refused _ _ ((untouched_lacked held lacked).of_kept kept |>.of_later later))
    fun w₂ spent => Ends.bind (ends_allocate ?_ ?_)
  · exact fun w' lacked => refused _ _
      ((untouched_lacked held (spent.lacked lacked)).of_kept kept |>.of_later later)
  · intro w₃ more
    obtain ⟨same, wide⟩ := held.widen labels
    refine ends_state (ends_set (rest _ w₃ (later.trans (spent.trans more).later) (kept.trans same) wide ?_))
    simp only [TombstoneSet.ensureSize, List.length_append, List.length_replicate]
    omega

end Reserve

section Opening
variable {ids : List ExternalId} {rows : List F32} {upsert : Bool} {pool : Option ThreadPool}
  {exits : Exit → Session → Prop}

/-- `add_batch` up to the first row, for a batch that has one. -/
def openBatch (k : KernelTable) (ids : List ExternalId) (rows : List F32) (upsert : Bool)
    (pool : Option ThreadPool) : Op Batch := do
  let s ← state
  lift (validateBatch rows ids.length s.config.dim.toNat)
  let data ← prepareBatch k s.config ids rows
  admitBatch ids upsert
  reserveVectors (s.vectors.size + ids.length)
  allocate
  ensureSize (s.vectors.size + ids.length)
  return { ids, data, dim := s.config.dim.toNat, upsert, pool }

theorem addBatch_opens (some : ids.length ≠ 0) : addBatch k ids rows upsert pool ⟨s, w⟩ =
    (openBatch k ids rows upsert pool >>= fun b =>
      if s.config.index = .hnsw ∧ s.config.concurrency = .concurrent then addBatchConcurrent k b
      else addSlices k b ids.length 0) ⟨s, w⟩ := by
  rw [addBatch, openBatch, bind_assoc]
  change (lift _ >>= _) _ = _
  simp only [if_neg some, bind_assoc]
  rfl

theorem openBatch_ends {post : Batch → Session → Prop} (coupled : s.Coupled) (some : ids.length ≠ 0)
    (refused : ∀ e τ, Untouched w (batchRefusal k s ids rows upsert) s e τ → exits e τ)
    (rest : ∀ data t w', validateBatch rows ids.length s.config.dim.toNat = .ok () →
      batchRefusal k s ids rows upsert = none → batchData k s.config ids rows = .ok data → w.Later w' →
      Kept s t → t.Coupled →
      post { ids, data, dim := s.config.dim.toNat, upsert, pool } ⟨t, w'⟩) :
    Ends (openBatch k ids rows upsert pool) ⟨s, w⟩ post exits := by
  refine ends_state (ends_lift ?_ ?_)
  · intro _ valid
    have refusal : batchRefusal k s ids rows upsert = match batchData k s.config ids rows with
        | .error e => Option.some e
        | .ok _ => admission s ids upsert := by
      simp only [batchRefusal, valid, if_neg some]
    have prepare (data : List F32) (w' : World) (known : batchData k s.config ids rows = .ok data)
        (later : w.Later w') : Ends (do
          admitBatch ids upsert
          reserveVectors (s.vectors.size + ids.length)
          allocate
          ensureSize (s.vectors.size + ids.length)
          return { ids, data, dim := s.config.dim.toNat, upsert, pool } : Op Batch) ⟨s, w'⟩ post exits := by
      rw [known] at refusal
      dsimp only at refusal
      refine admitBatch_ends ?_ ?_
      · exact fun e no => refused _ _ ((untouched_refused coupled (refusal.trans no)).of_later later)
      · intro admitted room
        refine reserveAll_ends coupled room ?_ fun e τ untouched => refused e τ (untouched.of_none.of_later later)
        exact fun t w₁ more kept held _ =>
          Ends.pure (rest data t w₁ valid (refusal.trans admitted) known (later.trans more) kept held)
    refine prepareBatch_ends coupled refused ?_ prepare
    intro e wrong
    rw [refusal, wrong]
  · intro e invalid
    refine refused _ _ (untouched_refused coupled ?_)
    simp only [batchRefusal, invalid]

/-- `add_batch` up to the first row. -/
theorem addBatch_prepares {post : Nat → Session → Prop} (coupled : s.Coupled)
    (refused : ∀ e τ, Untouched w (batchRefusal k s ids rows upsert) s e τ → exits e τ)
    (empty : validateBatch rows ids.length s.config.dim.toNat = .ok () → ids.length = 0 → post 0 ⟨s, w⟩)
    (rest : ∀ data t w', validateBatch rows ids.length s.config.dim.toNat = .ok () →
      batchRefusal k s ids rows upsert = none → batchData k s.config ids rows = .ok data → w.Later w' →
      Kept s t → t.Coupled →
      Ends (if s.config.index = .hnsw ∧ s.config.concurrency = .concurrent then
        addBatchConcurrent k { ids, data, dim := s.config.dim.toNat, upsert, pool }
        else addSlices k { ids, data, dim := s.config.dim.toNat, upsert, pool } ids.length 0) ⟨t, w'⟩ post exits) :
    Ends (addBatch k ids rows upsert pool) ⟨s, w⟩ post exits := by
  by_cases none : ids.length = 0
  · refine ends_state (ends_lift (fun _ valid => ?_) fun e invalid => refused _ _ (untouched_refused coupled ?_))
    · dsimp only
      rw [if_pos none]
      exact Ends.pure (empty valid none)
    · simp only [batchRefusal, invalid]
  · exact Ends.of_eq (addBatch_opens none) (Ends.bind (openBatch_ends coupled none refused rest))

end Opening

end Collection
end VectorForge
