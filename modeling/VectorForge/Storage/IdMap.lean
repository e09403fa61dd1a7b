import VectorForge.Storage.Tombstones

namespace VectorForge

/-- `IdMap`: external id to row number through the map, row number to external id
through the labels. An entry is pending between `reserve` and `commit` or `rollback`. -/
structure IdMap.Entry where
  current : Nat := kInvalidInternalId
  pending : Bool := false
  deriving DecidableEq, Repr

structure IdMap where
  map : Finmap (fun _ : ExternalId => IdMap.Entry) := ∅
  labels : List ExternalId := []
  live : Nat := 0
  deriving DecidableEq

namespace IdMap

structure Reservation where
  external : ExternalId := kInvalidExternalId
  previous : Nat := kInvalidInternalId
  deriving DecidableEq, Repr

def reserve (m : IdMap) (external : ExternalId) (upsert : Bool) : Result (IdMap × Reservation) :=
  if external = kInvalidExternalId then
    .error (.invalidArgument ("external id " ++ toString external ++ " is reserved"))
  else match m.map.lookup external with
    | none =>
      .ok ({ m with map := m.map.insert external { pending := true } },
        { external, previous := kInvalidInternalId })
    | some entry =>
      if entry.pending then
        .error (.alreadyExists ("id " ++ toString external ++ " has an insert in progress"))
      else if !upsert then
        .error (.alreadyExists ("id " ++ toString external ++ " already exists"))
      else
        .ok ({ m with map := m.map.insert external { entry with pending := true } },
          { external, previous := entry.current })

/-- The map after the commit and the row that `external` named before. -/
def commit (m : IdMap) (reservation : Reservation) (internal : Nat) : Checked (IdMap × Nat) := do
  Outcome.check (decide (internal = m.labels.length)) "IdMap::commit: labels must be appended in row order"
  match m.map.lookup reservation.external with
  | some entry =>
    Outcome.check entry.pending "IdMap::commit without reservation"
    return ({ map := m.map.insert reservation.external { current := internal, pending := false }
              labels := m.labels ++ [reservation.external]
              live := if entry.current = kInvalidInternalId then m.live + 1 else m.live },
      entry.current)
  | none => Outcome.crash (.checkFailed "IdMap::commit without reservation")

def rollback (m : IdMap) (reservation : Reservation) : Checked IdMap :=
  match m.map.lookup reservation.external with
  | some entry => do
    Outcome.check entry.pending "IdMap::rollback without reservation"
    if reservation.previous = kInvalidInternalId then
      return { m with map := m.map.erase reservation.external }
    else
      return { m with map := m.map.insert reservation.external { entry with pending := false } }
  | none => Outcome.crash (.checkFailed "IdMap::rollback without reservation")

def erase (m : IdMap) (external : ExternalId) : Result (IdMap × Nat) :=
  match m.map.lookup external with
  | none => .error (.notFound ("id " ++ toString external ++ " not found"))
  | some entry =>
    if entry.current = kInvalidInternalId then .error (.notFound ("id " ++ toString external ++ " not found"))
    else if entry.pending then
      .error (.alreadyExists ("id " ++ toString external ++ " has an insert in progress"))
    else .ok ({ m with map := m.map.erase external, live := m.live - 1 }, entry.current)

def revert (m : IdMap) (reservation : Reservation) (internal : Nat) : Checked IdMap :=
  match m.map.lookup reservation.external with
  | some entry => do
    Outcome.check (!entry.pending && decide (entry.current = internal)) "IdMap::revert: key does not map to the row"
    if reservation.previous ≠ kInvalidInternalId then
      return { m with map := m.map.insert reservation.external { entry with current := reservation.previous } }
    else
      return { m with map := m.map.erase reservation.external, live := m.live - 1 }
  | none => Outcome.crash (.checkFailed "IdMap::revert: key does not map to the row")

def find (m : IdMap) (external : ExternalId) : Option Nat :=
  match m.map.lookup external with
  | none => none
  | some entry => if entry.current = kInvalidInternalId then none else some entry.current

def contains (m : IdMap) (external : ExternalId) : Bool := (m.find external).isSome

def labelCount (m : IdMap) : Nat := m.labels.length

def size (m : IdMap) : Nat := m.live

/-- The loop of `restore` over the labels from row `i` on. -/
def restoreRows (deleted : TombstoneSet) :
    Nat → List ExternalId → Finmap (fun _ : ExternalId => Entry) → Result (Finmap fun _ : ExternalId => Entry)
  | _, [], map => .ok map
  | i, external :: rest, map =>
    if deleted.test i then restoreRows deleted (i + 1) rest map
    else if external = kInvalidExternalId then
      .error (.corruptData ("LABELS: live row " ++ toString i ++ " has the reserved external id"))
    else match map.lookup external with
      | some entry =>
        .error (.corruptData ("LABELS: external id " ++ toString external ++ " labels live rows " ++
          toString entry.current ++ " and " ++ toString i))
      | none => restoreRows deleted (i + 1) rest (map.insert external { current := i })

def restore (labels : List ExternalId) (deleted : TombstoneSet) : Result IdMap := do
  let map ← restoreRows deleted 0 labels ∅
  return { map, labels, live := map.keys.card }

/-- The map between two operations: exactly the unmarked rows are mapped, each by its
own label, and nothing is in flight. -/
structure Settled (m : IdMap) (deleted : TombstoneSet) : Prop where
  maps : ∀ id r, m.map.lookup id = some ⟨r, false⟩ ↔ m.labels[r]? = some id ∧ deleted.test r = false
  quiet : ∀ id entry, m.map.lookup id = some entry → entry.pending = false
  unreserved : m.map.lookup kInvalidExternalId = none
  counted : m.live = m.map.keys.card

section Settled
variable {m : IdMap} {deleted : TombstoneSet} {id : ExternalId} {r : Nat}

theorem Settled.entry (settled : m.Settled deleted) {entry : Entry} (found : m.map.lookup id = some entry) :
    entry = ⟨entry.current, false⟩ ∧ m.labels[entry.current]? = some id ∧ deleted.test entry.current = false := by
  have quiet := settled.quiet id entry found
  have shape : entry = ⟨entry.current, false⟩ := by
    cases entry
    simp_all
  rw [shape] at found
  exact ⟨shape, (settled.maps id entry.current).mp found⟩

theorem Settled.row_lt (settled : m.Settled deleted) {entry : Entry} (found : m.map.lookup id = some entry) :
    entry.current < m.labels.length := by
  obtain ⟨_, label, _⟩ := settled.entry found
  exact (List.getElem?_eq_some_iff.mp label).1

theorem Settled.find_eq_some (settled : m.Settled deleted) (small : m.labels.length ≤ kMaxVectorsPerCollection) :
    m.find id = some r ↔ m.labels[r]? = some id ∧ deleted.test r = false := by
  rw [← settled.maps id r, find]
  cases found : m.map.lookup id with
  | none => simp
  | some entry =>
    have bound := settled.row_lt found
    have shape := (settled.entry found).1
    have real : entry.current ≠ kInvalidInternalId := by
      simp only [kMaxVectorsPerCollection] at small
      omega
    simp only [if_neg real, Option.some.injEq]
    constructor
    · rintro rfl
      exact shape
    · intro same
      rw [same]

theorem Settled.live_unique (settled : m.Settled deleted) {a b : Nat} (first : m.labels[a]? = some id)
    (second : m.labels[b]? = some id) (liveA : deleted.test a = false)
    (liveB : deleted.test b = false) : a = b := by
  have atA := (settled.maps id a).mpr ⟨first, liveA⟩
  have atB := (settled.maps id b).mpr ⟨second, liveB⟩
  have same := atA.symm.trans atB
  simp only [Option.some.injEq, Entry.mk.injEq, and_true] at same
  exact same

/-- Two settled maps over the same labels and marks are the same map. -/
theorem Settled.unique {n : IdMap} {other : TombstoneSet} (settled : m.Settled deleted) (again : n.Settled other)
    (labels : n.labels = m.labels) (marks : ∀ i, other.test i = deleted.test i) : n = m := by
  have step {a b : IdMap} {da db : TombstoneSet} (sa : a.Settled da) (sb : b.Settled db) (l : b.labels = a.labels)
      (d : ∀ i, db.test i = da.test i) {id : ExternalId} {entry : Entry} (found : a.map.lookup id = some entry) :
      b.map.lookup id = some entry := by
    obtain ⟨shape, label, mark⟩ := sa.entry found
    rw [shape, sb.maps, l, d]
    exact ⟨label, mark⟩
  have map : n.map = m.map := by
    apply Finmap.ext_lookup
    intro id
    cases left : n.map.lookup id with
    | some entry => exact (step again settled labels.symm (fun i => (marks i).symm) left).symm
    | none =>
      cases right : m.map.lookup id with
      | none => rfl
      | some entry =>
        rw [step settled again labels marks right] at left
        cases left
  have live : n.live = m.live := by rw [again.counted, settled.counted, map]
  cases n
  cases m
  simp_all

/-- Every row is either mapped or marked. -/
theorem Settled.live_add_count (settled : m.Settled deleted) (tracks : deleted.Tracks m.labels.length) :
    m.live + deleted.count = m.labels.length := by
  have bij : m.map.keys.card = ((Finset.range m.labels.length).filter fun i => ¬deleted.test i = true).card := by
    symm
    apply Finset.card_bij (fun i _ => m.labels.getD i kInvalidExternalId)
    · intro i member
      simp only [Finset.mem_filter, Finset.mem_range, Bool.not_eq_true] at member
      have label : m.labels[i]? = some (m.labels.getD i kInvalidExternalId) := by
        simp [List.getD_eq_getElem?_getD, List.getElem?_eq_getElem member.1]
      exact Finmap.mem_keys.mpr (Finmap.mem_of_lookup_eq_some ((settled.maps _ i).mpr ⟨label, member.2⟩))
    · intro a memberA b memberB same
      simp only [Finset.mem_filter, Finset.mem_range, Bool.not_eq_true] at memberA memberB
      have labelA : m.labels[a]? = some (m.labels.getD a kInvalidExternalId) := by
        simp [List.getD_eq_getElem?_getD, List.getElem?_eq_getElem memberA.1]
      have labelB : m.labels[b]? = some (m.labels.getD a kInvalidExternalId) := by
        rw [same]
        simp [List.getD_eq_getElem?_getD, List.getElem?_eq_getElem memberB.1]
      exact settled.live_unique labelA labelB memberA.2 memberB.2
    · intro id member
      obtain ⟨entry, found⟩ := Finmap.mem_iff.mp (Finmap.mem_keys.mp member)
      obtain ⟨_, label, mark⟩ := settled.entry found
      refine ⟨entry.current, ?_, ?_⟩
      · simp only [Finset.mem_filter, Finset.mem_range, Bool.not_eq_true]
        exact ⟨settled.row_lt found, mark⟩
      · simp [List.getD_eq_getElem?_getD, label]
  rw [settled.counted, bij, tracks.exact, TombstoneSet.marked, Nat.add_comm,
    Finset.card_filter_add_card_filter_not, Finset.card_range]

end Settled

section Restore
variable {deleted : TombstoneSet} {labels : List ExternalId}

/-- The entries that the loop of `restore` has made of the rows below `i`. -/
structure Restored (labels : List ExternalId) (deleted : TombstoneSet) (i : Nat)
    (map : Finmap fun _ : ExternalId => Entry) : Prop where
  maps : ∀ id r, map.lookup id = some ⟨r, false⟩ ↔ r < i ∧ labels[r]? = some id ∧ deleted.test r = false
  quiet : ∀ id entry, map.lookup id = some entry → entry.pending = false
  unreserved : map.lookup kInvalidExternalId = none

theorem Restored.start (labels : List ExternalId) (deleted : TombstoneSet) : Restored labels deleted 0 ∅ :=
  ⟨by simp, by simp, by simp⟩

theorem Restored.skip {i : Nat} {map : Finmap fun _ : ExternalId => Entry} (before : Restored labels deleted i map)
    (marked : deleted.test i = true) : Restored labels deleted (i + 1) map := by
  refine ⟨?_, before.quiet, before.unreserved⟩
  intro id r
  rw [before.maps]
  constructor
  · rintro ⟨bound, rest⟩
    exact ⟨by omega, rest⟩
  · rintro ⟨bound, label, mark⟩
    have different : r ≠ i := by
      rintro rfl
      rw [marked] at mark
      cases mark
    exact ⟨by omega, label, mark⟩

theorem Restored.next {i : Nat} {external : ExternalId} {map : Finmap fun _ : ExternalId => Entry}
    (before : Restored labels deleted i map) (label : labels[i]? = some external)
    (unmarked : deleted.test i = false)
    (real : external ≠ kInvalidExternalId) (fresh : map.lookup external = none) :
    Restored labels deleted (i + 1) (map.insert external { current := i }) := by
  refine ⟨?_, ?_, ?_⟩
  · intro id r
    by_cases same : id = external
    · subst same
      rw [Finmap.lookup_insert]
      simp only [Option.some.injEq, Entry.mk.injEq, and_true]
      constructor
      · rintro rfl
        exact ⟨by omega, label, unmarked⟩
      · rintro ⟨bound, atR, mark⟩
        by_contra different
        have old := (before.maps id r).mpr ⟨by omega, atR, mark⟩
        rw [fresh] at old
        cases old
    · rw [Finmap.lookup_insert_of_ne _ same, before.maps]
      constructor
      · rintro ⟨bound, rest⟩
        exact ⟨by omega, rest⟩
      · rintro ⟨bound, atR, mark⟩
        have different : r ≠ i := by
          rintro rfl
          rw [label] at atR
          exact same (Option.some.inj atR).symm
        exact ⟨by omega, atR, mark⟩
  · intro id entry found
    by_cases same : id = external
    · subst same
      rw [Finmap.lookup_insert] at found
      cases found
      rfl
    · rw [Finmap.lookup_insert_of_ne _ same] at found
      exact before.quiet id entry found
  · rw [Finmap.lookup_insert_of_ne _ real.symm, before.unreserved]

theorem restoreRows_spec {map done : Finmap fun _ : ExternalId => Entry} : ∀ {rest : List ExternalId} {i : Nat},
    labels.drop i = rest → Restored labels deleted i map → restoreRows deleted i rest map = .ok done →
    Restored labels deleted labels.length done := by
  intro rest
  induction rest generalizing map with
  | nil =>
    intro i tail before run
    cases run
    have size : labels.length ≤ i := List.drop_eq_nil_iff.mp tail
    refine ⟨?_, before.quiet, before.unreserved⟩
    intro id r
    rw [before.maps]
    constructor
    · rintro ⟨_, label, mark⟩
      exact ⟨(List.getElem?_eq_some_iff.mp label).1, label, mark⟩
    · rintro ⟨bound, more⟩
      exact ⟨by omega, more⟩
  | cons external rest ih =>
    intro i tail before run
    have label : labels[i]? = some external := by
      have first := congrArg (fun l => l[0]?) tail
      simpa using first
    have next : labels.drop (i + 1) = rest := by
      rw [← List.drop_drop, tail]
      rfl
    unfold restoreRows at run
    split at run
    · next marked => exact ih next (before.skip marked) run
    next unmarked =>
    split at run
    · cases run
    next real =>
    split at run
    · cases run
    · next fresh => exact ih next (before.next label (by simpa using unmarked) real fresh) run

/-- An accepted label array gives a settled map over the same labels. -/
theorem restore_settled {m : IdMap} (run : restore labels deleted = .ok m) :
    m.labels = labels ∧ m.Settled deleted := by
  unfold restore at run
  cases rows : restoreRows deleted 0 labels ∅ with
  | error e =>
    rw [rows] at run
    cases run
  | ok map =>
    rw [rows] at run
    cases run
    have done := restoreRows_spec rfl (Restored.start labels deleted) rows
    refine ⟨rfl, ?_, done.quiet, done.unreserved, rfl⟩
    intro id r
    rw [done.maps]
    constructor
    · rintro ⟨_, rest⟩
      exact rest
    · rintro ⟨label, mark⟩
      exact ⟨(List.getElem?_eq_some_iff.mp label).1, label, mark⟩

theorem restoreRows_total (real : ∀ r id, labels[r]? = some id → deleted.test r = false → id ≠ kInvalidExternalId)
    (distinct : ∀ a b id, labels[a]? = some id → labels[b]? = some id → deleted.test a = false →
      deleted.test b = false → a = b) : ∀ {rest : List ExternalId} {i : Nat}
    {map : Finmap fun _ : ExternalId => Entry}, labels.drop i = rest → Restored labels deleted i map →
    ∃ done, restoreRows deleted i rest map = .ok done := by
  intro rest
  induction rest with
  | nil => exact fun _ _ => ⟨_, rfl⟩
  | cons external rest ih =>
    intro i map tail before
    have label : labels[i]? = some external := by
      have first := congrArg (fun l => l[0]?) tail
      simpa using first
    have next : labels.drop (i + 1) = rest := by
      rw [← List.drop_drop, tail]
      rfl
    unfold restoreRows
    cases marked : deleted.test i with
    | true =>
      rw [if_pos rfl]
      exact ih next (before.skip marked)
    | false =>
      rw [if_neg (by simp), if_neg (real i external label marked)]
      cases fresh : map.lookup external with
      | none => exact ih next (before.next label marked (real i external label marked) fresh)
      | some entry =>
        have quiet := before.quiet external entry fresh
        have shape : entry = ⟨entry.current, false⟩ := by
          cases entry
          simp_all
        rw [shape] at fresh
        obtain ⟨bound, atR, mark⟩ := (before.maps external entry.current).mp fresh
        have same := distinct _ _ external atR label mark marked
        omega

/-- What a settled map wrote is accepted again and gives back the same map. -/
theorem Settled.restore {m : IdMap} {other : TombstoneSet} (settled : m.Settled deleted)
    (marks : ∀ i, other.test i = deleted.test i) : restore m.labels other = .ok m := by
  obtain ⟨map, run⟩ := restoreRows_total
    (by
      intro r id label mark invalid
      subst invalid
      rw [marks] at mark
      have found := (settled.maps _ r).mpr ⟨label, mark⟩
      rw [settled.unreserved] at found
      cases found)
    (by
      intro a b id labelA labelB liveA liveB
      rw [marks] at liveA liveB
      exact settled.live_unique labelA labelB liveA liveB)
    (List.drop_zero (l := m.labels)) (Restored.start m.labels other)
  have done : IdMap.restore m.labels other = .ok { map, labels := m.labels, live := map.keys.card } := by
    rw [IdMap.restore, run]
    rfl
  have again := (restore_settled done).2
  rw [done, settled.unique again rfl marks]

end Restore

section Operations
variable {m n : IdMap} {deleted : TombstoneSet} {external : ExternalId} {upsert : Bool} {reservation : Reservation}

/-- A granted reservation changes one entry, and remembers the row it named. -/
theorem reserve_spec (run : m.reserve external upsert = .ok (n, reservation)) :
    external ≠ kInvalidExternalId ∧ reservation.external = external ∧ n.labels = m.labels ∧ n.live = m.live ∧
      n.map = m.map.insert external ⟨reservation.previous, true⟩ ∧
      ((m.map.lookup external = none ∧ reservation.previous = kInvalidInternalId) ∨
        (upsert = true ∧ m.map.lookup external = some ⟨reservation.previous, false⟩)) := by
  unfold reserve at run
  split at run
  · cases run
  next real =>
  split at run
  · next fresh =>
    cases run
    exact ⟨real, rfl, rfl, rfl, rfl, Or.inl ⟨fresh, rfl⟩⟩
  · next entry found =>
    split at run
    · cases run
    next quiet =>
    split at run
    · cases run
    next allowed =>
    cases run
    have shape : entry = ⟨entry.current, false⟩ := by
      cases entry
      simp_all
    refine ⟨real, rfl, rfl, rfl, rfl, Or.inr ⟨by simpa using allowed, ?_⟩⟩
    rw [found]
    exact congrArg some shape

/-- When `reserve` succeeds, and for a settled map why it fails. -/
theorem Settled.reserve_total (settled : m.Settled deleted) (real : external ≠ kInvalidExternalId)
    (allowed : upsert = true ∨ m.map.lookup external = none) : ∃ n reservation,
      m.reserve external upsert = .ok (n, reservation) := by
  unfold reserve
  rw [if_neg real]
  cases found : m.map.lookup external with
  | none => exact ⟨_, _, rfl⟩
  | some entry =>
    have quiet := settled.quiet external entry found
    have yes : upsert = true := by
      rcases allowed with yes | none
      · exact yes
      · rw [found] at none
        cases none
    simp only [quiet, yes, Bool.not_true, Bool.false_eq_true, if_false]
    exact ⟨_, _, rfl⟩

theorem Settled.previous_real (settled : m.Settled deleted) (small : m.labels.length ≤ kMaxVectorsPerCollection)
    {r : Nat} (found : m.map.lookup external = some ⟨r, false⟩) : r ≠ kInvalidInternalId := by
  have bound : r < m.labels.length := settled.row_lt found
  simp only [kMaxVectorsPerCollection] at small
  omega

/-- A rolled back reservation leaves no trace. -/
theorem Settled.rollback (settled : m.Settled deleted) (small : m.labels.length ≤ kMaxVectorsPerCollection)
    (run : m.reserve external upsert = .ok (n, reservation)) : n.rollback reservation = .ok m := by
  obtain ⟨_, rfl, labels, live, map, before⟩ := reserve_spec run
  have found : n.map.lookup reservation.external = some ⟨reservation.previous, true⟩ := by
    rw [map, Finmap.lookup_insert]
  have restored : ∀ back, (∀ id, back.lookup id = m.map.lookup id) → ({ n with map := back } : IdMap) = m := by
    intro back same
    have equal : back = m.map := Finmap.ext_lookup same
    cases n
    cases m
    simp_all
  rw [IdMap.rollback, found]
  simp only [Outcome.check, if_true, Outcome.ok_bind]
  rcases before with ⟨fresh, invalid⟩ | ⟨_, old⟩
  · rw [if_pos invalid, Outcome.pure_eq_ok, restored]
    intro id
    rw [map]
    by_cases same : id = reservation.external
    · rw [same, Finmap.lookup_erase, fresh]
    · rw [Finmap.lookup_erase_ne same, Finmap.lookup_insert_of_ne _ same]
  · rw [if_neg (settled.previous_real small old), Outcome.pure_eq_ok, restored]
    intro id
    rw [map]
    by_cases same : id = reservation.external
    · rw [same, Finmap.lookup_insert, old]
    · rw [Finmap.lookup_insert_of_ne _ same, Finmap.lookup_insert_of_ne _ same]

/-- The map after a reservation of `reservation` in `m` was committed for the next row. -/
def committed (m : IdMap) (reservation : Reservation) : IdMap where
  map := m.map.insert reservation.external ⟨m.labels.length, false⟩
  labels := m.labels ++ [reservation.external]
  live := if reservation.previous = kInvalidInternalId then m.live + 1 else m.live

theorem commit_spec (run : m.reserve external upsert = .ok (n, reservation)) :
    n.commit reservation m.labels.length = .ok (m.committed reservation, reservation.previous) := by
  obtain ⟨_, rfl, labels, live, map, _⟩ := reserve_spec run
  have found : n.map.lookup reservation.external = some ⟨reservation.previous, true⟩ := by
    rw [map, Finmap.lookup_insert]
  rw [commit, found]
  simp only [Outcome.check, labels, decide_true, if_true, Outcome.ok_bind, Outcome.pure_eq_ok, committed, live, map,
    Finmap.insert_insert]

/-- A committed row is live as soon as the row it replaced is marked. -/
theorem Settled.commit {after : TombstoneSet} (settled : m.Settled deleted)
    (small : m.labels.length ≤ kMaxVectorsPerCollection)
    (run : m.reserve external upsert = .ok (n, reservation)) (unmarked : deleted.test m.labels.length = false)
    (marks : ∀ i, after.test i = (deleted.test i || decide (i = reservation.previous ∧ i < m.labels.length))) :
    (m.committed reservation).Settled after := by
  obtain ⟨real, rfl, _, _, _, before⟩ := reserve_spec run
  have fresh : after.test m.labels.length = false := by
    rw [marks, unmarked]
    simp
  have other : ∀ {id r}, id ≠ reservation.external →
      (m.labels[r]? = some id ∧ deleted.test r = false ↔
        (m.labels ++ [reservation.external])[r]? = some id ∧ after.test r = false) := by
    intro id r different
    by_cases bound : r < m.labels.length
    · rw [List.getElem?_append_left bound, marks]
      have kept : m.labels[r]? = some id → deleted.test r = false → r ≠ reservation.previous := by
        rintro label mark rfl
        rcases before with ⟨_, invalid⟩ | ⟨_, old⟩
        · rw [invalid] at bound
          simp only [kMaxVectorsPerCollection] at small
          omega
        · have found := ((settled.maps _ _).mp old).1
          rw [label] at found
          exact different (Option.some.inj found)
      constructor
      · rintro ⟨label, mark⟩
        refine ⟨label, ?_⟩
        simp [mark, kept label mark]
      · rintro ⟨label, mark⟩
        refine ⟨label, ?_⟩
        simp only [Bool.or_eq_false_iff] at mark
        exact mark.1
    · have none : m.labels[r]? = Option.none := List.getElem?_eq_none (by omega)
      rw [none, List.getElem?_append_right (by omega)]
      constructor
      · rintro ⟨label, _⟩
        cases label
      · rintro ⟨label, _⟩
        have member := List.mem_of_getElem? label
        rw [List.mem_singleton] at member
        exact absurd member different
  refine ⟨?_, ?_, ?_, ?_⟩
  · intro id r
    by_cases same : id = reservation.external
    · subst same
      rw [committed, Finmap.lookup_insert]
      simp only [Option.some.injEq, Entry.mk.injEq, and_true]
      constructor
      · rintro rfl
        refine ⟨by simp, fresh⟩
      · rintro ⟨label, mark⟩
        by_cases bound : r < m.labels.length
        · rw [List.getElem?_append_left bound] at label
          rw [marks] at mark
          simp only [Bool.or_eq_false_iff, decide_eq_false_iff_not, not_and] at mark
          have old := (settled.maps _ r).mpr ⟨label, mark.1⟩
          rcases before with ⟨absent, _⟩ | ⟨_, found⟩
          · rw [absent] at old
            cases old
          · rw [found] at old
            simp only [Option.some.injEq, Entry.mk.injEq, and_true] at old
            exact absurd bound (mark.2 old.symm)
        · have last := (List.getElem?_eq_some_iff.mp label).1
          simp only [List.length_append, List.length_singleton] at last
          omega
    · rw [committed, Finmap.lookup_insert_of_ne _ same, settled.maps]
      exact other same
  · intro id entry found
    by_cases same : id = reservation.external
    · subst same
      rw [committed, Finmap.lookup_insert] at found
      cases found
      rfl
    · rw [committed, Finmap.lookup_insert_of_ne _ same] at found
      exact settled.quiet id entry found
  · rw [committed, Finmap.lookup_insert_of_ne _ real.symm, settled.unreserved]
  · have keys : (m.committed reservation).map.keys = insert reservation.external m.map.keys := by
      ext id
      simp only [committed, Finmap.mem_keys, Finmap.mem_insert, Finset.mem_insert]
    rw [keys]
    rcases before with ⟨absent, invalid⟩ | ⟨_, found⟩
    · have new : reservation.external ∉ m.map.keys := by
        rw [Finmap.mem_keys, ← Finmap.lookup_eq_none]
        exact absent
      rw [Finset.card_insert_of_notMem new, ← settled.counted, committed, invalid]
      simp
    · have old : reservation.external ∈ m.map.keys := Finmap.mem_keys.mpr (Finmap.mem_of_lookup_eq_some found)
      rw [Finset.insert_eq_of_mem old, ← settled.counted, committed]
      simp [settled.previous_real small found]

/-- Reverting a commit while the new row is marked and the old row, if there was one,
is unmarked: the id names its old row again, or nothing. -/
theorem Settled.revert {after : TombstoneSet} {internal : Nat} (settled : m.Settled deleted)
    (small : m.labels.length ≤ kMaxVectorsPerCollection)
    (found : m.map.lookup reservation.external = some ⟨internal, false⟩)
    (old : reservation.previous = kInvalidInternalId ∨
      m.labels[reservation.previous]? = some reservation.external ∧ deleted.test reservation.previous = true)
    (marks : ∀ i, after.test i = ((deleted.test i || decide (i = internal)) &&
      !decide (i = reservation.previous ∧ reservation.previous ≠ kInvalidInternalId))) :
    ∃ n, m.revert reservation internal = .ok n ∧ n.labels = m.labels ∧ n.Settled after ∧
      (∀ id, id ≠ reservation.external → n.map.lookup id = m.map.lookup id) ∧
      n.map.lookup reservation.external =
        if reservation.previous = kInvalidInternalId then none else some ⟨reservation.previous, false⟩ := by
  obtain ⟨_, label, mark⟩ := settled.entry found
  simp only at label mark
  have other : ∀ {id r}, id ≠ reservation.external → m.labels[r]? = some id → after.test r = deleted.test r := by
    intro id r different atR
    have notNew : r ≠ internal := by
      rintro rfl
      rw [label] at atR
      exact different (Option.some.inj atR).symm
    have notOld : ¬(r = reservation.previous ∧ reservation.previous ≠ kInvalidInternalId) := by
      rintro ⟨rfl, real⟩
      rcases old with invalid | ⟨atOld, _⟩
      · exact real invalid
      · rw [atOld] at atR
        exact different (Option.some.inj atR).symm
    rw [marks]
    simp [notNew, notOld]
  have reserved : reservation.external ≠ kInvalidExternalId := by
    intro same
    rw [same, settled.unreserved] at found
    cases found
  rw [IdMap.revert, found]
  simp only [Outcome.check, Bool.not_false, decide_true, Bool.and_self, if_true, Outcome.ok_bind]
  rcases old with invalid | ⟨atOld, dead⟩
  · rw [if_neg (by simp [invalid])]
    have away : ∀ id, id ≠ reservation.external →
        (m.map.erase reservation.external).lookup id = m.map.lookup id := fun _ => Finmap.lookup_erase_ne
    refine ⟨_, rfl, rfl, ⟨?_, ?_, ?_, ?_⟩, away, by rw [Finmap.lookup_erase, if_pos invalid]⟩
    · intro id r
      by_cases same : id = reservation.external
      · subst same
        rw [Finmap.lookup_erase, marks]
        constructor
        · rintro none
          cases none
        · rintro ⟨atR, unmarked⟩
          simp only [invalid, ne_eq, not_true_eq_false, and_false, decide_false, Bool.not_false, Bool.and_true,
            Bool.or_eq_false_iff, decide_eq_false_iff_not] at unmarked
          exact absurd (settled.live_unique atR label unmarked.1 mark) unmarked.2
      · rw [away id same, settled.maps]
        constructor
        · rintro ⟨atR, unmarked⟩
          exact ⟨atR, by rw [other same atR, unmarked]⟩
        · rintro ⟨atR, unmarked⟩
          exact ⟨atR, by rw [← other same atR, unmarked]⟩
    · intro id e atId
      by_cases same : id = reservation.external
      · subst same
        rw [Finmap.lookup_erase] at atId
        cases atId
      · rw [away id same] at atId
        exact settled.quiet id e atId
    · rw [away _ reserved.symm, settled.unreserved]
    · simp only [Finmap.keys_erase]
      rw [Finset.card_erase_of_mem (Finmap.mem_keys.mpr (Finmap.mem_of_lookup_eq_some found)), settled.counted]
  · have bound : reservation.previous < m.labels.length := (List.getElem?_eq_some_iff.mp atOld).1
    have real : reservation.previous ≠ kInvalidInternalId := by
      simp only [kMaxVectorsPerCollection] at small
      omega
    rw [if_pos real]
    have away : ∀ id, id ≠ reservation.external →
        (m.map.insert reservation.external ⟨reservation.previous, false⟩).lookup id = m.map.lookup id :=
      fun _ => Finmap.lookup_insert_of_ne _
    refine ⟨_, rfl, rfl, ⟨?_, ?_, ?_, ?_⟩, away, by rw [Finmap.lookup_insert, if_neg real]⟩
    · intro id r
      by_cases same : id = reservation.external
      · subst same
        rw [Finmap.lookup_insert, marks]
        simp only [Option.some.injEq, Entry.mk.injEq, and_true]
        constructor
        · rintro rfl
          exact ⟨atOld, by simp [real]⟩
        · rintro ⟨atR, unmarked⟩
          by_contra different
          have notOld : ¬(r = reservation.previous ∧ reservation.previous ≠ kInvalidInternalId) :=
            fun h => different h.1.symm
          simp only [notOld, decide_false, Bool.not_false, Bool.and_true, Bool.or_eq_false_iff,
            decide_eq_false_iff_not] at unmarked
          exact unmarked.2 (settled.live_unique atR label unmarked.1 mark)
      · rw [away id same, settled.maps]
        constructor
        · rintro ⟨atR, unmarked⟩
          exact ⟨atR, by rw [other same atR, unmarked]⟩
        · rintro ⟨atR, unmarked⟩
          exact ⟨atR, by rw [← other same atR, unmarked]⟩
    · intro id e atId
      by_cases same : id = reservation.external
      · subst same
        rw [Finmap.lookup_insert] at atId
        cases atId
        rfl
      · rw [away id same] at atId
        exact settled.quiet id e atId
    · rw [away _ reserved.symm, settled.unreserved]
    · have keys : (m.map.insert reservation.external ⟨reservation.previous, false⟩).keys = m.map.keys := by
        ext id
        simp only [Finmap.mem_keys, Finmap.mem_insert]
        constructor
        · rintro (rfl | before)
          · exact Finmap.mem_of_lookup_eq_some found
          · exact before
        · exact Or.inr
      simp only [keys]
      exact settled.counted

/-- Erasing a mapped id and marking its row keeps the map settled. -/
theorem Settled.erase {after : TombstoneSet} {row : Nat} (settled : m.Settled deleted)
    (run : m.erase external = .ok (n, row)) (marks : ∀ i, after.test i = (deleted.test i || decide (i = row))) :
    n.labels = m.labels ∧ m.labels[row]? = some external ∧ deleted.test row = false ∧ n.Settled after := by
  unfold IdMap.erase at run
  split at run
  · cases run
  next entry found =>
  split at run
  · cases run
  split at run
  · cases run
  cases run
  obtain ⟨shape, label, mark⟩ := settled.entry found
  refine ⟨rfl, label, mark, ?_, ?_, ?_, ?_⟩
  · intro id r
    by_cases same : id = external
    · subst same
      rw [Finmap.lookup_erase, marks]
      constructor
      · rintro none
        cases none
      · rintro ⟨atR, unmarked⟩
        simp only [Bool.or_eq_false_iff, decide_eq_false_iff_not] at unmarked
        exact absurd (settled.live_unique atR label unmarked.1 mark) unmarked.2
    · rw [Finmap.lookup_erase_ne same, settled.maps, marks]
      constructor
      · rintro ⟨atR, unmarked⟩
        refine ⟨atR, ?_⟩
        have different : r ≠ entry.current := by
          rintro rfl
          rw [label] at atR
          exact same (Option.some.inj atR).symm
        simp [unmarked, different]
      · rintro ⟨atR, unmarked⟩
        simp only [Bool.or_eq_false_iff] at unmarked
        exact ⟨atR, unmarked.1⟩
  · intro id e atId
    by_cases same : id = external
    · subst same
      rw [Finmap.lookup_erase] at atId
      cases atId
    · rw [Finmap.lookup_erase_ne same] at atId
      exact settled.quiet id e atId
  · by_cases same : kInvalidExternalId = external
    · rw [← same, Finmap.lookup_erase]
    · rw [Finmap.lookup_erase_ne same, settled.unreserved]
  · simp only [Finmap.keys_erase]
    rw [Finset.card_erase_of_mem (Finmap.mem_keys.mpr (Finmap.mem_of_lookup_eq_some found)), settled.counted]

end Operations

end IdMap
end VectorForge
