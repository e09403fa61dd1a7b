import VectorForge.Catalog.Confinement
import VectorForge.Catalog.Reopening

/-! Collections with different names next to each other. -/

namespace VectorForge.Catalog
open Files Effect AtomicFile Snapshot

/-- What is asked of a catalog, or the start of a new one on the same directory. -/
inductive Request where
  | opening (options : IndexReader.ReadOptions) (now : UInt64)
  | create (now : UInt64) (name : FileName) (config : CollectionConfig)
  | get (name : FileName)
  | update (name : FileName) (collection : CollectionState)
  | release (name : FileName)
  | releaseDropped (name : FileName)
  | snapshot (name : FileName)
  | drop (name : FileName)

namespace Request

def name? : Request → Option FileName
  | opening _ _ => none
  | create _ name _ | get name | update name _ | release name | releaseDropped name
  | snapshot name | drop name => some name

def perform (F : FileSystem) (env : Environment FileName (List Byte)) : Request → CatalogOp Unit
  | opening options now => openCatalog F env options now
  | create now name config => Catalog.create F env now name config
  | get name => do let _ ← Catalog.get name
  | update name collection => Catalog.update name collection
  | release name => Catalog.release name
  | releaseDropped name => Catalog.releaseDropped F env name
  | snapshot name => do let _ ← Catalog.snapshot F env name
  | drop name => Catalog.drop F env name

end Request

/-- Requests, each with what the file system makes of its steps. -/
abbrev Trace := List (Environment FileName (List Byte) × Request)

/-- The host after the requests, whether they have succeeded or not. -/
def after (F : FileSystem) : Trace → Host → Host
  | [], h => h
  | (env, r) :: rest, h => after F rest (r.perform F env h).2

/-- The requests for one name, and the openings. -/
def only (name : FileName) (trace : Trace) : Trace := trace.filter fun r => r.2.name? = none ∨ r.2.name? = some name

/-- Valid names that the file system tells apart. -/
structure Separate (F : FileSystem) (names : FileName → Prop) : Prop where
  valid : ∀ n, names n → isValidName n = true
  apart : ∀ m n, names m → names n → F.platform.fold m = F.platform.fold n → m = n

def Uses (names : FileName → Prop) (trace : Trace) : Prop := ∀ r ∈ trace, ∀ n, r.2.name? = some n → names n

/-- An opening is not interrupted, and it finds no directory that it rejects. -/
def Opens (F : FileSystem) (env : Environment FileName (List Byte)) (options : IndexReader.ReadOptions)
    (now : UInt64) (d : Disk FileName (List Byte)) : Prop :=
  (∀ s left, env.turn s ≠ .stops left) ∧ ∀ name stop, standing F options now d name ≠ some (.error stop)

/-- The directories have such names and are in their places. -/
def Titled (F : FileSystem) (titles : FileName → Prop) (d : Disk FileName (List Byte)) : Prop :=
  ∀ k D, d.lookup k = some D → titles D.name ∧ F.platform.fold D.name = k

section Entries
variable {F : FileSystem} {env : Environment FileName (List Byte)} {options : IndexReader.ReadOptions}
  {now : UInt64} {e n name : FileName}
  {titles names : FileName → Prop} {h h' : Host} {d d' : Disk FileName (List Byte)}

theorem Titled.leaves {more : FileName → Prop} (titled : Titled F titles d) (leaves : Leaves F.platform more d d')
    (known : ∀ t, more t → titles t) : Titled F titles d' := by
  intro k D' here
  rcases leaves.names k D' here with ⟨title, place⟩ | ⟨D, before, same⟩
  · exact ⟨known _ title, place⟩
  · rw [← same]
    exact titled k D before

variable (F env options now e) in
theorem concerns_openEntry : Concerns F (· = e) e (openEntry F env options now e) := by
  refine Confined.get (fun h h' view => ?_) fun h => ?_
  · have files (f : FileName) : file F.platform h'.disk e f = file F.platform h.disk e f :=
      file_sameAt view.disk rfl
    rw [files, readManifest_sameAt view.disk rfl, restore_congr fun f _ => files f]
  · split
    · split
      · exact concerns_onDisk (within_ignore (within_removeAll rfl))
      · exact .pure _
    · split
      · exact .leave _
      · exact .leave _
      · refine Confined.bind ?_ fun _ => concerns_insert _
        split
        · have within : Within F.platform (· = e) (collectGarbage F.platform env e) :=
            within_collectGarbage (by exact rfl)
          exact (concerns_onDisk within).attempt.bind fun _ => .pure _
        · exact .pure _

theorem explained_runs {reason : Prop} (runs : ∀ s left, env.turn s ≠ .stops left)
    (explained : Explained env reason (.stops : Interruption Status)) :
    reason := explained.resolve_right fun ⟨s, left, stopped⟩ => runs s left stopped

variable (options now) in
/-- A directory that is not rejected lets the opening go on. -/
theorem openEntry_works (runs : ∀ s left, env.turn s ≠ .stops left)
    (accepts : ∀ stop, standing F options now h.disk e ≠ some (.error stop))
    (there : (directory F.platform h.disk e).map (·.name) = some e) :
    (openEntry F env options now e h).1 = .ok () := by
  have ends : Ends (openEntry F env options now e) h (fun _ _ => True) fun _ _ => False := by
    refine Ends.get ?_
    refine ite_ends (fun _ => ite_ends (fun _ => ?_) fun _ => Ends.pure trivial) fun kept => ?_
    · exact onDisk_ends ((clear_ends e h.disk).mono (fun _ _ _ => trivial) fun x d exit =>
        explained_runs runs (exit.1 ▸ exit.2.2.2))
    · rw [not_or, Bool.not_eq_false, Option.not_isSome_iff_eq_none] at kept
      have here : standing F options now h.disk e = some (restore F options now h.disk e) := if_pos ⟨there, kept⟩
      split
      next st known => exact absurd (here.trans (congrArg some known)) (accepts _)
      next known => exact absurd (here.trans (congrArg some known)) (accepts _)
      next =>
        refine Ends.bind (Ends.mono (?_ : Ends _ h (fun _ _ => True) fun _ _ => False)
          (fun _ _ _ => Ends.pure trivial) fun _ _ no => no)
        split
        · refine Ends.bind (Ends.attempt (onDisk_ends
            ((collectGarbage_ends F.platform env e h.disk).mono (fun _ _ _ => Ends.pure trivial) ?_)))
          rintro x d ⟨-, explained⟩
          cases x with
          | stops => exact explained_runs runs (explained rfl)
          | reports => exact Ends.pure trivial
        · exact Ends.pure trivial
  obtain ⟨_, h', run, -⟩ := ends.returns fun _ _ no => no
  rw [run]

/-- What an operation on one collection leaves of another one. -/
theorem Beside.view {more : FileName → Prop} (beside : Beside F titles name h h')
    (apart : ∀ t t', more t → titles t' → F.platform.fold t' ≠ F.platform.fold t)
    (other : n ≠ name) : View F more n h h' := by
  refine ⟨fun k here => beside.disk.others k fun there => ?_, beside.slots n other, beside.dropping n other,
    beside.retired n other⟩
  obtain ⟨t, mine, rfl⟩ := here
  obtain ⟨t', theirs, same⟩ := there
  exact apart t t' mine theirs same

theorem Beside.view_entry {x : FileName} (beside : Beside F (· = x) x h h')
    (apart : F.platform.fold x ≠ F.platform.fold e) : View F (· = e) e h h' :=
  beside.view (fun t t' mine theirs => by rw [mine, theirs]; exact apart) fun same => apart (by rw [same])

variable (F env options now) in
/-- Every entry is treated as if there were no other ones. -/
theorem openEntries_view : ∀ (entries : List FileName) (h : Host), (entries.map F.platform.fold).Nodup →
    (∀ e ∈ entries, ∀ h', View F (· = e) e h h' → (openEntry F env options now e h').1 = .ok ()) →
    (∀ e ∈ entries, View F (· = e) e (openEntry F env options now e h).2
      (openEntries F env options now entries h).2) ∧
    ∀ e, F.platform.fold e ∉ entries.map F.platform.fold →
    View F (· = e) e h (openEntries F env options now entries h).2
  | [], h, _, _ => ⟨nofun, fun e _ => .refl F _ e h⟩
  | x :: entries, h, distinct, works => by
    have first := works x List.mem_cons_self h (.refl F _ x h)
    have beside := (concerns_openEntry F env options now x).far h
    rw [List.map_cons, List.nodup_cons] at distinct
    cases run : openEntry F env options now x h with
    | mk result h₁ =>
      rw [run] at first beside
      dsimp only at first beside
      subst first
      have rest : openEntries F env options now (x :: entries) h = openEntries F env options now entries h₁ :=
        bind_of_ok run
      have apart {e : FileName} (mem : e ∈ entries) : F.platform.fold x ≠ F.platform.fold e := fun same =>
        distinct.1 (List.mem_map.mpr ⟨e, mem, same.symm⟩)
      obtain ⟨later, others⟩ := openEntries_view entries h₁ distinct.2 fun e mem h' view =>
        works e (List.mem_cons_of_mem x mem) h' ((beside.view_entry (apart mem)).trans view)
      rw [rest]
      constructor
      · intro e mem
        rcases List.mem_cons.mp mem with rfl | mem
        · rw [run]
          exact others e distinct.1
        · exact ((concerns_openEntry F env options now e).near _ _
            (beside.view_entry (apart mem))).trans (later e mem)
      · intro e outside
        rw [List.map_cons, List.mem_cons, not_or] at outside
        exact (beside.view_entry fun same => outside.1 same.symm).trans (others e outside.2)

theorem Titled.fold_names (titled : Titled F titles d) : (directoryNames d).map F.platform.fold = d.keys := by
  rw [directoryNames, List.map_map, AList.keys, List.keys]
  refine List.map_congr_left fun entry mem => ?_
  exact (titled entry.1 entry.2 (AList.mem_lookup_iff.mpr mem)).2

theorem Titled.there (titled : Titled F titles d) (mem : e ∈ directoryNames d) :
    (directory F.platform d e).map (·.name) = some e := by
  obtain ⟨k, D, known, same⟩ := mem_directoryNames.mp mem
  have place := (titled k D known).2
  rw [same] at place
  rw [directory, place, known, Option.map_some, same]

variable (env options now) in
/-- An entry that lets the opening go on has been given the slot of its standing. -/
theorem openEntry_slot (there : (directory F.platform h.disk e).map (·.name) = some e)
    (absent : h.catalog.slots.lookup e = none) : Ends (openEntry F env options now e) h
      (fun _ h' => (∀ stop, standing F options now h.disk e ≠ some (.error stop)) ∧
      h'.catalog.slots.lookup e = slotOf (standing F options now h.disk e)) fun _ _ => True := by
  refine Ends.get ?_
  refine ite_ends (fun removed => ?_) fun kept => ?_
  · have none : standing F options now h.disk e = none := by
      rcases removed with invalid | marked
      · exact standing_of_invalid invalid
      · exact standing_of_marked marked
    rw [none]
    have nothing : (∀ stop, (Option.none : Option (Checked (CollectionState × UInt64))) ≠ some (.error stop)) ∧
        h.catalog.slots.lookup e = slotOf Option.none := ⟨fun _ same => (by cases same), absent⟩
    exact ite_ends (fun _ => onDisk_ends ((clear_ends e h.disk).mono (fun _ _ _ => nothing) fun _ _ _ => trivial))
      fun _ => Ends.pure nothing
  · rw [not_or, Bool.not_eq_false, Option.not_isSome_iff_eq_none] at kept
    have here : standing F options now h.disk e = some (restore F options now h.disk e) := if_pos ⟨there, kept⟩
    rw [here]
    split
    next => exact Ends.leave trivial
    next => exact Ends.leave trivial
    next collection generation known =>
      rw [known]
      have given (h₁ : Host) : Ends (setCatalog fun c =>
          { c with slots := c.slots.insert e { collection, generation } }) h₁
          (fun _ h' => (∀ stop, some (.ok (collection, generation) : Checked (CollectionState × UInt64)) ≠
            some (.error stop)) ∧
            h'.catalog.slots.lookup e = slotOf (some (.ok (collection, generation)))) fun _ _ => True :=
        Ends.pure ⟨fun _ same => (by cases same), AList.lookup_insert _⟩
      exact Ends.bind ⟨fun _ h₁ _ => given h₁, fun _ _ _ => trivial⟩

variable (env options now) in
theorem openEntries_slots : ∀ (entries : List FileName) (h h' : Host), (entries.map F.platform.fold).Nodup →
    (∀ x ∈ entries, (directory F.platform h.disk x).map (·.name) = some x ∧ h.catalog.slots.lookup x = none) →
    openEntries F env options now entries h = (.ok (), h') → ∀ n,
    (n ∈ entries → (∀ stop, standing F options now h.disk n ≠ some (.error stop)) ∧
      h'.catalog.slots.lookup n = slotOf (standing F options now h.disk n)) ∧
    (n ∉ entries → h'.catalog.slots.lookup n = h.catalog.slots.lookup n)
  | [], h, h', _, _, run, n => by
    cases run
    exact ⟨fun mem => absurd mem List.not_mem_nil, fun _ => rfl⟩
  | x :: entries, h, h', distinct, known, run, n => by
    rw [List.map_cons, List.nodup_cons] at distinct
    obtain ⟨_, h₁, first, rest⟩ := ok_of_bind run
    have beside := (concerns_openEntry F env options now x).far h
    rw [first] at beside
    obtain ⟨there, absent⟩ := known x List.mem_cons_self
    have slot := (openEntry_slot env options now there absent).1 _ _ first
    have apart {y : FileName} (mem : y ∈ entries) : F.platform.fold x ≠ F.platform.fold y := fun same =>
      distinct.1 (List.mem_map.mpr ⟨y, mem, same.symm⟩)
    have view {y : FileName} (mem : y ∈ entries) : View F (· = y) y h h₁ := beside.view_entry (apart mem)
    have same {y : FileName} (mem : y ∈ entries) : directory F.platform h₁.disk y = directory F.platform h.disk y :=
      directory_sameAt (view mem).disk rfl
    obtain ⟨later, others⟩ := openEntries_slots entries h₁ h' distinct.2 (fun y mem => by
      rw [same mem, (view mem).slot]
      exact known y (List.mem_cons_of_mem x mem)) rest n
    constructor
    · intro mem
      by_cases here : n ∈ entries
      · rw [← standing_of_directory (same here)]
        exact later here
      · obtain rfl := (List.mem_cons.mp mem).resolve_right here
        exact ⟨slot.1, (others here).trans slot.2⟩
    · intro outside
      rw [List.mem_cons, not_or] at outside
      exact (others outside.2).trans (beside.slots n outside.1)

variable (h) in
/-- A catalog with nothing in it. -/
theorem openCatalog_eq : openCatalog F env options now h =
    openEntries F env options now (env.order [] (directoryNames h.disk)) { h with catalog := {} } := rfl

/-- A successful opening rejects nothing and gives every name the slot of its standing. -/
theorem openCatalog_slots (titled : Titled F titles h.disk)
    (run : openCatalog F env options now h = (.ok (), h')) (n : FileName) :
    (∀ stop, standing F options now h.disk n ≠ some (.error stop)) ∧
      h'.catalog.slots.lookup n = slotOf (standing F options now h.disk n) := by
  have perm := env.lists [] (directoryNames h.disk)
  have distinct : ((env.order [] (directoryNames h.disk)).map F.platform.fold).Nodup :=
    (perm.map _).nodup_iff.mpr (titled.fold_names ▸ h.disk.nodupKeys)
  rw [openCatalog_eq] at run
  obtain ⟨listed, others⟩ := openEntries_slots env options now _ { h with catalog := {} } h' distinct
    (fun x mem => ⟨titled.there (perm.mem_iff.mp mem), rfl⟩) run n
  by_cases mem : n ∈ directoryNames h.disk
  · exact listed (perm.mem_iff.mpr mem)
  · -- There is no directory in the place of the name, or it has another one.
    have none : standing F options now h.disk n = none := by
      rw [standing]
      refine if_neg fun all => mem ?_
      obtain ⟨D, there, same⟩ := Option.map_eq_some_iff.mp all.1
      exact mem_directoryNames.mpr ⟨_, D, there, same⟩
    rw [none]
    exact ⟨fun _ same => (by cases same), others fun inside => mem (perm.mem_iff.mp inside)⟩

/-- The opening makes the same of a directory, whatever there is beside it. -/
theorem opening_view_entry (titled : Titled F titles h.disk) (titled' : Titled F titles h'.disk)
    (opens : Opens F env options now h.disk)
    (opens' : Opens F env options now h'.disk) (own : ∀ t, titles t → F.platform.fold t = F.platform.fold e → t = e)
    (same : directory F.platform h'.disk e = directory F.platform h.disk e) :
    View F (· = e) e (openCatalog F env options now h).2 (openCatalog F env options now h').2 := by
  have start : View F (· = e) e { h with catalog := {} } { h' with catalog := {} } := by
    refine ⟨?_, rfl, rfl, rfl⟩
    rintro k ⟨t, rfl, rfl⟩
    exact same
  have opened {h : Host} (titled : Titled F titles h.disk) (opens : Opens F env options now h.disk) :
      (e ∈ directoryNames h.disk → View F (· = e) e (openEntry F env options now e { h with catalog := {} }).2
        (openCatalog F env options now h).2) ∧
      (e ∉ directoryNames h.disk → View F (· = e) e { h with catalog := {} }
        (openCatalog F env options now h).2) := by
    have perm := env.lists [] (directoryNames h.disk)
    have distinct : ((env.order [] (directoryNames h.disk)).map F.platform.fold).Nodup :=
      (perm.map _).nodup_iff.mpr (titled.fold_names ▸ h.disk.nodupKeys)
    obtain ⟨inside, outside⟩ := openEntries_view F env options now (env.order [] (directoryNames h.disk))
      { h with catalog := {} } distinct
      fun x mem h' view => by
        have same : directory F.platform h'.disk x = directory F.platform h.disk x := directory_sameAt view.disk rfl
        refine openEntry_works options now opens.1 (fun stop => ?_) (same ▸ titled.there (perm.mem_iff.mp mem))
        rw [standing_of_directory same]
        exact opens.2 x stop
    rw [openCatalog_eq]
    refine ⟨fun mem => inside e (perm.mem_iff.mpr mem), fun absent => outside e fun mem => absent ?_⟩
    obtain ⟨x, entry, place⟩ := List.mem_map.mp mem
    obtain ⟨k, D, known, name⟩ := mem_directoryNames.mp (perm.mem_iff.mp entry)
    have mine := own D.name (titled k D known).1 (by rw [name, place])
    exact mem_directoryNames.mpr ⟨k, D, known, mine⟩
  have listed {h : Host} (titled : Titled F titles h.disk) : e ∈ directoryNames h.disk ↔
      (directory F.platform h.disk e).isSome := by
    constructor
    · intro mem
      rw [← Option.isSome_map (f := fun D => D.name), titled.there mem]
      rfl
    · intro some
      obtain ⟨D, known⟩ := Option.isSome_iff_exists.mp some
      obtain ⟨title, place⟩ := titled _ D known
      exact mem_directoryNames.mpr ⟨_, D, known, own D.name title place⟩
  have both : e ∈ directoryNames h.disk ↔ e ∈ directoryNames h'.disk := by rw [listed titled, listed titled', same]
  by_cases mem : e ∈ directoryNames h.disk
  · exact ((opened titled opens).1 mem).symm.trans
      (((concerns_openEntry F env options now e).near _ _ start).trans ((opened titled' opens').1 (both.mp mem)))
  · exact ((opened titled opens).2 mem).symm.trans
      (start.trans ((opened titled' opens').2 fun there => mem (both.mpr there)))

end Entries

/-- The names of the directories of some collections. -/
def Known (names : FileName → Prop) (title : FileName) : Prop := ∃ n, names n ∧ Titles n title

/-- No opening of the trace is interrupted or finds a directory that it rejects. -/
def Reopens (F : FileSystem) : Trace → Host → Prop
  | [], _ => True
  | (env, r) :: rest, h => (∀ options now, r = .opening options now →
    Opens F env options now h.disk) ∧ Reopens F rest (r.perform F env h).2

section Runs
variable {F : FileSystem} {env : Environment FileName (List Byte)} {names titles : FileName → Prop}
  {m n name : FileName} {h h' : Host} {trace earlier later : Trace} {r : Request}

theorem concerns_perform (mine : r.name? = some m) : Concerns F (Titles m) m (r.perform F env) := by
  cases r <;> cases mine
  · exact concerns_create _ _
  · exact concerns_get.bind fun _ => .pure _
  · exact concerns_slot _
  · exact concerns_slot _
  · exact concerns_releaseDropped
  · exact concerns_snapshot.bind fun _ => .pure _
  · exact concerns_drop

/-- Separate collections have separate directories. -/
theorem Separate.same_title (separate : Separate F names) (left : names m) (right : names n) {t t' : FileName}
    (first : Titles m t) (second : Titles n t')
    (same : F.platform.fold t = F.platform.fold t') : m = n ∧ t = t' := by
  rcases first with rfl | rfl <;> rcases second with rfl | rfl
  · exact ⟨separate.apart _ _ left right same, separate.apart _ _ left right same⟩
  · exact absurd same.symm (creating_apart F _ (separate.valid _ left))
  · exact absurd same (creating_apart F _ (separate.valid _ right))
  · have equal := separate.apart _ _ left right (creating_same.mp same)
    exact ⟨equal, by rw [equal]⟩

theorem titled_openEntries {options : IndexReader.ReadOptions} {now : UInt64} :
    ∀ {entries : List FileName} {h : Host}, (∀ e ∈ entries, titles e) →
    Titled F titles h.disk → Titled F titles (openEntries F env options now entries h).2.disk
  | [], _, _, titled => titled
  | x :: entries, h, known, titled => by
    have leaves := ((concerns_openEntry F env options now x).far h).disk
    have next := titled.leaves leaves fun t same => same ▸ known x List.mem_cons_self
    cases run : openEntry F env options now x h with
    | mk result h₁ =>
      rw [run] at next
      cases result with
      | ok =>
        have rest : openEntries F env options now (x :: entries) h = openEntries F env options now entries h₁ :=
          bind_of_ok run
        rw [rest]
        exact titled_openEntries (fun e mem => known e (List.mem_cons_of_mem x mem)) next
      | error =>
        have rest : openEntries F env options now (x :: entries) h = (.error _, h₁) := bind_of_error run
        rw [rest]
        exact next

variable (env) in
theorem Titled.perform (titled : Titled F (Known names) h.disk) (uses : ∀ n, r.name? = some n → names n) :
    Titled F (Known names) (r.perform F env h).2.disk := by
  cases mine : r.name? with
  | some m => exact titled.leaves ((concerns_perform mine).far h).disk fun t title => ⟨m, uses m mine, title⟩
  | none =>
    cases r <;> cases mine
    refine titled_openEntries (fun e mem => ?_) titled
    obtain ⟨k, D, there, rfl⟩ := mem_directoryNames.mp ((env.lists [] _).mem_iff.mp mem)
    exact (titled k D there).1

/-- An operation on another collection goes unnoticed. -/
theorem view_of_other (separate : Separate F names) (mine : names n) (theirs : names m) (other : m ≠ n)
    (request : r.name? = some m) : View F (Titles n) n h (r.perform F env h).2 :=
  ((concerns_perform request).far h).view
    (fun _ _ first second same => other (separate.same_title theirs mine second first same).1) other.symm

/-- An opening makes the same of a collection, whether there are others or not. -/
theorem view_of_opening {options : IndexReader.ReadOptions} {now : UInt64}
    (separate : Separate F names) (mine : names n)
    (titled : Titled F (Known names) h.disk) (titled' : Titled F (Titles n) h'.disk)
    (view : View F (Titles n) n h h') (opens : Opens F env options now h.disk) :
    View F (Titles n) n (openCatalog F env options now h).2 (openCatalog F env options now h').2 := by
  have known : Titled F (Known names) h'.disk :=
    fun k D there => ⟨⟨n, mine, (titled' k D there).1⟩, (titled' k D there).2⟩
  have opens' : Opens F env options now h'.disk := by
    refine ⟨opens.1, fun name stop rejected => ?_⟩
    by_cases same : name = n
    · rw [same, standing_of_directory (directory_sameAt view.disk (.inl rfl))] at rejected
      exact opens.2 n stop rejected
    · -- Only the directories of the one collection are there, and the temporary one has no valid name.
      rw [standing] at rejected
      split at rejected
      next kept =>
        obtain ⟨D, there, title⟩ := Option.map_eq_some_iff.mp kept.1
        rcases (titled' _ D there).1 with equal | equal
        · exact same (title.symm.trans equal)
        · rw [← title, equal] at kept
          exact creating_apart F n kept.2.1 rfl
      next => cases rejected
  have entry (e : FileName) (title : Titles n e) : View F (· = e) e (openCatalog F env options now h).2
      (openCatalog F env options now h').2 := by
    refine opening_view_entry titled known opens opens' ?_ (directory_sameAt view.disk title)
    rintro t ⟨m, theirs, first⟩ same
    exact (separate.same_title theirs mine first title same).2
  refine { entry n (.inl rfl) with disk := ?_ }
  rintro k ⟨t, title, rfl⟩
  exact (entry t title).disk _ ⟨t, rfl, rfl⟩

/-- What is left of a collection depends on the requests for it only. -/
theorem after_view (separate : Separate F names) (mine : names n) : ∀ (trace : Trace) (h h' : Host),
    Uses names trace → Reopens F trace h →
    Titled F (Known names) h.disk → Titled F (Titles n) h'.disk → View F (Titles n) n h h' →
    View F (Titles n) n (after F trace h) (after F (only n trace) h')
  | [], _, _, _, _, _, _, view => view
  | (env, r) :: rest, h, h', uses, reopens, titled, titled', view => by
    have used : ∀ m, r.name? = some m → names m := uses (env, r) List.mem_cons_self
    have ih := after_view separate mine rest (r.perform F env h).2
    have next := titled.perform env used
    have usesRest : Uses names rest := fun x mem => uses x (List.mem_cons_of_mem _ mem)
    cases request : r.name? with
    | none =>
      have here : only n ((env, r) :: rest) = (env, r) :: only n rest := List.filter_cons_of_pos (by simp [request])
      rw [here]
      cases r <;> cases request
      have single : Titled F (Known fun x => x = n) h'.disk :=
        fun k D there => ⟨⟨n, rfl, (titled' k D there).1⟩, (titled' k D there).2⟩
      refine ih _ usesRest reopens.2 next (fun k D there => ?_)
        (view_of_opening separate mine titled titled' view (reopens.1 _ _ rfl))
      obtain ⟨⟨x, rfl, title⟩, place⟩ := single.perform env (fun _ same => by cases same) k D there
      exact ⟨title, place⟩
    | some m =>
      by_cases same : m = n
      · subst same
        have here : only m ((env, r) :: rest) = (env, r) :: only m rest :=
          List.filter_cons_of_pos (by simp [request])
        rw [here]
        exact ih _ usesRest reopens.2 next (titled'.leaves ((concerns_perform request).far h').disk
          fun _ title => title)
          ((concerns_perform request).near _ _ view)
      · have here : only n ((env, r) :: rest) = only n rest := List.filter_cons_of_neg (by simp [request, same])
        rw [here]
        exact ih _ usesRest reopens.2 next titled'
          ((view_of_other separate mine (used m request) same request).symm.trans view)

theorem after_append (F : FileSystem) : ∀ (trace later : Trace) (h : Host), after F (trace ++ later) h =
    after F later (after F trace h)
  | [], _, _ => rfl
  | (env, r) :: rest, later, h => after_append F rest later (r.perform F env h).2

end Runs

/-- What a name stands for after a run depends on the requests for that name only, and no request for another name
has touched its directory. -/
structure Isolated (F : FileSystem) (trace : Trace) (name : FileName) : Prop where
  directory : directory F.platform (after F (only name trace) {}).disk name =
    directory F.platform (after F trace {}).disk name
  standing : ∀ options now, standing F options now (after F (only name trace) {}).disk name =
    standing F options now (after F trace {}).disk name
  untouched : ∀ earlier env r later m, trace = earlier ++ (env, r) :: later → r.name? = some m → m ≠ name →
    Files.directory F.platform (after F (earlier ++ [(env, r)]) {}).disk name =
      Files.directory F.platform (after F earlier {}).disk name

/-- Names that the file system tells apart are isolated, as long as every opening goes through. -/
theorem separate_names_are_isolated {F : FileSystem} {names : FileName → Prop} {trace : Trace} {name : FileName}
    (separate : Separate F names)
    (uses : Uses names trace) (reopens : Reopens F trace {}) (mine : names name) : Isolated F trace name := by
  have empty {titles : FileName → Prop} : Titled F titles ({} : Host).disk := fun k D there => by cases there
  have view := after_view separate mine trace {} {} uses reopens empty empty (.refl F _ name {})
  have same := directory_sameAt view.disk (.inl rfl)
  refine ⟨same, fun _ _ => standing_of_directory same, ?_⟩
  rintro earlier env r later m rfl request other
  rw [after_append]
  exact directory_sameAt (view_of_other separate mine (uses (env, r) (by simp) m request) other
    request).disk (.inl rfl)

/-- Where names are compared byte by byte, valid names are separate. -/
theorem separate_posix {names : FileName → Prop} (valid : ∀ n, names n → isValidName n = true) :
    Separate FileSystem.posix names :=
  ⟨valid, fun m n _ _ same => by simpa [FileSystem.posix, FileSystem.platform] using same⟩

section Examples

/-- Two letters in one case, on Windows. -/
theorem separate_names_are_isolated_lowercase : Isolated FileSystem.windows
    [(smooth, .opening {} 0), (smooth, .create 0 (ascii "a") Guarantees.smallConfig),
      (smooth, .create 0 (ascii "b") Guarantees.smallConfig)] (ascii "a") := by
  have separate : Separate FileSystem.windows fun x => x = ascii "a" ∨ x = ascii "b" := by
    refine ⟨fun x mem => by rcases mem with rfl | rfl <;> decide, ?_⟩
    rintro m n (rfl | rfl) (rfl | rfl) same
    · rfl
    · exact absurd same (by decide)
    · exact absurd same (by decide)
    · rfl
  refine separate_names_are_isolated separate ?_ ⟨?_, nofun, nofun, trivial⟩ (.inl rfl)
  · intro r mem n request
    simp only [List.mem_cons, List.not_mem_nil, or_false] at mem
    rcases mem with rfl | rfl | rfl <;> cases request
    · exact .inl rfl
    · exact .inr rfl
  · refine fun options now _ => ⟨fun s left => nofun, fun name stop rejected => ?_⟩
    rw [standing_of_none rfl] at rejected
    cases rejected

/-- On Windows the creation of a collection deletes the one whose name differs in the case of its letters only. -/
theorem letter_case_deletes_collection :
    ¬ ∀ (F : FileSystem) (names : FileName → Prop) (trace : Trace) (name : FileName),
    (∀ n, names n → isValidName n = true) → Uses names trace → names name → Isolated F trace name := by
  intro all
  obtain ⟨h₁, first, created⟩ := create_works FileSystem.windows smooth 0
    (ascii "A") Guarantees.smallConfig {} (fun _ => rfl)
    ⟨by decide, by decide, by decide, by decide⟩
  obtain ⟨s, -, catalog⟩ := created.catalog
  have accepted : Accepted (ascii "a") Guarantees.smallConfig h₁.catalog := by
    rw [catalog]
    refine ⟨by decide, by decide, fun mem => ?_, List.not_mem_nil⟩
    rcases (AList.mem_insert _).mp mem with same | none
    · exact absurd same (by decide)
    · exact absurd none (by decide)
  obtain ⟨h₂, second, replaced⟩ := create_works FileSystem.windows smooth 0 (ascii "a") Guarantees.smallConfig h₁
    (fun _ => rfl) accepted
  have isolated := all FileSystem.windows (fun x => x = ascii "A" ∨ x = ascii "a")
    [(smooth, .create 0 (ascii "A") Guarantees.smallConfig),
      (smooth, .create 0 (ascii "a") Guarantees.smallConfig)] (ascii "A")
    (fun n mem => by rcases mem with rfl | rfl <;> decide)
    (fun r mem n request => by
      simp only [List.mem_cons, List.not_mem_nil, or_false] at mem
      rcases mem with rfl | rfl <;> cases request
      · exact .inl rfl
      · exact .inr rfl) (.inl rfl)
  have same := isolated.untouched [(smooth, .create 0 (ascii "A") Guarantees.smallConfig)] smooth
    (.create 0 (ascii "a") Guarantees.smallConfig) [] (ascii "a")
    rfl rfl (by decide)
  have before : after FileSystem.windows [(smooth, .create 0 (ascii "A") Guarantees.smallConfig)] {} = h₁ :=
    congrArg Prod.snd first
  have there : after FileSystem.windows ([(smooth, .create 0 (ascii "A") Guarantees.smallConfig)] ++
      [(smooth, .create 0 (ascii "a") Guarantees.smallConfig)]) {} = h₂ := by
    rw [after_append, before]
    exact congrArg Prod.snd second
  have place : directory FileSystem.windows.platform h₂.disk (ascii "A") = directory FileSystem.windows.platform
      h₂.disk (ascii "a") := by
    rw [directory, directory, show FileSystem.windows.platform.fold (ascii "A") = FileSystem.windows.platform.fold
      (ascii "a") by decide]
  rw [there, before, place] at same
  have old := created.placed.new.there
  rw [← same, replaced.placed.new.there] at old
  exact absurd old (by decide)

end Examples
end VectorForge.Catalog
