import VectorForge.Catalog.Creation

/-! Opening a directory of collections of which there are no snapshots. -/

namespace VectorForge.Catalog
open Files Effect AtomicFile Snapshot Decimal

theorem length_encodeConfig (config : CollectionConfig) :
    (ConfigFile.encodeConfig config).length ≤ ConfigFile.kMaxConfigBytes := by
  have number : ∀ {n : Nat}, n < 2 ^ 64 → (decimal n).length ≤ 20 :=
    fun small => length_decimal_le (by decide) (small.trans (by decide))
  have dim := number (config.dim.toNat_lt.trans (by decide))
  have m := number (config.hnsw.M.toNat_lt.trans (by decide))
  have construction := number (config.hnsw.efConstruction.toNat_lt.trans (by decide))
  have search := number (config.hnsw.efSearch.toNat_lt.trans (by decide))
  have level := number (config.hnsw.maxLevel.toNat_lt.trans (by decide))
  have seed := number config.hnsw.seed.toNat_lt
  have metric : config.metric.text.length ≤ 6 := by cases config.metric <;> decide
  have index : config.index.text.length ≤ 4 := by cases config.index <;> decide
  have normalize : (if config.normalize then ascii "true" else ascii "false").length ≤ 5 := by
    cases config.normalize <;> decide
  have texts : (ascii "\x7b\n").length = 2 ∧ (ascii "  \"format\": 1,\n").length = 15 ∧
      (ascii "  \"dim\": ").length = 9 ∧
      (ascii ",\n").length = 2 ∧ (ascii "  \"metric\": \"").length = 13 ∧ (ascii "\",\n").length = 3 ∧
      (ascii "  \"normalize\": ").length = 15 ∧ (ascii "  \"index\": \"").length = 12 ∧
      (ascii "  \"M\": ").length = 7 ∧
      (ascii "  \"ef_construction\": ").length = 21 ∧ (ascii "  \"ef_search\": ").length = 15 ∧
      (ascii "  \"max_level\": ").length = 15 ∧
      (ascii "  \"seed\": ").length = 10 ∧ (ascii "\n").length = 1 ∧ (ascii "\x7d\n").length = 2 := by decide
  unfold ConfigFile.encodeConfig
  simp only [List.length_append, ConfigFile.kMaxConfigBytes]
  omega

/-- A directory holds a collection that has never been snapshotted. -/
structure Configured (F : FileSystem) (d : Disk FileName (List Byte)) (name : FileName)
    (config : CollectionConfig) : Prop where
  valid : isValidName name = true
  good : config.validate = .ok ()
  there : (directory F.platform d name).map (·.name) = some name
  config : file F.platform d name kConfigName = some (ConfigFile.encodeConfig config)
  manifest : file F.platform d name kManifestName = none
  marker : file F.platform d name kDroppedMarker = none

section Opening
variable {F : FileSystem} {env : Environment FileName (List Byte)}
  {options : IndexReader.ReadOptions} {now : UInt64}
  {d d' : Disk FileName (List Byte)} {name : FileName} {config : CollectionConfig} {h : Host}

theorem Configured.congr (configured : Configured F d name config)
    (same : directory F.platform d' name = directory F.platform d name) : Configured F d' name config := by
  have files : ∀ f, file F.platform d' name f = file F.platform d name f := fun f => by rw [file, same, ← file]
  exact ⟨configured.valid, configured.good, same ▸ configured.there, (files _).trans configured.config,
    (files _).trans configured.manifest, (files _).trans configured.marker⟩

/-- The text of a configuration determines it but for the mode. -/
theorem Configured.agree {other : CollectionConfig} (left : Configured F d name config)
    (right : Configured F d name other) (limits : ConfigFile.InLimits config) : ConfigFile.InLimits other ∧
    ∀ mode, { other with concurrency := mode } = { config with concurrency := mode } := by
  have same : ConfigFile.encodeConfig config = ConfigFile.encodeConfig other :=
    Option.some.inj (left.config.symm.trans right.config)
  have decoded := ConfigFile.decodeConfig_of_inLimits left.good limits
  rw [same] at decoded
  by_cases low : ConfigFile.InLimits other
  · rw [ConfigFile.decodeConfig_of_inLimits right.good low] at decoded
    exact ⟨low, fun mode => congrArg (fun c : CollectionConfig => { c with concurrency := mode })
      (Except.ok.inj decoded)⟩
  · obtain ⟨st, failed⟩ := ConfigFile.decodeConfig_of_excess right.good low
    cases failed.symm.trans decoded

theorem Configured.readManifest (configured : Configured F d name config) :
    Snapshot.readManifest F.platform d name = .error (.notFound ("no MANIFEST in " ++ shown name)) := by
  rw [Snapshot.readManifest, configured.manifest]

theorem Configured.readConfig (configured : Configured F d name config) :
    readConfig F d name = .ok (ConfigFile.encodeConfig config) := by
  rw [Catalog.readConfig, configured.config]
  exact if_neg (Nat.not_lt.mpr (length_encodeConfig config))

variable (options now) in
/-- The collection comes back empty, in the mode of the options. -/
theorem restore_of_inLimits (configured : Configured F d name config) (limits : ConfigFile.InLimits config) :
    ∃ s, restore F options now d name = .ok (s, 0) ∧ s.config = { config with concurrency := options.concurrency } ∧
    s.vectors.rows = [] := by
  have good : { config with concurrency := options.concurrency }.validate = .ok () := configured.good
  obtain ⟨s, created⟩ := Guarantees.create_ok now good
  obtain ⟨-, same, -, rows, -⟩ := Collection.create_sound created
  refine ⟨s, ?_, same, rows⟩
  rw [restore, configured.readManifest]
  simp only [Status.notFound, if_true]
  rw [configured.readConfig, Outcome.lift_ok, Outcome.ok_bind,
    ConfigFile.decodeConfig_of_inLimits configured.good limits, Outcome.lift_ok,
    Outcome.ok_bind, created]
  rfl

variable (options now) in
theorem restore_of_excess (configured : Configured F d name config) (excess : ¬ ConfigFile.InLimits config) :
    ∃ st, restore F options now d name = .error (.error st) := by
  obtain ⟨st, failed⟩ := ConfigFile.decodeConfig_of_excess configured.good excess
  refine ⟨st, ?_⟩
  rw [restore, configured.readManifest]
  simp only [Status.notFound, if_true]
  rw [configured.readConfig, Outcome.lift_ok, Outcome.ok_bind, failed]
  rfl

variable (env options now) in
theorem openEntry_of_inLimits (configured : Configured F h.disk name config) (limits : ConfigFile.InLimits config) :
    ∃ s, openEntry F env options now name h =
      (.ok (), { h with catalog := { h.catalog with slots := h.catalog.slots.insert name { collection := s } } }) ∧
      s.config = { config with concurrency := options.concurrency } ∧ s.vectors.rows = [] := by
  obtain ⟨s, restored, same, rows⟩ := restore_of_inLimits options now configured limits
  refine ⟨s, ?_, same, rows⟩
  have live : ¬ (isValidName name = false ∨ (file F.platform h.disk name kDroppedMarker).isSome) := by
    rw [configured.marker, configured.valid]
    simp
  change (if isValidName name = false ∨ (file F.platform h.disk name kDroppedMarker).isSome then _ else
    _ : CatalogOp Unit) h = _
  rw [if_neg live, restored]
  simp only
  rw [configured.readManifest]
  rfl

variable (env options now) in
theorem openEntry_of_excess (configured : Configured F h.disk name config) (excess : ¬ ConfigFile.InLimits config) :
    ∃ st, openEntry F env options now name h = (.error (.reports st), h) := by
  obtain ⟨st, failed⟩ := restore_of_excess options now configured excess
  refine ⟨⟨st.code, "collection '" ++ shown name ++ "': " ++ st.message⟩, ?_⟩
  have live : ¬ (isValidName name = false ∨ (file F.platform h.disk name kDroppedMarker).isSome) := by
    rw [configured.marker, configured.valid]
    simp
  change (if isValidName name = false ∨ (file F.platform h.disk name kDroppedMarker).isSome then _ else
    _ : CatalogOp Unit) h = _
  rw [if_neg live, failed]
  rfl

/-- The slot that opening gives to a collection. -/
def Reopened (options : IndexReader.ReadOptions) (config : CollectionConfig) (slot : Slot) : Prop :=
  slot.collection.config = { config with concurrency := options.concurrency } ∧ slot.collection.vectors.rows = []

variable (env options now) in
theorem openEntries_of_inLimits : ∀ (names : List FileName) (h : Host),
    (∀ n ∈ names, ∃ c, Configured F h.disk n c ∧ ConfigFile.InLimits c) →
    ∃ h', openEntries F env options now names h = (.ok (), h') ∧
      (∀ n ∈ names, ∃ c slot, Configured F h.disk n c ∧ h'.catalog.slots.lookup n = some slot ∧
        Reopened options c slot) ∧
      ∀ n, n ∉ names → h'.catalog.slots.lookup n = h.catalog.slots.lookup n
  | [], h, _ => ⟨h, rfl, fun _ mem => (by cases mem), fun _ _ => rfl⟩
  | name :: rest, h, all => by
    obtain ⟨c, configured, limits⟩ := all name List.mem_cons_self
    obtain ⟨s, opened, same, rows⟩ := openEntry_of_inLimits env options now configured limits
    obtain ⟨h', run, found, others⟩ := openEntries_of_inLimits rest
      { h with catalog := { h.catalog with slots := h.catalog.slots.insert name { collection := s } } }
      fun n mem => all n (List.mem_cons_of_mem _ mem)
    refine ⟨h', (bind_of_ok opened).trans run, fun n mem => ?_, fun n away => ?_⟩
    · by_cases later : n ∈ rest
      · exact found n later
      · have here : n = name := (List.mem_cons.mp mem).resolve_right later
        subst here
        exact ⟨c, _, configured, (others n later).trans (AList.lookup_insert _), same, rows⟩
    · rw [List.mem_cons, not_or] at away
      exact (others n away.2).trans (AList.lookup_insert_ne away.1)

variable (env options now) in
theorem openEntries_of_excess : ∀ (names : List FileName) (h : Host), (∀ n ∈ names, ∃ c, Configured F h.disk n c) →
    (∃ n ∈ names, ∃ c, Configured F h.disk n c ∧ ¬ ConfigFile.InLimits c) →
    ∃ x h', openEntries F env options now names h = (.error x, h')
  | [], h, _, ⟨_, mem, _⟩ => by cases mem
  | name :: rest, h, all, ⟨n, mem, c, configured, excess⟩ => by
    obtain ⟨c₁, first⟩ := all name List.mem_cons_self
    by_cases limits : ConfigFile.InLimits c₁
    · obtain ⟨s, opened, -, -⟩ := openEntry_of_inLimits env options now first limits
      by_cases later : n ∈ rest
      · obtain ⟨x, h', run⟩ := openEntries_of_excess rest
          { h with catalog := { h.catalog with slots := h.catalog.slots.insert name { collection := s } } }
          (fun n mem => all n (List.mem_cons_of_mem _ mem)) ⟨n, later, c, configured, excess⟩
        exact ⟨x, h', (bind_of_ok opened).trans run⟩
      · have here : n = name := (List.mem_cons.mp mem).resolve_right later
        subst here
        obtain ⟨st, failed⟩ := openEntry_of_excess env options now configured excess
        exact ⟨_, _, bind_of_error failed⟩
    · obtain ⟨st, failed⟩ := openEntry_of_excess env options now first limits
      exact ⟨_, _, bind_of_error failed⟩

end Opening

/-- Collections have been created in a directory that was empty, the latest one first. -/
inductive Populated (F : FileSystem) : List (FileName × CollectionConfig) → Host → Prop
  | empty : Populated F [] {}
  | create {made : List (FileName × CollectionConfig)} {h h' : Host} {env : Environment FileName (List Byte)}
      {now : UInt64} {name : FileName} {config : CollectionConfig} (before : Populated F made h)
      (run : create F env now name config h = (.ok (), h')) : Populated F ((name, config) :: made) h'

/-- The disk holds the latest collection of each place. -/
structure Prepared (F : FileSystem) (made : List (FileName × CollectionConfig)) (h : Host) : Prop where
  names : (made.map (·.1)).Nodup
  slots : ∀ x ∈ made, x.1 ∈ h.catalog.slots ∧ (directory F.platform h.disk x.1).isSome
  directories : ∀ k D, h.disk.lookup k = some D → ∃ c, (D.name, c) ∈ made ∧ F.platform.fold D.name = k ∧
    Configured F h.disk D.name c

section Populated
variable {F : FileSystem} {env : Environment FileName (List Byte)}
  {options : IndexReader.ReadOptions} {now : UInt64}
  {made : List (FileName × CollectionConfig)} {h h' : Host} {name : FileName} {config : CollectionConfig}

theorem name_untouched : ¬ Involved kConfigName kManifestName ∧ ¬ Involved kConfigName kDroppedMarker := by
  constructor <;> rintro (same | same) <;> exact absurd same (by decide)

theorem Prepared.create (prepared : Prepared F made h) (created : Created F now name config h h') :
    Prepared F ((name, config) :: made) h' := by
  obtain ⟨accepted, ⟨s, -, catalog⟩, new, temp, elsewhere⟩ := created
  have slots : ∀ n, n ∈ h'.catalog.slots ↔ n = name ∨ n ∈ h.catalog.slots :=
    fun n => by rw [catalog, AList.mem_insert]
  have free : directory F.platform h.disk (creatingName name) = none := by
    cases known : directory F.platform h.disk (creatingName name) with
    | none => rfl
    | some D =>
      obtain ⟨c, -, same, configured⟩ := prepared.directories _ D known
      exact absurd same.symm (creating_apart F name configured.valid)
  have files : ∀ f, ¬ Involved kConfigName f → file F.platform h'.disk name f = none := fun f away => by
    rcases new.others f away with none | same
    · exact none
    · exact same.trans (file_of_none free)
  have configured : Configured F h'.disk name config :=
    ⟨accepted.valid, accepted.config, new.there, new.config, files _ name_untouched.1, files _ name_untouched.2⟩
  refine ⟨?_, fun x mem => ?_, fun k D known => ?_⟩
  · refine List.nodup_cons.mpr ⟨fun mem => ?_, prepared.names⟩
    obtain ⟨x, there, same⟩ := List.mem_map.mp mem
    exact accepted.absent ((show x.1 = name from same) ▸ (prepared.slots x there).1)
  · rcases List.mem_cons.mp mem with rfl | mem
    · refine ⟨(slots _).mpr (.inl rfl), ?_⟩
      have there := congrArg Option.isSome new.there
      rwa [Option.isSome_map] at there
    · obtain ⟨slot, there⟩ := prepared.slots x mem
      refine ⟨(slots _).mpr (.inr slot), ?_⟩
      by_cases here : F.platform.fold x.1 = F.platform.fold name
      · have there := congrArg Option.isSome new.there
        rw [Option.isSome_map, directory, ← here] at there
        exact there
      · obtain ⟨D, known⟩ := Option.isSome_iff_exists.mp there
        obtain ⟨c, -, same, other⟩ := prepared.directories _ D known
        have apart : F.platform.fold x.1 ≠ F.platform.fold (creatingName name) := fun folded =>
          creating_apart F name other.valid ((same.trans folded).symm)
        rw [directory, elsewhere _ here apart]
        exact there
  · by_cases here : k = F.platform.fold name
    · subst here
      have named := new.there
      rw [directory, known] at named
      rw [show D.name = name from Option.some.inj named]
      exact ⟨config, List.mem_cons_self, rfl, configured⟩
    · by_cases far : k = F.platform.fold (creatingName name)
      · rw [far] at known
        cases temp.symm.trans known
      · rw [elsewhere k here far] at known
        obtain ⟨c, mem, same, other⟩ := prepared.directories k D known
        refine ⟨c, List.mem_cons_of_mem _ mem, same, other.congr ?_⟩
        rw [directory, directory, same]
        exact elsewhere k here far

theorem Populated.prepared (populated : Populated F made h) : Prepared F made h := by
  induction populated with
  | empty => exact ⟨List.nodup_nil, fun _ mem => (by cases mem), fun k D known => by cases known⟩
  | create _ run ih => exact ih.create ((create_ends _ _ _ _ _ _).1 _ _ run).1

theorem mem_directoryNames {d : Disk FileName (List Byte)} {n : FileName} :
    n ∈ directoryNames d ↔ ∃ k D, d.lookup k = some D ∧ D.name = n := by
  simp only [directoryNames, List.mem_map]
  constructor
  · rintro ⟨⟨k, D⟩, mem, rfl⟩
    exact ⟨k, D, AList.mem_lookup_iff.mpr mem, rfl⟩
  · rintro ⟨k, D, known, rfl⟩
    exact ⟨⟨k, D⟩, AList.mem_lookup_iff.mp known, rfl⟩

/-- Opening restores what has been created, unless the reader of a configuration refuses it or another collection
has taken its place. -/
theorem Prepared.reopens_iff (prepared : Prepared F made h) (env : Environment FileName (List Byte)) :
    (∃ h', openCatalog F env options now h = (.ok (), h') ∧
      ∀ x ∈ made, ∃ slot, h'.catalog.slots.lookup x.1 = some slot ∧ Reopened options x.2 slot) ↔
    (∀ x ∈ made, ConfigFile.InLimits x.2) ∧ (made.map fun x => F.platform.fold x.1).Nodup := by
  have listed : ∀ n, n ∈ env.order [] (directoryNames h.disk) ↔ n ∈ directoryNames h.disk :=
    fun n => (env.lists _ _).mem_iff
  have all : ∀ n ∈ env.order [] (directoryNames h.disk), ∃ c, (n, c) ∈ made ∧
      Configured F h.disk n c := fun n mem => by
    obtain ⟨k, D, known, rfl⟩ := mem_directoryNames.mp ((listed n).mp mem)
    obtain ⟨c, there, -, configured⟩ := prepared.directories k D known
    exact ⟨c, there, configured⟩
  have opened : ∀ {result : Except (Interruption Status) Unit} {h' : Host},
      openEntries F env options now (env.order [] (directoryNames h.disk))
      { h with catalog := {} } = (result, h') → openCatalog F env options now h = (result, h') := fun run => run
  have unique : ∀ {n : FileName} {c c' : CollectionConfig}, (n, c) ∈ made → (n, c') ∈ made → c = c' :=
    fun left right => by
    have same := List.inj_on_of_nodup_map prepared.names left right rfl
    exact congrArg Prod.snd same
  constructor
  · rintro ⟨h', run, restored⟩
    have limits : ∀ n ∈ env.order [] (directoryNames h.disk), ∃ c, Configured F h.disk n c ∧
        ConfigFile.InLimits c := by
      by_contra bad
      simp only [not_forall, not_exists, not_and] at bad
      obtain ⟨n, mem, excess⟩ := bad
      obtain ⟨c, -, configured⟩ := all n mem
      obtain ⟨x, h₁, failed⟩ := openEntries_of_excess (F := F) env options now
        (env.order [] (directoryNames h.disk))
        { h with catalog := {} } (fun n mem => (all n mem).imp fun _ both => both.2)
        ⟨n, mem, c, configured, excess c configured⟩
      cases (opened failed).symm.trans run
    obtain ⟨h₁, done, found, others⟩ :=
      openEntries_of_inLimits (F := F) env options now _ { h with catalog := {} } limits
    cases (opened done).symm.trans run
    have there : ∀ x ∈ made, x.1 ∈ env.order [] (directoryNames h.disk) := by
      intro x mem
      by_contra away
      obtain ⟨slot, known, -⟩ := restored x mem
      rw [others _ away] at known
      cases known
    have own : ∀ x ∈ made, ∃ D, h.disk.lookup (F.platform.fold x.1) = some D ∧ D.name = x.1 := by
      intro x mem
      obtain ⟨k, D, known, name⟩ := mem_directoryNames.mp ((listed _).mp (there x mem))
      obtain ⟨c, -, same, -⟩ := prepared.directories k D known
      exact ⟨D, by rw [← name, same]; exact known, name⟩
    refine ⟨fun x mem => ?_, ?_⟩
    · obtain ⟨c, configured, low⟩ := limits _ (there x mem)
      obtain ⟨c', mem', made'⟩ := all _ (there x mem)
      rw [unique mem mem']
      exact (configured.agree made' low).1
    · have injective : ∀ x ∈ made, ∀ y ∈ made, F.platform.fold x.1 = F.platform.fold y.1 → x = y := by
        intro x left y right same
        obtain ⟨D, known, name⟩ := own x left
        obtain ⟨E, known', name'⟩ := own y right
        rw [same] at known
        cases known.symm.trans known'
        have names : x.1 = y.1 := name.symm.trans name'
        exact List.inj_on_of_nodup_map prepared.names left right names
      exact (List.nodup_map_iff_inj_on (List.Nodup.of_map _ prepared.names)).mpr injective
  · rintro ⟨limits, apart⟩
    obtain ⟨h', done, found, others⟩ := openEntries_of_inLimits (F := F) env options now
      (env.order [] (directoryNames h.disk)) { h with catalog := {} } fun n mem => by
        obtain ⟨c, there, configured⟩ := all n mem
        exact ⟨c, configured, limits _ there⟩
    refine ⟨h', opened done, fun x mem => ?_⟩
    obtain ⟨D, known⟩ := Option.isSome_iff_exists.mp (prepared.slots x mem).2
    obtain ⟨c, there, same, configured⟩ := prepared.directories _ D known
    have here : (D.name, c) = x := List.inj_on_of_nodup_map apart there mem same
    subst here
    obtain ⟨c', slot, configured', looked, config, rows⟩ :=
      found D.name ((listed _).mpr (mem_directoryNames.mpr ⟨_, D, known, rfl⟩))
    exact ⟨slot, looked, config.trans ((configured.agree configured' (limits _ there)).2 _), rows⟩

end Populated

theorem decodeConfig_iff {config : CollectionConfig} (good : config.validate = .ok ()) :
    ConfigFile.decodeConfig (ConfigFile.encodeConfig config) = .ok { config with concurrency := .concurrent } ↔
    ConfigFile.InLimits config := by
  refine ⟨fun decoded => ?_, ConfigFile.decodeConfig_of_inLimits good⟩
  by_contra excess
  obtain ⟨st, failed⟩ := ConfigFile.decodeConfig_of_excess good excess
  cases failed.symm.trans decoded

/-- A configuration is read back, and a directory of collections opens again with all of them, exactly if the
bounds of the reader are kept and no two of the collections share a place. -/
theorem created_collections_reopen_iff {F : FileSystem} {made : List (FileName × CollectionConfig)} {h : Host}
    (populated : Populated F made h)
    (env : Environment FileName (List Byte)) (options : IndexReader.ReadOptions) (now : UInt64) :
    (∀ config : CollectionConfig, config.validate = .ok () →
      (ConfigFile.decodeConfig (ConfigFile.encodeConfig config) = .ok { config with concurrency := .concurrent } ↔
        ConfigFile.InLimits config)) ∧
    ((∃ h', openCatalog F env options now h = (.ok (), h') ∧
      ∀ x ∈ made, ∃ slot, h'.catalog.slots.lookup x.1 = some slot ∧ Reopened options x.2 slot) ↔
    (∀ x ∈ made, ConfigFile.InLimits x.2) ∧ (made.map fun x => F.platform.fold x.1).Nodup) :=
  ⟨fun _ good => decodeConfig_iff good, populated.prepared.reopens_iff env⟩

theorem created_collections_reopen_iff_small :
    ∃ h, Populated FileSystem.posix [(ascii "a", Guarantees.smallConfig)] h ∧
    ∃ h', openCatalog FileSystem.posix smooth {} 0 h = (.ok (), h') ∧
      ∃ slot, h'.catalog.slots.lookup (ascii "a") = some slot ∧ Reopened {} Guarantees.smallConfig slot := by
  obtain ⟨h, run, -⟩ := create_works FileSystem.posix smooth 0 (ascii "a") Guarantees.smallConfig {} (fun _ => rfl)
    ⟨by decide, by decide, by decide, by decide⟩
  have populated := Populated.empty.create run
  obtain ⟨h', opened, restored⟩ := (created_collections_reopen_iff populated smooth {} 0).2.mpr
    ⟨fun x mem => List.mem_singleton.mp mem ▸ ⟨by decide, by decide, by decide, by decide⟩, List.nodup_singleton _⟩
  exact ⟨h, populated, h', opened, restored _ List.mem_cons_self⟩

/-- A flat collection with more links per node than the reader of its configuration accepts. -/
def wideFlatConfig : CollectionConfig := { dim := 4, index := .flat, hnsw := { M := 600 } }

theorem wide_flat_collection_blocks_catalog : wideFlatConfig.validate = .ok () ∧
    ConfigFile.decodeConfig (ConfigFile.encodeConfig wideFlatConfig) ≠
      .ok { wideFlatConfig with concurrency := .concurrent } ∧
    ∃ h, Populated FileSystem.posix [(ascii "a", wideFlatConfig)] h ∧
      ¬ ∃ h', openCatalog FileSystem.posix smooth {} 0 h = (.ok (), h') ∧
        ∃ slot, h'.catalog.slots.lookup (ascii "a") = some slot ∧ Reopened {} wideFlatConfig slot := by
  have valid : wideFlatConfig.validate = .ok () := by decide
  have wide : ¬ ConfigFile.InLimits wideFlatConfig := fun limits => absurd limits.1 (by decide)
  refine ⟨valid, fun decoded => wide ((decodeConfig_iff valid).mp decoded), ?_⟩
  obtain ⟨h, run, -⟩ := create_works FileSystem.posix smooth 0 (ascii "a") wideFlatConfig {} (fun _ => rfl)
    ⟨by decide, valid, by decide, by decide⟩
  have populated := Populated.empty.create run
  refine ⟨h, populated, fun ⟨h', opened, slot⟩ => ?_⟩
  exact wide ((populated.prepared.reopens_iff smooth).mp
    ⟨h', opened, fun x mem => List.mem_singleton.mp mem ▸ slot⟩ |>.1 _ List.mem_cons_self)

end VectorForge.Catalog
