import VectorForge.Catalog.Ledger

/-! Opening a data directory that a crash has left. -/

namespace VectorForge.Catalog
open Files Effect AtomicFile Snapshot

section Settling
variable {F : FileSystem} {names : FileName → Prop} {bound : Nat} {L L' : Ledger}
  {d d' : Disk FileName (List Byte)} {n m t : FileName}

theorem Separate.place_ne (separate : Separate F names) (mine : names n) (theirs : names m) (other : m ≠ n) :
    F.platform.fold m ≠ F.platform.fold n ∧ F.platform.fold m ≠ F.platform.fold (creatingName n) :=
  ⟨fun same => other (separate.apart m n theirs mine same),
    fun same => creating_apart F n (separate.valid m theirs) same.symm⟩

/-- What happens to one name is a matter of its own two directories. -/
theorem Kept.settle (kept : Kept F names bound L d) (separate : Separate F names) (mine : names n)
    (elsewhere : Elsewhere F n d d') (titled : ∀ t D, Titles n t → directory F.platform d' t = some D → D.name = t)
    (others : ∀ m, m ≠ n → L' m = L m) (listed : ∀ e, L' n = some e → Holds F bound d' n e)
    (unlisted : L' n = none → directory F.platform d' n = none ∨ (file F.platform d' n kDroppedMarker).isSome) :
    Kept F names bound L' d' := by
  have same (m : FileName) (theirs : names m) (other : m ≠ n) :
      directory F.platform d' m = directory F.platform d m := by
    obtain ⟨here, there⟩ := separate.place_ne mine theirs other
    exact elsewhere _ here there
  refine ⟨fun k D found => ?_, fun m e found => ?_, fun m theirs absent => ?_⟩
  · by_cases here : k = F.platform.fold n
    · subst here
      have name := titled n D (.inl rfl) found
      exact ⟨⟨n, mine, .inl name⟩, by rw [name]⟩
    · by_cases there : k = F.platform.fold (creatingName n)
      · subst there
        have name := titled (creatingName n) D (.inr rfl) found
        exact ⟨⟨n, mine, .inr name⟩, by rw [name]⟩
      · rw [elsewhere k here there] at found
        exact kept.titled k D found
  · by_cases other : m = n
    · subst other
      exact ⟨mine, listed e found⟩
    · rw [others m other] at found
      obtain ⟨theirs, holds⟩ := kept.listed m e found
      exact ⟨theirs, holds.congr (same m theirs other)⟩
  · by_cases other : m = n
    · subst other
      exact unlisted absent
    · rw [others m other] at absent
      rw [file, same m theirs other, ← file]
      exact kept.unlisted m theirs absent

theorem elsewhere_of_others (title : Titles n t) (others : ∀ k, k ≠ F.platform.fold t → d'.lookup k = d.lookup k) :
    Elsewhere F n d d' := by
  intro k here there
  rcases title with rfl | rfl
  · exact others k here
  · exact others k there

end Settling

section Opening
variable {F : FileSystem} {names : FileName → Prop} {bound : Nat} {L : Ledger}
  {env : Environment FileName (List Byte)}
  {options : IndexReader.ReadOptions} {now : UInt64} {h h' : Host} {e n t : FileName}
  {d d' : Disk FileName (List Byte)}

theorem name_of_titled (titled : Titled F (Known names) d) (separate : Separate F names) (mine : names n)
    (title : Titles n t) {D : Directory FileName (List Byte)}
    (there : directory F.platform d t = some D) : D.name = t := by
  obtain ⟨⟨m, theirs, first⟩, place⟩ := titled _ D there
  exact (separate.same_title theirs mine first title place).2

/-- The names of what is left of a directory. -/
theorem name_of_remains (remains : Remains (directory F.platform d t) (directory F.platform d' t))
    (before : ∀ D, directory F.platform d t = some D → D.name = t)
    {D : Directory FileName (List Byte)} (there : directory F.platform d' t = some D) : D.name = t := by
  rcases remains with gone | ⟨D₀, D₁, old, new, name, -⟩
  · cases gone.symm.trans there
  · cases new.symm.trans there
    exact name.trans (before D₀ old)

theorem not_names_creating (separate : Separate F names) (mine : names (creatingName n)) : False :=
  creating_apart F n (separate.valid _ mine) rfl

theorem invalid_creating (n : FileName) : isValidName (creatingName n) = false := by
  cases valid : isValidName (creatingName n) with
  | false => rfl
  | true => exact absurd rfl (creating_apart FileSystem.posix n valid)

/-- The files of one entry have changed. -/
theorem Kept.saved {L' : Ledger} {x : Entry} {allowed : FileName → Prop} (kept : Kept F names bound L d)
    (separate : Separate F names)
    (only : OnlyFiles F.platform n allowed d d') {old : Entry} (before : L n = some old)
    (others : ∀ m, m ≠ n → L' m = L m) (found : L' n = some x)
    (after : Holds F bound d' n x) : Kept F names bound L' d' := by
  obtain ⟨mine, -⟩ := kept.listed n old before
  refine kept.settle separate mine (elsewhere_of_others (.inl rfl) only.others) (fun t D title there => ?_) others
    (fun y same => by cases found.symm.trans same; exact after) fun absent => by rw [found] at absent; cases absent
  rcases title with rfl | rfl
  · have name := after.there
    rw [there] at name
    exact Option.some.inj name
  · have same : directory F.platform d' (creatingName n) = directory F.platform d (creatingName n) :=
      only.others _ (creating_apart F n (separate.valid n mine))
    rw [same] at there
    exact name_of_titled kept.titled separate mine (.inr rfl) there

/-- What an entry has become once it has been opened. -/
def Opened (F : FileSystem) (options : IndexReader.ReadOptions) (L : Ledger) (e : FileName) (h h' : Host) : Prop :=
  (∃ x slot, L e = some x ∧ Restored options x slot ∧
    h'.catalog = { h.catalog with slots := h.catalog.slots.insert e slot }) ∨
    L e = none ∧ directory F.platform h'.disk e = none ∧ h'.catalog = h.catalog

variable (separate : Separate F names) (crashes : env.CrashOnly) (resolved : options.verify ≠ .auto)
  (kept : Kept F names bound L h.disk)
include separate crashes kept

/-- A directory under a temporary name is removed. -/
theorem openCreating_ends (mine : names n) : Ends (openEntry F env options now (creatingName n)) h
    (fun _ h' => Kept F names bound L h'.disk ∧
      (∀ k, k ≠ F.platform.fold (creatingName n) → h'.disk.lookup k = h.disk.lookup k) ∧
      Opened F options L (creatingName n) h h') fun x h' => x = .stops ∧ env.Interrupts ∧
      Kept F names bound L h'.disk := by
  have settle {d' : Disk FileName (List Byte)} (others : ∀ k, k ≠ F.platform.fold (creatingName n) →
      d'.lookup k = h.disk.lookup k)
      (remains : Remains (directory F.platform h.disk (creatingName n))
        (directory F.platform d' (creatingName n))) : Kept F names bound L d' := by
    have same : directory F.platform d' n = directory F.platform h.disk n :=
      others _ (creating_apart F n (separate.valid n mine)).symm
    refine kept.settle separate mine (elsewhere_of_others (.inr rfl) others)
      (fun t D title there => ?_) (fun _ _ => rfl)
      (fun x found => ((kept.listed n x found).2).congr same) fun absent => ?_
    · rcases title with rfl | rfl
      · rw [same] at there
        exact name_of_titled kept.titled separate mine (.inl rfl) there
      · exact name_of_remains remains (fun D there => name_of_titled kept.titled separate mine
          (.inr rfl) there) there
    · rw [file, same, ← file]
      exact kept.unlisted n mine absent
  refine Ends.get (ite_ends (fun _ => ite_ends (fun _ => ?_) fun other => ?_) fun live => ?_)
  · refine onDisk_ends ((clear_ends (creatingName n) h.disk).mono ?_ ?_)
    · rintro _ d' ⟨others, remains, gone | ⟨-, s, left, failed⟩⟩
      · refine ⟨settle others remains, others, .inr ⟨?_, gone, rfl⟩⟩
        cases found : L (creatingName n) with
        | none => rfl
        | some x => exact (not_names_creating separate (kept.listed _ x found).1).elim
      · exact absurd failed (crashes s left)
    · rintro x d' ⟨rfl, others, remains, explained⟩
      exact ⟨rfl, explained.interrupts, settle others remains⟩
  · exact absurd (.inl rfl) other
  · exact absurd (.inl (invalid_creating n)) live

/-- The directory of a dropped collection is removed. -/
theorem openDropped_ends (mine : names n) (spares : env.Spares n kDroppedMarker) (absent : L n = none)
    (there : (directory F.platform h.disk n).isSome) :
      Ends (openEntry F env options now n) h (fun _ h' => Kept F names bound L h'.disk ∧
        (∀ k, k ≠ F.platform.fold n → h'.disk.lookup k = h.disk.lookup k) ∧ Opened F options L n h h')
      fun x h' => x = .stops ∧ env.Interrupts ∧ Kept F names bound L h'.disk := by
  have marked : (file F.platform h.disk n kDroppedMarker).isSome := by
    rcases kept.unlisted n mine absent with gone | marked
    · rw [gone] at there
      cases there
    · exact marked
  have settle {d' : Disk FileName (List Byte)} (others : ∀ k, k ≠ F.platform.fold n → d'.lookup k = h.disk.lookup k)
      (named : ∀ D, directory F.platform d' n = some D → D.name = n)
      (left : directory F.platform d' n = none ∨ (file F.platform d' n kDroppedMarker).isSome) :
      Kept F names bound L d' := by
    refine kept.settle separate mine (elsewhere_of_others (.inl rfl) others)
      (fun t D title found => ?_) (fun _ _ => rfl)
      (fun x found => by rw [absent] at found; cases found) fun _ => left
    rcases title with rfl | rfl
    · exact named D found
    · have same : directory F.platform d' (creatingName n) = directory F.platform h.disk (creatingName n) :=
        others _ (creating_apart F n (separate.valid n mine))
      rw [same] at found
      exact name_of_titled kept.titled separate mine (.inr rfl) found
  refine Ends.get (ite_ends (fun _ => ite_ends (fun _ => ?_) fun other => ?_) fun live => ?_)
  · have removed : Ends (ignore (removeAll F.platform env (Status.ioError "") n)) h.disk
        (fun _ d' => Erased F.platform n h.disk d')
        fun x d' => x = .stops ∧ env.Interrupts ∧ Trimmed F.platform n h.disk d' ∧
          file F.platform d' n kDroppedMarker = file F.platform h.disk n kDroppedMarker := by
      refine (ignore_ends (removeAll_spares crashes spares marked) fun e d' left => ?_).mono
        (fun _ _ holds => holds) fun _ _ holds => holds.2
      cases left.1
    refine onDisk_ends (removed.mono ?_ ?_)
    · rintro _ d' erased
      have gone : directory F.platform d' n = none := (erased _).trans (if_pos rfl)
      have others : ∀ k, k ≠ F.platform.fold n → d'.lookup k = h.disk.lookup k :=
        fun k apart => (erased k).trans (if_neg apart)
      exact ⟨settle others (fun D there => by rw [gone] at there; cases there) (.inl gone), others,
        .inr ⟨absent, gone, rfl⟩⟩
    · rintro x d' ⟨stopped, interrupts, trimmed, marker⟩
      refine ⟨stopped, interrupts, settle trimmed.others (fun D there => ?_) (.inr (by rw [marker]; exact marked))⟩
      exact name_of_remains (remains_of_trimmed trimmed)
        (fun D there => name_of_titled kept.titled separate mine (.inl rfl) there) there
  · exact absurd (.inr (separate.valid n mine)) other
  · exact absurd (.inr marked) live

omit crashes in
include resolved in
/-- A collection comes back, and the garbage collection does not harm it. -/
theorem openListed_ends {x : Entry} (found : L n = some x) : Ends (openEntry F env options now n) h
    (fun _ h' => Kept F names bound L h'.disk ∧ (∀ k, k ≠ F.platform.fold n → h'.disk.lookup k = h.disk.lookup k) ∧
      Opened F options L n h h')
    fun x h' => x = .stops ∧ env.Interrupts ∧ Kept F names bound L h'.disk := by
  obtain ⟨mine, holds⟩ := kept.listed n x found
  obtain ⟨s, g, restored, good⟩ := holds.restores now resolved
  refine Ends.get (ite_ends (fun bad => ?_) fun _ => ?_)
  · rw [holds.marker, separate.valid n mine] at bad
    simp at bad
  · rw [restored]
    simp only
    refine Ends.bind (Ends.mono (?swept : Ends _ h
      (fun _ h' => Kept F names bound L h'.disk ∧
        (∀ k, k ≠ F.platform.fold n → h'.disk.lookup k = h.disk.lookup k) ∧ h'.catalog = h.catalog)
      fun x h' => x = .stops ∧ env.Interrupts ∧ Kept F names bound L h'.disk) ?_ fun _ _ left => left)
    case swept =>
      split
      next known =>
        have contents := holds.contents
        unfold Contents at contents
        split at contents
        next => rw [contents.1.readManifest] at known; cases known
        next g s published =>
          -- whatever the garbage collection gets done
          have settle {d' : Disk FileName (List Byte)} (left : d' = h.disk ∨
              ∃ m, readManifest F.platform h.disk n = .ok m ∧
              Swept F.platform n m.file h.disk d') : Kept F names bound L d' ∧ ∀ k, k ≠ F.platform.fold n →
              d'.lookup k = h.disk.lookup k := by
            rcases left with rfl | ⟨m, read, swept⟩
            · exact ⟨kept, fun _ _ => rfl⟩
            · have only : OnlyFiles F.platform n Saved h.disk d' :=
                swept.only.mono fun f doomed => saved_of_collectable (collectable_of_doomed doomed).1
              have after : Holds F bound d' n x := by
                refine ⟨only.name.trans holds.there, (only.files _ not_saved_marker).trans holds.marker, ?_⟩
                unfold Contents
                rw [published]
                exact ⟨contents.1.swept read swept, contents.2⟩
              exact ⟨kept.saved separate only found (fun _ _ => rfl) found after, only.others⟩
          refine Ends.bind (Ends.attempt (onDisk_ends ((collectGarbage_ends F.platform env n h.disk).mono ?_ ?_)))
          · rintro _ d' ⟨m, read, swept⟩
            obtain ⟨after, others⟩ := settle (.inr ⟨m, read, swept⟩)
            exact Ends.pure ⟨after, others, rfl⟩
          · rintro y d' ⟨left, explained⟩
            obtain ⟨after, others⟩ := settle left
            cases y with
            | stops => exact ⟨rfl, (explained rfl).interrupts, after⟩
            | reports => exact Ends.pure ⟨after, others, rfl⟩
      next => exact Ends.pure ⟨kept, fun _ _ => rfl, rfl⟩
    rintro _ h' ⟨after, others, catalog⟩
    exact Ends.pure ⟨after, others, .inl ⟨x, _, found, good, by rw [← catalog]⟩⟩

/-- Every directory that opening can meet. -/
theorem openEntry_ends (spares : ∀ n, names n → env.Spares n kDroppedMarker) (resolved : options.verify ≠ .auto)
    (there : (directory F.platform h.disk e).map (·.name) = some e) : Ends (openEntry F env options now e) h
    (fun _ h' => Kept F names bound L h'.disk ∧ (∀ k, k ≠ F.platform.fold e → h'.disk.lookup k = h.disk.lookup k) ∧
      Opened F options L e h h')
    fun x h' => x = .stops ∧ env.Interrupts ∧ Kept F names bound L h'.disk := by
  obtain ⟨D, found, name⟩ := Option.map_eq_some_iff.mp there
  obtain ⟨⟨n, mine, title⟩, -⟩ := kept.titled _ D found
  rw [name] at title
  rcases title with rfl | rfl
  · cases listed : L e with
    | some x => exact openListed_ends separate resolved kept listed
    | none => exact openDropped_ends separate crashes kept mine (spares e mine) listed (by rw [found]; rfl)
  · exact openCreating_ends separate crashes kept mine

end Opening

section Entries
variable {F : FileSystem} {names : FileName → Prop} {bound : Nat} {L : Ledger}
  {env : Environment FileName (List Byte)} {options : IndexReader.ReadOptions} {now : UInt64} {h h' : Host}

/-- What opening makes of some of the entries. -/
structure AllOpened (F : FileSystem) (options : IndexReader.ReadOptions) (L : Ledger) (entries : List FileName)
    (h h' : Host) : Prop where
  slots : ∀ n, (n ∈ entries ∧ ∃ x slot, L n = some x ∧ Restored options x slot ∧
    h'.catalog.slots.lookup n = some slot) ∨
    ((n ∈ entries → L n = none) ∧ h'.catalog.slots.lookup n = h.catalog.slots.lookup n)
  gone : ∀ e ∈ entries, L e = none → directory F.platform h'.disk e = none
  others : ∀ k, k ∉ entries.map F.platform.fold → h'.disk.lookup k = h.disk.lookup k
  dropping : h'.catalog.dropping = h.catalog.dropping
  retired : h'.catalog.retired = h.catalog.retired

theorem AllOpened.cons {e : FileName} {entries : List FileName} {h₁ : Host} (first : Opened F options L e h h₁)
    (others : ∀ k, k ≠ F.platform.fold e → h₁.disk.lookup k = h.disk.lookup k)
    (absent : F.platform.fold e ∉ entries.map F.platform.fold)
    (rest : AllOpened F options L entries h₁ h') : AllOpened F options L (e :: entries) h h' := by
  have outside : e ∉ entries := fun member => absent (List.mem_map_of_mem member)
  have kept : h₁.catalog.dropping = h.catalog.dropping ∧ h₁.catalog.retired = h.catalog.retired := by
    rcases first with ⟨_, _, _, _, catalog⟩ | ⟨_, _, catalog⟩ <;> rw [catalog] <;> exact ⟨rfl, rfl⟩
  have later (n : FileName) (other : n ≠ e) : h₁.catalog.slots.lookup n = h.catalog.slots.lookup n := by
    rcases first with ⟨_, _, _, _, catalog⟩ | ⟨_, _, catalog⟩ <;> rw [catalog]
    exact AList.lookup_insert_ne other
  refine ⟨fun n => ?_, fun n member none => ?_, fun k outside => ?_, rest.dropping.trans kept.1,
    rest.retired.trans kept.2⟩
  · by_cases same : n = e
    · subst same
      rcases rest.slots n with ⟨member, _⟩ | ⟨_, looked⟩
      · exact absurd member outside
      · rcases first with ⟨x, slot, found, good, catalog⟩ | ⟨none, _, catalog⟩
        · refine .inl ⟨List.mem_cons_self, x, slot, found, good, looked.trans ?_⟩
          rw [catalog]
          exact AList.lookup_insert _
        · exact .inr ⟨fun _ => none, looked.trans (by rw [catalog])⟩
    · rcases rest.slots n with ⟨member, found⟩ | ⟨none, looked⟩
      · exact .inl ⟨List.mem_cons_of_mem _ member, found⟩
      · exact .inr ⟨fun member => none ((List.mem_cons.mp member).resolve_left same), looked.trans (later n same)⟩
  · rcases List.mem_cons.mp member with rfl | member
    · rcases first with ⟨x, _, found, _⟩ | ⟨_, gone, _⟩
      · rw [none] at found
        cases found
      · exact (rest.others _ absent).trans gone
    · exact rest.gone n member none
  · rw [List.map_cons, List.mem_cons, not_or] at outside
    exact (rest.others k outside.2).trans (others k outside.1)

variable (separate : Separate F names) (crashes : env.CrashOnly)
  (spares : ∀ n, names n → env.Spares n kDroppedMarker) (resolved : options.verify ≠ .auto)
include separate crashes spares resolved

theorem openEntries_ends : ∀ (entries : List FileName) {h : Host}, Kept F names bound L h.disk →
    (entries.map F.platform.fold).Nodup →
    (∀ e ∈ entries, (directory F.platform h.disk e).map (·.name) = some e) →
    Ends (openEntries F env options now entries) h
      (fun _ h' => Kept F names bound L h'.disk ∧ AllOpened F options L entries h h') fun x h' => x = .stops ∧
      env.Interrupts ∧ Kept F names bound L h'.disk
  | [], h, kept, _, _ => Ends.pure ⟨kept, fun _ => .inr ⟨nofun, rfl⟩, nofun, fun _ _ => rfl, rfl, rfl⟩
  | e :: entries, h, kept, distinct, there => by
    rw [List.map_cons, List.nodup_cons] at distinct
    refine Ends.bind ((openEntry_ends separate crashes kept spares resolved (there e List.mem_cons_self)).mono ?_
      fun _ _ left => left)
    rintro _ h₁ ⟨after, others, first⟩
    have still : ∀ x ∈ entries, (directory F.platform h₁.disk x).map (·.name) = some x := by
      intro x member
      have apart : F.platform.fold x ≠ F.platform.fold e :=
        fun same => distinct.1 (same ▸ List.mem_map_of_mem member)
      rw [directory, others _ apart]
      exact there x (List.mem_cons_of_mem _ member)
    refine (openEntries_ends entries after distinct.2 still).mono ?_ fun _ _ left => left
    rintro _ h' ⟨final, rest⟩
    exact ⟨final, .cons first others distinct.1 rest⟩

end Entries

/-- What a catalog knows about a name. A collection that has been dropped may be in use, and then only one that
has had the name. -/
structure Served (F : FileSystem) (e : Option Entry) (n : FileName) (h : Host) : Prop where
  slot : n ∈ h.catalog.slots ↔ e.isSome
  dropping : n ∈ h.catalog.dropping → e = none
  once : h.catalog.dropping.count n ≤ 1
  retired : h.catalog.retired.filter (·.name = n) ≠ [] → n ∈ h.catalog.dropping
  single : (h.catalog.retired.filter (·.name = n)).length ≤ 1
  settled : e = none → n ∉ h.catalog.dropping → directory F.platform h.disk n = none
  fresh : directory F.platform h.disk (creatingName n) = none

/-- A catalog that serves the ledger. -/
def Serves (F : FileSystem) (names : FileName → Prop) (L : Ledger) (h : Host) : Prop :=
  ∀ n, names n → Served F (L n) n h

/-- The catalog lists the entries of the ledger and nothing else, each as it was. -/
def Lists (options : IndexReader.ReadOptions) (L : Ledger) (c : Catalog) : Prop :=
  ∀ n, (∃ x slot, L n = some x ∧ c.slots.lookup n = some slot ∧ Restored options x slot) ∨ L n = none ∧
    c.slots.lookup n = none

section Catalog
variable {F : FileSystem} {names : FileName → Prop} {bound : Nat} {L : Ledger}
  {env : Environment FileName (List Byte)} {options : IndexReader.ReadOptions} {now : UInt64} {h : Host}

theorem openCatalog_ends (separate : Separate F names) (crashes : env.CrashOnly)
    (spares : ∀ n, names n → env.Spares n kDroppedMarker)
    (resolved : options.verify ≠ .auto) (kept : Kept F names bound L h.disk) :
    Ends (openCatalog F env options now) h
    (fun _ h' => Kept F names bound L h'.disk ∧ Serves F names L h' ∧ Lists options L h'.catalog) fun x h' =>
      x = .stops ∧ env.Interrupts ∧ Kept F names bound L h'.disk := by
  have perm := env.lists [] (directoryNames h.disk)
  have distinct : ((env.order [] (directoryNames h.disk)).map F.platform.fold).Nodup :=
    (perm.map _).nodup_iff.mpr (kept.titled.fold_names ▸ h.disk.nodupKeys)
  have started : Kept F names bound L ({ h with catalog := {} } : Host).disk := kept
  have ends : Ends (openEntries F env options now (env.order [] (directoryNames h.disk)))
      { h with catalog := {} } _ _ :=
    openEntries_ends separate crashes spares resolved _ started distinct fun e member =>
      kept.titled.there (perm.mem_iff.mp member)
  refine Ends.of_eq (openCatalog_eq h) (ends.mono ?_ fun _ _ left => left)
  rintro _ h' ⟨after, opened⟩
  -- every directory is among the entries
  have listed {n t : FileName} (mine : names n) (title : Titles n t) {D : Directory FileName (List Byte)}
      (there : directory F.platform h.disk t = some D) : t ∈ env.order [] (directoryNames h.disk) :=
    perm.mem_iff.mpr (mem_directoryNames.mpr ⟨_, D, there, name_of_titled kept.titled separate mine title there⟩)
  have gone {n t : FileName} (mine : names n) (title : Titles n t) (absent : L t = none) :
      directory F.platform h'.disk t = none := by
    by_cases member : t ∈ env.order [] (directoryNames h.disk)
    · exact opened.gone t member absent
    · cases there : directory F.platform h.disk t with
      | some D => exact absurd (listed mine title there) member
      | none =>
        refine (opened.others _ fun inside => ?_).trans there
        obtain ⟨x, entry, place⟩ := List.mem_map.mp inside
        have some := kept.titled.there (perm.mem_iff.mp entry)
        rw [directory, place] at some
        change (directory F.platform h.disk t).map _ = _ at some
        rw [there] at some
        cases some
  have lists : Lists options L h'.catalog := by
    intro n
    rcases opened.slots n with ⟨_, x, slot, found, good, looked⟩ | ⟨none, looked⟩
    · exact .inl ⟨x, slot, found, looked, good⟩
    · refine .inr ⟨?_, looked⟩
      cases found : L n with
      | none => rfl
      | some x =>
        obtain ⟨mine, holds⟩ := kept.listed n x found
        obtain ⟨D, there, _⟩ := Option.map_eq_some_iff.mp holds.there
        rw [none (listed mine (.inl rfl) there)] at found
        cases found
  refine ⟨after, fun n mine => ⟨?_, ?_, ?_, ?_, ?_, fun absent _ => gone mine (.inl rfl) absent,
    gone mine (.inr rfl) ?_⟩, lists⟩
  · rw [← AList.lookup_isSome]
    rcases lists n with ⟨x, slot, found, looked, _⟩ | ⟨found, looked⟩ <;> simp [found, looked]
  · rw [opened.dropping]
    exact fun member => absurd member List.not_mem_nil
  · rw [opened.dropping]
    exact Nat.zero_le 1
  · rw [opened.retired]
    exact absurd rfl
  · rw [opened.retired]
    exact Nat.zero_le 1
  · cases found : L (creatingName n) with
    | none => rfl
    | some x => exact (not_names_creating separate (kept.listed _ x found).1).elim

end Catalog
end VectorForge.Catalog
