import VectorForge.Catalog.Atomicity
import VectorForge.Catalog.Recovery

/-! What each request makes of its own collection, wherever it is stopped. -/

namespace VectorForge.Catalog
open Files Effect AtomicFile Snapshot
open Manifest (indexFileName)

/-- A name on the disk: the directory of its entry, or none that opening would take for a collection. -/
structure Housed (F : FileSystem) (bound : Nat) (e : Option Entry) (n : FileName)
    (d : Disk FileName (List Byte)) : Prop where
  listed : ∀ x, e = some x → Holds F bound d n x
  unlisted : e = none → directory F.platform d n = none ∨ (file F.platform d n kDroppedMarker).isSome

/-- How a request may end: it has its effect on the entry, or it reports an error and has none, or it is stopped
and has had it or not. -/
def Keeps {α : Type} (F : FileSystem) (bound : Nat) (before after : Option Entry) (n : FileName) (p : CatalogOp α)
    (h : Host) : Prop :=
  Ends p h (fun _ h' => Housed F bound after n h'.disk ∧ Served F after n h') fun x h' => match x with
    | .reports _ => Housed F bound before n h'.disk ∧ Served F before n h'
    | .stops => Housed F bound before n h'.disk ∨ Housed F bound after n h'.disk

/-- The generation that a snapshot of the entry would have. -/
def Entry.next (e : Entry) : UInt64 := match e.published with
  | none => 1
  | some (g, _) => g + 1

section Entries
variable {F : FileSystem} {bound more : Nat} {d d' : Disk FileName (List Byte)} {n : FileName}
  {x : Entry} {e : Option Entry} {allowed : FileName → Prop}

theorem Holds.mono (holds : Holds F bound d n x) (le : bound ≤ more) : Holds F more d n x :=
  ⟨holds.there, holds.marker, holds.contents.mono le⟩

theorem Housed.mono (housed : Housed F bound e n d) (le : bound ≤ more) : Housed F more e n d :=
  ⟨fun x same => (housed.listed x same).mono le, housed.unlisted⟩

theorem Housed.of_absent (absent : directory F.platform d n = none ∨ (file F.platform d n kDroppedMarker).isSome) :
    Housed F bound none n d :=
  ⟨fun _ same => (by cases same), fun _ => absent⟩

theorem Housed.of_holds (holds : Holds F bound d n x) : Housed F bound (some x) n d :=
  ⟨fun _ same => Option.some.inj same ▸ holds, fun same => (by cases same)⟩

/-- Files from which nothing is restored do not matter to an entry. -/
theorem Holds.only (holds : Holds F bound d n x) (only : OnlyFiles F.platform n allowed d d')
    (apart : ∀ f, Restoring f → ¬ allowed f)
    (marker : file F.platform d' n kDroppedMarker = file F.platform d n kDroppedMarker) : Holds F bound d' n x := by
  refine ⟨only.name.trans holds.there, marker.trans holds.marker, ?_⟩
  have contents := holds.contents
  unfold Contents at contents ⊢
  split at contents
  next =>
    obtain ⟨configured, limits⟩ := contents
    refine ⟨⟨configured.valid, configured.good, only.name.trans holds.there, ?_, ?_, marker.trans holds.marker⟩,
      limits⟩
    · exact (only.files _ (apart _ (.inr (.inl rfl)))).trans configured.config
    · exact (only.files _ (apart _ (.inl rfl))).trans configured.manifest
  next g s _ =>
    obtain ⟨current, ok, small⟩ := contents
    have index : IndexName (indexFileName g) := by
      obtain ⟨_, _, _, _, _, named⟩ := current
      exact indexName_of_read named
    exact ⟨current.congr (only.files _ (apart _ (.inl rfl))) (only.files _ (apart _ (.inr (.inr index)))), ok,
      small⟩

/-- A snapshot that has not been published changes nothing, whatever files it has left. -/
theorem Holds.unpublished (holds : Holds F bound d n x) (only : OnlyFiles F.platform n Saved d d')
    (same : Unpublished F.platform n d d') (room : bound + 1 < 10 ^ 19) : Holds F bound d' n x := by
  refine ⟨only.name.trans holds.there, (only.files _ not_saved_marker).trans holds.marker, ?_⟩
  have contents := holds.contents
  unfold Contents at contents ⊢
  split at contents
  next =>
    obtain ⟨configured, limits⟩ := contents
    exact ⟨⟨configured.valid, configured.good, only.name.trans holds.there,
      (only.files _ not_saved_config).trans configured.config,
      same.1.trans configured.manifest, (only.files _ not_saved_marker).trans holds.marker⟩, limits⟩
  next g s _ =>
    obtain ⟨current, ok, small⟩ := contents
    exact ⟨same.2 g s current (by omega), ok, small⟩

/-- One that has been published is the last one. -/
theorem Holds.published {s : CollectionState} {g : UInt64} (holds : Holds F bound d n x)
    (only : OnlyFiles F.platform n Saved d d')
    (new : Published F.platform n s g d d') (ok : s.Persistable) (room : bound + 1 < 10 ^ 19) :
    g = x.next ∧ Holds F (bound + 1) d' n { x with published := some (g, s) } := by
  suffices after : g = x.next ∧ Current F.platform d' n g s ∧ g.toNat ≤ bound + 1 from
    ⟨after.1, only.name.trans holds.there, (only.files _ not_saved_marker).trans holds.marker,
      after.2.1, ok, after.2.2⟩
  have contents := holds.contents
  unfold Contents at contents
  split at contents
  next known =>
    obtain ⟨configured, -⟩ := contents
    have first := new.1
    rw [configured.readManifest] at first
    cases first
    exact ⟨by rw [Entry.next, known], new.2 (by decide), by rw [show (1 : UInt64).toNat = 1 from rfl]; omega⟩
  next g₀ s₀ known =>
    obtain ⟨current, -, small⟩ := contents
    obtain ⟨rfl, now, -⟩ := new.current current (by omega)
    exact ⟨by rw [Entry.next, known], now, by rw [toNat_add_one (by omega)]; omega⟩

/-- Where an entry is, a collection in order can be saved. -/
theorem Holds.savable {s : CollectionState} (holds : Holds F bound d n x) (ok : s.Persistable) :
    ¬ Unsavable (readManifest F.platform d n) s := by
  rintro (⟨st, failed⟩ | short)
  · have contents := holds.contents
    unfold Contents at contents
    split at contents
    next =>
      rw [contents.1.readManifest] at failed
      cases failed
    next => cases contents.1.next.symm.trans failed
  · have long := short _ (image_of_repInv ok.toRepInv ok.creator)
    rw [IndexWriter.fileOf, List.length_append, Format.length_encodeHeader] at long
    omega

theorem gone_of_remains {before after : Option (Directory FileName (List Byte))} (remains : Remains before after)
    (gone : before = none) : after = none := by
  rcases remains with gone' | ⟨D, _, there, -⟩
  · exact gone'
  · cases gone.symm.trans there

theorem Housed.there {h : Host} (housed : Housed F bound e n h.disk) (served : Served F e n h) {slot : Slot}
    (known : h.catalog.slots.lookup n = some slot) : ∃ x, e = some x ∧ Holds F bound h.disk n x := by
  have some := served.slot.mp (AList.lookup_isSome.mp (by rw [known]; rfl))
  obtain ⟨x, rfl⟩ := Option.isSome_iff_exists.mp some
  exact ⟨x, rfl, housed.listed x rfl⟩

end Entries

section Requests
variable {F : FileSystem} {env : Environment FileName (List Byte)} {bound : Nat} {e : Option Entry} {n : FileName}
  {h h' : Host} {now : UInt64} {config : CollectionConfig}

/-- A change of a slot that is there. -/
theorem Served.slots (served : Served F e n h) (same : h'.disk = h.disk) {slots : AList fun _ : FileName => Slot}
    (catalog : h'.catalog = { h.catalog with slots }) (keys : n ∈ slots ↔ n ∈ h.catalog.slots) :
    Served F e n h' := by
  have disk : ∀ t, directory F.platform h'.disk t = directory F.platform h.disk t := fun t => by rw [same]
  refine ⟨?_, ?_, ?_, ?_, ?_, fun absent out => ?_, (disk _).trans served.fresh⟩ <;> rw [catalog] at *
  · exact keys.trans served.slot
  · exact served.dropping
  · exact served.once
  · exact served.retired
  · exact served.single
  · exact (disk n).trans (served.settled absent out)

theorem slot_keeps (housed : Housed F bound e n h.disk) (served : Served F e n h) (change : Slot → Slot) :
    Keeps F bound e e n (setCatalog fun c => match c.slots.lookup n with
      | none => c
      | some slot => { c with slots := c.slots.insert n (change slot) }) h := by
  refine Ends.modify (Ends.pure ?_)
  dsimp only
  split
  next => exact ⟨housed, served⟩
  next slot known =>
    refine ⟨housed, served.slots rfl rfl ?_⟩
    have member : n ∈ h.catalog.slots := AList.lookup_isSome.mp (by rw [known]; rfl)
    simp [member]

theorem get_keeps (housed : Housed F bound e n h.disk) (served : Served F e n h) :
    Keeps F bound e e n (get n) h := by
  refine Ends.get ?_
  split
  next => exact Ends.leave ⟨housed, served⟩
  next slot known =>
    refine Ends.modify (Ends.pure ⟨housed, served.slots rfl rfl ?_⟩)
    have member : n ∈ h.catalog.slots := AList.lookup_isSome.mp (by rw [known]; rfl)
    simp [member]

theorem configured_of_placed (placed : Placed F n config h.disk h'.disk) (accepted : Accepted n config h.catalog)
    (fresh : directory F.platform h.disk (creatingName n) = none) : Configured F h'.disk n config := by
  have absent (f : FileName) (other : ¬ Involved kConfigName f) : file F.platform h'.disk n f = none := by
    rcases placed.new.others f other with none | same
    · exact none
    · rw [same, file_of_none fresh]
  exact ⟨accepted.valid, accepted.config, placed.new.there, placed.new.config, absent _ name_untouched.1,
    absent _ name_untouched.2⟩

/-- A creation makes its directory at once. -/
theorem create_keeps (crashes : env.CrashOnly) (limits : ConfigFile.InLimits config)
    (housed : Housed F bound e n h.disk) (served : Served F e n h) :
    Keeps F bound e (some { config }) n (create F env now n config) h := by
  have placed_housed {h' : Host} (placed : Placed F n config h.disk h'.disk)
      (accepted : Accepted n config h.catalog) : Housed F bound (some { config }) n h'.disk := by
    have configured := configured_of_placed placed accepted served.fresh
    exact .of_holds ⟨configured.there, configured.marker, configured, limits⟩
  refine (create_ends F env now n config h).mono ?_ ?_
  · rintro _ h' ⟨created, -, -⟩
    obtain ⟨accepted, ⟨s, -, catalog⟩, placed⟩ := created
    have idle : h.catalog.retired.filter (·.name = n) = [] := by
      by_contra used
      exact accepted.settled (served.retired used)
    refine ⟨placed_housed placed accepted, ?_, ?_, ?_, ?_, ?_, nofun, placed.temp⟩ <;> rw [catalog]
    · simp
    · exact fun dropped => absurd dropped accepted.settled
    · exact served.once
    · exact fun used => absurd idle used
    · exact served.single
  · rintro x h' ⟨catalog, explained, outcome⟩
    have absent (accepted : Accepted n config h.catalog) : e = none := by
      cases known : e with
      | none => rfl
      | some x => exact absurd (served.slot.mpr (by rw [known]; rfl)) accepted.absent
    cases x with
    | reports st =>
      -- an error is reported before anything has been done
      have refused : ¬ Accepted n config h.catalog := by
        rcases explained with refused | ⟨s, left, failed⟩
        · exact refused
        · exact absurd failed (crashes s left)
      rcases outcome with ⟨disk, -⟩ | ⟨accepted, -⟩
      · exact ⟨disk ▸ housed, served.slots disk catalog .rfl⟩
      · exact absurd accepted refused
    | stops =>
      rcases outcome with ⟨disk, -⟩ | ⟨accepted, short | ⟨placed, -⟩⟩
      · exact .inl (disk ▸ housed)
      · have none := absent accepted
        have gone := served.settled none accepted.settled
        exact .inl (none ▸ .of_absent (.inl (gone_of_remains short.remains gone)))
      · exact .inr (placed_housed placed accepted)

/-- The files of a dropped collection are deleted: its directory is gone or still marked. -/
theorem deleteFiles_keeps (crashes : env.CrashOnly) (spares : env.Spares n kDroppedMarker)
    (valid : isValidName n = true) (housed : Housed F bound none n h.disk) :
    Ends (deleteFiles F env n) h (fun _ h' => directory F.platform h'.disk n = none ∧
      directory F.platform h'.disk (creatingName n) = directory F.platform h.disk (creatingName n) ∧
      h'.catalog = { h.catalog with dropping := h.catalog.dropping.erase n }) fun x h' => x = .stops ∧
      Housed F bound none n h'.disk := by
  have apart := creating_apart F n valid
  rcases housed.unlisted rfl with gone | marked
  · refine Ends.bind (onDisk_ends ((clear_ends n h.disk).mono (fun _ d' cleared => ?_) fun x d' left => ?_))
    · have temp : directory F.platform d' (creatingName n) = directory F.platform h.disk (creatingName n) :=
        cleared.1 _ apart
      exact Ends.pure ⟨gone_of_remains cleared.2.1 gone, temp, rfl⟩
    · exact ⟨left.1, .of_absent (.inl (gone_of_remains left.2.2.1 gone))⟩
  · have removed : Ends (ignore (removeAll F.platform env (Status.ioError "") n)) h.disk
        (fun _ d' => Erased F.platform n h.disk d')
        fun x d' => x = .stops ∧ (file F.platform d' n kDroppedMarker).isSome := by
      refine (ignore_ends (removeAll_spares crashes spares marked) fun e d' left => ?_).mono
        (fun _ _ holds => holds) fun x d' left => ?_
      · cases left.1
      · exact ⟨left.1, by rw [left.2.2.2.2]; exact marked⟩
    refine Ends.bind (onDisk_ends (removed.mono ?_ ?_))
    · rintro _ d' erased
      have gone : directory F.platform d' n = none := (erased _).trans (if_pos rfl)
      have temp : directory F.platform d' (creatingName n) = directory F.platform h.disk (creatingName n) :=
        (erased _).trans (if_neg apart)
      exact Ends.pure ⟨gone, temp, rfl⟩
    · rintro x d' ⟨stopped, marked⟩
      exact ⟨stopped, .of_absent (.inr marked)⟩

/-- A collection is dropped as soon as its directory has been marked. -/
theorem drop_keeps (crashes : env.CrashOnly) (spares : env.Spares n kDroppedMarker) (valid : isValidName n = true)
    (housed : Housed F bound e n h.disk) (served : Served F e n h) : Keeps F bound e none n (drop F env n) h := by
  refine Ends.get ?_
  cases known : h.catalog.slots.lookup n with
  | none => exact Ends.leave ⟨housed, served⟩
  | some slot =>
    obtain ⟨x, rfl, holds⟩ := housed.there served known
    have out : n ∉ h.catalog.dropping := fun dropped => by cases served.dropping dropped
    have idle : h.catalog.retired.filter (·.name = n) = [] := by
      by_contra used
      exact out (served.retired used)
    refine Ends.bind (onDisk_ends ((writeAtomic_ends h.disk).mono ?_ ?_))
    · rintro _ d ⟨bytes, -, only, marker, -⟩
      have marked : Housed F bound none n d := .of_absent (.inr (by rw [marker]; rfl))
      have temp : directory F.platform d (creatingName n) = none :=
        (only.others _ (creating_apart F n valid)).trans served.fresh
      refine Ends.modify (ite_ends (fun last => ?_) fun used => Ends.pure ⟨marked, ?_⟩)
      · refine (deleteFiles_keeps crashes spares valid marked).mono ?_ fun _ h' left => ?_
        · rintro _ h' ⟨gone, kept, catalog⟩
          have retired : (withoutSlot h.catalog n slot).retired = h.catalog.retired := if_pos last
          have count : ((h.catalog.dropping.insert n).erase n).count n = 0 := by
            rw [List.count_erase_self, count_insert_self, List.count_eq_zero.mpr out]
            rfl
          refine ⟨.of_absent (.inl gone), ⟨?_, fun _ => rfl, ?_, ?_, ?_, fun _ _ => gone, kept.trans temp⟩⟩ <;>
            rw [catalog]
          · simp [withoutSlot]
          · exact count.le.trans (Nat.zero_le 1)
          · exact fun used => absurd (retired ▸ idle) used
          · exact retired ▸ served.single
        · rw [left.1]
          exact .inr left.2
      · have member : n ∈ h.catalog.dropping.insert n := List.mem_insert_self
        refine ⟨?_, fun _ => rfl, ?_, fun _ => member, ?_, fun _ away => absurd member away, temp⟩
        · simp [withoutSlot]
        · change (h.catalog.dropping.insert n).count n ≤ 1
          rw [count_insert_self, List.count_eq_zero.mpr out]
          exact le_rfl
        · change ((withoutSlot h.catalog n slot).retired.filter _).length ≤ 1
          rw [show (withoutSlot h.catalog n slot).retired = ⟨n, slot.users⟩ :: h.catalog.retired from if_neg used,
            List.filter_cons_of_pos (by simp), idle]
          exact le_rfl
    · rintro y d ⟨only, replaced, explained⟩
      have stopped : y = .stops := by
        cases y with
        | stops => rfl
        | reports st =>
          rcases explained with (unwritten | missing) | ⟨s, left, failed⟩
          · exact absurd rfl (unwritten _)
          · have there := holds.there
            rw [missing] at there
            cases there
          · exact absurd failed (crashes s left)
      subst stopped
      rcases replaced with ⟨same, -⟩ | ⟨bytes, -, marker, -⟩
      · exact .inl (.of_holds (holds.only only (fun f => restoring_not_marker) same))
      · exact .inr (.of_absent (.inr (by rw [marker]; rfl)))

/-- What there is after a snapshot. -/
def Entry.snapshotted (x : Entry) (c : Catalog) (n : FileName) : Entry := match c.slots.lookup n with
  | none => x
  | some slot => { x with published := some (x.next, slot.collection) }

/-- A snapshot is published at once. -/
theorem snapshot_keeps (crashes : env.CrashOnly)
    (good : ∀ slot, h.catalog.slots.lookup n = some slot → slot.collection.Persistable)
    (room : bound + 1 < 10 ^ 19) (valid : isValidName n = true) (housed : Housed F bound e n h.disk)
    (served : Served F e n h) :
    Keeps F (bound + 1) e (e.map (·.snapshotted h.catalog n)) n (snapshot F env n) h := by
  refine Ends.get ?_
  cases known : h.catalog.slots.lookup n with
  | none => exact Ends.leave ⟨housed.mono (Nat.le_add_right _ 1), served⟩
  | some slot =>
    obtain ⟨x, rfl, holds⟩ := housed.there served known
    have ok := good slot known
    have there : (directory F.platform h.disk n).isSome := by
      have name := holds.there
      cases found : directory F.platform h.disk n with
      | some D => rfl
      | none => rw [found] at name; cases name
    have saved := saveSnapshot_ends F.platform env n slot.collection h.disk
    have only := saveSnapshot_only env slot.collection there
    have published {g : UInt64} {d : Disk FileName (List Byte)} (only : OnlyFiles F.platform n Saved h.disk d)
        (new : Published F.platform n slot.collection g h.disk d) :
        Housed F (bound + 1) (some (x.snapshotted h.catalog n)) n d := by
      obtain ⟨rfl, holds⟩ := holds.published only new ok room
      rw [Entry.snapshotted, known]
      exact .of_holds holds
    have ends : Ends (saveSnapshot F.platform env slot.collection n) h.disk
        (fun g d => OnlyFiles F.platform n Saved h.disk d ∧
          Housed F (bound + 1) (some (x.snapshotted h.catalog n)) n d)
        fun y d => y = .stops ∧ (Housed F (bound + 1) (some x) n d ∨
          Housed F (bound + 1) (some (x.snapshotted h.catalog n)) n d) := by
      refine ⟨fun g d run => ⟨only.1 g d run, published (only.1 g d run) (saved.1 g d run)⟩, fun y d run => ?_⟩
      obtain ⟨outcome, explained⟩ := saved.2 y d run
      constructor
      · cases y with
        | stops => rfl
        | reports st =>
          rcases explained with unsavable | ⟨s, left, failed⟩
          · exact absurd unsavable (holds.savable ok)
          · exact absurd failed (crashes s left)
      · rcases outcome with same | ⟨g, new⟩
        · exact .inl (.of_holds ((holds.unpublished (only.2 y d run) same room).mono (Nat.le_add_right _ 1)))
        · exact .inr (published (only.2 y d run) new)
    refine Ends.bind (onDisk_ends (ends.mono ?_ ?_))
    · rintro g d ⟨only, housed⟩
      refine Ends.get (Ends.modify (Ends.pure ⟨housed, ?_⟩))
      have temp : directory F.platform d (creatingName n) = none :=
        (only.others _ (creating_apart F n valid)).trans served.fresh
      have member : n ∈ h.catalog.slots := AList.lookup_isSome.mp (by rw [known]; rfl)
      exact ⟨by simp, fun dropped => (by cases served.dropping dropped), served.once, served.retired,
        served.single, nofun, temp⟩
    · rintro y d ⟨rfl, left⟩
      exact left

/-- The last reference to a dropped collection takes its files with it. -/
theorem releaseDropped_keeps (crashes : env.CrashOnly) (spares : env.Spares n kDroppedMarker)
    (valid : isValidName n = true) (housed : Housed F bound e n h.disk) (served : Served F e n h) :
    Keeps F bound e e n (releaseDropped F env n) h := by
  rw [releaseDropped_eq]
  refine Ends.get ?_
  cases known : (h.catalog.retired.filter (·.name = n)).head? with
  | none => exact Ends.pure ⟨housed, served⟩
  | some r =>
    have dropped := served.retired fun empty => (by rw [empty] at known; cases known)
    obtain rfl := served.dropping dropped
    have mine : r.name = n := of_decide_eq_true (List.mem_filter.mp (List.mem_of_mem_head? known)).2
    refine ite_ends (fun last => ?_) fun used => ?_
    · refine Ends.modify ((deleteFiles_keeps crashes spares valid (by exact housed)).mono ?_ fun _ h' left => ?_)
      · rintro _ h' ⟨gone, kept, catalog⟩
        have count : (h.catalog.dropping.erase n).count n = 0 := by
          have once := served.once
          rw [List.count_erase_self]
          omega
        have rest : (h.catalog.retired.eraseIdx (h.catalog.retired.findIdx (·.name = n))).filter
            (·.name = n) = [] := by
          have single := served.single
          rw [filter_eraseIdx_findIdx, ← List.length_eq_zero_iff, List.length_tail]
          omega
        refine ⟨.of_absent (.inl gone), ⟨?_, fun _ => rfl, ?_, ?_, ?_,
          fun _ _ => gone, kept.trans served.fresh⟩⟩ <;> rw [catalog]
        · exact served.slot
        · exact count.le.trans (Nat.zero_le 1)
        · exact absurd rest
        · exact (congrArg List.length rest).le.trans (Nat.zero_le 1)
      · rw [left.1]
        exact .inl left.2
    · refine Ends.modify (Ends.pure ⟨housed, served.slot, served.dropping, served.once,
        fun _ => dropped, ?_, served.settled, served.fresh⟩)
      have new : decide (({ r with users := r.users - 1 } : Retired).name = n) = true := decide_eq_true mine
      change ((h.catalog.retired.set (h.catalog.retired.findIdx (·.name = n)) _).filter (·.name = n)).length ≤ 1
      rw [filter_set_findIdx (p := fun r : Retired => decide (r.name = n)) new, List.length_set]
      exact served.single

end Requests

/-- What a request makes of the entry of its name. -/
def Request.entry : Request → Catalog → Option Entry → Option Entry
  | .create _ _ config, _, _ => some { config }
  | .snapshot n, c, e => e.map (·.snapshotted c n)
  | .drop _, _, _ => none
  | _, _, e => e

/-- A request that keeps to the limits, on a file system whose steps are not refused. -/
structure Careful (F : FileSystem) (names : FileName → Prop) (env : Environment FileName (List Byte)) (r : Request)
    (h : Host) : Prop where
  crashes : env.CrashOnly
  spares : ∀ n, names n → env.Spares n kDroppedMarker
  limits : ∀ now n config, r = .create now n config → ConfigFile.InLimits config
  good : ∀ n slot, r = .snapshot n → h.catalog.slots.lookup n = some slot → slot.collection.Persistable
  resolved : ∀ options now, r = .opening options now → options.verify ≠ .auto

theorem perform_keeps {F : FileSystem} {names : FileName → Prop} {env : Environment FileName (List Byte)}
    {r : Request} {h : Host} {n : FileName} {bound : Nat}
    {e : Option Entry} (careful : Careful F names env r h) (request : r.name? = some n) (mine : names n)
    (valid : isValidName n = true)
    (room : bound + 1 < 10 ^ 19) (housed : Housed F bound e n h.disk) (served : Served F e n h) :
    Keeps F (bound + 1) e (r.entry h.catalog e) n (r.perform F env) h := by
  have more := housed.mono (Nat.le_add_right bound 1)
  have spares := careful.spares n mine
  cases r <;> cases request
  · exact create_keeps careful.crashes (careful.limits _ _ _ rfl) more served
  · exact Ends.bind ((get_keeps more served).mono (fun _ _ kept => Ends.pure kept) fun _ _ left => left)
  · exact slot_keeps more served _
  · exact slot_keeps more served _
  · exact releaseDropped_keeps careful.crashes spares valid more served
  · exact Ends.bind ((snapshot_keeps careful.crashes (fun slot => careful.good _ slot rfl) room
      valid housed served).mono
      (fun _ _ kept => Ends.pure kept) fun _ _ left => left)
  · exact drop_keeps careful.crashes spares valid more served

end VectorForge.Catalog
