import VectorForge.Lib.Confined
import VectorForge.Catalog.Standing

/-! Every operation of the catalog has to do with the directories of its own collection only. -/

namespace VectorForge

namespace AtomicFile
open Files Effect
variable {P : Platform FileName} {env : Environment FileName (List Byte)} {titles : FileName → Prop}
  {dir target : FileName}

theorem within_replaceContents (contents : Checked (List Byte)) (title : titles dir) :
    Within P titles (replaceContents P env dir target contents) := by
  unfold replaceContents
  split
  · exact .leave _
  · exact .leave _
  · exact (within_dataStep title _).bind fun _ => (within_dataStep title _).bind fun _ =>
      (within_step .nothing).bind fun _ => within_step (.setFiles title _)

theorem within_writeAtomic (contents : Checked (List Byte)) (title : titles dir) :
    Within P titles (writeAtomic P env dir target contents) := by
  refine Confined.bind (within_step ⟨fun d d' same => ?_, fun d d' run => ?_⟩) fun _ => ?_
  · rw [directory_sameAt same title]
    split
    · exact .some (sameAt_setFiles _ same title)
    · exact .none
  · split at run
    · cases run
      exact leaves_setFiles _ d title
    · cases run
  · exact ((within_replaceContents contents title).undo (within_ignore (within_step (.setFiles title _)))).bind
      fun _ => within_step .nothing

end AtomicFile

namespace Snapshot
open Files Effect AtomicFile
variable {P : Platform FileName} {env : Environment FileName (List Byte)}
  {titles : FileName → Prop} {dir : FileName}

theorem within_sweep (title : titles dir) : ∀ (current : FileName) (names : List FileName) (count : GarbageReport),
    Within P titles (sweep P env dir current names count)
  | _, [], count => .pure count
  | current, name :: rest, count => by
    rw [sweep]
    split
    · refine (within_removeFile title).attempt.bind fun result => ?_
      cases result <;> exact within_sweep title current rest _
    · exact within_sweep title current rest count

theorem readManifest_sameAt {d d' : Disk FileName (List Byte)} (same : SameAt (At P titles) d d')
    (title : titles dir) :
    readManifest P d' dir = readManifest P d dir := readManifest_congr (file_sameAt same title)

theorem within_collectGarbage (title : titles dir) : Within P titles (collectGarbage P env dir) := by
  refine Confined.get (fun d d' same => ?_) fun d => ?_
  · rw [readManifest_sameAt same title, directory_sameAt same title]
  · split
    · exact .leave _
    · exact .leave _
    · exact within_sweep title _ _ _

theorem within_lift {α : Type} (r : Result α) : Within P titles (lift r) := by
  cases r
  · exact .leave _
  · exact .pure _

theorem within_saveSnapshot (s : CollectionState) (title : titles dir) :
    Within P titles (saveSnapshot P env s dir) := by
  refine (within_makeDirectory title).bind fun _ => Confined.get (fun d d' same => ?_) fun d => ?_
  · rw [readManifest_sameAt same title]
  · refine (within_lift _).bind fun g => (within_writeAtomic _ title).bind fun _ =>
      Confined.get (fun d d' same => ?_) fun d => ?_
    · rw [readHeaderCrc_congr (file_sameAt same title)]
    · refine (within_lift _).bind fun crc => (within_writeAtomic _ title).bind fun _ => ?_
      exact (within_collectGarbage title).attempt.bind fun _ => .pure g

end Snapshot

namespace Catalog
open Files Effect AtomicFile Snapshot

/-- The names of the directories of one collection. -/
def Titles (name title : FileName) : Prop := title = name ∨ title = creatingName name

/-- What there is of one collection, in some directories and in the catalog. -/
structure View (F : FileSystem) (titles : FileName → Prop) (name : FileName) (h h' : Host) : Prop where
  disk : SameAt (At F.platform titles) h.disk h'.disk
  slot : h'.catalog.slots.lookup name = h.catalog.slots.lookup name
  dropping : h'.catalog.dropping.count name = h.catalog.dropping.count name
  retired : h'.catalog.retired.filter (·.name = name) = h.catalog.retired.filter (·.name = name)

/-- Nothing has happened to the other collections. -/
structure Beside (F : FileSystem) (titles : FileName → Prop) (name : FileName) (h h' : Host) : Prop where
  disk : Leaves F.platform titles h.disk h'.disk
  slots : ∀ n, n ≠ name → h'.catalog.slots.lookup n = h.catalog.slots.lookup n
  dropping : ∀ n, n ≠ name → h'.catalog.dropping.count n = h.catalog.dropping.count n
  retired : ∀ n, n ≠ name → h'.catalog.retired.filter (·.name = n) = h.catalog.retired.filter (·.name = n)

/-- An operation on one collection. -/
abbrev Concerns {α : Type} (F : FileSystem) (titles : FileName → Prop) (name : FileName) (p : CatalogOp α) : Prop :=
  Confined (View F titles name) (Beside F titles name) p

section Views
variable {F : FileSystem} {env : Environment FileName (List Byte)} {titles : FileName → Prop} {name : FileName}
  {h h' h'' : Host} {α : Type}

theorem View.refl (F : FileSystem) (titles : FileName → Prop) (name : FileName) (h : Host) :
    View F titles name h h := ⟨fun _ _ => rfl, rfl, rfl, rfl⟩

theorem View.symm (view : View F titles name h h') : View F titles name h' h :=
  ⟨fun k here => (view.disk k here).symm, view.slot.symm, view.dropping.symm, view.retired.symm⟩

theorem View.trans (first : View F titles name h h') (second : View F titles name h' h'') :
    View F titles name h h'' :=
  ⟨fun k here => (second.disk k here).trans (first.disk k here), second.slot.trans first.slot,
    second.dropping.trans first.dropping,
    second.retired.trans first.retired⟩

instance (F : FileSystem) (titles : FileName → Prop) (name : FileName) : Std.Refl (Beside F titles name) :=
  ⟨fun h => ⟨refl h.disk, fun _ _ => rfl, fun _ _ => rfl, fun _ _ => rfl⟩⟩

instance (F : FileSystem) (titles : FileName → Prop) (name : FileName) : IsTrans Host (Beside F titles name) where
  trans _ _ _ first second :=
    ⟨first.disk.trans second.disk, fun n other => (second.slots n other).trans (first.slots n other),
      fun n other => (second.dropping n other).trans (first.dropping n other), fun n other =>
      (second.retired n other).trans (first.retired n other)⟩

theorem concerns_onDisk {p : DirectoryOp α} (within : Within F.platform titles p) :
    Concerns F titles name (onDisk p) := by
  have run (h : Host) : onDisk p h = ((p h.disk).1, { h with disk := (p h.disk).2 }) := rfl
  refine ⟨fun h h' view => ?_, fun h h' view => ?_, fun h => ?_⟩
  · rw [run, run]
    exact within.result _ _ view.disk
  · rw [run, run]
    exact { view with disk := within.near _ _ view.disk }
  · rw [run]
    exact ⟨within.far h.disk, fun _ _ => rfl, fun _ _ => rfl, fun _ _ => rfl⟩

theorem concerns_accept (r : Result α) : Concerns F titles name (accept r) := by
  cases r
  · exact .leave _
  · exact .pure _

/-- A change of the slots only. -/
theorem concerns_slots {change : (AList fun _ : FileName => Slot) → AList fun _ : FileName => Slot}
    (near : ∀ s s', s'.lookup name = s.lookup name → (change s').lookup name = (change s).lookup name)
    (far : ∀ s n, n ≠ name → (change s).lookup n = s.lookup n) :
    Concerns F titles name (setCatalog fun c => { c with slots := change c.slots }) :=
  .modify (fun _ _ view => { view with slot := near _ _ view.slot }) fun h =>
    ⟨refl h.disk, fun n other => far _ n other, fun _ _ => rfl, fun _ _ => rfl⟩

theorem concerns_insert (slot : Slot) :
    Concerns F titles name (setCatalog fun c => { c with slots := c.slots.insert name slot }) :=
  concerns_slots (fun _ _ _ => by rw [AList.lookup_insert, AList.lookup_insert]) fun _ _ other =>
    AList.lookup_insert_ne other

end Views

section Lists
variable {α : Type} {p q : α → Bool} {x : α}

theorem filter_eraseIdx_findIdx (l : List α) : (l.eraseIdx (l.findIdx p)).filter p = (l.filter p).tail := by
  induction l with
  | nil => rfl
  | cons y l ih =>
    cases here : p y with
    | true => rw [List.findIdx_cons, here, List.filter_cons_of_pos here]; rfl
    | false =>
      have out := ne_true_of_eq_false here
      rw [List.findIdx_cons, here, cond_false, List.eraseIdx_cons_succ, List.filter_cons_of_neg out,
        List.filter_cons_of_neg out]
      exact ih

theorem filter_eraseIdx_apart (apart : ∀ y, p y = true → q y = false) (l : List α) :
    (l.eraseIdx (l.findIdx p)).filter q = l.filter q := by
  induction l with
  | nil => rfl
  | cons y l ih =>
    cases here : p y with
    | true => rw [List.findIdx_cons, here, List.filter_cons_of_neg (ne_true_of_eq_false (apart y here))]; rfl
    | false => rw [List.findIdx_cons, here, cond_false, List.eraseIdx_cons_succ, List.filter_cons,
      List.filter_cons, ih]

theorem filter_set_findIdx (new : p x = true) (l : List α) :
    (l.set (l.findIdx p) x).filter p = (l.filter p).set 0 x := by
  induction l with
  | nil => rfl
  | cons y l ih =>
    cases here : p y with
    | true => rw [List.findIdx_cons, here, cond_true, List.set_cons_zero, List.filter_cons_of_pos new,
      List.filter_cons_of_pos here, List.set_cons_zero]
    | false =>
      have out := ne_true_of_eq_false here
      rw [List.findIdx_cons, here, cond_false, List.set_cons_succ, List.filter_cons_of_neg out,
        List.filter_cons_of_neg out]
      exact ih

theorem filter_set_apart (apart : ∀ y, p y = true → q y = false) (new : p x = true) (l : List α) :
    (l.set (l.findIdx p) x).filter q = l.filter q := by
  induction l with
  | nil => rfl
  | cons y l ih =>
    cases here : p y with
    | true =>
      rw [List.findIdx_cons, here, cond_true, List.set_cons_zero,
        List.filter_cons_of_neg (ne_true_of_eq_false (apart x new)),
        List.filter_cons_of_neg (ne_true_of_eq_false (apart y here))]
    | false => rw [List.findIdx_cons, here, cond_false, List.set_cons_succ, List.filter_cons, List.filter_cons, ih]

theorem getElem?_findIdx_filter (l : List α) : l[l.findIdx p]? = (l.filter p).head? := by
  induction l with
  | nil => rfl
  | cons y l ih =>
    cases here : p y with
    | true => rw [List.findIdx_cons, here, List.filter_cons_of_pos here]; rfl
    | false =>
      rw [List.findIdx_cons, here, cond_false, List.getElem?_cons_succ,
        List.filter_cons_of_neg (ne_true_of_eq_false here)]
      exact ih

end Lists

section Operations
variable {F : FileSystem} {titles : FileName → Prop} {env : Environment FileName (List Byte)}
  {name : FileName} {h h' : Host}

theorem count_insert_self (l : List FileName) (name : FileName) :
    (l.insert name).count name = max (l.count name) 1 := by
  by_cases mem : name ∈ l
  · rw [List.insert_of_mem mem, max_eq_left (List.count_pos_iff.mpr mem)]
  · rw [List.insert_of_not_mem mem, List.count_cons_self, List.count_eq_zero.mpr mem]
    rfl

theorem count_insert_ne (l : List FileName) {n : FileName} (other : n ≠ name) :
    (l.insert name).count n = l.count n := by
  by_cases mem : name ∈ l
  · rw [List.insert_of_mem mem]
  · rw [List.insert_of_not_mem mem, List.count_cons_of_ne other.symm]

theorem concerns_deleteFiles : Concerns F (Titles name) name (deleteFiles F env name) := by
  refine (concerns_onDisk (within_ignore (within_removeAll (.inl rfl)))).bind fun _ =>
    .modify (fun _ _ view => ?_) fun h => ?_
  · exact { view with dropping := by rw [List.count_erase_self, List.count_erase_self, view.dropping] }
  · exact ⟨refl h.disk, fun _ _ => rfl, fun n other => List.count_erase_of_ne other, fun _ _ => rfl⟩

theorem within_createFiles (config : CollectionConfig) :
    Within F.platform (Titles name) (createFiles F env name config) :=
  (within_ignore (within_removeAll (.inr rfl))).bind fun _ =>
    (within_ignore (within_removeAll (.inl rfl))).bind fun _ =>
    (within_makeDirectory (.inr rfl)).bind fun _ => (within_writeAtomic _ (.inr rfl)).bind fun _ =>
    (within_renameDirectory (.inr rfl) (.inl rfl)).bind fun _ => within_step .nothing

theorem View.mem_slots (view : View F titles name h h') : name ∈ h.catalog.slots ↔ name ∈ h'.catalog.slots := by
  rw [← AList.lookup_isSome, ← AList.lookup_isSome, view.slot]

theorem View.mem_dropping (view : View F titles name h h') : name ∈ h.catalog.dropping ↔
    name ∈ h'.catalog.dropping := by
  rw [← List.count_pos_iff, ← List.count_pos_iff, view.dropping]

theorem concerns_create (now : UInt64) (config : CollectionConfig) :
    Concerns F (Titles name) name (create F env now name config) := by
  unfold create
  split
  · exact .leave _
  · refine (concerns_accept _).bind fun _ => Confined.get (fun h h' view => ?_) fun h => ?_
    · simp only [view.mem_slots, view.mem_dropping]
    · split
      · exact .leave _
      · split
        · exact .leave _
        · exact (concerns_accept _).bind fun _ =>
            (concerns_onDisk (within_createFiles config)).bind fun _ => concerns_insert _

theorem concerns_get : Concerns F (Titles name) name (get name) := by
  refine Confined.get (fun h h' view => ?_) fun h => ?_
  · rw [view.slot]
  · split
    · exact .leave _
    · exact (concerns_insert _).bind fun _ => .pure _

/-- A change that depends on the slot of the collection. -/
theorem concerns_slot (change : Slot → Slot) : Concerns F (Titles name) name (setCatalog fun c =>
    match c.slots.lookup name with
    | none => c
    | some slot => { c with slots := c.slots.insert name (change slot) }) := by
  refine .modify (fun h h' view => ?_) fun h => ?_
  · have same := view.slot
    cases known : h.catalog.slots.lookup name with
    | none =>
      rw [known] at same
      simp only [known, same]
      exact view
    | some slot =>
      rw [known] at same
      simp only [known, same]
      exact { view with slot := by rw [AList.lookup_insert, AList.lookup_insert] }
  · cases known : h.catalog.slots.lookup name with
    | none =>
      simp only [known]
      exact refl h
    | some slot =>
      simp only [known]
      exact ⟨refl h.disk, fun n other => AList.lookup_insert_ne other, fun _ _ => rfl, fun _ _ => rfl⟩

theorem concerns_drop : Concerns F (Titles name) name (drop F env name) := by
  refine Confined.get (fun h h' view => ?_) fun h => ?_
  · rw [view.slot]
  · split
    · exact .leave _
    next slot _ =>
      refine (concerns_onDisk (within_writeAtomic _ (.inl rfl))).bind fun _ =>
        Confined.bind (.modify (fun h h' view => ?_) fun h => ?_) fun _ => ?_
      · refine ⟨view.disk, ?_, ?_, ?_⟩
        · change (h'.catalog.slots.erase name).lookup name = (h.catalog.slots.erase name).lookup name
          rw [AList.lookup_erase, AList.lookup_erase]
        · change (h'.catalog.dropping.insert name).count name = (h.catalog.dropping.insert name).count name
          rw [count_insert_self, count_insert_self, view.dropping]
        · simp only [withoutSlot]
          split
          · exact view.retired
          · rw [List.filter_cons, List.filter_cons, view.retired]
      · refine ⟨refl h.disk, fun n other => AList.lookup_erase_ne other,
          fun n other => count_insert_ne _ other, fun n other => ?_⟩
        simp only [withoutSlot]
        split
        · rfl
        · rw [List.filter_cons_of_neg (by simpa using fun same => other same.symm)]
      · split
        · exact concerns_deleteFiles
        · exact .pure _

theorem concerns_snapshot : Concerns F (Titles name) name (snapshot F env name) := by
  refine Confined.get (fun h h' view => ?_) fun h => ?_
  · rw [view.slot]
  · split
    · exact .leave _
    · refine (concerns_onDisk (within_saveSnapshot _ (.inl rfl))).bind fun generation =>
        Confined.get (fun h h' view => ?_) fun h => ?_
      · rw [file_sameAt view.disk (.inl rfl)]
      · exact (concerns_insert _).bind fun _ => .pure _

/-- A reference to a dropped collection of the name is released. -/
def releaseDropped (F : FileSystem) (env : Environment FileName (List Byte)) (name : FileName) :
    CatalogOp Unit := do
  let h ← Effect.get
  releaseRetired F env (h.catalog.retired.findIdx (·.name = name))

theorem releaseDropped_eq : releaseDropped F env name = (do
    let h ← Effect.get
    match (h.catalog.retired.filter (·.name = name)).head? with
    | none => pure ()
    | some r =>
      if r.users ≤ 1 then do
        setCatalog fun c => { c with retired := c.retired.eraseIdx (c.retired.findIdx (·.name = name)) }
        deleteFiles F env name
      else setCatalog fun c => { c with
        retired := c.retired.set (c.retired.findIdx (·.name = name)) { r with users := r.users - 1 } }) := by
  funext h
  have found := getElem?_findIdx_filter (p := fun r : Retired => decide (r.name = name)) h.catalog.retired
  change releaseRetired F env (h.catalog.retired.findIdx (·.name = name)) h = _
  simp only [releaseRetired]
  change (match h.catalog.retired[h.catalog.retired.findIdx (·.name = name)]? with
    | none => _
    | some r => _ : CatalogOp Unit) h = (match (h.catalog.retired.filter (·.name = name)).head? with
    | none => _
    | some r => _ : CatalogOp Unit) h
  rw [found]
  cases known : (h.catalog.retired.filter (·.name = name)).head? with
  | none => rfl
  | some r =>
    have here : r.name = name := of_decide_eq_true (List.mem_filter.mp (List.mem_of_mem_head? known)).2
    dsimp only
    split
    · rw [here]
      rfl
    · rfl

theorem concerns_releaseDropped : Concerns F (Titles name) name (releaseDropped F env name) := by
  rw [releaseDropped_eq]
  refine Confined.get (fun h h' view => ?_) fun h => ?_
  · rw [view.retired]
  · split
    · exact .pure _
    next r known =>
      have here : r.name = name := by
        have mem := List.mem_of_mem_head? known
        exact of_decide_eq_true (List.mem_filter.mp mem).2
      have apart {n : FileName} (other : n ≠ name) (r : Retired) (mine : decide (r.name = name) = true) :
          decide (r.name = n) = false :=
        decide_eq_false fun same => other (same.symm.trans (of_decide_eq_true mine))
      have mine : decide (({ r with users := r.users - 1 } : Retired).name = name) = true := decide_eq_true here
      split
      · refine Confined.bind (.modify (fun h h' view => ?_) fun h => ?_) fun _ => concerns_deleteFiles
        · refine { view with retired := ?_ }
          dsimp only
          rw [filter_eraseIdx_findIdx, filter_eraseIdx_findIdx, view.retired]
        · exact ⟨refl h.disk, fun _ _ => rfl, fun _ _ => rfl, fun n other => filter_eraseIdx_apart (apart other) _⟩
      · refine .modify (fun h h' view => ?_) fun h => ?_
        · refine { view with retired := ?_ }
          dsimp only
          rw [filter_set_findIdx (p := fun r : Retired => decide (r.name = name)) mine,
            filter_set_findIdx (p := fun r : Retired => decide (r.name = name)) mine, view.retired]
        · exact ⟨refl h.disk, fun _ _ => rfl, fun _ _ => rfl, fun n other => filter_set_apart (apart other) mine _⟩

end Operations
end Catalog
end VectorForge
