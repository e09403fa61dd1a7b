import VectorForge.Catalog.Catalog

/-! What the creation of a collection does, however far it gets. -/

namespace VectorForge.Catalog
open Files Effect AtomicFile Snapshot

section Names
variable {F : FileSystem} {name other : FileName}

theorem head_creatingName (name : FileName) : (creatingName name).head? = some 0x2E := by
  have dot : ascii "." = [0x2E] := by decide
  rw [creatingName, dot]
  rfl

theorem letters_of_valid (valid : isValidName name = true) : name ≠ [] ∧ ∀ b ∈ name, b ≠ 0x2E := by
  simp only [isValidName, decide_eq_true_eq, List.all_eq_true] at valid
  obtain ⟨some, -, letters⟩ := valid
  refine ⟨some, fun b mem dot => ?_⟩
  have letter := letters b mem
  rw [dot] at letter
  exact absurd letter (by decide)

theorem head_ne_dot (valid : isValidName name = true) : name.head? ≠ some 0x2E := by
  obtain ⟨some, letters⟩ := letters_of_valid valid
  cases name with
  | nil => exact absurd rfl some
  | cons b rest => exact fun same => letters b List.mem_cons_self (Option.some.inj same)

variable (F name) in
/-- The place where a collection is created is that of no collection. -/
theorem creating_apart (valid : isValidName other = true) :
    F.platform.fold (creatingName name) ≠ F.platform.fold other := by
  intro same
  have heads := congrArg List.head? same
  simp only [FileSystem.platform, List.head?_map, head_creatingName, Option.map_some,
    (F.keepsDot 0x2E).mpr rfl] at heads
  cases head : other.head? with
  | none =>
    rw [head] at heads
    cases heads
  | some b =>
    rw [head, Option.map_some] at heads
    have dot := (F.keepsDot b).mp (Option.some.inj heads).symm
    exact head_ne_dot valid (dot ▸ head)

theorem creating_same : F.platform.fold (creatingName name) = F.platform.fold (creatingName other) ↔
    F.platform.fold name = F.platform.fold other := by
  simp only [FileSystem.platform, creatingName, List.map_append, List.append_left_inj, List.append_right_inj]

end Names

section Parts
variable {α : Type} {p : DirectoryOp α} {h : Host} {post : α → Host → Prop}
  {exits : Interruption Status → Host → Prop}

theorem onDisk_ends (ends : Ends p h.disk (fun a d => post a { h with disk := d }) fun x d =>
    exits x { h with disk := d }) :
    Ends (onDisk p) h post exits := by
  cases run : p h.disk with
  | mk result d =>
    have same : onDisk p h = (result, { h with disk := d }) := by simp only [onDisk, run]
    cases result with
    | ok a =>
      have same : onDisk p h = (pure a : CatalogOp α) { h with disk := d } := same
      exact Ends.of_eq same (Ends.pure (ends.1 a d run))
    | error x =>
      have same : onDisk p h = (leave x : CatalogOp α) { h with disk := d } := same
      exact Ends.of_eq same (Ends.leave (ends.2 x d run))

theorem accept_ends {r : Result α} (ok : ∀ a, r = .ok a → post a h)
    (error : ∀ st, r = .error st → exits (.reports st) h) : Ends (accept r) h post exits := by
  cases r with
  | ok a => exact Ends.pure (ok a rfl)
  | error st => exact Ends.leave (error st rfl)

theorem ite_ends {p q : CatalogOp α} {c : Prop} [Decidable c] (yes : c → Ends p h post exits)
    (no : ¬ c → Ends q h post exits) : Ends (if c then p else q) h post exits := by
  by_cases holds : c
  · rw [if_pos holds]
    exact yes holds
  · rw [if_neg holds]
    exact no holds

end Parts

/-- What can be left of a directory while it is being removed. -/
def Remains (before after : Option (Directory FileName (List Byte))) : Prop :=
  after = none ∨ ∃ D D', before = some D ∧ after = some D' ∧ D'.name = D.name ∧
    ∀ f, D'.files.lookup f = D.files.lookup f ∨ D'.files.lookup f = none

theorem Remains.refl (before : Option (Directory FileName (List Byte))) : Remains before before := by
  cases before with
  | none => exact .inl rfl
  | some D => exact .inr ⟨D, D, rfl, rfl, rfl, fun _ => .inl rfl⟩

section Creation
variable (F : FileSystem) (env : Environment FileName (List Byte)) (now : UInt64) (name : FileName)
  (config : CollectionConfig)

/-- All steps up to the rename work. -/
def Arrives : Prop :=
  env.turn (.makeDirectory (creatingName name)) = .works ∧
    env.turn (.create (creatingName name) (tempName kConfigName)) = .works ∧
    Renamed env (creatingName name) kConfigName (.ok (ConfigFile.encodeConfig config))
    (ConfigFile.encodeConfig config) ∧
    env.turn (.syncDirectory (creatingName name) kConfigName) = .works ∧
    env.turn (.renameDirectory (creatingName name) name) = .works

/-- The directory of a new collection. Files that were in the way of its creation may have stayed. -/
structure NewDirectory (d d' : Disk FileName (List Byte)) : Prop where
  there : (directory F.platform d' name).map (·.name) = some name
  config : file F.platform d' name kConfigName = some (ConfigFile.encodeConfig config)
  others : ∀ f, ¬ Involved kConfigName f → file F.platform d' name f = none ∨
    file F.platform d' name f = file F.platform d (creatingName name) f

/-- Nothing has happened to the directories but those of one collection. -/
def Elsewhere (d d' : Disk FileName (List Byte)) : Prop :=
  ∀ k, k ≠ F.platform.fold name → k ≠ F.platform.fold (creatingName name) → d'.lookup k = d.lookup k

/-- The files of a new collection are there. -/
structure Placed (d d' : Disk FileName (List Byte)) : Prop where
  new : NewDirectory F name config d d'
  temp : directory F.platform d' (creatingName name) = none
  elsewhere : Elsewhere F name d d'

/-- They are not there, and something that was in their place may be gone. -/
structure NotPlaced (x : Interruption Status) (d d' : Disk FileName (List Byte)) : Prop where
  elsewhere : Elsewhere F name d d'
  remains : Remains (directory F.platform d name) (directory F.platform d' name)
  short : ∀ e, x = .reports e → directory F.platform d name = none → ¬ Arrives env name config

end Creation

section Steps
variable {F : FileSystem} {env : Environment FileName (List Byte)} {now : UInt64} {name : FileName}
  {config : CollectionConfig} {h : Host}

theorem remains_of_trimmed {dir : FileName} {d d' : Disk FileName (List Byte)}
    (trimmed : Trimmed F.platform dir d d') :
    Remains (directory F.platform d dir) (directory F.platform d' dir) := .inr trimmed.files

/-- Something that was in the way is gone, or a step has failed. -/
theorem clear_ends (dir : FileName) (d : Disk FileName (List Byte)) :
    Ends (ignore (removeAll F.platform env (Status.ioError "") dir)) d
    (fun _ d' => (∀ k, k ≠ F.platform.fold dir → d'.lookup k = d.lookup k) ∧
      Remains (directory F.platform d dir) (directory F.platform d' dir) ∧
      (directory F.platform d' dir = none ∨ (directory F.platform d dir).isSome ∧
        ∃ s left, env.turn s = .fails left))
    fun x d' => x = .stops ∧ (∀ k, k ≠ F.platform.fold dir → d'.lookup k = d.lookup k) ∧
      Remains (directory F.platform d dir) (directory F.platform d' dir) ∧ Explained env False x := by
  have ends := removeAll_ends F.platform env (Status.ioError "") dir d
  refine (ignore_ends (ends.mono (fun _ d' erased => ?_) fun x d' holds => holds) fun e d' trimmed => ?_).mono
    (fun _ _ holds => holds)
    fun x d' left => ⟨left.1, left.2.1.others, remains_of_trimmed left.2.1, left.2.2⟩
  · have gone : directory F.platform d' dir = none := (erased _).trans (if_pos rfl)
    exact ⟨fun k apart => (erased k).trans (if_neg apart), .inl gone, .inl gone⟩
  · obtain ⟨trimmed, never | failed⟩ := trimmed
    · exact never.elim
    · obtain ⟨D, D', before, -⟩ := trimmed.files
      exact ⟨trimmed.others, remains_of_trimmed trimmed, .inr ⟨by rw [before]; rfl, failed⟩⟩

theorem Remains.trans {a b c : Option (Directory FileName (List Byte))} (first : Remains a b)
    (second : Remains b c) : Remains a c := by
  rcases second with none | ⟨D, D', before, after, name, files⟩
  · exact .inl none
  rcases first with none | ⟨D₀, D₁, start, between, name', files'⟩
  · cases none.symm.trans before
  cases between.symm.trans before
  refine .inr ⟨D₀, D', start, after, name.trans name', fun f => ?_⟩
  rcases files f with same | none
  · rw [same]
    exact files' f
  · exact .inr none

theorem file_of_remains {dir f : FileName} {d d' : Disk FileName (List Byte)}
    (remains : Remains (directory F.platform d dir) (directory F.platform d' dir)) :
    file F.platform d' dir f = none ∨ file F.platform d' dir f = file F.platform d dir f := by
  rcases remains with gone | ⟨D, D', before, after, -, files⟩
  · exact .inl (file_of_none gone)
  · rw [file_of_directory before, file_of_directory after]
    exact (files f).symm

theorem createFiles_ends (valid : isValidName name = true) (d : Disk FileName (List Byte)) :
    Ends (createFiles F env name config) d
    (fun _ d' => Placed F name config d d' ∧ Arrives env name config ∧ env.turn (.syncParent name) = .works)
    fun x d' => (NotPlaced F env name config x d d' ∨ Placed F name config d d' ∧ Arrives env name config ∧
      env.turn (.syncParent name) ≠ .works) ∧
      Explained env False x := by
  have apart := creating_apart F name valid
  refine Ends.bind ((clear_ends (creatingName name) d).mono ?_ ?_)
  rotate_left
  · rintro x d₁ ⟨rfl, others, -, explained⟩
    have here : directory F.platform d₁ name = directory F.platform d name := others _ apart.symm
    exact ⟨.inl ⟨fun k _ away => others k away, here ▸ .refl _, fun _ same => by cases same⟩, explained⟩
  rintro _ d₁ ⟨others₁, temp₁, -⟩
  have here₁ : directory F.platform d₁ name = directory F.platform d name := others₁ _ apart.symm
  refine Ends.bind ((clear_ends name d₁).mono ?_ ?_)
  rotate_left
  · rintro x d₂ ⟨rfl, others, remains, explained⟩
    rw [here₁] at remains
    exact ⟨.inl ⟨fun k away far => (others k away).trans (others₁ k far), remains, fun _ same => by cases same⟩,
      explained⟩
  rintro _ d₂ ⟨others₂, remains, cleared⟩
  rw [here₁] at remains cleared
  have elsewhere : Elsewhere F name d d₂ := fun k away far => (others₂ k away).trans (others₁ k far)
  have temp₂ : directory F.platform d₂ (creatingName name) = directory F.platform d₁ (creatingName name) :=
    others₂ _ apart
  have tempFiles : ∀ f, file F.platform d₂ (creatingName name) f = none ∨
      file F.platform d₂ (creatingName name) f = file F.platform d (creatingName name) f := fun f => by
    rw [file, temp₂, ← file]
    exact file_of_remains temp₁
  refine Ends.bind ((makeDirectory_ends _ (creatingName name) d₂).mono ?_ ?_)
  rotate_left
  · rintro x d₃ ⟨rfl, failed, explained⟩
    exact ⟨.inl ⟨elsewhere, remains, fun _ _ _ arrives => failed arrives.1⟩, explained⟩
  rintro _ d₃ ⟨made, others₃, there, kept, fresh⟩
  have here₃ : directory F.platform d₃ name = directory F.platform d₂ name := others₃ _ apart.symm
  have tempFiles₃ : ∀ f, file F.platform d₃ (creatingName name) f = none ∨
      file F.platform d₃ (creatingName name) f = file F.platform d (creatingName name) f := fun f => by
    cases known : directory F.platform d₂ (creatingName name) with
    | some D =>
      rw [kept (by rw [known]; rfl)]
      exact tempFiles f
    | none => exact .inl (file_of_directory (fresh known))
  refine Ends.bind ((writeAtomic_ends d₃).mono ?_ ?_)
  rotate_left
  · rintro x d₄ ⟨only, replaced, explained⟩
    have here₄ : directory F.platform d₄ name = directory F.platform d₃ name := only.others _ apart.symm
    refine ⟨.inl ⟨fun k away far => ((only.others k far).trans (others₃ k far)).trans (elsewhere k away far), ?_,
      fun _ _ _ arrives => ?_⟩, ?_⟩
    · rw [here₄, here₃]
      exact remains
    · rcases replaced with ⟨-, unable⟩ | ⟨_, -, -, unsynced⟩
      · exact unable _ ⟨there, arrives.2.1, arrives.2.2.1⟩
      · exact unsynced arrives.2.2.2.1
    · refine explained.mono ?_
      rintro (unwritten | missing)
      · exact unwritten _ rfl
      · rw [missing] at there
        cases there
  rintro _ d₄ ⟨bytes, can, only, written, synced⟩
  have here₄ : directory F.platform d₄ name = directory F.platform d₂ name := (only.others _ apart.symm).trans here₃
  have elsewhere₄ : Elsewhere F name d d₄ :=
    fun k away far => ((only.others k far).trans (others₃ k far)).trans (elsewhere k away far)
  have still := only.isSome.trans there
  have same : ConfigFile.encodeConfig config = bytes := Except.ok.inj can.2.2.1
  subst same
  refine Ends.bind ((renameDirectory_ends _ (creatingName name) name d₄).mono ?_ ?_)
  rotate_left
  · rintro x d₅ ⟨rfl, stuck, explained⟩
    have taken : (directory F.platform d₅ (creatingName name) = none ∨ (directory F.platform d₅ name).isSome) →
        (directory F.platform d name).isSome ∧
        ∃ s left, env.turn s = .fails left := by
      rintro (missing | taken)
      · rw [missing] at still
        cases still
      · rcases cleared with gone | failed
        · rw [here₄, gone] at taken
          cases taken
        · exact failed
    refine ⟨.inl ⟨elsewhere₄, by rw [here₄]; exact remains, fun _ _ absent arrives => ?_⟩, ?_⟩
    · rcases stuck with refused | failed
      · have present := (taken refused).1
        rw [absent] at present
        cases present
      · exact failed arrives.2.2.2.2
    · rcases explained with ⟨⟨e, rfl⟩, refused⟩ | failed
      · exact .inr (taken refused).2
      · exact .inr failed
  rintro _ d₅ ⟨renamed, D, source, moved⟩
  have arrives : Arrives env name config := ⟨made, can.2.1, can.2.2, synced, renamed⟩
  have new : directory F.platform d₅ name = some { D with name } := (moved _).trans (if_pos rfl)
  have tempFile : ∀ f, file F.platform d₅ name f = file F.platform d₄ (creatingName name) f := fun f => by
    rw [file_of_directory new, file_of_directory source]
  have placed : Placed F name config d d₅ := by
    refine ⟨⟨by rw [new]; rfl, (tempFile _).trans written, fun f away => ?_⟩, ?_, fun k away far => ?_⟩
    · rw [tempFile, only.files f away]
      exact tempFiles₃ f
    · exact (moved _).trans (by rw [if_neg apart, if_pos rfl])
    · rw [moved, if_neg away, if_neg far]
      exact elsewhere₄ k away far
  refine step_ends (fun done d' same => ?_) (fun _ refused => by cases refused)
    (fun left failed => ⟨.inr ⟨placed, arrives, by simp only [failed, ne_eq, reduceCtorEq, not_false_eq_true]⟩,
      .inr ⟨_, left, failed⟩⟩)
    fun left stopped => ⟨.inr ⟨placed, arrives, by simp only [stopped, ne_eq, reduceCtorEq, not_false_eq_true]⟩,
      .inr ⟨_, left, stopped⟩⟩
  cases same
  exact ⟨placed, arrives, done⟩

/-- The checks that a creation passes. -/
structure Accepted (name : FileName) (config : CollectionConfig) (c : Catalog) : Prop where
  valid : isValidName name = true
  config : config.validate = .ok ()
  absent : name ∉ c.slots
  settled : name ∉ c.dropping

/-- What a creation that returns has done. -/
structure Created (F : FileSystem) (now : UInt64) (name : FileName) (config : CollectionConfig)
    (h h' : Host) : Prop where
  accepted : Accepted name config h.catalog
  catalog : ∃ s, Collection.create (.ok ()) now config = .ok s ∧
    h'.catalog = { h.catalog with slots := h.catalog.slots.insert name { collection := s, users := 1 } }
  placed : Placed F name config h.disk h'.disk

variable (F env now name config) in
theorem create_ends (h : Host) : Ends (create F env now name config) h
    (fun _ h' => Created F now name config h h' ∧ Arrives env name config ∧ env.turn (.syncParent name) = .works)
    fun x h' => h'.catalog = h.catalog ∧ Explained env (¬ Accepted name config h.catalog) x ∧
      (h'.disk = h.disk ∧ ¬ Accepted name config h.catalog ∨ Accepted name config h.catalog ∧
        (NotPlaced F env name config x h.disk h'.disk ∨
          Placed F name config h.disk h'.disk ∧ Arrives env name config ∧
          env.turn (.syncParent name) ≠ .works)) := by
  have refused : ∀ {x : Interruption Status}, ¬ Accepted name config h.catalog → h.catalog = h.catalog ∧
      Explained env (¬ Accepted name config h.catalog) x ∧
      (h.disk = h.disk ∧ ¬ Accepted name config h.catalog ∨ Accepted name config h.catalog ∧
        (NotPlaced F env name config x h.disk h.disk ∨
          Placed F name config h.disk h.disk ∧ Arrives env name config ∧
          env.turn (.syncParent name) ≠ .works)) := fun not =>
    ⟨rfl, .inl not, .inl ⟨rfl, not⟩⟩
  refine ite_ends (fun invalid => Ends.leave (refused fun accepted => ?_)) fun valid => ?_
  · rw [accepted.valid] at invalid
    cases invalid
  rw [Bool.not_eq_false] at valid
  refine Ends.bind (accept_ends (fun _ good => ?_) fun st invalid => refused fun accepted => ?_)
  rotate_left
  · rw [accepted.config] at invalid
    cases invalid
  refine Ends.get ?_
  refine ite_ends (fun present => Ends.leave (refused fun accepted => accepted.absent present)) fun absent => ?_
  refine ite_ends (fun dropped => Ends.leave (refused fun accepted => accepted.settled dropped)) fun settled => ?_
  have accepted : Accepted name config h.catalog := ⟨valid, good, absent, settled⟩
  refine Ends.bind (accept_ends (fun s made => ?_) fun st failed => ?_)
  rotate_left
  · obtain ⟨s, made⟩ := Guarantees.create_ok now good
    cases failed.symm.trans made
  refine Ends.bind (onDisk_ends ((createFiles_ends valid h.disk).mono ?_ ?_))
  · rintro _ d' ⟨placed, arrives, synced⟩
    exact Ends.pure ⟨⟨accepted, ⟨s, made, rfl⟩, placed⟩, arrives, synced⟩
  · rintro x d' ⟨outcome, explained⟩
    exact ⟨rfl, explained.mono False.elim, .inr ⟨accepted, outcome⟩⟩

variable (F env now name config h) in
/-- Where all steps work a collection is created. -/
theorem create_works (smooth : ∀ s, env.turn s = .works) (accepted : Accepted name config h.catalog) :
    ∃ h', create F env now name config h = (.ok (), h') ∧ Created F now name config h h' := by
  have ends := create_ends F env now name config h
  cases run : create F env now name config h with
  | mk result h' =>
    cases result with
    | ok => exact ⟨h', rfl, (ends.1 _ _ run).1⟩
    | error x =>
      rcases (ends.2 _ _ run).2.1 with refused | ⟨s, left, turn⟩
      · exact absurd accepted refused
      · rw [smooth s] at turn
        cases x <;> cases turn

end Steps
end VectorForge.Catalog
