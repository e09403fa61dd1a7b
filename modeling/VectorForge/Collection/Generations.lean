import VectorForge.Collection.Snapshot

/-! What is left of a snapshot directory when its operations are interrupted. -/

namespace VectorForge.Snapshot
open Files Effect AtomicFile Manifest Decimal

section FileNames
variable {g h : UInt64} {name current : FileName}

theorem head_indexFileName (g : UInt64) : (indexFileName g).head? = some 0x69 := by
  have front : kPrefix = 0x69 :: ascii "ndex." := by decide
  by_cases small : g.toNat < 10 ^ 19
  · rw [indexFileName_of_small small, formatted_eq, front]
    rfl
  · rw [indexFileName_of_large (Nat.not_lt.mp small), formatted_eq, front]
    rfl

theorem getLast_indexFileName (small : g.toNat < 10 ^ 19) : (indexFileName g).getLast? = some 0x78 := by
  have back : kSuffix = ascii ".vfid" ++ [0x78] := by decide
  rw [indexFileName_of_small small, formatted_eq, back, ← List.append_assoc, List.getLast?_concat]

theorem getLast_tempName (name : FileName) : (tempName name).getLast? = some 0x70 := by
  have back : ascii ".tmp" = ascii ".tm" ++ [0x70] := by decide
  rw [tempName, back, ← List.append_assoc, List.getLast?_concat]

theorem manifest_untouched (g : UInt64) : ¬ Involved (indexFileName g) kManifestName := by
  have here : kManifestName.head? = some 0x4D := by decide
  have head := head_indexFileName g
  rintro (same | same)
  · rw [← same, here] at head
    exact absurd head (by decide)
  · rw [same, tempName, List.head?_append, head] at here
    exact absurd here (by decide)

theorem index_untouched (small : g.toNat < 10 ^ 19) : ¬ Involved kManifestName (indexFileName g) := by
  have head := head_indexFileName g
  have last := getLast_indexFileName small
  rintro (same | same)
  · rw [same] at head
    exact absurd head (by decide)
  · rw [same, getLast_tempName] at last
    exact absurd last (by decide)

theorem other_untouched (small : g.toNat < 10 ^ 19) (fits : h.toNat < 10 ^ 19) (apart : g ≠ h) :
    ¬ Involved (indexFileName h) (indexFileName g) := by
  have last := getLast_indexFileName small
  rintro (same | same)
  · have parsed := (round_trips_of_small 0 small).2.1
    rw [same, (round_trips_of_small 0 fits).2.1] at parsed
    exact apart (Option.some.inj parsed).symm
  · rw [same, getLast_tempName] at last
    exact absurd last (by decide)

/-- The names that `parse_index_name` accepts. -/
def IndexName (name : FileName) : Prop := ∃ digits, digits ≠ [] ∧ (∀ b ∈ digits, isDigit b = true) ∧
    name = kPrefix ++ digits ++ kSuffix

theorem indexName_of_parse (parsed : parseIndexName name = some g) : IndexName name := by
  rw [parseIndexName] at parsed
  split at parsed
  next ends =>
    simp only at parsed
    split at parsed
    next => cases parsed
    next good =>
      rw [Bool.not_eq_false, isDigits, Bool.and_eq_true, decide_eq_true_eq, List.all_eq_true] at good
      refine ⟨_, good.1, good.2, ?_⟩
      obtain ⟨rest, rfl⟩ := ends.1
      have some : (kPrefix ++ rest).length - kPrefix.length - kSuffix.length ≠ 0 := by
        intro zero
        rw [zero, List.take_zero] at good
        exact good.1 rfl
      have six : kPrefix.length = 6 ∧ kSuffix.length = 6 := by decide
      rw [List.length_append] at some
      have back : kSuffix <:+ rest := by
        refine List.suffix_of_suffix_length_le ends.2 (List.suffix_append _ _) ?_
        omega
      obtain ⟨digits, rfl⟩ := back
      rw [List.drop_left, List.length_append, List.length_append]
      rw [List.take_left' (by omega), List.append_assoc]
  next => cases parsed

/-- What the garbage collection may remove at all. -/
def Collectable (name : FileName) : Prop :=
  IndexName name ∨ (∃ base, IndexName base ∧ name = tempName base) ∨ name = tempName kManifestName

theorem getLast_of_indexName (index : IndexName name) : name.getLast? = some 0x78 := by
  obtain ⟨digits, -, -, rfl⟩ := index
  have back : kSuffix = ascii ".vfid" ++ [0x78] := by decide
  rw [back, ← List.append_assoc, List.getLast?_concat]

theorem collectable_of_doomed (marked : doomed current name = true) : Collectable name ∧
    (name = current → ¬ IndexName current) := by
  rw [doomed] at marked
  by_cases temp : ascii ".tmp" <:+ name
  · obtain ⟨base, rfl⟩ := temp
    have four : (ascii ".tmp").length = 4 := by decide
    have stem : (base ++ ascii ".tmp").take ((base ++ ascii ".tmp").length - 4) = base := by
      rw [List.length_append, List.take_left' (by omega)]
    simp only [decide_true, List.suffix_append, if_true, stem, Bool.true_or, Bool.and_true,
      Bool.true_and, Bool.or_eq_true,
      decide_eq_true_eq, Option.isSome_iff_exists] at marked
    have last : (base ++ ascii ".tmp").getLast? = some 0x70 := getLast_tempName base
    refine ⟨?_, fun same index => ?_⟩
    · rcases marked with ⟨g, parsed⟩ | rfl
      · exact .inr (.inl ⟨base, indexName_of_parse parsed, rfl⟩)
      · exact .inr (.inr rfl)
    · rw [same, getLast_of_indexName index] at last
      exact absurd last (by decide)
  · simp only [temp, decide_false, Bool.false_eq_true, if_false, Bool.false_or, Bool.false_and,
      Bool.or_false, Bool.and_eq_true,
      decide_eq_true_eq, Option.isSome_iff_exists] at marked
    obtain ⟨⟨g, parsed⟩, other⟩ := marked
    exact ⟨.inl (indexName_of_parse parsed), fun same => absurd same (by simpa using other)⟩

theorem not_collectable_manifest : ¬ Collectable kManifestName := by
  have last : kManifestName.getLast? = some 0x54 := by decide
  rintro (index | ⟨base, -, same⟩ | same)
  · rw [getLast_of_indexName index] at last
    exact absurd last (by decide)
  · rw [same, getLast_tempName] at last
    exact absurd last (by decide)
  · rw [same, getLast_tempName] at last
    exact absurd last (by decide)

/-- A manifest that is accepted names a file of an index. -/
theorem indexName_of_readManifest {content : List Byte} {m : Manifest}
    (run : Manifest.readManifest content = .ok m) : IndexName m.file := by
  rw [Manifest.readManifest] at run
  split at run
  next => cases run
  next =>
    rw [decodeManifest] at run
    split at run
    next => cases run
    next =>
      simp only [bind, Except.bind] at run
      split at run
      next => cases run
      next =>
        split at run
        next => cases run
        next =>
          split at run
          next => cases run
          next =>
            split at run
            next => cases run
            next named =>
              cases run
              rw [not_or, not_not] at named
              exact indexName_of_parse named.1

end FileNames

section Sweeping
variable {P : Platform FileName} {env : Environment FileName (List Byte)} {dir current : FileName}
  {d d' d'' : Disk FileName (List Byte)}

/-- Nothing has happened to a directory but the removal of files that are marked. -/
structure Swept (P : Platform FileName) (dir current : FileName) (d d' : Disk FileName (List Byte)) : Prop where
  only : OnlyFiles P dir (fun f => doomed current f = true) d d'
  gone : ∀ f, file P d' dir f = file P d dir f ∨ file P d' dir f = none

theorem Swept.refl (d : Disk FileName (List Byte)) : Swept P dir current d d := ⟨.refl d, fun _ => .inl rfl⟩

theorem Swept.trans (first : Swept P dir current d d') (second : Swept P dir current d' d'') :
    Swept P dir current d d'' := by
  refine ⟨first.only.trans second.only, fun f => ?_⟩
  rcases second.gone f with same | none
  · rw [same]
    exact first.gone f
  · exact .inr none

theorem removeFile_swept {e : Status} {name : FileName} (marked : doomed current name = true)
    (d : Disk FileName (List Byte)) :
    Ends (removeFile P env e dir name) d (fun _ d' => Swept P dir current d d') fun x d' =>
      Swept P dir current d d' ∧ Explained env False x := by
  refine step_ends (fun _ d' done => ?_) (fun _ refused => by cases refused)
    (fun left failed => ⟨.refl d, .inr ⟨_, left, failed⟩⟩)
    fun left stopped => ⟨.refl d, .inr ⟨_, left, stopped⟩⟩
  cases done
  refine ⟨.eraseFile marked, fun f => ?_⟩
  by_cases same : f = name
  · exact .inr (same ▸ file_eraseFile)
  · exact .inl (file_eraseFile_ne same)

theorem sweep_ends : ∀ (names : List FileName) (count : GarbageReport) (d : Disk FileName (List Byte)),
    Ends (sweep P env dir current names count) d (fun _ d' => Swept P dir current d d') fun x d' =>
      Swept P dir current d d' ∧ Explained env False x
  | [], count, d => Ends.pure (.refl d)
  | name :: rest, count, d => by
    have later : ∀ {d₁ : Disk FileName (List Byte)}, Swept P dir current d d₁ →
        ∀ count, Ends (sweep P env dir current rest count) d₁
        (fun _ d' => Swept P dir current d d') fun x d' => Swept P dir current d d' ∧
        Explained env False x := fun first count =>
      (sweep_ends rest count _).mono (fun _ _ second => first.trans second) fun _ _ second =>
        ⟨first.trans second.1, second.2⟩
    rw [sweep]
    split
    next marked =>
      have tried : Ends (attempt Interruption.caught (removeFile P env (Status.ioError "") dir name)) d
          (fun _ d' => Swept P dir current d d') fun x d' => Swept P dir current d d' ∧ Explained env False x := by
        refine Ends.attempt ((removeFile_swept marked d).mono (fun _ _ holds => holds) fun x d' holds => ?_)
        cases x with
        | stops => exact holds
        | reports e => exact holds.1
      refine Ends.bind (tried.mono (fun result d₁ first => ?_) fun _ _ holds => holds)
      cases result with
      | ok => exact later first _
      | error => exact later first _
    next => exact later (.refl d) count

variable (P env dir) in
/-- However the garbage collection ends, it has removed nothing but files that are marked. -/
theorem collectGarbage_ends (d : Disk FileName (List Byte)) : Ends (collectGarbage P env dir) d
    (fun _ d' => ∃ m, readManifest P d dir = .ok m ∧ Swept P dir m.file d d')
    fun x d' => (d' = d ∨ ∃ m, readManifest P d dir = .ok m ∧ Swept P dir m.file d d') ∧
    (x = .stops → Explained env False x) := by
  refine Ends.get ?_
  split
  next => exact Ends.leave ⟨.inl rfl, fun same => by cases same⟩
  next m known missing =>
    rw [readManifest, file_of_none missing] at known
    cases known
  next m D known _ =>
    exact (sweep_ends _ _ d).mono (fun _ _ swept => ⟨m, known, swept⟩) fun _ _ swept =>
      ⟨.inr ⟨m, known, swept.1⟩, fun _ => swept.2⟩

theorem indexName_of_read {m : Manifest} (known : readManifest P d dir = .ok m) : IndexName m.file := by
  rw [readManifest] at known
  split at known
  next => cases known
  next => exact indexName_of_readManifest known

end Sweeping

section Saving
variable {P : Platform FileName} {env : Environment FileName (List Byte)} {dir : FileName}
  {d d' : Disk FileName (List Byte)} {g : UInt64} {s : CollectionState}

/-- `MANIFEST` names generation `g`, and that is the complete file of the collection `s`. -/
def Current (P : Platform FileName) (d : Disk FileName (List Byte)) (dir : FileName) (g : UInt64)
    (s : CollectionState) : Prop :=
  ∃ bytes crc, image s = .ok bytes ∧ file P d dir (indexFileName g) = some bytes ∧
    readHeaderCrc P d dir (indexFileName g) = .ok crc ∧
    readManifest P d dir = .ok { generation := g, file := indexFileName g, crc32c := crc }

theorem readManifest_congr (same : file P d' dir kManifestName = file P d dir kManifestName) :
    readManifest P d' dir = readManifest P d dir := by
  rw [readManifest, readManifest, same]

theorem readHeaderCrc_congr {name : FileName} (same : file P d' dir name = file P d dir name) :
    readHeaderCrc P d' dir name = readHeaderCrc P d dir name := by
  rw [readHeaderCrc, readHeaderCrc, same]

/-- Only two files matter. -/
theorem Current.congr (current : Current P d dir g s)
    (same : file P d' dir kManifestName = file P d dir kManifestName)
    (index : file P d' dir (indexFileName g) = file P d dir (indexFileName g)) : Current P d' dir g s := by
  obtain ⟨bytes, crc, written, there, header, named⟩ := current
  exact ⟨bytes, crc, written, index.trans there, (readHeaderCrc_congr index).trans header,
    (readManifest_congr same).trans named⟩

theorem Current.next (current : Current P d dir g s) : nextGeneration (readManifest P d dir) = .ok (g + 1) := by
  obtain ⟨_, _, _, _, _, named⟩ := current
  rw [named]
  rfl

theorem Current.swept (current : Current P d dir g s) {m : Manifest} (known : readManifest P d dir = .ok m)
    (swept : Swept P dir m.file d d') : Current P d' dir g s := by
  have index := indexName_of_read known
  have file : m.file = indexFileName g := by
    obtain ⟨_, _, _, _, _, named⟩ := current
    rw [named] at known
    cases known
    rfl
  refine current.congr (swept.only.files _ fun marked => not_collectable_manifest (collectable_of_doomed marked).1)
    (swept.only.files _ fun marked => ?_)
  exact (collectable_of_doomed marked).2 file.symm index

theorem toNat_add_one (small : g.toNat + 1 < 10 ^ 19) : (g + 1).toNat = g.toNat + 1 := by
  rw [UInt64.toNat_add]
  simp only [UInt64.reduceToNat]
  omega

theorem current_of_written {bytes : List Byte} {crc : UInt32} (small : g.toNat < 10 ^ 19)
    (written : image s = .ok bytes) (index : file P d dir (indexFileName g) = some bytes)
    (header : readHeaderCrc P d dir (indexFileName g) = .ok crc) (named : file P d dir kManifestName =
      some (encodeManifest { generation := g, file := indexFileName g, crc32c := crc })) :
    Current P d dir g s := by
  refine ⟨bytes, crc, written, index, header, ?_⟩
  rw [readManifest, named]
  exact (round_trips_of_small crc small).2.2

/-- What an attempt to save `s` leaves behind without having replaced `MANIFEST`. -/
def Unpublished (P : Platform FileName) (dir : FileName) (d d' : Disk FileName (List Byte)) : Prop :=
  file P d' dir kManifestName = file P d dir kManifestName ∧
    ∀ g₀ s₀, Current P d dir g₀ s₀ → g₀.toNat + 1 < 10 ^ 19 → Current P d' dir g₀ s₀

/-- What it leaves behind otherwise. -/
def Published (P : Platform FileName) (dir : FileName) (s : CollectionState) (g : UInt64)
    (d d' : Disk FileName (List Byte)) : Prop :=
  nextGeneration (readManifest P d dir) = .ok g ∧ (g.toNat < 10 ^ 19 → Current P d' dir g s)

/-- Why a snapshot cannot be taken even if all steps work. -/
def Unsavable (current : Result Manifest) (s : CollectionState) : Prop :=
  (∃ st, nextGeneration current = .error st) ∨ ∀ bytes, image s = .ok bytes → bytes.length < Format.kHeaderSize

theorem lift_ends {α : Type} {r : Result α} {post : α → Disk FileName (List Byte) → Prop}
    {exits : Interruption Status → Disk FileName (List Byte) → Prop} (ok : ∀ a, r = .ok a → post a d)
    (error : ∀ st, r = .error st → exits (.reports st) d) : Ends (lift r) d post exits := by
  cases r with
  | ok a => exact Ends.pure (ok a rfl)
  | error st => exact Ends.leave (error st rfl)

/-- The generation is written under a name that `MANIFEST` does not name yet. -/
theorem unpublished_of_index (next : nextGeneration (readManifest P d dir) = .ok g) {d₁ : Disk FileName (List Byte)}
    (files : ∀ f, file P d₁ dir f = file P d dir f) (only : OnlyFiles P dir (Involved (indexFileName g)) d₁ d') :
    Unpublished P dir d d' := by
  have named := (only.files _ (manifest_untouched g)).trans (files _)
  refine ⟨named, fun g₀ s₀ current small => current.congr named ?_⟩
  rw [current.next] at next
  cases next
  have apart : g₀ ≠ g₀ + 1 := by
    intro same
    have values := congrArg UInt64.toNat same
    rw [toNat_add_one small] at values
    omega
  exact (only.files _ (other_untouched (by omega) (by rw [toNat_add_one small]; omega) apart)).trans (files _)

theorem Unpublished.manifest (before : Unpublished P dir d d') {d'' : Disk FileName (List Byte)}
    (only : OnlyFiles P dir (Involved kManifestName) d' d'')
    (same : file P d'' dir kManifestName = file P d' dir kManifestName) : Unpublished P dir d d'' := by
  refine ⟨same.trans before.1, fun g₀ s₀ current small => ?_⟩
  exact (before.2 g₀ s₀ current small).congr same (only.files _ (index_untouched (by omega)))

variable (P env dir) in
/-- An attempt to save a snapshot, whether it returns, reports an error or is stopped. -/
theorem saveSnapshot_ends (s : CollectionState) (d : Disk FileName (List Byte)) : Ends (saveSnapshot P env s dir) d
    (fun g d' => Published P dir s g d d')
    fun x d' => (Unpublished P dir d d' ∨ ∃ g, Published P dir s g d d') ∧
    Explained env (Unsavable (readManifest P d dir) s) x := by
  have untouched : Unpublished P dir d d := ⟨rfl, fun _ _ current _ => current⟩
  refine Ends.bind ((makeDirectory_ends _ dir d).mono ?_ fun _ d₁ failed =>
    ⟨.inl (failed.1 ▸ untouched), failed.2.2.mono False.elim⟩)
  rintro _ d₁ ⟨-, -, there, kept, fresh⟩
  have files : ∀ f, file P d₁ dir f = file P d dir f := by
    intro f
    cases known : directory P d dir with
    | some D => rw [kept (by rw [known]; rfl)]
    | none =>
      rw [file_of_none known, file_of_directory (fresh known)]
      rfl
  have still : Unpublished P dir d d₁ := ⟨files _, fun _ _ current _ => current.congr (files _) (files _)⟩
  refine Ends.get ?_
  rw [readManifest_congr (files kManifestName)]
  refine Ends.bind (lift_ends (fun g next => ?_) fun st failed => ⟨.inl still, .inl (.inl ⟨st, failed⟩)⟩)
  refine Ends.bind ((writeAtomic_ends d₁).mono ?_ fun _ d₂ ends =>
    ⟨.inl (unpublished_of_index next files ends.1), ends.2.2.mono ?_⟩)
  rotate_left
  · rintro (unwritten | missing)
    · exact .inr fun bytes written => absurd written (unwritten bytes)
    · rw [missing] at there
      cases there
  rintro _ d₂ ⟨bytes, can, indexed, index, -⟩
  have before := unpublished_of_index next files indexed
  refine Ends.get ?_
  refine Ends.bind (lift_ends (fun crc header => ?_) fun st failed =>
    ⟨.inl before, .inl (.inr fun bytes' written => ?_)⟩)
  rotate_left
  · cases can.2.2.1.symm.trans written
    rw [readHeaderCrc, index] at failed
    simp only at failed
    split at failed
    next short => exact short
    next => cases failed
  have published : ∀ {d₃ : Disk FileName (List Byte)}, OnlyFiles P dir (Involved kManifestName) d₂ d₃ →
      file P d₃ dir kManifestName =
      some (encodeManifest { generation := g, file := indexFileName g, crc32c := crc }) →
        Published P dir s g d d₃ := fun only named => by
    refine ⟨next, fun small => ?_⟩
    have same := only.files _ (index_untouched small)
    exact current_of_written small can.2.2.1 (same.trans index) ((readHeaderCrc_congr same).trans header) named
  refine Ends.bind ((writeAtomic_ends d₂).mono ?_ ?_)
  · rintro _ d₃ ⟨text, renamed, only, named, -⟩
    cases renamed.2.2.1
    have done := published only named
    have after : ∀ {d₄ : Disk FileName (List Byte)},
        (d₄ = d₃ ∨ ∃ m, readManifest P d₃ dir = .ok m ∧ Swept P dir m.file d₃ d₄) →
        Published P dir s g d d₄ := by
      rintro d₄ (rfl | ⟨m, known, swept⟩)
      · exact done
      · exact ⟨next, fun small => (done.2 small).swept known swept⟩
    have swept : Ends (attempt Interruption.caught (collectGarbage P env dir)) d₃
        (fun _ d₄ => Published P dir s g d d₄)
        fun x d₄ => (Unpublished P dir d d₄ ∨ ∃ g, Published P dir s g d d₄) ∧
        Explained env (Unsavable (readManifest P d dir) s) x := by
      refine Ends.attempt ((collectGarbage_ends P env dir d₃).mono (fun _ _ swept => after (.inr swept))
        fun x d₄ ends => ?_)
      cases x with
      | stops => exact ⟨.inr ⟨g, after ends.1⟩, (ends.2 rfl).mono False.elim⟩
      | reports => exact after ends.1
    exact Ends.bind (swept.mono (fun _ _ holds => Ends.pure holds) fun _ _ holds => holds)
  · rintro x d₃ ⟨only, replaced, explained⟩
    refine ⟨?_, explained.mono ?_⟩
    · rcases replaced with ⟨same, -⟩ | ⟨text, renamed, named, -⟩
      · exact .inl (before.manifest only same)
      · cases renamed.2.2.1
        exact .inr ⟨g, published only named⟩
    · rintro (unwritten | missing)
      · exact absurd rfl (unwritten _)
      · rw [← indexed.isSome, missing] at there
        cases there

end Saving
end VectorForge.Snapshot
