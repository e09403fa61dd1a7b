import VectorForge.Collection.LockProtocol
import VectorForge.Collection.CrashSafety
import VectorForge.Concurrency.LockSafety

/-! Saves and queries while mutations run on other threads. -/

namespace VectorForge
namespace Collection
open Op CollectionState
variable {k : KernelTable} {s t u : CollectionState} {lost : Nat → Prop} {b : Batch} {w : World}

section Pauses

/-- The rows of a batch up to row `m` have been inserted, each with its node linked. -/
structure PartInserted (k : KernelTable) (lost : Nat → Prop) (s : CollectionState) (b : Batch) (m : Nat)
    (u : CollectionState) : Prop where
  inside : m ≤ b.ids.length
  sound : u.Sound lost
  sectioned : s.config.Sectioned → LinkedUpTo lost b 0 s m u
  plain : ¬s.config.Sectioned → RowsAdded k lost b.upsert s (b.between 0 m) u

theorem finish_pauses {result : Except Exit Reply} (pauses : (finish result).Pauses writing s u) : u = s := by
  rcases pauses with ⟨_, same⟩ | ⟨_, same⟩
  · exact same
  · exact same

/-- A section comes to an end either with all its rows inserted or with the whole batch. -/
theorem sectionsScript_pauses (distinct : b.ids.Nodup) :
    ∀ {fuel done inserted : Nat} {s : CollectionState} {w : World} {h : HnswBackend},
    s.Sound lost → s.backend = .hnsw h → Batch.Fits b s → done ≤ b.ids.length →
    (sectionsScript k b fuel done inserted w).Pauses writing s u →
    (∃ m, m ≤ b.ids.length ∧ LinkedUpTo lost b done s m u) ∨
    ∃ result, (sectionsScript k b fuel done inserted w).run s = some (result, u) := by
  intro fuel
  induction fuel with
  | zero =>
    intro done inserted s w h sound kind fits inside pauses
    rw [sectionsScript] at *
    split at pauses
    all_goals
      next => rw [finish_pauses pauses]; exact .inr ⟨_, by simp only [*, if_true, if_false]; rfl⟩
  | succ fuel ih =>
    intro done inserted s w h sound kind fits inside pauses
    rw [sectionsScript_run]
    rw [sectionsScript] at pauses
    rw [batchSections]
    split
    next more =>
      rw [if_pos more] at pauses
      rcases sectionScript_pauses pauses with rfl | ⟨ends, pauses⟩
      · exact .inl ⟨done, inside, .refl sound inside⟩
      cases ran : batchSection k b done ⟨s, w⟩ with
      | mk result τ =>
        rw [ran] at pauses ends
        cases result with
        | error e =>
          rw [Effect.bind_of_error ran, finish_pauses pauses, proceed]
          exact .inr ⟨_, by rw [show stuck (Except.error e : Except Exit Nat) = false from ends]; rfl⟩
        | ok counts =>
          obtain ⟨_, progress, same, finished⟩ := (batchSection_ends sound kind fits distinct more).1 counts τ ran
          have up : LinkedUpTo lost b done s (done + counts.1) τ.state := by
            refine ⟨Nat.le_add_right _ _, ?_⟩
            rw [Nat.add_sub_cancel_left]
            exact finished
          have held := up.sound sound
          obtain ⟨g, kind'⟩ := up.backend kind
          rw [Effect.bind_of_ok ran]
          rcases ih held kind' (fits.of_config sound.toCoupled held.toCoupled finished.config) finished.inside
            pauses with ⟨m, low, rest⟩ | run
          · exact .inl ⟨m, low, up.trans rest sound distinct⟩
          · rw [sectionsScript_run] at run
            exact .inr run
    next none =>
      rw [if_neg none] at pauses
      rw [finish_pauses pauses]
      exact .inr ⟨_, rfl⟩

theorem slicesScript_pauses : ∀ {fuel i : Nat} {s : CollectionState} {w : World}, s.Sound lost →
    Batch.Fits b s → i ≤ b.ids.length →
    (slicesScript k b fuel i w).Pauses writing s u →
    (∃ m, i ≤ m ∧ m ≤ b.ids.length ∧ u.Sound lost ∧ RowsAdded k lost b.upsert s (b.between i m) u) ∨
      ∃ result, (slicesScript k b fuel i w).run s = some (result, u) := by
  intro fuel
  induction fuel with
  | zero =>
    intro i s w sound fits inside pauses
    rw [slicesScript] at *
    split at pauses
    all_goals
      next => rw [finish_pauses pauses]; exact .inr ⟨_, by simp only [*, if_true, if_false]; rfl⟩
  | succ fuel ih =>
    intro i s w sound fits inside pauses
    rw [slicesScript_run]
    rw [slicesScript] at pauses
    rw [addSlices]
    split
    next more =>
      rw [if_pos more] at pauses
      rcases inSection_pauses.mp pauses with ⟨_, rfl⟩ | ⟨ends, pauses⟩
      · exact .inl ⟨i, Nat.le_refl i, inside, sound, by rw [Batch.between_self]; exact .nil (.refl u)⟩
      cases ran : addSlice k b (b.ids.length - i) i ⟨s, w⟩ with
      | mk result τ =>
        rw [ran] at pauses ends
        cases result with
        | error e =>
          rw [Effect.bind_of_error ran, finish_pauses pauses, proceed]
          exact .inr ⟨_, by rw [show stuck (Except.error e : Except Exit Nat) = false from ends]; rfl⟩
        | ok m =>
          obtain ⟨left, count⟩ : ∃ left, b.ids.length - i = left + 1 := ⟨b.ids.length - i - 1, by omega⟩
          have slice := (addSlice_ends (k := k) (w := w) sound fits (by omega : i + (left + 1) ≤ b.ids.length)).1 m
            τ (by rw [← count]; exact ran)
          obtain ⟨after, low, _, held, added⟩ := slice
          rw [Effect.bind_of_ok ran]
          rcases ih held (fits.of_config sound.toCoupled held.toCoupled added.config) low pauses with
            ⟨n, high, below, last, rest⟩ | run
          · refine .inl ⟨n, after.le.trans high, below, last, ?_⟩
            rw [← Batch.between_append after.le high]
            exact added.append sound held.toCoupled rest
          · rw [slicesScript_run] at run
            exact .inr run
    next none =>
      rw [if_neg none] at pauses
      rw [finish_pauses pauses]
      exact .inr ⟨_, rfl⟩

end Pauses

section Admission
variable {ids : List ExternalId} {rows data : List F32} {upsert : Bool} {pool : Option ThreadPool}

theorem Local.ok_of_lift {α : Type} {result : Result α} {a : α} {w w' : World}
    (run : Local.lift result w = (.ok a, w')) : result = .ok a := by
  cases result with
  | ok b =>
    cases run
    rfl
  | error e => cases run

theorem batchRows_ok {config : CollectionConfig} {w' : World}
    (run : batchRows k config ids rows w = (.ok (some data), w')) :
    validateBatch rows ids.length config.dim.toNat = .ok () ∧ ids.length ≠ 0 ∧
    batchData k config ids rows = .ok data := by
  rw [batchRows] at run
  obtain ⟨_, _, valid, run⟩ := Effect.ok_of_bind run
  refine ⟨Local.ok_of_lift valid, ?_⟩
  split at run
  next => cases run
  next some =>
    obtain ⟨_, _, _, run⟩ := Effect.ok_of_bind run
    obtain ⟨_, _, keys, run⟩ := Effect.ok_of_bind run
    refine ⟨some, ?_⟩
    rw [batchData, Local.ok_of_lift keys]
    split at run
    next normalizes =>
      obtain ⟨_, _, _, run⟩ := Effect.ok_of_bind run
      obtain ⟨_, _, stored, run⟩ := Effect.ok_of_bind run
      cases run
      simp only [normalizes, if_true]
      exact Local.ok_of_lift stored
    next plain =>
      cases run
      simp only [plain]
      rfl

theorem admitLocked_ok {τ : Session} (coupled : s.Coupled) (run : admitLocked ids upsert ⟨s, w⟩ = (.ok (), τ)) :
    admission s ids upsert = none ∧ Kept s τ.state ∧ τ.state.Coupled := by
  have behind (p : Op Unit) : (p >>= fun _ => pure ()) = p := by
    funext σ
    cases ran : p σ with
    | mk result τ =>
      cases result with
      | ok a => rw [Effect.bind_of_ok ran]; rfl
      | error e => rw [Effect.bind_of_error ran]
  have ends : Effect.Ends (admitLocked ids upsert) ⟨s, w⟩ (fun _ τ => admission s ids upsert = none ∧
      Kept s τ.state ∧ τ.state.Coupled)
      fun _ _ => True := by
    refine ends_state (admitBatch_ends (fun _ _ => trivial) fun admitted room => ?_)
    rw [← behind (ensureSize _)]
    exact reserveAll_ends coupled room (fun t w' _ kept held _ => Effect.Ends.pure ⟨admitted, kept, held⟩)
      fun _ _ _ => trivial
  exact ends.1 () τ run

theorem admitted_of_run {τ : Session} {w' : World} (coupled : s.Coupled)
    (before : batchRows k s.config ids rows w = (.ok (some data), w'))
    (run : admitLocked ids upsert ⟨s, w'⟩ = (.ok (), τ)) : Admitted k s ids rows upsert data ∧ Kept s τ.state ∧
    τ.state.Coupled := by
  obtain ⟨valid, some, stored⟩ := batchRows_ok before
  obtain ⟨allowed, kept, held⟩ := admitLocked_ok coupled run
  refine ⟨⟨?_, valid, stored⟩, kept, held⟩
  simp only [batchRefusal, valid, if_neg some, stored]
  exact allowed

/-- Behind the first exclusive lock of an admitted batch. -/
theorem rowsScript_pauses (sound : s.Sound lost) (admitted : Admitted k s ids rows upsert data) (kept : Kept s t)
    (coupled : t.Coupled)
    (pauses : (rowsScript k s.config (batchOf s.config ids data upsert pool) w).Pauses writing t u) :
    (∃ m, PartInserted k lost s (batchOf s.config ids data upsert pool) m u) ∨
      ∃ result, (rowsScript k s.config (batchOf s.config ids data upsert pool) w).run t = some (result, u) := by
  obtain ⟨fits, distinct, _⟩ := admitted.batch pool sound.toCoupled
  have held := kept.sound sound coupled
  have fits' := fits.of_config sound.toCoupled coupled kept.config
  rw [rowsScript] at *
  split at pauses
  next kind =>
    rw [if_pos kind]
    obtain ⟨h, backend⟩ := hnsw_of_config coupled (kept.config ▸ kind.1)
    split at pauses
    next e w' room =>
      rw [finish_pauses pauses]
      exact .inr ⟨_, rfl⟩
    next w' room =>
      rcases sectionsScript_pauses distinct held backend fits' (Nat.zero_le _) pauses with ⟨m, inside, linked⟩ | run
      · have linked := linked.of_kept kept
        exact .inl ⟨m, inside, linked.sound sound, fun _ => linked, fun plain => absurd kind plain⟩
      · exact .inr run
  next kind =>
    rw [if_neg kind]
    rcases slicesScript_pauses held fits' (Nat.zero_le _) pauses with ⟨m, _, inside, last, added⟩ | run
    · have start : RowsAdded k lost upsert s ((batchOf s.config ids data upsert pool).between 0 0) t := by
        rw [Batch.between_self]
        exact .nil kept
      exact .inl ⟨m, inside, last, fun sectioned => absurd sectioned kind,
        fun _ => start.append sound coupled added⟩
    · exact .inr run

end Admission

/-- What a save may find after mutations that ended in `t`: just that, or what one more mutation made of it, or a
part of the rows of one more batch. -/
inductive Seen (k : KernelTable) (t : CollectionState) : CollectionState → Prop
  | whole : Seen k t t
  | ended {c : Command} {w : World} {result : Except Exit Reply} {τ : Session} (run : c.run k ⟨t, w⟩ = (result, τ))
      (ends : result ≠ .error .stuck) : Seen k t τ.state
  | batch {lost : Nat → Prop} {ids : List ExternalId} {rows data : List F32} {upsert : Bool}
      {pool : Option ThreadPool} {m : Nat}
      {s : CollectionState} (sound : t.Sound lost) (admitted : Admitted k t ids rows upsert data)
      (part : PartInserted k lost t (batchOf t.config ids data upsert pool) m s) : Seen k t s

theorem ended_of_outcome {x : Except Exit Reply × Session} {result : Except Exit Reply}
    (ended : outcome x = some (result, u)) : ∃ τ, x = (result, τ) ∧ τ.state = u ∧ result ≠ .error .stuck := by
  obtain ⟨r, τ⟩ := x
  rw [outcome] at ended
  split at ended
  next => cases ended
  next ends =>
    cases ended
    refine ⟨τ, rfl, rfl, ?_⟩
    rintro rfl
    exact ends rfl

theorem Seen.of_script {c : Command} {result : Except Exit Reply}
    (run : (c.script k s.config w).run s = some (result, u)) : Seen k s u := by
  rw [Command.script_run] at run
  obtain ⟨τ, ran, rfl, ends⟩ := ended_of_outcome run
  exact .ended ran ends

/-- A mutation in one section. -/
theorem section_pauses {α : Type} {mode : Critical.Mode} {p : Op α} {f : Except Exit α → Except Exit Reply}
    (pauses : (inSection mode p w fun result _ => finish (f result)).Pauses writing s u) :
    u = s ∨ ∃ result, (inSection mode p w fun result _ => finish (f result)).run s = some (result, u) := by
  rcases inSection_pauses.mp pauses with ⟨_, same⟩ | ⟨ends, pauses⟩
  · exact .inl same
  · refine .inr ⟨f (p ⟨s, w⟩).1, ?_⟩
    rw [finish_pauses pauses, inSection_run, proceed, ends]
    rfl

theorem turn_pauses {next : Steps} (pauses : (Critical.Script.take .turn next).Pauses Critical.nothing s u) :
    u = s ∨ next.Pauses writing s u := by
  rcases pauses with ⟨_, same⟩ | pauses
  · exact .inl same
  · exact .inr pauses

theorem addScript_pauses {config : CollectionConfig} {id : ExternalId} {vector : List F32} {upsert : Bool}
    (pauses : (addScript k config id vector upsert w).Pauses Critical.nothing s u) :
    u = s ∨ ∃ result, (addScript k config id vector upsert w).run s = some (result, u) := by
  rw [addScript] at *
  split at pauses
  next => exact .inl pauses.2
  next =>
    rcases turn_pauses pauses with same | pauses
    · exact .inl same
    · exact section_pauses pauses

theorem compactScript_pauses (pauses : (compactScript k w).Pauses Critical.nothing s u) :
    u = s ∨ ∃ result, (compactScript k w).run s = some (result, u) := by
  rw [compactScript, Critical.Script.run, inSection_run]
  rcases turn_pauses pauses with same | pauses
  · exact .inl same
  rcases inSection_pauses.mp pauses with ⟨_, same⟩ | ⟨ends, pauses⟩
  · exact .inl same
  have keeps := keeps_rebuild (k := k) ⟨s, w⟩
  cases ran : rebuild k ⟨s, w⟩ with
  | mk result τ =>
    rw [ran] at ends pauses keeps
    cases result with
    | error e => exact .inl ((finish_pauses pauses).trans keeps)
    | ok built =>
      obtain ⟨stats, _ | rebuilt⟩ := built
      · exact .inl ((finish_pauses pauses).trans keeps)
      · rcases section_pauses pauses with same | ⟨result, run⟩
        · exact .inl (same.trans keeps)
        · exact .inr ⟨result, run⟩

theorem batchScript_pauses {ids : List ExternalId} {rows : List F32} {upsert : Bool} {pool : Option ThreadPool}
    (sound : s.Sound lost) (pauses : (batchScript k s.config ids rows upsert pool w).Pauses Critical.nothing s u) :
    Seen k s u ∨ ∃ result, (batchScript k s.config ids rows upsert pool w).run s = some (result, u) := by
  rw [batchScript] at *
  split at pauses
  next => exact .inl (pauses.2 ▸ .whole)
  next => exact .inl (pauses.2 ▸ .whole)
  next data w' before =>
    rw [Critical.Script.run, inSection_run]
    rcases turn_pauses pauses with rfl | pauses
    · exact .inl .whole
    rcases inSection_pauses.mp pauses with ⟨_, rfl⟩ | ⟨ends, pauses⟩
    · exact .inl .whole
    cases ran : admitLocked ids upsert ⟨s, w'⟩ with
    | mk result τ =>
      rw [ran] at ends pauses
      cases result with
      | error e =>
        rw [finish_pauses pauses, proceed, ends]
        exact .inr ⟨_, rfl⟩
      | ok _ =>
        obtain ⟨admitted, kept, coupled⟩ := admitted_of_run sound.toCoupled before ran
        rcases rowsScript_pauses sound admitted kept coupled pauses with ⟨m, part⟩ | run
        · exact .inl (.batch sound admitted part)
        · exact .inr run

/-- Wherever a mutation lets go of its locks, it leaves what a save may find. -/
theorem Command.script_pauses (c : Command) (sound : s.Sound lost)
    (pauses : (c.script k s.config w).Pauses Critical.nothing s u) : Seen k s u := by
  have ended (last : u = s ∨ ∃ result, (c.script k s.config w).run s = some (result, u)) : Seen k s u := by
    rcases last with rfl | ⟨result, run⟩
    · exact .whole
    · exact .of_script run
  cases c with
  | add id vector upsert => exact ended (addScript_pauses pauses)
  | addBatch ids rows upsert pool => exact (batchScript_pauses sound pauses).elim id fun run => ended (.inr run)
  | remove id =>
    refine ended ?_
    rcases turn_pauses pauses with same | pauses
    · exact .inl same
    · exact section_pauses pauses
  | compact => exact ended (compactScript_pauses pauses)

section Ungated

theorem onward_ungated {α β : Type} {next : Except Exit β → World → Steps} {f : α → World → Steps}
    (leaves : ∀ e w, (next (.error e) w).Ungated)
    (others : ∀ a w, (f a w).Ungated) (result : Except Exit α) (w : World) : (onward next f result w).Ungated := by
  cases result with
  | ok a => exact others a w
  | error e => exact leaves e w

theorem finish_ungated (result : Except Exit Reply) : (finish result).Ungated := ⟨by decide, trivial⟩

theorem slicesScript_ungated : ∀ {fuel inserted : Nat} {w : World}, (slicesScript k b fuel inserted w).Ungated := by
  intro fuel
  induction fuel with
  | zero =>
    intro inserted w
    rw [slicesScript]
    split <;> exact finish_ungated _
  | succ fuel ih =>
    intro inserted w
    rw [slicesScript]
    split
    · exact fun s => onward_ungated (fun _ _ => finish_ungated _) (fun _ _ => ih) _ _
    · exact finish_ungated _

/-- Only batches that are linked in sections take `link`. -/
theorem Command.script_ungated {config : CollectionConfig} (plain : ¬config.Sectioned) (c : Command) (w : World) :
    (c.script k config w).Ungated := by
  have turn {next : Steps} (rest : next.Ungated) : (Critical.Script.take .turn next).Ungated := ⟨by decide, rest⟩
  cases c with
  | add id vector upsert =>
    rw [Command.script, addScript]
    split
    · trivial
    · exact turn fun _ => finish_ungated _
  | addBatch ids rows upsert pool =>
    rw [Command.script, batchScript]
    split
    · trivial
    · trivial
    · refine turn fun _ => onward_ungated (fun _ _ => finish_ungated _) (fun _ w => ?_) _ _
      rw [rowsScript, if_neg plain]
      exact slicesScript_ungated
  | remove id => exact turn fun _ => finish_ungated _
  | compact =>
    refine turn fun _ => onward_ungated (fun _ _ => finish_ungated _) ?_ _ _
    rintro ⟨stats, _ | rebuilt⟩ w
    · exact finish_ungated _
    · exact fun _ => finish_ungated _

end Ungated

section Protocol
variable {start : CollectionState}

/-- What changes nothing. -/
inductive Question where
  | get (id : ExternalId)
  | contains (id : ExternalId)
  | size
  | search (query : List F32) (params : SearchParams)
  | save
  deriving DecidableEq

def Question.operation : Question → Operation
  | .get id => .get id
  | .contains id => .contains id
  | .size => .size
  | .search query params => .search query params
  | .save => .save

/-- A question in the environment it is asked in. -/
structure Inquiry where
  question : Question
  leased : VisitedSet := {}
  world : World := {}

def Inquiry.answer (k : KernelTable) (q : Inquiry) (s : CollectionState) : Except Exit Answer :=
  (q.question.operation.run k (fun _ => q.leased) ⟨s, q.world⟩).1

/-- Any number of threads that call mutations and ask questions, in environments of their own. Saves take `link`
before they read. The read-write lock keeps to what `FairSharedMutex.Step.grants` says. -/
def serving (k : KernelTable) (config : CollectionConfig)
    (looks : Inquiry → Critical.Watch CollectionState (Except Exit Answer)) :
    Critical.System CollectionState (Command × World) (Except Exit Reply) Inquiry (Except Exit Answer) where
  script := fun call => call.1.script k config call.2
  watch := looks
  gated := fun q => decide (q.question = .save)
  locked := fun call => call.1.script_locked config call.2

/-- Mutations that ran one after the other, with what they returned. -/
inductive Serialised (k : KernelTable) (start : CollectionState) : List ((Command × World) × Except Exit Reply) →
    CollectionState → Prop
  | nil : Serialised k start [] start
  | snoc {log : List ((Command × World) × Except Exit Reply)} {t : CollectionState} {c : Command} {w : World}
      {result : Except Exit Reply}
      {τ : Session} (before : Serialised k start log t) (run : c.run k ⟨t, w⟩ = (result, τ))
      (ends : result ≠ .error .stuck) : Serialised k start (log ++ [((c, w), result)]) τ.state

section Serialised
variable {log : List ((Command × World) × Except Exit Reply)}
  {looks : Inquiry → Critical.Watch CollectionState (Except Exit Answer)}

theorem Serialised.reachable (serialised : Serialised k start log t)
    (reached : Reachable k start) : Reachable k t := by
  induction serialised with
  | nil => exact reached
  | snoc _ run ends ih => exact .step ih run ends

theorem Serialised.config (serialised : Serialised k start log t) (reached : Reachable k start) :
    t.config = start.config := by
  induction serialised with
  | nil => rfl
  | @snoc _ t c w result τ before run ends ih =>
    obtain ⟨⟨lost, sound⟩, _⟩ := (before.reachable reached).sound
    obtain ⟨values, exits⟩ := Command.run_continues (k := k) (w := w) c sound
    have next : Continues t τ.state := by
      cases result with
      | ok value => exact values value τ run
      | error e => exact exits e τ run
    exact next.config.trans ih

/-- What the locks let through is one mutation after the other. -/
theorem serialised_of_whole (reached : Reachable k start)
    (whole : Critical.Whole (serving k start.config looks).script start log t) : Serialised k start log t := by
  induction whole with
  | nil => exact .nil
  | @snoc t u log call result _ run ih =>
    have alone : (call.1.script k start.config call.2).run t = some (result, u) := run
    rw [← ih.config reached, Command.script_run] at alone
    obtain ⟨τ, ran, rfl, ends⟩ := ended_of_outcome alone
    exact .snoc ih ran ends

theorem seen_of_explained (reached : Reachable k start) (answers : ∀ q s, (looks q).eval s = q.answer k s)
    {view : Critical.View (Command × World) (Except Exit Reply) Inquiry (Except Exit Answer)}
    (explained : Critical.Explained (serving k start.config looks) start view) :
    ∃ t s, Serialised k start view.log t ∧ Seen k t s ∧ view.answer = view.question.answer k s := by
  obtain ⟨base, s, whole, part, made⟩ := explained
  have serialised := serialised_of_whole reached whole
  refine ⟨base, s, serialised, ?_, made.trans (answers _ s)⟩
  rcases part with rfl | ⟨call, pauses⟩
  · exact .whole
  · obtain ⟨⟨lost, sound⟩, _⟩ := (serialised.reachable reached).sound
    have alone : (call.1.script k start.config call.2).Pauses Critical.nothing base s := pauses
    rw [← serialised.config reached] at alone
    exact call.1.script_pauses sound alone

end Serialised
end Protocol
end Collection

namespace Guarantees
open Collection

/-- Questions that are answered in one look. -/
def atOnce (q : Inquiry) : Critical.Watch CollectionState (Except Exit Answer) :=
  .look fun s => .made (q.answer zeroKernels s)

/-- A removal that has the turn. -/
def removing (first : CollectionState) :
    Critical.State CollectionState (Command × World) (Except Exit Reply) Inquiry (Except Exit Answer) :=
  ({ data := first, threads := fun _ => .idle, base := first } : Critical.State _ _ _ _ _).move 0
    (.running (.remove 7, {}) writing
    (inSection .exclusive (remove 7) {} fun result _ => finish (result.map fun _ => .done)))

theorem removing_reachable (first : CollectionState) :
    (Critical.machine (serving zeroKernels first.config atOnce) first).Reachable (removing first) := by
  let m₀ : Critical.State CollectionState (Command × World) (Except Exit Reply) Inquiry (Except Exit Answer) :=
    { data := first, threads := fun _ => .idle, base := first }
  let m₁ := m₀.move 0 (.running (.remove 7, {}) Critical.nothing (removeScript 7 {}))
  have called : (Critical.machine (serving zeroKernels first.config atOnce) first).Reachable m₁ :=
    Machine.Reachable.step ⟨m₀, rfl, .refl⟩ (.call rfl)
  have waits := called.step (.take (i := 0) rfl (by rintro (_ | j) <;> rfl))
  have same : m₁.move 0 (.running (.remove 7, {}) (Function.update Critical.nothing .turn true)
      (inSection .exclusive (remove 7) {} fun result _ => finish (result.map fun _ => .done))) =
      removing first := by
    simp only [m₁, removing, Critical.State.move, Function.update_idem]
    rfl
  exact same ▸ waits

end Guarantees
end VectorForge
