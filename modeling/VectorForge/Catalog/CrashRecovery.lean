import VectorForge.Catalog.CrashSteps

/-! Runs of a catalog that are stopped and started again. -/

namespace VectorForge.Catalog
open Files Effect AtomicFile Snapshot

/-- What a request makes of the ledger. -/
def Request.settle (r : Request) (c : Catalog) (L : Ledger) : Ledger := match r.name? with
  | none => L
  | some n => Function.update L n (r.entry c (L n))

section Steps
variable {F : FileSystem} {names : FileName → Prop} {bound : Nat} {L L' : Ledger}
  {env : Environment FileName (List Byte)} {n m : FileName} {h h' : Host} {r : Request}

theorem Served.congr {e : Option Entry} (served : Served F e n h) (view : View F (Titles n) n h h') :
    Served F e n h' := by
  have own : directory F.platform h'.disk n = directory F.platform h.disk n := directory_sameAt view.disk (.inl rfl)
  have temp : directory F.platform h'.disk (creatingName n) = directory F.platform h.disk (creatingName n) :=
    directory_sameAt view.disk (.inr rfl)
  refine ⟨view.mem_slots.symm.trans served.slot, fun dropped => served.dropping (view.mem_dropping.mpr dropped), ?_,
    ?_, ?_, ?_, temp.trans served.fresh⟩
  · rw [view.dropping]
    exact served.once
  · rw [view.retired]
    exact fun used => view.mem_dropping.mp (served.retired used)
  · rw [view.retired]
    exact served.single
  · exact fun absent out => own.trans (served.settled absent fun dropped => out (view.mem_dropping.mp dropped))

/-- What a request does to its own collection is all that it does. -/
theorem Keeps.lift {p : CatalogOp Unit} (concerns : Concerns F (Titles n) n p)
    (separate : Separate F names) (mine : names n)
    (kept : Kept F names bound L h.disk) (serves : Serves F names L h) (others : ∀ m, m ≠ n → L' m = L m)
    (keeps : Keeps F bound (L n) (L' n) n p h) :
    Ends p h (fun _ h' => Kept F names bound L' h'.disk ∧ Serves F names L' h') fun x h' => match x with
      | .reports _ => Kept F names bound L h'.disk ∧ Serves F names L h'
      | .stops => Kept F names bound L h'.disk ∨ Kept F names bound L' h'.disk := by
  have beside := concerns.far h
  have view (m : FileName) (theirs : names m) (other : m ≠ n) : View F (Titles m) m h (p h).2 :=
    beside.view (fun _ _ first second same =>
      other (separate.same_title mine theirs second first same).1.symm) other
  have elsewhere : Elsewhere F n h.disk (p h).2.disk := fun k here there => beside.disk.others k fun place => by
    obtain ⟨t, rfl | rfl, rfl⟩ := place
    · exact here rfl
    · exact there rfl
  have titled : Titled F (Known names) (p h).2.disk :=
    kept.titled.leaves beside.disk fun t title => ⟨n, mine, title⟩
  have settle {M : Ledger} (others : ∀ m, m ≠ n → M m = L m) (housed : Housed F bound (M n) n (p h).2.disk) :
      Kept F names bound M (p h).2.disk :=
    kept.settle separate mine elsewhere (fun t D title there => name_of_titled titled separate mine title there)
      others housed.listed housed.unlisted
  have serve {M : Ledger} (others : ∀ m, m ≠ n → M m = L m) (served : Served F (M n) n (p h).2) :
      Serves F names M (p h).2 := by
    intro m theirs
    by_cases other : m = n
    · exact other ▸ served
    · rw [others m other]
      exact (serves m theirs).congr (view m theirs other)
  constructor
  · intro a h' run
    have after : (p h).2 = h' := by rw [run]
    obtain ⟨housed, served⟩ := keeps.1 a h' run
    subst after
    exact ⟨settle others housed, serve others served⟩
  · intro x h' run
    have after : (p h).2 = h' := by rw [run]
    have left := keeps.2 x h' run
    subst after
    cases x with
    | reports st => exact ⟨settle (fun _ _ => rfl) left.1, serve (fun _ _ => rfl) left.2⟩
    | stops => exact left.imp (settle fun _ _ => rfl) (settle others)

/-- A request in a process that serves the ledger, or the start of a process. -/
theorem perform_ends (separate : Separate F names) (careful : Careful F names env r h)
    (uses : ∀ n, r.name? = some n → names n) (room : bound + 1 < 10 ^ 19) (kept : Kept F names bound L h.disk)
    (serves : Serves F names L h ∨ r.name? = none) :
    Ends (r.perform F env) h (fun _ h' => Kept F names (bound + 1) (r.settle h.catalog L) h'.disk ∧
      Serves F names (r.settle h.catalog L) h')
      fun x h' => match x with
        | .reports _ => Kept F names (bound + 1) L h'.disk ∧ Serves F names L h'
        | .stops =>
          Kept F names (bound + 1) L h'.disk ∨ Kept F names (bound + 1) (r.settle h.catalog L) h'.disk := by
  have le := Nat.le_add_right bound 1
  cases request : r.name? with
  | none =>
    have same : r.settle h.catalog L = L := by rw [Request.settle, request]
    rw [same]
    cases r with
    | opening options now =>
      refine (openCatalog_ends separate careful.crashes careful.spares
        (careful.resolved options now rfl) kept).mono ?_ ?_
      · rintro _ h' ⟨after, serves, -⟩
        exact ⟨after.mono le, serves⟩
      · rintro x h' ⟨rfl, -, after⟩
        exact .inl (after.mono le)
    | _ => cases request
  | some n =>
    have mine := uses n request
    have serves := serves.resolve_right (by rw [request]; nofun)
    have settled : r.settle h.catalog L = Function.update L n (r.entry h.catalog (L n)) := by
      rw [Request.settle, request]
    have own : (r.settle h.catalog L) n = r.entry h.catalog (L n) := by rw [settled, Function.update_self]
    have others (m : FileName) (other : m ≠ n) : (r.settle h.catalog L) m = L m := by
      rw [settled, Function.update_of_ne other]
    have housed : Housed F bound (L n) n h.disk := ⟨fun x found => (kept.listed n x found).2, kept.unlisted n mine⟩
    have keeps := perform_keeps careful request mine (separate.valid n mine) room housed (serves n mine)
    rw [← own] at keeps
    exact keeps.lift (concerns_perform request) separate mine (kept.mono le) serves others

end Steps

/-- The ledgers that requests may lead to. One that returns counts, one that reports an error does not, and one
that is stopped may count or not. -/
def Possible (F : FileSystem) : Trace → Host → Ledger → Ledger → Prop
  | [], _, L, L' => L' = L
  | (env, r) :: rest, h, L, L' => match (r.perform F env h).1 with
    | .ok _ => Possible F rest (r.perform F env h).2 (r.settle h.catalog L) L'
    | .error (.reports _) => Possible F rest (r.perform F env h).2 L L'
    | .error .stops =>
      Possible F rest (r.perform F env h).2 L L' ∨ Possible F rest (r.perform F env h).2 (r.settle h.catalog L) L'

/-- The next request, if there is one, starts a process. -/
def Restarts (trace : Trace) : Prop := ∀ next ∈ trace.head?, next.2.name? = none

/-- All requests keep to the limits, and a process that has been stopped does nothing more. -/
def Disciplined (F : FileSystem) (names : FileName → Prop) : Trace → Host → Prop
  | [], _ => True
  | (env, r) :: rest, h => Careful F names env r h ∧ ((r.perform F env h).1 = .error .stops → Restarts rest) ∧
    Disciplined F names rest (r.perform F env h).2

theorem after_kept {F : FileSystem} {names : FileName → Prop} (separate : Separate F names) :
    ∀ (trace : Trace) {h : Host} {L : Ledger} {bound : Nat},
    Uses names trace → Disciplined F names trace h → bound + trace.length < 10 ^ 19 → Kept F names bound L h.disk →
    Serves F names L h ∨ Restarts trace →
    ∃ L', Possible F trace h L L' ∧ Kept F names (bound + trace.length) L' (after F trace h).disk
  | [], h, L, bound, _, _, _, kept, _ => ⟨L, rfl, kept⟩
  | (env, r) :: rest, h, L, bound, uses, disciplined, room, kept, serves => by
    obtain ⟨careful, stopped, later⟩ := disciplined
    rw [List.length_cons] at room
    have ends := perform_ends separate careful (uses (env, r) List.mem_cons_self) (by omega) kept
      (serves.imp_right fun restarts => restarts _ rfl)
    have more : Uses names rest := fun x member => uses x (List.mem_cons_of_mem _ member)
    have ih {L : Ledger} (kept : Kept F names (bound + 1) L (r.perform F env h).2.disk)
        (serves : Serves F names L (r.perform F env h).2 ∨ Restarts rest) :
        ∃ L', Possible F rest (r.perform F env h).2 L L' ∧
        Kept F names (bound + (rest.length + 1)) L' (after F rest (r.perform F env h).2).disk := by
      obtain ⟨L', possible, after⟩ := after_kept separate rest more later (by omega) kept serves
      exact ⟨L', possible, by rw [show bound + (rest.length + 1) = bound + 1 + rest.length by omega]; exact after⟩
    simp only [Possible, after, List.length_cons]
    cases run : r.perform F env h with
    | mk result h' =>
      rw [run] at ih stopped
      cases result with
      | ok a =>
        obtain ⟨kept, serves⟩ := ends.1 a h' run
        exact ih kept (.inl serves)
      | error x =>
        have left := ends.2 x h' run
        cases x with
        | reports st => exact ih left.1 (.inl left.2)
        | stops =>
          have restarts := stopped rfl
          rcases left with kept | kept
          · obtain ⟨L', possible, after⟩ := ih kept (.inr restarts)
            exact ⟨L', .inl possible, after⟩
          · obtain ⟨L', possible, after⟩ := ih kept (.inr restarts)
            exact ⟨L', .inr possible, after⟩

section Examples

/-- The program is stopped where the marker would be removed. -/
def stopsAtMarker : Environment FileName (List Byte) where
  turn s := if s = .remove (ascii "a") kDroppedMarker then .stops [] else .works

/-- Created, dropped, and stopped when the last reference is released. -/
def interruptedRelease : Trace :=
  [(smooth, .create 0 (ascii "a") Guarantees.smallConfig), (smooth, .drop (ascii "a")),
    (stopsAtMarker, .releaseDropped (ascii "a"))]

theorem smooth_crashOnly : smooth.CrashOnly := fun _ _ => nofun

theorem smooth_spares (n : FileName) : smooth.Spares n kDroppedMarker := fun _ _ _ _ _ _ => ⟨fun _ _ => rfl, rfl⟩

local instance lawfulBEq_fileName : LawfulBEq FileName := List.instLawfulBEq

/-- The marker is the first file that goes, and then the program is stopped. -/
def markerFirst : Environment FileName (List Byte) where
  turn s := if s = .remove (ascii "a") kConfigName then .stops [] else .works
  order _ names := if kDroppedMarker ∈ names then kDroppedMarker :: names.erase kDroppedMarker else names
  lists _ names := by
    split
    next member => exact (List.perm_cons_erase member).symm
    next => exact .refl _

/-- A directory that loses its marker before its configuration is a collection again. -/
theorem dropped_collection_comes_back :
    ((openCatalog FileSystem.posix smooth { verify := .metadata } 0 (after FileSystem.posix
    [(smooth, .create 0 (ascii "a") Guarantees.smallConfig), (smooth, .drop (ascii "a")),
      (markerFirst, .releaseDropped (ascii "a"))] {})).2.catalog.slots.lookup
      (ascii "a")).isSome = true := by decide +kernel

end Examples
end VectorForge.Catalog
