import VectorForge.Concurrency.LockSafety

/-! How many writers a waiting reader sees. -/

namespace VectorForge
namespace FairSharedMutex
variable {m : FairSharedMutex} {s t : State} {l l' : List Client} {i : Nat} {c : Client}

/-- No reader has seen two writers unlock, and one that has seen a writer unlock does not see another
writer lock. -/
def State.Served (s : State) : Prop :=
  (∀ c ∈ s.threads, c.Waits → c.passed ≤ 1) ∧ (s.Some .writing → ∀ c ∈ s.threads, c.Waits → c.passed = 0)

instance (s : State) : Decidable s.Served := inferInstanceAs (Decidable (_ ∧ _))

/-- A thread calls `lock_shared` while readers are being admitted ahead of the writers. -/
def Intrudes (s t : State) : Prop :=
  0 < s.mutex.readerQuota ∧ ∃ (i : Nat) (c c' : Client), s.threads[i]? = some c ∧ c.place = .outside ∧
    t.threads[i]? = some c' ∧ (c'.place = .reading ∨ c'.Waits)

/-- The lock when nobody takes a place that was meant for another reader. -/
def orderly : Machine State where
  start := machine.start
  Step s t := Step s t ∧ ¬Intrudes s t

theorem reachable_of_orderly (reachable : orderly.Reachable s) : machine.Reachable s :=
  Machine.Reachable.of_restricted (N := orderly) (fun _ start => start) (fun step => step.1) reachable

theorem not_intrudes (none : s.mutex.readerQuota = 0) : ¬Intrudes s t :=
  fun intrudes => Nat.ne_of_gt intrudes.1 none

theorem State.at_move (at_ : s.threads[i]? = some c) (place : Place) (passed : Nat) (mutex : FairSharedMutex) :
    (s.move i place passed mutex).threads[i]? = some ⟨place, passed⟩ := by
  obtain ⟨inside, -⟩ := List.getElem?_eq_some_iff.mp at_
  exact List.getElem?_set_self inside

theorem State.mem_move {place : Place} {passed : Nat} {mutex : FairSharedMutex}
    (member : c ∈ (s.move i place passed mutex).threads) : c = ⟨place, passed⟩ ∨ c ∈ s.threads :=
  Replaced.mem_set member

/-- A notification of the writers leaves the readers alone. -/
theorem Notifies.mem_of_waits (notifies : Notifies l l') (member : c ∈ l') (waits : c.Waits) : c ∈ l := by
  induction notifies with
  | nobody => exact member
  | one at_ asleep =>
    rcases Replaced.mem_set member with rfl | old
    · rcases waits with here | here <;> simp [Client.wakeWriter] at here
    · exact old
  | more _ at_ asleep ih =>
    rcases Replaced.mem_set member with rfl | old
    · rcases waits with here | here <;> simp [Client.wakeWriter] at here
    · exact ih old

/-- The readers that have seen a writer unlock are those that are being admitted. -/
structure Turns (s : State) : Prop where
  quota : s.mutex.readerQuota = 0 ∨ s.mutex.readerQuota = s.mutex.waitingReaders
  passed : ∀ c ∈ s.threads, c.Waits → c.passed = 0 ∨ c.passed = 1 ∧ 0 < s.mutex.readerQuota

theorem Turns.fresh (turns : Turns s) (none : s.mutex.readerQuota = 0) (member : c ∈ s.threads)
    (waits : c.Waits) : c.passed = 0 := by
  rcases turns.passed c member waits with fresh | ⟨-, some⟩
  · exact fresh
  · omega

/-- The readers that wait are the same ones, and as many are to be admitted. -/
theorem Turns.of_same (turns : Turns s) (quota : t.mutex.readerQuota = s.mutex.readerQuota)
    (waiting : t.mutex.waitingReaders = s.mutex.waitingReaders)
    (old : ∀ c ∈ t.threads, c.Waits → ∃ c' ∈ s.threads, c'.Waits ∧ c.passed = c'.passed) : Turns t := by
  refine ⟨by rw [quota, waiting]; exact turns.quota, fun c member waits => ?_⟩
  obtain ⟨c', member', waits', same⟩ := old c member waits
  rw [same, quota]
  exact turns.passed c' member' waits'

/-- Nobody is being admitted ahead of the writers. -/
theorem Turns.of_none (none : t.mutex.readerQuota = 0)
    (fresh : ∀ c ∈ t.threads, c.Waits → c.passed = 0) : Turns t :=
  ⟨.inl none, fun c member waits => .inl (fresh c member waits)⟩

theorem Coherent.nobody_waits (coherent : Coherent s.mutex (tally s.threads)) (none : s.mutex.waitingReaders = 0)
    (member : c ∈ s.threads) : ¬c.Waits := by
  intro waits
  have counts := coherent.waitingReaders
  rcases waits with asleep | awake
  · have some := State.some_iff.mp ⟨c, member, asleep⟩
    omega
  · have some := State.some_iff.mp ⟨c, member, awake⟩
    omega

/-- Nobody is being admitted ahead of the writers while one of them has the lock. -/
theorem Coherent.quota_of_writing (coherent : Coherent s.mutex (tally s.threads)) (writing : s.Some .writing) :
    s.mutex.readerQuota = 0 := by
  rw [State.some_iff] at writing
  rcases coherent.exclusive with none | ⟨-, none⟩
  · omega
  · exact none

theorem State.waits_move {place : Place} {passed : Nat} {mutex : FairSharedMutex}
    (moves : ¬Client.Waits ⟨place, passed⟩)
    (member : c ∈ (s.move i place passed mutex).threads) (waits : c.Waits) : c ∈ s.threads := by
  rcases State.mem_move member with rfl | old
  · exact absurd waits moves
  · exact old

theorem State.writing_of_at {n : Nat} (at_ : s.threads[i]? = some ⟨.writing, n⟩) : s.Some .writing :=
  ⟨_, List.mem_of_getElem? at_, rfl⟩

/-- Every step but an intrusion keeps the readers in turn. -/
theorem Step.turns (step : Step s t) (fair : ¬Intrudes s t) (before : Coherent s.mutex (tally s.threads))
    (turns : Turns s) : Turns t := by
  have after := step.coherent before
  have calm {i n : Nat} {place : Place} {passed : Nat} {mutex : FairSharedMutex}
      (at_ : s.threads[i]? = some ⟨.outside, n⟩)
      (here : t = s.move i place passed mutex) (reader : place = .reading ∨ Client.Waits ⟨place, passed⟩) :
      s.mutex.readerQuota = 0 := by
    by_contra some
    refine fair ⟨Nat.pos_of_ne_zero some, i, ⟨.outside, n⟩, ⟨place, passed⟩, at_, rfl, ?_, reader⟩
    rw [here]
    exact State.at_move at_ place passed mutex
  have idle {place : Place} {passed : Nat} (elsewhere : place ≠ .readerAsleep ∧ place ≠ .readerAwake) :
      ¬Client.Waits ⟨place, passed⟩ :=
    not_or.mpr elsewhere
  cases step with
  | lockShared at_ admits =>
    have none := calm at_ rfl (.inl rfl)
    refine .of_none ?_ fun c member waits =>
      turns.fresh none (State.waits_move (idle (by decide)) member waits) waits
    simp only [State.move, enterReader_eq, queueReader]
    omega
  | queueShared at_ refuses =>
    have none := calm at_ rfl (.inr (.inl rfl))
    refine .of_none none fun c member waits => ?_
    rcases State.mem_move member with rfl | old
    · rfl
    · exact turns.fresh none old waits
  | wakeReader at_ =>
    refine turns.of_same rfl rfl fun c member waits => ?_
    rcases State.mem_move member with rfl | old
    · exact ⟨_, List.mem_of_getElem? at_, .inl rfl, rfl⟩
    · exact ⟨c, old, waits, rfl⟩
  | enterReader at_ admits =>
    have old : ∀ c ∈ s.threads, c.Waits → _ := turns.passed
    by_cases more : 1 < s.mutex.readerQuota
    · have full := turns.quota
      refine ⟨.inr ?_, fun c member waits => ?_⟩
      · simp only [State.move, enterReader_eq]
        omega
      · simp only [State.move, enterReader_eq]
        have was := old c (State.waits_move (idle (by decide)) member waits) waits
        omega
    · refine .of_none (by simp only [State.move, enterReader_eq]; omega) fun c member waits => ?_
      by_cases none : s.mutex.readerQuota = 0
      · exact turns.fresh none (State.waits_move (idle (by decide)) member waits) waits
      · refine absurd waits (after.nobody_waits ?_ member)
        have full := turns.quota
        simp only [State.move, enterReader_eq]
        omega
  | sleepReader at_ refuses =>
    refine turns.of_same rfl rfl fun c member waits => ?_
    rcases State.mem_move member with rfl | old
    · exact ⟨_, List.mem_of_getElem? at_, .inr rfl, rfl⟩
    · exact ⟨c, old, waits, rfl⟩
  | unlockShared at_ silent =>
    exact turns.of_same rfl rfl fun c member waits =>
      ⟨c, State.waits_move (idle (by decide)) member waits, waits, rfl⟩
  | unlockSharedNotifies at_ last notifies =>
    refine turns.of_same rfl rfl fun c member waits => ⟨c, ?_, waits, rfl⟩
    exact State.waits_move (idle (by decide)) (notifies.mem_of_waits member waits) waits
  | lock at_ admits =>
    exact turns.of_same rfl rfl fun c member waits =>
      ⟨c, State.waits_move (idle (by decide)) member waits, waits, rfl⟩
  | queue at_ refuses =>
    exact turns.of_same rfl rfl fun c member waits =>
      ⟨c, State.waits_move (idle (by decide)) member waits, waits, rfl⟩
  | wakeWriter at_ =>
    exact turns.of_same rfl rfl fun c member waits =>
      ⟨c, State.waits_move (idle (by decide)) member waits, waits, rfl⟩
  | enterWriter at_ admits =>
    exact turns.of_same rfl rfl fun c member waits =>
      ⟨c, State.waits_move (idle (by decide)) member waits, waits, rfl⟩
  | sleepWriter at_ refuses =>
    exact turns.of_same rfl rfl fun c member waits =>
      ⟨c, State.waits_move (idle (by decide)) member waits, waits, rfl⟩
  | unlockReaders at_ waiting =>
    have none := before.quota_of_writing (State.writing_of_at at_)
    refine ⟨.inr rfl, fun c member waits => .inr ⟨?_, waiting⟩⟩
    obtain ⟨c', member', rfl⟩ := List.mem_map.mp member
    rw [Client.pass] at waits ⊢
    split at waits
    next old =>
      rw [if_pos old]
      exact congrArg (· + 1) (turns.fresh none (State.waits_move (idle (by decide)) member' old) old)
    next still => exact absurd waits still
  | unlockWriters at_ nobody queued notifies =>
    have none := before.quota_of_writing (State.writing_of_at at_)
    exact .of_none nobody fun c member waits =>
      turns.fresh none (State.waits_move (idle (by decide)) (notifies.mem_of_waits member waits) waits) waits
  | unlockSilent at_ nobody alone =>
    have none := before.quota_of_writing (State.writing_of_at at_)
    exact .of_none nobody fun c member waits =>
      turns.fresh none (State.waits_move (idle (by decide)) member waits) waits

theorem turns_of_reachable (reachable : orderly.Reachable s) : Turns s := by
  let holds (s : State) : Prop := Coherent s.mutex (tally s.threads) ∧ Turns s
  have both : holds s := by
    refine Machine.Reachable.invariant ?_ ?_ reachable
    · rintro s ⟨count, rfl⟩
      refine ⟨coherent_threadsOf count, .of_none rfl fun c member _ => ?_⟩
      rw [List.eq_of_mem_replicate member]
    · rintro s t ⟨step, fair⟩ ⟨coherent, turns⟩
      exact ⟨step.coherent coherent, step.turns fair coherent turns⟩
  exact both.2

/-- As long as nobody calls `lock_shared` while readers are being admitted ahead of the writers, every
reader that waits when a writer unlocks is admitted before the next writer. -/
theorem readers_served (reachable : orderly.Reachable s) : s.Served := by
  have turns := turns_of_reachable reachable
  have coherent := coherent_of_reachable (reachable_of_orderly reachable)
  refine ⟨fun c member waits => ?_, fun writing c member waits => ?_⟩
  · rcases turns.passed c member waits with fresh | ⟨one, -⟩ <;> omega
  · exact turns.fresh (coherent.quota_of_writing writing) member waits

theorem readers_served_behind_writer :
    State.Served { mutex := { waitingReaders := 1, writerActive := true }
                   threads := [{ place := .writing }, { place := .readerAsleep }, {}] } := by
  have idle : orderly.Reachable (threadsOf 3) := ⟨_, ⟨3, rfl⟩, .refl⟩
  have writes := idle.step ⟨.lock (i := 0) rfl (by decide), not_intrudes rfl⟩
  exact readers_served (writes.step ⟨.queueShared (i := 1) rfl (by decide), not_intrudes rfl⟩)

/-- A reader that comes late takes the place of the one that has waited, which then sees a second writer. -/
theorem reader_overtaken : ¬∀ s, machine.Reachable s → s.Served := by
  intro served
  have idle : machine.Reachable (threadsOf 4) := ⟨_, ⟨4, rfl⟩, .refl⟩
  have writes := idle.step (.lock (i := 0) rfl (by decide))
  have waits := writes.step (.queueShared (i := 1) rfl (by decide))
  have queues := waits.step (.queue (i := 2) rfl (by decide))
  have unlocked := queues.step (.unlockReaders (i := 0) rfl (by decide))
  have intrudes := unlocked.step (.lockShared (i := 3) rfl (by decide))
  have leaves := intrudes.step (.unlockSharedNotifies (i := 3) rfl (by decide) (.one (i := 2) rfl rfl))
  have overtakes := leaves.step (.enterWriter (i := 2) rfl (by decide))
  exact absurd (served _ overtakes) (by decide)

end FairSharedMutex
end VectorForge
