import VectorForge.Concurrency.FairSharedMutex

/-! The lock excludes writers, and it never gets stuck. -/

namespace VectorForge
namespace FairSharedMutex
variable {m : FairSharedMutex} {s t : State} {l l' : List Client} {i : Nat} {c : Client} {place : Place}

/-- How many threads are at a place. -/
def tally (l : List Client) (place : Place) : Nat := l.countP fun c => c.place = place

theorem tally_set (at_ : l[i]? = some c) (new : Client) (place : Place) :
    tally (l.set i new) place + (if c.place = place then 1 else 0) =
      tally l place + if new.place = place then 1 else 0 := by
  have counts := Replaced.countP_set (fun c => decide (c.place = place)) at_ new
  simp only [decide_eq_true_eq] at counts
  exact counts

/-- One thread has moved. -/
def Moved (n n' : Place → Nat) (p q : Place) : Prop :=
  ∀ place, n' place + (if p = place then 1 else 0) = n place + if q = place then 1 else 0

theorem Moved.each {n n' : Place → Nat} {p q : Place} (moved : Moved n n' p q) :
    (n' .readerAsleep + (if p = .readerAsleep then 1 else 0) =
      n .readerAsleep + if q = .readerAsleep then 1 else 0) ∧
    (n' .readerAwake + (if p = .readerAwake then 1 else 0) = n .readerAwake + if q = .readerAwake then 1 else 0) ∧
    (n' .reading + (if p = .reading then 1 else 0) = n .reading + if q = .reading then 1 else 0) ∧
    (n' .writerAsleep + (if p = .writerAsleep then 1 else 0) =
      n .writerAsleep + if q = .writerAsleep then 1 else 0) ∧
    (n' .writerAwake + (if p = .writerAwake then 1 else 0) = n .writerAwake + if q = .writerAwake then 1 else 0) ∧
    (n' .writing + (if p = .writing then 1 else 0) = n .writing + if q = .writing then 1 else 0) :=
  ⟨moved _, moved _, moved _, moved _, moved _, moved _⟩

/-- What the counters say of the threads, and who is awake when somebody could go on. -/
structure Coherent (m : FairSharedMutex) (n : Place → Nat) : Prop where
  writing : n .writing = m.writerActive.toNat
  readers : m.activeReaders = n .reading
  waitingReaders : m.waitingReaders = n .readerAsleep + n .readerAwake
  waitingWriters : m.waitingWriters = n .writerAsleep + n .writerAwake
  exclusive : n .writing = 0 ∨ n .reading = 0 ∧ m.readerQuota = 0
  quota : m.readerQuota ≤ n .readerAwake
  wakesReader : n .writing = 0 → m.waitingWriters = 0 → n .readerAsleep = 0
  wakesWriter : n .writing = 0 → n .reading = 0 → m.readerQuota = 0 → 0 < m.waitingWriters → 0 < n .writerAwake

theorem enterReader_eq : m.enterReader = { m with
    waitingReaders := m.waitingReaders - 1
    readerQuota := m.readerQuota - 1
    activeReaders := m.activeReaders + 1 } := by
  rw [FairSharedMutex.enterReader]
  congr 1
  split <;> omega

namespace Coherent
variable {n n' : Place → Nat}

theorem free (coherent : Coherent m n) (inactive : m.writerActive = false) : n .writing = 0 := by
  rw [coherent.writing, inactive]
  rfl

/-- A reader is admitted at once. -/
theorem lockShared (coherent : Coherent m n) (moved : Moved n n' .outside .reading)
    (admits : m.queueReader.admitsReader = true) : Coherent m.queueReader.enterReader n' := by
  obtain ⟨inactive, room⟩ := admitsReader_iff.mp admits
  have zero := coherent.free inactive
  obtain ⟨writing, readers, waitingReaders, waitingWriters, exclusive, quota, wakesReader, wakesWriter⟩ := coherent
  have counts := moved.each
  simp only [reduceCtorEq, if_true, if_false, Nat.add_zero] at counts
  simp only [queueReader] at room
  constructor <;> simp only [enterReader_eq, queueReader] <;> omega

theorem queueShared (coherent : Coherent m n) (moved : Moved n n' .outside .readerAsleep)
    (refuses : m.queueReader.admitsReader = false) : Coherent m.queueReader n' := by
  have closed := fun open_ => Bool.false_ne_true (refuses.symm.trans (admitsReader_iff.mpr open_))
  obtain ⟨writing, readers, waitingReaders, waitingWriters, exclusive, quota, wakesReader, wakesWriter⟩ := coherent
  have counts := moved.each
  simp only [reduceCtorEq, if_true, if_false, Nat.add_zero] at counts
  have busy : n .writing ≠ 0 ∨ 0 < m.waitingWriters := by
    by_contra free
    refine closed ⟨?_, .inl (by simp only [queueReader]; omega)⟩
    cases active : m.writerActive with
    | false => exact active
    | true =>
      rw [active, Bool.toNat_true] at writing
      omega
  constructor <;> simp only [queueReader] <;> omega

theorem enterReader (coherent : Coherent m n) (moved : Moved n n' .readerAwake .reading)
    (admits : m.admitsReader = true) : Coherent m.enterReader n' := by
  obtain ⟨inactive, room⟩ := admitsReader_iff.mp admits
  have zero := coherent.free inactive
  obtain ⟨writing, readers, waitingReaders, waitingWriters, exclusive, quota, wakesReader, wakesWriter⟩ := coherent
  have counts := moved.each
  simp only [reduceCtorEq, if_true, if_false, Nat.add_zero] at counts
  constructor <;> simp only [enterReader_eq, inactive, Bool.toNat_false] <;> omega

theorem wakeReader (coherent : Coherent m n) (moved : Moved n n' .readerAsleep .readerAwake) : Coherent m n' := by
  obtain ⟨writing, readers, waitingReaders, waitingWriters, exclusive, quota, wakesReader, wakesWriter⟩ := coherent
  have counts := moved.each
  simp only [reduceCtorEq, if_true, if_false, Nat.add_zero] at counts
  constructor <;> omega

/-- A reader that is turned away knows that somebody else will wake it. -/
theorem sleepReader (coherent : Coherent m n) (moved : Moved n n' .readerAwake .readerAsleep)
    (refuses : m.admitsReader = false) : Coherent m n' := by
  obtain ⟨writing, readers, waitingReaders, waitingWriters, exclusive, quota, wakesReader, wakesWriter⟩ := coherent
  have counts := moved.each
  simp only [reduceCtorEq, if_true, if_false, Nat.add_zero] at counts
  have busy : n .writing = 1 ∨ 0 < m.waitingWriters ∧ m.readerQuota = 0 := by
    cases active : m.writerActive with
    | true => exact .inl (by rw [writing, active]; rfl)
    | false =>
      have closed : ¬(m.waitingWriters = 0 ∨ 0 < m.readerQuota) := fun room =>
        Bool.false_ne_true (refuses.symm.trans (admitsReader_iff.mpr ⟨active, room⟩))
      omega
  constructor <;> omega

/-- A reader leaves, and others stay or no writer waits. -/
theorem unlockShared (coherent : Coherent m n) (moved : Moved n n' .reading .outside)
    (silent : ¬(m.leaveReader.activeReaders = 0 ∧ m.waitingWriters > 0)) : Coherent m.leaveReader n' := by
  obtain ⟨writing, readers, waitingReaders, waitingWriters, exclusive, quota, wakesReader, wakesWriter⟩ := coherent
  have counts := moved.each
  simp only [reduceCtorEq, if_true, if_false, Nat.add_zero] at counts
  simp only [leaveReader] at silent
  constructor <;> simp only [leaveReader] <;> omega

theorem lock (coherent : Coherent m n) (moved : Moved n n' .outside .writing)
    (admits : m.queueWriter.admitsWriter = true) : Coherent m.queueWriter.enterWriter n' := by
  obtain ⟨inactive, alone, spent⟩ := admitsWriter_iff.mp admits
  have zero := coherent.free inactive
  obtain ⟨writing, readers, waitingReaders, waitingWriters, exclusive, quota, wakesReader, wakesWriter⟩ := coherent
  have counts := moved.each
  simp only [reduceCtorEq, if_true, if_false, Nat.add_zero] at counts
  simp only [queueWriter] at alone spent
  constructor <;> simp only [queueWriter, FairSharedMutex.enterWriter, Bool.toNat_true] <;> omega

/-- A writer that is turned away knows that somebody else will wake it. -/
theorem busy_of_refuses (coherent : Coherent m n) (refuses : m.admitsWriter = false) :
    n .writing = 1 ∨ 0 < n .reading ∨ 0 < m.readerQuota := by
  have readers := coherent.readers
  cases active : m.writerActive with
  | true => exact .inl (by rw [coherent.writing, active]; rfl)
  | false =>
    have closed : ¬(m.activeReaders = 0 ∧ m.readerQuota = 0) := fun room =>
      Bool.false_ne_true (refuses.symm.trans (admitsWriter_iff.mpr ⟨active, room⟩))
    omega

theorem queue (coherent : Coherent m n) (moved : Moved n n' .outside .writerAsleep)
    (refuses : m.queueWriter.admitsWriter = false) : Coherent m.queueWriter n' := by
  have busy : n .writing = 1 ∨ 0 < n .reading ∨ 0 < m.readerQuota := coherent.busy_of_refuses refuses
  obtain ⟨writing, readers, waitingReaders, waitingWriters, exclusive, quota, wakesReader, wakesWriter⟩ := coherent
  have counts := moved.each
  simp only [reduceCtorEq, if_true, if_false, Nat.add_zero] at counts
  constructor <;> simp only [queueWriter] <;> omega

theorem wakeWriter (coherent : Coherent m n) (moved : Moved n n' .writerAsleep .writerAwake) : Coherent m n' := by
  obtain ⟨writing, readers, waitingReaders, waitingWriters, exclusive, quota, wakesReader, wakesWriter⟩ := coherent
  have counts := moved.each
  simp only [reduceCtorEq, if_true, if_false, Nat.add_zero] at counts
  constructor <;> omega

theorem enterWriter (coherent : Coherent m n) (moved : Moved n n' .writerAwake .writing)
    (admits : m.admitsWriter = true) : Coherent m.enterWriter n' := by
  obtain ⟨inactive, alone, spent⟩ := admitsWriter_iff.mp admits
  have zero := coherent.free inactive
  obtain ⟨writing, readers, waitingReaders, waitingWriters, exclusive, quota, wakesReader, wakesWriter⟩ := coherent
  have counts := moved.each
  simp only [reduceCtorEq, if_true, if_false, Nat.add_zero] at counts
  constructor <;> simp only [FairSharedMutex.enterWriter, Bool.toNat_true] <;> omega

theorem sleepWriter (coherent : Coherent m n) (moved : Moved n n' .writerAwake .writerAsleep)
    (refuses : m.admitsWriter = false) : Coherent m n' := by
  have busy := coherent.busy_of_refuses refuses
  obtain ⟨writing, readers, waitingReaders, waitingWriters, exclusive, quota, wakesReader, wakesWriter⟩ := coherent
  have counts := moved.each
  simp only [reduceCtorEq, if_true, if_false, Nat.add_zero] at counts
  constructor <;> omega

end Coherent

/-- What a notification of the writers does to the places. -/
theorem Notifies.counts (notifies : Notifies l l') :
    ∃ woken, tally l .writerAsleep = tally l' .writerAsleep + woken ∧
    tally l' .writerAwake = tally l .writerAwake + woken ∧ (0 < tally l .writerAsleep → 0 < woken) ∧
    ∀ place, place ≠ .writerAsleep → place ≠ .writerAwake → tally l' place = tally l place := by
  have wakes {l : List Client} {i : Nat} {c : Client} (at_ : l[i]? = some c) (asleep : c.place = .writerAsleep) :
      Moved (tally l) (tally (l.set i c.wakeWriter)) .writerAsleep .writerAwake := by
    intro place
    have counts := tally_set at_ c.wakeWriter place
    rw [asleep] at counts
    exact counts
  induction notifies with
  | @nobody none =>
    refine ⟨0, rfl, rfl, fun some => ?_, fun _ _ _ => rfl⟩
    obtain ⟨c, member, asleep⟩ := List.countP_pos_iff.mp some
    exact absurd (of_decide_eq_true asleep) (none c member)
  | @one i c at_ asleep =>
    have moved := wakes at_ asleep
    have counts := moved.each
    simp only [reduceCtorEq, if_true, if_false, Nat.add_zero] at counts
    refine ⟨1, by omega, by omega, fun _ => Nat.one_pos, fun place other other' => ?_⟩
    have count := moved place
    simp only [other.symm, other'.symm, if_false] at count
    omega
  | @more l' i c _ at_ asleep ih =>
    obtain ⟨woken, asleeps, awakes, some, others⟩ := ih
    have moved := wakes at_ asleep
    have counts := moved.each
    simp only [reduceCtorEq, if_true, if_false, Nat.add_zero] at counts
    refine ⟨woken + 1, by omega, by omega, fun _ => Nat.succ_pos woken, fun place other other' => ?_⟩
    have count := moved place
    simp only [other.symm, other'.symm, if_false] at count
    have same := others place other other'
    omega

/-- What an unlocking writer does to the places when readers wait. -/
theorem tally_pass (l : List Client) : tally (l.map Client.pass) .readerAsleep = 0 ∧
    tally (l.map Client.pass) .readerAwake = tally l .readerAsleep + tally l .readerAwake ∧
    ∀ place, place ≠ .readerAsleep → place ≠ .readerAwake → tally (l.map Client.pass) place = tally l place := by
  induction l with
  | nil => exact ⟨rfl, rfl, fun _ _ _ => rfl⟩
  | cons c l ih =>
    obtain ⟨asleep, awake, others⟩ := ih
    simp only [tally, List.map_cons, List.countP_cons, decide_eq_true_eq] at asleep awake others ⊢
    rw [Client.pass]
    split
    next waits =>
      rcases waits with here | here
      · refine ⟨?_, ?_, fun place other other' => ?_⟩
        · simp only [reduceCtorEq, if_false]
          exact asleep
        · simp only [here, reduceCtorEq, if_true, if_false]
          omega
        · simp only [here, other.symm, other'.symm, if_false]
          exact others place other other'
      · refine ⟨?_, ?_, fun place other other' => ?_⟩
        · simp only [reduceCtorEq, if_false]
          exact asleep
        · simp only [here, reduceCtorEq, if_true, if_false]
          omega
        · simp only [here, other'.symm, if_false]
          exact others place other other'
    next moves =>
      have calm : c.place ≠ .readerAsleep ∧ c.place ≠ .readerAwake := not_or.mp moves
      refine ⟨?_, ?_, fun place other other' => ?_⟩
      · simp only [calm.1, if_false]
        exact asleep
      · simp only [calm.1, calm.2, if_false]
        exact awake
      · rw [others place other other']
theorem State.moved_of_at {p : Place} {k : Nat} (at_ : s.threads[i]? = some ⟨p, k⟩) (q : Place) (passed : Nat)
    (mutex : FairSharedMutex) : Moved (tally s.threads) (tally (s.move i q passed mutex).threads) p q :=
    fun place => tally_set at_ ⟨q, passed⟩ place

namespace Coherent
variable {n : Place → Nat}

/-- The last reader leaves and wakes a writer. -/
theorem unlockSharedNotifies (coherent : Coherent m n) (moved : Moved n (tally l) .reading .outside)
    (last : m.leaveReader.activeReaders = 0 ∧ m.waitingWriters > 0) (notifies : Notifies l l') :
    Coherent m.leaveReader (tally l') := by
  obtain ⟨writing, readers, waitingReaders, waitingWriters, exclusive, quota, wakesReader, wakesWriter⟩ := coherent
  obtain ⟨woken, asleep, awake, some, others⟩ := notifies.counts
  have counts := moved.each
  simp only [reduceCtorEq, if_true, if_false, Nat.add_zero] at counts
  have readerAsleep := others .readerAsleep (by decide) (by decide)
  have readerAwake := others .readerAwake (by decide) (by decide)
  have reading := others .reading (by decide) (by decide)
  have writing' := others .writing (by decide) (by decide)
  simp only [leaveReader] at last
  constructor <;> simp only [leaveReader] <;> omega

/-- A writer hands over to the readers that wait. -/
theorem unlockReaders (coherent : Coherent m n) (moved : Moved n (tally l) .writing .outside)
    (waiting : m.waitingReaders > 0) : Coherent m.leaveWriter (tally (l.map Client.pass)) := by
  obtain ⟨writing, readers, waitingReaders, waitingWriters, exclusive, quota, wakesReader, wakesWriter⟩ := coherent
  obtain ⟨asleep, awake, others⟩ := tally_pass l
  have counts := moved.each
  simp only [reduceCtorEq, if_true, if_false, Nat.add_zero] at counts
  have reading := others .reading (by decide) (by decide)
  have writerAsleep := others .writerAsleep (by decide) (by decide)
  have writerAwake := others .writerAwake (by decide) (by decide)
  have writing' := others .writing (by decide) (by decide)
  have sole := Bool.toNat_le m.writerActive
  constructor <;> simp only [leaveWriter, Bool.toNat_false] <;> omega

/-- A writer hands over to another one. -/
theorem unlockWriters (coherent : Coherent m n) (moved : Moved n (tally l) .writing .outside)
    (none : m.waitingReaders = 0)
    (queued : m.waitingWriters > 0) (notifies : Notifies l l') : Coherent m.leaveWriter (tally l') := by
  obtain ⟨writing, readers, waitingReaders, waitingWriters, exclusive, quota, wakesReader, wakesWriter⟩ := coherent
  obtain ⟨woken, asleep, awake, some, others⟩ := notifies.counts
  have counts := moved.each
  simp only [reduceCtorEq, if_true, if_false, Nat.add_zero] at counts
  have readerAsleep := others .readerAsleep (by decide) (by decide)
  have readerAwake := others .readerAwake (by decide) (by decide)
  have reading := others .reading (by decide) (by decide)
  have writing' := others .writing (by decide) (by decide)
  have sole := Bool.toNat_le m.writerActive
  constructor <;> simp only [leaveWriter, Bool.toNat_false] <;> omega

theorem unlockSilent {n' : Place → Nat} (coherent : Coherent m n) (moved : Moved n n' .writing .outside)
    (none : m.waitingReaders = 0) (alone : m.waitingWriters = 0) : Coherent m.leaveWriter n' := by
  obtain ⟨writing, readers, waitingReaders, waitingWriters, exclusive, quota, wakesReader, wakesWriter⟩ := coherent
  have counts := moved.each
  simp only [reduceCtorEq, if_true, if_false, Nat.add_zero] at counts
  have sole := Bool.toNat_le m.writerActive
  constructor <;> simp only [leaveWriter, Bool.toNat_false] <;> omega

end Coherent

/-- Every step keeps the counters and the wake-ups in order. -/
theorem Step.coherent (step : Step s t) (coherent : Coherent s.mutex (tally s.threads)) :
    Coherent t.mutex (tally t.threads) := by
  cases step with
  | lockShared at_ admits => exact coherent.lockShared (State.moved_of_at at_ _ _ _) admits
  | queueShared at_ refuses => exact coherent.queueShared (State.moved_of_at at_ _ _ _) refuses
  | wakeReader at_ => exact coherent.wakeReader (State.moved_of_at at_ _ _ _)
  | enterReader at_ admits => exact coherent.enterReader (State.moved_of_at at_ _ _ _) admits
  | sleepReader at_ refuses => exact coherent.sleepReader (State.moved_of_at at_ _ _ _) refuses
  | unlockShared at_ silent => exact coherent.unlockShared (State.moved_of_at at_ _ _ _) silent
  | unlockSharedNotifies at_ last notifies =>
    exact coherent.unlockSharedNotifies (State.moved_of_at at_ _ _ _) last notifies
  | lock at_ admits => exact coherent.lock (State.moved_of_at at_ _ _ _) admits
  | queue at_ refuses => exact coherent.queue (State.moved_of_at at_ _ _ _) refuses
  | wakeWriter at_ => exact coherent.wakeWriter (State.moved_of_at at_ _ _ _)
  | enterWriter at_ admits => exact coherent.enterWriter (State.moved_of_at at_ _ _ _) admits
  | sleepWriter at_ refuses => exact coherent.sleepWriter (State.moved_of_at at_ _ _ _) refuses
  | unlockReaders at_ waiting => exact coherent.unlockReaders (State.moved_of_at at_ _ _ _) waiting
  | unlockWriters at_ none queued notifies =>
    exact coherent.unlockWriters (State.moved_of_at at_ _ _ _) none queued notifies
  | unlockSilent at_ none alone => exact coherent.unlockSilent (State.moved_of_at at_ _ _ _) none alone

theorem coherent_threadsOf (count : Nat) : Coherent (threadsOf count).mutex (tally (threadsOf count).threads) := by
  have nowhere (place : Place) (elsewhere : place ≠ .outside) : tally (threadsOf count).threads place = 0 := by
    rw [tally, List.countP_eq_zero]
    intro c member
    rw [List.eq_of_mem_replicate member]
    simp only [elsewhere.symm, decide_false, Bool.false_eq_true, not_false_eq_true]
  have readerAsleep := nowhere .readerAsleep (by decide)
  have readerAwake := nowhere .readerAwake (by decide)
  have reading := nowhere .reading (by decide)
  have writerAsleep := nowhere .writerAsleep (by decide)
  have writerAwake := nowhere .writerAwake (by decide)
  have writing := nowhere .writing (by decide)
  constructor <;> simp only [readerAsleep, readerAwake, reading, writerAsleep, writerAwake,
    writing] <;> simp [threadsOf]

theorem coherent_of_reachable (reachable : machine.Reachable s) : Coherent s.mutex (tally s.threads) := by
  let holds (s : State) : Prop := Coherent s.mutex (tally s.threads)
  refine show holds s from Machine.Reachable.invariant ?_
    (fun step coherent => Step.coherent step coherent) reachable
  rintro s ⟨count, rfl⟩
  exact coherent_threadsOf count

/-- The lock is taken as a read-write lock may be: by a writer when nobody has it, by a reader when no writer has
it. -/
structure Grants (n n' : Place → Nat) : Prop where
  writer : n .writing < n' .writing → n .writing = 0 ∧ n .reading = 0
  reader : n .reading < n' .reading → n .writing = 0

theorem Grants.of_le {n n' : Place → Nat} (writing : n' .writing ≤ n .writing)
    (reading : n' .reading ≤ n .reading) : Grants n n' :=
  ⟨fun more => absurd more (Nat.not_lt_of_le writing), fun more => absurd more (Nat.not_lt_of_le reading)⟩

theorem Moved.grants {n n' : Place → Nat} {p q : Place} (moved : Moved n n' p q)
    (write : q = .writing → n .writing = 0 ∧ n .reading = 0)
    (read : q = .reading → n .writing = 0) : Grants n n' := by
  have writing := moved .writing
  have reading := moved .reading
  refine ⟨fun more => write ?_, fun more => read ?_⟩
  · by_contra other
    rw [if_neg other] at writing
    omega
  · by_contra other
    rw [if_neg other] at reading
    omega

theorem Coherent.admits {n : Place → Nat} (coherent : Coherent m n) (inactive : m.writerActive = false)
    (alone : m.activeReaders = 0) : n .writing = 0 ∧ n .reading = 0 :=
  ⟨coherent.free inactive, coherent.readers.symm.trans alone⟩

/-- No step of the lock lets in a reader beside a writer, or a writer beside anybody. -/
theorem Step.grants (step : Step s t) (coherent : Coherent s.mutex (tally s.threads)) :
    Grants (tally s.threads) (tally t.threads) := by
  have left {p : Place} {i k : Nat} {mutex : FairSharedMutex} {l : List Client} (at_ : s.threads[i]? = some ⟨p, k⟩)
      (calm : tally l .writing = tally (s.move i .outside 0 mutex).threads .writing ∧
        tally l .reading = tally (s.move i .outside 0 mutex).threads .reading) : Grants (tally
        s.threads) (tally l) := by
    have moved := State.moved_of_at at_ .outside 0 mutex
    have writing := moved .writing
    have reading := moved .reading
    simp only [reduceCtorEq, if_false, Nat.add_zero] at writing reading
    exact .of_le (by omega) (by omega)
  have notified {l l' : List Client} (notifies : Notifies l l') : tally l' .writing = tally l .writing ∧
      tally l' .reading = tally l .reading := by
    obtain ⟨_, _, _, _, others⟩ := notifies.counts
    exact ⟨others _ (by decide) (by decide), others _ (by decide) (by decide)⟩
  cases step with
  | lockShared at_ admits =>
    exact (State.moved_of_at at_ _ _ _).grants nofun fun _ => coherent.free (admitsReader_iff.mp admits).1
  | queueShared at_ refuses => exact (State.moved_of_at at_ _ _ _).grants nofun nofun
  | wakeReader at_ => exact (State.moved_of_at at_ _ _ _).grants nofun nofun
  | enterReader at_ admits =>
    exact (State.moved_of_at at_ _ _ _).grants nofun fun _ => coherent.free (admitsReader_iff.mp admits).1
  | sleepReader at_ refuses => exact (State.moved_of_at at_ _ _ _).grants nofun nofun
  | unlockShared at_ silent => exact left at_ ⟨rfl, rfl⟩
  | unlockSharedNotifies at_ last notifies => exact left at_ (notified notifies)
  | lock at_ admits =>
    obtain ⟨inactive, alone, _⟩ := admitsWriter_iff.mp admits
    exact (State.moved_of_at at_ _ _ _).grants (fun _ => coherent.admits inactive alone) nofun
  | queue at_ refuses => exact (State.moved_of_at at_ _ _ _).grants nofun nofun
  | wakeWriter at_ => exact (State.moved_of_at at_ _ _ _).grants nofun nofun
  | enterWriter at_ admits =>
    obtain ⟨inactive, alone, _⟩ := admitsWriter_iff.mp admits
    exact (State.moved_of_at at_ _ _ _).grants (fun _ => coherent.admits inactive alone) nofun
  | sleepWriter at_ refuses => exact (State.moved_of_at at_ _ _ _).grants nofun nofun
  | @unlockReaders i n at_ waiting =>
    obtain ⟨_, _, others⟩ := tally_pass (s.move i .outside 0 s.mutex.leaveWriter).threads
    exact left at_ ⟨others .writing (by decide) (by decide), others .reading (by decide) (by decide)⟩
  | unlockWriters at_ none queued notifies => exact left at_ (notified notifies)
  | unlockSilent at_ none alone => exact left at_ ⟨rfl, rfl⟩

/-- The threads that are at a place. -/
def State.Some (s : State) (place : Place) : Prop := ∃ c ∈ s.threads, c.place = place

instance (s : State) (place : Place) : Decidable (s.Some place) :=
  inferInstanceAs (Decidable (∃ c ∈ s.threads, c.place = place))

theorem State.some_iff : s.Some place ↔ 0 < tally s.threads place := by
  rw [tally, List.countP_pos_iff]
  simp only [State.Some, decide_eq_true_eq]

/-- Nobody holds the lock and somebody waits for it, and nobody who could go on has been woken. -/
structure State.Stuck (s : State) : Prop where
  free : ¬s.Some .reading ∧ ¬s.Some .writing
  waits : s.Some .readerAsleep ∨ s.Some .readerAwake ∨ s.Some .writerAsleep ∨ s.Some .writerAwake
  readers : s.Some .readerAwake → s.mutex.admitsReader = false
  writers : s.Some .writerAwake → s.mutex.admitsWriter = false

theorem Coherent.not_stuck (coherent : Coherent s.mutex (tally s.threads)) : ¬s.Stuck := by
  rintro ⟨⟨reading, writing⟩, waits, readers, writers⟩
  simp only [State.some_iff] at reading writing waits readers writers
  have inactive : s.mutex.writerActive = false := by
    have zero := coherent.writing
    cases active : s.mutex.writerActive with
    | false => rfl
    | true =>
      rw [active, Bool.toNat_true] at zero
      omega
  have noReader : 0 < tally s.threads .readerAwake → ¬(s.mutex.waitingWriters = 0 ∨ 0 < s.mutex.readerQuota) :=
    fun awake room =>
    Bool.false_ne_true ((readers awake).symm.trans (admitsReader_iff.mpr ⟨inactive, room⟩))
  have noWriter : 0 < tally s.threads .writerAwake → ¬(s.mutex.activeReaders = 0 ∧ s.mutex.readerQuota = 0) :=
    fun awake room =>
    Bool.false_ne_true ((writers awake).symm.trans (admitsWriter_iff.mpr ⟨inactive, room⟩))
  obtain ⟨-, active, waitingReaders, waitingWriters, exclusive, quota, wakesReader, wakesWriter⟩ := coherent
  omega

/-- A writer has the lock to itself, no more readers are admitted ahead of the writers than wait, and the
lock never gets stuck. -/
theorem excludes_and_never_sticks (reachable : machine.Reachable s) :
    (tally s.threads .writing ≤ 1 ∧ (s.Some .writing → ¬s.Some .reading)) ∧
      s.mutex.readerQuota ≤ s.mutex.waitingReaders ∧ ¬s.Stuck := by
  have coherent := coherent_of_reachable reachable
  have sole := Bool.toNat_le s.mutex.writerActive
  refine ⟨⟨?_, fun writing reading => ?_⟩, ?_, coherent.not_stuck⟩
  · rw [coherent.writing]
    exact sole
  · rw [State.some_iff] at writing reading
    rcases coherent.exclusive with none | ⟨none, -⟩ <;> omega
  · have waiting := coherent.waitingReaders
    have quota := coherent.quota
    omega

/-- One thread writes and another one waits to read. -/
theorem reachable_behind_writer : machine.Reachable
    { mutex := { waitingReaders := 1, writerActive := true }
      threads := [{ place := .writing }, { place := .readerAsleep }, {}] } := by
  have idle : machine.Reachable (threadsOf 3) := ⟨_, ⟨3, rfl⟩, .refl⟩
  have writes := idle.step (.lock (i := 0) rfl (by decide))
  exact writes.step (.queueShared (i := 1) rfl (by decide))

theorem excludes_and_never_sticks_behind_writer :
    let s : State := { mutex := { waitingReaders := 1, writerActive := true }
                       threads := [{ place := .writing }, { place := .readerAsleep }, {}] }
    (tally s.threads .writing ≤ 1 ∧ (s.Some .writing → ¬s.Some .reading)) ∧
    s.mutex.readerQuota ≤ s.mutex.waitingReaders ∧ ¬s.Stuck :=
  excludes_and_never_sticks reachable_behind_writer

end FairSharedMutex
end VectorForge
