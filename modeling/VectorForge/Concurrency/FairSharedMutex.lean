import VectorForge.Lib.Machine
import VectorForge.Lib.Replaced

/-! The reader/writer lock, as any number of threads use it. What a thread does while it holds the inner
mutex is one step; a thread that waits for a condition variable is asleep, or awake and yet to look at its
predicate again. -/

namespace VectorForge

structure FairSharedMutex where
  activeReaders : Nat := 0
  waitingReaders : Nat := 0
  waitingWriters : Nat := 0
  /-- Readers still admitted ahead of waiting writers. -/
  readerQuota : Nat := 0
  writerActive : Bool := false
  deriving DecidableEq, Repr

namespace FairSharedMutex

/-- What `lock_shared` waits for. -/
def admitsReader (m : FairSharedMutex) : Bool :=
  !m.writerActive && (m.waitingWriters == 0 || decide (0 < m.readerQuota))

/-- What `lock` waits for. -/
def admitsWriter (m : FairSharedMutex) : Bool := !m.writerActive && m.activeReaders == 0 && m.readerQuota == 0

/-- `lock_shared` up to its wait. -/
def queueReader (m : FairSharedMutex) : FairSharedMutex := { m with waitingReaders := m.waitingReaders + 1 }

/-- `lock_shared` after its wait. -/
def enterReader (m : FairSharedMutex) : FairSharedMutex := { m with
  waitingReaders := m.waitingReaders - 1
  readerQuota := if 0 < m.readerQuota then m.readerQuota - 1 else m.readerQuota
  activeReaders := m.activeReaders + 1 }

def leaveReader (m : FairSharedMutex) : FairSharedMutex := { m with activeReaders := m.activeReaders - 1 }

def queueWriter (m : FairSharedMutex) : FairSharedMutex := { m with waitingWriters := m.waitingWriters + 1 }

def enterWriter (m : FairSharedMutex) : FairSharedMutex :=
  { m with waitingWriters := m.waitingWriters - 1, writerActive := true }

/-- The readers that queued behind the writer are to be admitted before any further writer. -/
def leaveWriter (m : FairSharedMutex) : FairSharedMutex :=
  { m with writerActive := false, readerQuota := m.waitingReaders }

theorem admitsReader_iff {m : FairSharedMutex} :
    m.admitsReader = true ↔ m.writerActive = false ∧ (m.waitingWriters = 0 ∨ 0 < m.readerQuota) := by
  simp [admitsReader]

theorem admitsWriter_iff {m : FairSharedMutex} :
    m.admitsWriter = true ↔ m.writerActive = false ∧ m.activeReaders = 0 ∧ m.readerQuota = 0 := by
  simp [admitsWriter, and_assoc]

/-- Where a thread is. -/
inductive Place where
  | outside
  | readerAsleep
  | readerAwake
  | reading
  | writerAsleep
  | writerAwake
  | writing
  deriving DecidableEq, Repr

/-- A thread, with a record of how long a reader has been waiting: how many writers have unlocked since,
which is to say whether it has to be admitted before the next one. -/
structure Client where
  place : Place := .outside
  passed : Nat := 0
  deriving DecidableEq, Repr

namespace Client

def Waits (c : Client) : Prop := c.place = .readerAsleep ∨ c.place = .readerAwake

instance (c : Client) : Decidable c.Waits := inferInstanceAs (Decidable (_ ∨ _))

/-- A writer unlocks and wakes the readers that wait. -/
def pass (c : Client) : Client := if c.Waits then { place := .readerAwake, passed := c.passed + 1 } else c

def wakeWriter (c : Client) : Client := { c with place := .writerAwake }

end Client

/-- `writers_cv_.notify_one()`: at least one waiter wakes, if there is any. -/
inductive Notifies : List Client → List Client → Prop
  | nobody {l : List Client} (none : ∀ c ∈ l, c.place ≠ .writerAsleep) : Notifies l l
  | one {l : List Client} {i : Nat} {c : Client} (at_ : l[i]? = some c)
      (asleep : c.place = .writerAsleep) : Notifies l (l.set i c.wakeWriter)
  | more {l l' : List Client} {i : Nat} {c : Client} (some : Notifies l l') (at_ : l'[i]? = .some c)
      (asleep : c.place = .writerAsleep) : Notifies l (l'.set i c.wakeWriter)

structure State where
  mutex : FairSharedMutex := {}
  threads : List Client
  deriving DecidableEq, Repr

/-- One thread is somewhere else. -/
def State.move (s : State) (i : Nat) (place : Place) (passed : Nat) (mutex : FairSharedMutex) : State where
  mutex := mutex
  threads := s.threads.set i { place, passed }

inductive Step : State → State → Prop where
  | lockShared {s : State} {i n : Nat} (at_ : s.threads[i]? = some ⟨.outside, n⟩)
      (admits : s.mutex.queueReader.admitsReader = true) :
      Step s (s.move i .reading 0 s.mutex.queueReader.enterReader)
  | queueShared {s : State} {i n : Nat} (at_ : s.threads[i]? = some ⟨.outside, n⟩)
      (refuses : s.mutex.queueReader.admitsReader = false) : Step s (s.move i .readerAsleep 0 s.mutex.queueReader)
  /-- Notified or not. -/
  | wakeReader {s : State} {i n : Nat} (at_ : s.threads[i]? = some ⟨.readerAsleep, n⟩) :
      Step s (s.move i .readerAwake n s.mutex)
  | enterReader {s : State} {i n : Nat} (at_ : s.threads[i]? = some ⟨.readerAwake, n⟩)
      (admits : s.mutex.admitsReader = true) : Step s (s.move i .reading 0 s.mutex.enterReader)
  | sleepReader {s : State} {i n : Nat} (at_ : s.threads[i]? = some ⟨.readerAwake, n⟩)
      (refuses : s.mutex.admitsReader = false) : Step s (s.move i .readerAsleep n s.mutex)
  | unlockShared {s : State} {i n : Nat} (at_ : s.threads[i]? = some ⟨.reading, n⟩)
      (silent : ¬(s.mutex.leaveReader.activeReaders = 0 ∧ s.mutex.waitingWriters > 0)) :
      Step s (s.move i .outside 0 s.mutex.leaveReader)
  | unlockSharedNotifies {s : State} {i n : Nat} {threads : List Client} (at_ : s.threads[i]? = some ⟨.reading, n⟩)
      (last : s.mutex.leaveReader.activeReaders = 0 ∧ s.mutex.waitingWriters > 0)
      (notifies : Notifies (s.move i .outside 0 s.mutex.leaveReader).threads threads) :
      Step s { mutex := s.mutex.leaveReader, threads }
  | lock {s : State} {i n : Nat} (at_ : s.threads[i]? = some ⟨.outside, n⟩)
      (admits : s.mutex.queueWriter.admitsWriter = true) :
      Step s (s.move i .writing 0 s.mutex.queueWriter.enterWriter)
  | queue {s : State} {i n : Nat} (at_ : s.threads[i]? = some ⟨.outside, n⟩)
      (refuses : s.mutex.queueWriter.admitsWriter = false) : Step s (s.move i .writerAsleep 0 s.mutex.queueWriter)
  | wakeWriter {s : State} {i n : Nat} (at_ : s.threads[i]? = some ⟨.writerAsleep, n⟩) :
      Step s (s.move i .writerAwake 0 s.mutex)
  | enterWriter {s : State} {i n : Nat} (at_ : s.threads[i]? = some ⟨.writerAwake, n⟩)
      (admits : s.mutex.admitsWriter = true) : Step s (s.move i .writing 0 s.mutex.enterWriter)
  | sleepWriter {s : State} {i n : Nat} (at_ : s.threads[i]? = some ⟨.writerAwake, n⟩)
      (refuses : s.mutex.admitsWriter = false) : Step s (s.move i .writerAsleep 0 s.mutex)
  | unlockReaders {s : State} {i n : Nat} (at_ : s.threads[i]? = some ⟨.writing, n⟩)
      (waiting : s.mutex.waitingReaders > 0) :
      Step s { mutex := s.mutex.leaveWriter
               threads := (s.move i .outside 0 s.mutex.leaveWriter).threads.map Client.pass }
  | unlockWriters {s : State} {i n : Nat} {threads : List Client} (at_ : s.threads[i]? = some ⟨.writing, n⟩)
      (none : s.mutex.waitingReaders = 0) (queued : s.mutex.waitingWriters > 0)
      (notifies : Notifies (s.move i .outside 0 s.mutex.leaveWriter).threads threads) :
      Step s { mutex := s.mutex.leaveWriter, threads }
  | unlockSilent {s : State} {i n : Nat} (at_ : s.threads[i]? = some ⟨.writing, n⟩)
      (none : s.mutex.waitingReaders = 0) (alone : s.mutex.waitingWriters = 0) :
      Step s (s.move i .outside 0 s.mutex.leaveWriter)

/-- Any number of threads, all of them outside. -/
def threadsOf (count : Nat) : State where
  threads := List.replicate count {}

/-- The lock under any use. -/
def machine : Machine State where
  start s := ∃ count, s = threadsOf count
  Step := Step

end FairSharedMutex
end VectorForge
