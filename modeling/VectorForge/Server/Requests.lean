import VectorForge.Lib.Machine
import VectorForge.Lib.Replaced
import VectorForge.Server.Metrics
import VectorForge.Storage.FlatJson

/-! The server from `start` to `stop`, with any number of requests in progress. -/

namespace VectorForge.Server

structure RouteInfo where
  method : String
  path : String
  deriving DecidableEq, Repr

def kRoutes : List RouteInfo :=
  [⟨"GET", "/healthz"⟩, ⟨"GET", "/readyz"⟩, ⟨"GET", "/v1/status"⟩, ⟨"GET", "/metrics"⟩, ⟨"POST", "/v1/collections"⟩,
    ⟨"GET", "/v1/collections"⟩,
    ⟨"GET", "/v1/collections/\x7bname\x7d"⟩, ⟨"DELETE", "/v1/collections/\x7bname\x7d"⟩,
    ⟨"POST", "/v1/collections/\x7bname\x7d/vectors"⟩,
    ⟨"POST", "/v1/collections/\x7bname\x7d/vectors:bulk"⟩,
    ⟨"GET", "/v1/collections/\x7bname\x7d/vectors/\x7bid\x7d"⟩,
    ⟨"DELETE", "/v1/collections/\x7bname\x7d/vectors/\x7bid\x7d"⟩, ⟨"POST", "/v1/collections/\x7bname\x7d/search"⟩,
    ⟨"POST", "/v1/collections/\x7bname\x7d/search:batch"⟩, ⟨"GET", "/v1/collections/\x7bname\x7d/stats"⟩,
    ⟨"POST", "/v1/collections/\x7bname\x7d/snapshot"⟩, ⟨"POST", "/v1/collections/\x7bname\x7d/compact"⟩]

def kBatchSlots : Nat := 4

/-- What the handlers look at. -/
structure ServerConfig where
  apiKey : List Byte := []
  /-- There is a pool. -/
  pooled : Bool := true

structure Request where
  /-- Index into `kRoutes` of the handler that gets it; it is none if the request is rejected before. -/
  route : Nat
  authorization : List Byte := []
  deriving DecidableEq, Repr

def constantTimeEqual (a b : List Byte) : Bool :=
  if a.length ≠ b.length then false else (List.zipWith (fun x y => (x ^^^ y).toUInt32) a b).foldl (· ||| ·) 0 == 0

namespace Request

def matched (r : Request) : Bool := decide (r.route < kRoutes.length)

/-- `open_route` of the handlers that are registered with it. -/
def openRoute (r : Request) : Bool :=
  kRoutes[r.route]? == some ⟨"GET", "/healthz"⟩ || kRoutes[r.route]? == some ⟨"GET", "/readyz"⟩

def authorized (c : ServerConfig) (r : Request) : Bool :=
  c.apiKey.isEmpty || constantTimeEqual r.authorization (ascii "Bearer " ++ c.apiKey)

/-- The metrics it is counted in. -/
def counter (r : Request) : Nat := min r.route kRoutes.length

end Request

/-- What `Finish` sees of a request. -/
structure Outcome where
  status : Nat
  /-- An exception has carried it past the second section that changes `in_flight`. -/
  escaped : Bool := false
  /-- An exception has come before the status of a refusal was set. -/
  unset : Bool := false
  deriving DecidableEq

/-- Where a request is in `wrap`. -/
inductive Place where
  /-- Not received yet. -/
  | waiting
  | received
  /-- The server has been seen to accept requests. -/
  | accepted
  | admitted
  /-- In the handler, which may run a body with the pool, or without it. -/
  | handled
  | pooled
  | inlined
  /-- The handler has returned or thrown, and the response is there. -/
  | answered (status : Nat)
  /-- `Finish` is left to be done. -/
  | finishing (outcome : Outcome)
  | counted (outcome : Outcome) (seconds : Rat)
  | measured (outcome : Outcome) (seconds : Rat)
  | finished (outcome : Outcome) (seconds : Rat)
  /-- An exception has come before there was a `Finish`. -/
  | dropped
  deriving DecidableEq

namespace Place

/-- Between the two sections that change `in_flight`. -/
def inFlight : Place → Bool
  | handled | pooled | inlined | answered _ => true
  | _ => false

/-- The second of them has been passed over. -/
def escaped : Place → Bool
  | finishing outcome | counted outcome _ | measured outcome _ | finished outcome _ => outcome.escaped
  | _ => false

def usesPool : Place → Bool
  | pooled => true
  | _ => false

/-- Past the checks, on the way to the handler or in it. -/
def served : Place → Bool
  | admitted | handled | pooled | inlined | answered _ => true
  | _ => false

/-- What it has been counted under. -/
def class? : Place → Option Nat
  | counted outcome _ | measured outcome _ | finished outcome _ => some (statusClass outcome.status)
  | _ => none

def seconds? : Place → Option Rat
  | measured _ seconds | finished _ seconds => some seconds
  | _ => none

def isFinished : Place → Bool
  | finished _ _ => true
  | _ => false

/-- Nothing is left to be done. -/
def isOver : Place → Bool
  | finished _ _ | dropped => true
  | _ => false

end Place

structure Call where
  request : Request
  place : Place := .waiting

inductive Lifecycle where
  | created | serving | draining | closing | stopped
  /-- `start` has failed, so there is no listener. -/
  | unbound
  deriving DecidableEq, Repr

structure State where
  lifecycle : Lifecycle := .created
  accepting : Bool := false
  inFlight : Nat := 0
  /-- `Metrics::in_flight_` -/
  gauge : Nat := 0
  slots : Nat := kBatchSlots
  metrics : Metrics := {}
  calls : List Call

namespace State

def put (s : State) (i : Nat) (call : Call) (place : Place) : State :=
  { s with calls := s.calls.set i { call with place } }

/-- `metrics.set_in_flight(…)`, while the mutex is held. -/
def setInFlight (s : State) (inFlight : Nat) : State := { s with inFlight, gauge := inFlight }

/-- An addition to a counter of the route. -/
def observe (s : State) (call : Call) (f : PerRoute → PerRoute) : State :=
  { s with metrics := s.metrics.update call.request.counter f }

end State

section Steps
variable (c : ServerConfig)

/-- One step of `start`, of `stop` or of a request. What is done while the mutex is held is one step. -/
inductive Step : State → State → Prop where
  /-- `start`, which refuses to be called again. -/
  | start {s : State} (first : s.lifecycle = .created) : Step s { s with lifecycle := .serving, accepting := true }
  /-- The address cannot be bound. -/
  | startFails {s : State} (first : s.lifecycle = .created) : Step s { s with lifecycle := .unbound }
  /-- The thread of the listener cannot be created. -/
  | startThrows {s : State} (first : s.lifecycle = .created) :
      Step s { s with lifecycle := .unbound, accepting := true }
  | stop {s : State} (serving : s.lifecycle = .serving) :
      Step s { s with lifecycle := .draining, accepting := false }
  | drained {s : State} (draining : s.lifecycle = .draining) (none : s.inFlight = 0) :
      Step s { s with lifecycle := .closing }
  | timesOut {s : State} (draining : s.lifecycle = .draining) : Step s { s with lifecycle := .closing }
  /-- The threads of the listener have ended. -/
  | joined {s : State} (closing : s.lifecycle = .closing)
      (ended : ∀ call ∈ s.calls, call.place = .waiting ∨ call.place.isOver = true) :
      Step s { s with lifecycle := .stopped }
  | receive {s : State} {i : Nat} {call : Call} (at_ : s.calls[i]? = some call) (place : call.place = .waiting)
      (route : call.request.matched = true)
      (listens : s.lifecycle = .serving ∨ s.lifecycle = .draining ∨ s.lifecycle = .closing) :
      Step s (s.put i call .received)
  /-- The error handler, for what no route matches. -/
  | unmatched {s : State} {i status : Nat} {call : Call} (at_ : s.calls[i]? = some call)
      (place : call.place = .waiting)
      (route : call.request.matched = false) (listens : s.lifecycle = .serving ∨ s.lifecycle = .draining ∨
        s.lifecycle = .closing) :
      Step s (s.put i call (.finishing { status }))
  /-- The header with the request id, or the text of the error handler, cannot be stored. -/
  | drop {s : State} {i : Nat} {call : Call} (at_ : s.calls[i]? = some call) (place : call.place = .waiting)
      (listens : s.lifecycle = .serving ∨ s.lifecycle = .draining ∨ s.lifecycle = .closing) :
      Step s (s.put i call .dropped)
  | admitOpen {s : State} {i : Nat} {call : Call} (at_ : s.calls[i]? = some call) (place : call.place = .received)
      (openRoute : call.request.openRoute = true) : Step s (s.put i call .admitted)
  | unavailable {s : State} {i : Nat} {call : Call} (at_ : s.calls[i]? = some call) (place : call.place = .received)
      (closed : call.request.openRoute = false) (refuses : s.accepting = false) :
      Step s (s.put i call (.finishing { status := 503 }))
  /-- The text for `send_error` cannot be stored. -/
  | refusalThrows {s : State} {i status : Nat} {call : Call} (at_ : s.calls[i]? = some call)
      (place : call.place = .received) (closed : call.request.openRoute = false) (refuses : s.accepting = false) :
      Step s (s.put i call (.finishing { status, unset := true }))
  | accept {s : State} {i : Nat} {call : Call} (at_ : s.calls[i]? = some call) (place : call.place = .received)
      (closed : call.request.openRoute = false) (accepts : s.accepting = true) : Step s (s.put i call .accepted)
  | unauthorized {s : State} {i : Nat} {call : Call} (at_ : s.calls[i]? = some call)
      (place : call.place = .accepted)
      (wrong : call.request.authorized c = false) : Step s (s.put i call (.finishing { status := 401 }))
  | authorize {s : State} {i : Nat} {call : Call} (at_ : s.calls[i]? = some call) (place : call.place = .accepted)
      (right : call.request.authorized c = true) : Step s (s.put i call .admitted)
  /-- A text for the comparison of the keys, or the header of the answer, cannot be stored. -/
  | checkThrows {s : State} {i status : Nat} {call : Call} (at_ : s.calls[i]? = some call)
      (place : call.place = .accepted) : Step s (s.put i call (.finishing { status }))
  | enter {s : State} {i : Nat} {call : Call} (at_ : s.calls[i]? = some call) (place : call.place = .admitted) :
      Step s ((s.setInFlight (s.inFlight + 1)).put i call .handled)
  /-- `with_pool`, if `try_acquire` succeeds. -/
  | acquire {s : State} {i : Nat} {call : Call} (at_ : s.calls[i]? = some call) (place : call.place = .handled)
      (pool : c.pooled = true) (free : 0 < s.slots) : Step s ({ s with slots := s.slots - 1 }.put i call .pooled)
  | inlineBody {s : State} {i : Nat} {call : Call} (at_ : s.calls[i]? = some call)
      (place : call.place = .handled) : Step s (s.put i call .inlined)
  /-- The body has returned or thrown. -/
  | release {s : State} {i : Nat} {call : Call} (at_ : s.calls[i]? = some call) (place : call.place = .pooled) :
      Step s ({ s with slots := s.slots + 1 }.put i call .handled)
  | inlineEnds {s : State} {i : Nat} {call : Call} (at_ : s.calls[i]? = some call)
      (place : call.place = .inlined) : Step s (s.put i call .handled)
  /-- The handler answers, or throws and is answered for. -/
  | answer {s : State} {i status : Nat} {call : Call} (at_ : s.calls[i]? = some call)
      (place : call.place = .handled) : Step s (s.put i call (.answered status))
  /-- The handler throws, and so does `send_error` in the catch block, or no catch block is for what was thrown. -/
  | escape {s : State} {i status : Nat} {call : Call} (at_ : s.calls[i]? = some call)
      (place : call.place = .handled) : Step s (s.put i call (.finishing { status, escaped := true }))
  | leave {s : State} {i status : Nat} {call : Call} (at_ : s.calls[i]? = some call)
      (place : call.place = .answered status) :
      Step s ((s.setInFlight (s.inFlight - 1)).put i call (.finishing { status }))
  | count {s : State} {i : Nat} {outcome : Outcome} {seconds : Rat} {call : Call} (at_ : s.calls[i]? = some call)
      (place : call.place = .finishing outcome) :
      Step s ((s.observe call (·.addToClass outcome.status)).put i call (.counted outcome seconds))
  | measure {s : State} {i : Nat} {outcome : Outcome} {seconds : Rat} {call : Call} (at_ : s.calls[i]? = some call)
      (place : call.place = .counted outcome seconds) :
      Step s ((s.observe call fun r => { r with latency := r.latency.addToBucket seconds }).put i call
        (.measured outcome seconds))
  | finish {s : State} {i : Nat} {outcome : Outcome} {seconds : Rat} {call : Call} (at_ : s.calls[i]? = some call)
      (place : call.place = .measured outcome seconds) :
      Step s ((s.observe call fun r => { r with latency := r.latency.addToCount }).put i call
        (.finished outcome seconds))

/-- A new server and the requests it will get. -/
def machine : Machine State where
  start s := ∃ requests : List Request, s = { calls := requests.map fun request => { request } }
  Step := Step c

end Steps

section ConstantTime

theorem foldl_or_eq_zero : ∀ (l : List UInt32) (diff : UInt32), l.foldl (· ||| ·) diff = 0 ↔
    diff = 0 ∧ ∀ x ∈ l, x = 0
  | [], diff => ⟨fun zero => ⟨zero, nofun⟩, And.left⟩
  | x :: l, diff => by
    rw [List.foldl_cons, foldl_or_eq_zero l, UInt32.or_eq_zero_iff, List.forall_mem_cons, and_assoc]

/-- Only equal texts differ nowhere. -/
theorem zipWith_xor_eq_zero : ∀ {a b : List Byte}, a.length = b.length →
    ((∀ x ∈ List.zipWith (fun x y => (x ^^^ y).toUInt32) a b, x = 0) ↔ a = b)
  | [], [], _ => ⟨fun _ => rfl, nofun⟩
  | x :: a, y :: b, same => by
    have first : (x ^^^ y).toUInt32 = 0 ↔ x = y := UInt8.toUInt32_inj.trans UInt8.xor_eq_zero_iff
    rw [List.zipWith_cons_cons, List.forall_mem_cons, zipWith_xor_eq_zero (Nat.succ.inj same),
      first, List.cons.injEq]

theorem constantTimeEqual_iff {a b : List Byte} : constantTimeEqual a b = true ↔ a = b := by
  rw [constantTimeEqual]
  split
  next differ => exact ⟨nofun, fun same => absurd (congrArg List.length same) differ⟩
  next same =>
    rw [not_not] at same
    rw [beq_iff_eq, foldl_or_eq_zero, zipWith_xor_eq_zero same]
    exact and_iff_right rfl

end ConstantTime

/-- What is counted somewhere. -/
inductive Tally where
  | inFlight | gauge
  | byClass (route k : Nat)
  | bucket (route b : Nat)
  | count (route : Nat)

namespace Tally

/-- The calls that it should count. -/
def counts : Tally → Call → Bool
  | inFlight | gauge => fun call => call.place.inFlight || call.place.escaped
  | byClass route k => fun call => call.request.counter == route && call.place.class? == some k
  | bucket route b =>
    fun call => call.request.counter == route && call.place.seconds?.map LatencyHistogram.bucketOf == some b
  | count route => fun call => call.request.counter == route && call.place.isFinished

/-- What it says. -/
def value (s : State) : Tally → Nat
  | inFlight => s.inFlight
  | gauge => s.gauge
  | byClass route k => (s.metrics.perRoute route).byClass k
  | bucket route b => (s.metrics.perRoute route).latency.buckets b
  | count route => (s.metrics.perRoute route).latency.count

end Tally

/-- What holds between the steps. -/
structure Sound (c : ServerConfig) (s : State) : Prop where
  tallies : ∀ tally : Tally, tally.value s = s.calls.countP tally.counts
  slots : s.slots + s.calls.countP (·.place.usesPool) = kBatchSlots
  allowed : ∀ call ∈ s.calls, call.place.served = true → call.request.openRoute = true ∨
    call.request.authorized c = true
  accepting : s.accepting = true → s.lifecycle = .serving ∨ s.lifecycle = .unbound

section Keeping
variable {c : ServerConfig} {s t : State} {i : Nat} {call : Call} {place : Place}

/-- A request goes on, and what it changes is what it is counted in. -/
theorem Sound.put (sound : Sound c s) (at_ : s.calls[i]? = some call) (place : Place) (calls : t.calls = s.calls)
    (tallies : ∀ tally : Tally, tally.value t + (tally.counts call).toNat = tally.value s +
      (tally.counts { call with place }).toNat)
    (slots : t.slots + place.usesPool.toNat = s.slots + call.place.usesPool.toNat)
    (allowed : place.served = true → call.place.served = true ∨ call.request.openRoute = true ∨
      call.request.authorized c = true)
    (life : t.accepting = s.accepting ∧ t.lifecycle = s.lifecycle) : Sound c (t.put i call place) := by
  have one (b : Bool) : (if b = true then 1 else 0) = b.toNat := by cases b <;> rfl
  refine ⟨fun tally => ?_, ?_, ?_, ?_⟩
  · have whole := Replaced.countP_set tally.counts at_ { call with place }
    have before := sound.tallies tally
    have change := tallies tally
    have same : tally.value (t.put i call place) = tally.value t := by cases tally <;> rfl
    rw [one, one] at whole
    rw [same]
    change tally.value t = (t.calls.set i { call with place }).countP tally.counts
    rw [calls]
    omega
  · have whole := Replaced.countP_set (fun call : Call => call.place.usesPool) at_ { call with place }
    have before := sound.slots
    rw [one, one] at whole
    change t.slots + (t.calls.set i { call with place }).countP
      (fun call : Call => call.place.usesPool) = kBatchSlots
    rw [calls]
    dsimp only at whole
    omega
  · intro other member serves
    change other ∈ t.calls.set i { call with place } at member
    rw [calls] at member
    rcases Replaced.mem_set member with rfl | old
    · rcases allowed serves with before | fine
      · exact sound.allowed call (List.mem_of_getElem? at_) before
      · exact fine
    · exact sound.allowed other old serves
  · intro accepts
    change t.accepting = true at accepts
    change t.lifecycle = .serving ∨ t.lifecycle = .unbound
    rw [life.2]
    exact sound.accepting (life.1 ▸ accepts)

/-- A request goes on and changes nothing. -/
theorem Sound.goOn (sound : Sound c s) (at_ : s.calls[i]? = some call) (place : Place)
    (alike : (place.inFlight || place.escaped) = (call.place.inFlight || call.place.escaped) ∧
      place.usesPool = call.place.usesPool ∧ place.class? = call.place.class? ∧
      place.seconds? = call.place.seconds? ∧ place.isFinished = call.place.isFinished)
    (allowed : place.served = true → call.place.served = true ∨ call.request.openRoute = true ∨
      call.request.authorized c = true) :
    Sound c (s.put i call place) := by
  obtain ⟨inFlight, pool, counted, measured, finished⟩ := alike
  refine sound.put at_ place rfl (fun tally => ?_) (by rw [pool]) allowed ⟨rfl, rfl⟩
  cases tally <;> simp only [Tally.counts, inFlight, counted, measured, finished]

/-- Of the counters of the routes only the one in which the request is counted next changes. -/
theorem Sound.observe (sound : Sound c s) (at_ : s.calls[i]? = some call) (place : Place) (f : PerRoute → PerRoute)
    (alike : (place.inFlight || place.escaped) = (call.place.inFlight || call.place.escaped) ∧
      place.usesPool = call.place.usesPool ∧ place.served = call.place.served)
    (classes : ∀ r k, (f r).byClass k + (call.place.class? == some k).toNat = r.byClass k +
      (place.class? == some k).toNat)
    (buckets : ∀ r b, (f r).latency.buckets b +
      (call.place.seconds?.map LatencyHistogram.bucketOf == some b).toNat =
      r.latency.buckets b + (place.seconds?.map LatencyHistogram.bucketOf == some b).toNat)
    (counts : ∀ r, (f r).latency.count + call.place.isFinished.toNat = r.latency.count + place.isFinished.toNat) :
    Sound c ((s.observe call f).put i call place) := by
  obtain ⟨inFlight, pool, served⟩ := alike
  have here (route : Nat) : (s.observe call f).metrics.perRoute route =
      if route = call.request.counter then f (s.metrics.perRoute route) else s.metrics.perRoute route := rfl
  refine sound.put at_ place rfl (fun tally => ?_) (by rw [pool]; rfl)
    (fun serves => .inl (served ▸ serves)) ⟨rfl, rfl⟩
  cases tally with
  | inFlight => simp only [Tally.counts, inFlight]; rfl
  | gauge => simp only [Tally.counts, inFlight]; rfl
  | byClass route k =>
    simp only [Tally.value, Tally.counts, here]
    by_cases mine : route = call.request.counter
    · rw [if_pos mine, beq_iff_eq.mpr mine.symm, Bool.true_and, Bool.true_and, classes]
    · rw [if_neg mine, beq_eq_false_iff_ne.mpr fun same => mine same.symm, Bool.false_and, Bool.false_and]
  | bucket route b =>
    simp only [Tally.value, Tally.counts, here]
    by_cases mine : route = call.request.counter
    · rw [if_pos mine, beq_iff_eq.mpr mine.symm, Bool.true_and, Bool.true_and, buckets]
    · rw [if_neg mine, beq_eq_false_iff_ne.mpr fun same => mine same.symm, Bool.false_and, Bool.false_and]
  | count route =>
    simp only [Tally.value, Tally.counts, here]
    by_cases mine : route = call.request.counter
    · rw [if_pos mine, beq_iff_eq.mpr mine.symm, Bool.true_and, Bool.true_and, counts]
    · rw [if_neg mine, beq_eq_false_iff_ne.mpr fun same => mine same.symm, Bool.false_and, Bool.false_and]

/-- The server goes on, and no request does. -/
theorem Sound.live (sound : Sound c s) (lifecycle : Lifecycle) (accepting : Bool)
    (accepts : accepting = true → lifecycle = .serving ∨ lifecycle = .unbound) :
    Sound c { s with lifecycle, accepting } :=
  ⟨fun tally => by rw [← sound.tallies tally]; cases tally <;> rfl, sound.slots, sound.allowed, accepts⟩

/-- The mutex is held while the number changes, so nobody sees the two apart. -/
theorem Sound.inFlight (sound : Sound c s) (at_ : s.calls[i]? = some call) (place : Place) (n : Nat)
    (changes : n + (call.place.inFlight || call.place.escaped).toNat =
      s.inFlight + (place.inFlight || place.escaped).toNat)
    (alike : place.usesPool = call.place.usesPool ∧ place.class? = call.place.class? ∧
      place.seconds? = call.place.seconds? ∧
      place.isFinished = call.place.isFinished)
    (allowed : place.served = true → call.place.served = true) : Sound c ((s.setInFlight n).put i call place) := by
  obtain ⟨pool, counted, measured, finished⟩ := alike
  have together : s.gauge = s.inFlight := (sound.tallies .gauge).trans (sound.tallies .inFlight).symm
  refine sound.put at_ place rfl (fun tally => ?_) (by rw [pool]; rfl)
    (fun serves => .inl (allowed serves)) ⟨rfl, rfl⟩
  cases tally with
  | inFlight => exact changes
  | gauge =>
    change n + (call.place.inFlight || call.place.escaped).toNat = s.gauge + (place.inFlight || place.escaped).toNat
    rw [together, changes]
  | byClass route k => simp only [Tally.counts, counted]; rfl
  | bucket route b => simp only [Tally.counts, measured]; rfl
  | count route => simp only [Tally.counts, finished]; rfl

theorem Sound.step (step : Step c s t) (sound : Sound c s) : Sound c t := by
  have refuses {lifecycle : Lifecycle} (now : s.lifecycle = lifecycle)
      (other : ¬(lifecycle = .serving ∨ lifecycle = .unbound)) (next : Lifecycle) :
      s.accepting = true → next = .serving ∨ next = .unbound :=
    fun accepts => absurd (sound.accepting accepts) (now ▸ other)
  cases step with
  | start first => exact sound.live _ _ fun _ => .inl rfl
  | startFails first => exact sound.live .unbound s.accepting fun _ => .inr rfl
  | startThrows first => exact sound.live .unbound true fun _ => .inr rfl
  | stop serving => exact sound.live .draining false nofun
  | drained draining none => exact sound.live .closing s.accepting (refuses draining (by decide) _)
  | timesOut draining => exact sound.live .closing s.accepting (refuses draining (by decide) _)
  | joined closing ended => exact sound.live .stopped s.accepting (refuses closing (by decide) _)
  | receive at_ place _ _ | unmatched at_ place _ _ | unavailable at_ place _ _ | refusalThrows at_ place _ _
  | accept at_ place _ _ | drop at_ place _ | unauthorized at_ place _ | checkThrows at_ place | escape at_ place =>
    exact sound.goOn at_ _ (by rw [place]; exact ⟨rfl, rfl, rfl, rfl, rfl⟩) nofun
  | admitOpen at_ place openRoute =>
    exact sound.goOn at_ _ (by rw [place]; exact ⟨rfl, rfl, rfl, rfl, rfl⟩) fun _ => .inr (.inl openRoute)
  | authorize at_ place right =>
    exact sound.goOn at_ _ (by rw [place]; exact ⟨rfl, rfl, rfl, rfl, rfl⟩) fun _ => .inr (.inr right)
  | enter at_ place =>
    exact sound.inFlight at_ _ _ (by rw [place]; rfl) (by rw [place]; exact ⟨rfl, rfl, rfl, rfl⟩)
      fun _ => by rw [place]; rfl
  | acquire at_ place pool free =>
    refine sound.put at_ .pooled rfl (fun tally => ?_) ?_ (fun _ => .inl (by rw [place]; rfl)) ⟨rfl, rfl⟩
    · cases tally <;> simp only [Tally.counts, place] <;> rfl
    · rw [place]
      exact Nat.sub_add_cancel free
  | inlineBody at_ place | inlineEnds at_ place | answer at_ place =>
    exact sound.goOn at_ _ (by rw [place]; exact ⟨rfl, rfl, rfl, rfl, rfl⟩) fun _ => .inl (by rw [place]; rfl)
  | release at_ place =>
    refine sound.put at_ .handled rfl (fun tally => ?_) (by rw [place]; rfl)
      (fun _ => .inl (by rw [place]; rfl)) ⟨rfl, rfl⟩
    cases tally <;> simp only [Tally.counts, place] <;> rfl
  | leave at_ place =>
    refine sound.inFlight at_ _ _ ?_ (by rw [place]; exact ⟨rfl, rfl, rfl, rfl⟩) nofun
    have some : 0 < s.inFlight := by
      refine Nat.lt_of_lt_of_eq (List.countP_pos_iff.mpr ⟨_, List.mem_of_getElem? at_, ?_⟩)
        (sound.tallies .inFlight).symm
      simp only [Tally.counts, place]
      rfl
    rw [place]
    exact Nat.sub_add_cancel some
  | @count i outcome seconds call at_ place =>
    refine sound.observe at_ _ _ (by rw [place]; exact ⟨rfl, rfl, rfl⟩) (fun r k => ?_)
      (fun r b => by rw [place]; rfl) (fun r => by rw [place]; rfl)
    rw [place]
    by_cases mine : k = statusClass outcome.status
    · subst mine
      simp [PerRoute.addToClass, Place.class?]
    · simp [PerRoute.addToClass, Place.class?, mine, Ne.symm mine]
  | @measure i outcome seconds call at_ place =>
    refine sound.observe at_ _ _ (by rw [place]; exact ⟨rfl, rfl, rfl⟩) (fun r k => by rw [place]; rfl)
      (fun r b => ?_) (fun r => by rw [place]; rfl)
    rw [place]
    by_cases mine : b = LatencyHistogram.bucketOf seconds
    · subst mine
      simp [LatencyHistogram.addToBucket, Place.seconds?]
    · simp [LatencyHistogram.addToBucket, Place.seconds?, mine, Ne.symm mine]
  | finish at_ place =>
    exact sound.observe at_ _ _ (by rw [place]; exact ⟨rfl, rfl, rfl⟩) (fun r k => by rw [place]; rfl)
      (fun r b => by rw [place]; rfl)
      (fun r => by rw [place]; rfl)

theorem sound_of_reachable (reachable : (machine c).Reachable s) : Sound c s := by
  refine reachable.invariant ?_ Sound.step
  rintro _ ⟨requests, rfl⟩
  have none (p : Call → Bool) (waiting : ∀ request, p { request } = false) :
      (requests.map fun request => ({ request } : Call)).countP p = 0 := by
    refine List.countP_eq_zero.mpr fun call member => ?_
    obtain ⟨request, -, rfl⟩ := List.mem_map.mp member
    rw [waiting]
    exact Bool.false_ne_true
  refine ⟨fun tally => ?_, ?_, fun call member serves => ?_, nofun⟩
  · rw [none]
    · cases tally <;> rfl
    · intro request
      cases tally <;> simp [Tally.counts, Place.inFlight, Place.escaped, Place.class?,
        Place.seconds?, Place.isFinished]
  · rw [none _ fun request => rfl]
    rfl
  · obtain ⟨request, -, rfl⟩ := List.mem_map.mp member
    cases serves

end Keeping

/-- Who has been carried past a section is not before it. -/
theorem Place.inFlight_and_escaped (place : Place) : (place.inFlight && place.escaped) = false := by
  cases place <;> rfl

theorem countP_inFlight_or_escaped (calls : List Call) :
    calls.countP (fun call => call.place.inFlight || call.place.escaped) =
      calls.countP (·.place.inFlight) + calls.countP (·.place.escaped) := by
  induction calls with
  | nil => rfl
  | cons call calls ih =>
    have apart := call.place.inFlight_and_escaped
    simp only [List.countP_cons, ih]
    cases inside : call.place.inFlight with
    | false =>
      simp only [Bool.false_or, Bool.false_eq_true, if_false]
      omega
    | true =>
      rw [inside, Bool.true_and] at apart
      simp only [apart, Bool.true_or, Bool.false_eq_true, if_true, if_false]
      omega

/-- What `in_flight`, its gauge, the slots and the counters of a route say at any time, and who gets to a
handler. -/
theorem requests_are_accounted_for (c : ServerConfig) {s : State} (reachable : (machine c).Reachable s) :
    (s.inFlight = s.calls.countP (·.place.inFlight) + s.calls.countP (·.place.escaped) ∧ s.gauge = s.inFlight) ∧
    s.slots + s.calls.countP (·.place.usesPool) = kBatchSlots ∧
    (∀ call ∈ s.calls, call.place.served = true →
      call.request.openRoute = true ∨ c.apiKey = [] ∨ call.request.authorization = ascii "Bearer " ++ c.apiKey) ∧
    ∀ route,
      (∀ k, (s.metrics.perRoute route).byClass k = s.calls.countP fun call => call.request.counter == route &&
        call.place.class? == some k) ∧
      (∀ b bound, kLatencyBucketsSeconds[b]? = some bound → (s.metrics.perRoute route).latency.cumulative b =
        s.calls.countP fun call => call.request.counter == route && call.place.seconds?.any (· ≤ bound)) ∧
      (s.metrics.perRoute route).latency.cumulative kLatencyBucketsSeconds.length =
        s.calls.countP (fun call => call.request.counter == route && call.place.seconds?.isSome) ∧
      (s.metrics.perRoute route).latency.count = s.calls.countP fun call =>
        call.request.counter == route && call.place.isFinished := by
  have sound := sound_of_reachable reachable
  have together : s.gauge = s.inFlight := (sound.tallies .gauge).trans (sound.tallies .inFlight).symm
  refine ⟨⟨(sound.tallies .inFlight).trans (countP_inFlight_or_escaped s.calls), together⟩, sound.slots,
    fun call member serves => ?_, fun route => ?_⟩
  · refine (sound.allowed call member serves).imp_right fun right => ?_
    rw [Request.authorized, Bool.or_eq_true, constantTimeEqual_iff, List.isEmpty_iff] at right
    exact right
  · let bucket (call : Call) : Option Nat :=
      if call.request.counter == route then call.place.seconds?.map LatencyHistogram.bucketOf else none
    have buckets (b : Nat) : (s.metrics.perRoute route).latency.buckets b = s.calls.countP fun call =>
        bucket call == some b := by
      refine (sound.tallies (.bucket route b)).trans (List.countP_congr fun call _ => ?_)
      simp only [Tally.counts, bucket]
      cases call.request.counter == route with
      | false => exact Iff.rfl
      | true => rw [Bool.true_and, if_pos rfl]
    have within (b : Nat) (p : Rat → Bool)
        (same : ∀ seconds, decide (LatencyHistogram.bucketOf seconds ≤ b) = p seconds) :
        (s.metrics.perRoute route).latency.cumulative b = s.calls.countP fun call =>
        call.request.counter == route && call.place.seconds?.any p := by
      rw [cumulative_eq buckets b]
      refine List.countP_congr fun call _ => ?_
      simp only [bucket]
      cases call.request.counter == route with
      | false => exact Iff.rfl
      | true => rw [Bool.true_and, if_pos rfl, Option.any_map, funext same]
    refine ⟨fun k => sound.tallies (.byClass route k), fun b bound at_ => within b _ fun seconds => ?_, ?_,
      sound.tallies (.count route)⟩
    · exact decide_eq_decide.mpr (bucketOf_le_iff at_)
    · rw [within kLatencyBucketsSeconds.length (fun _ => true) fun seconds => decide_eq_true (bucketOf_le seconds)]
      refine List.countP_congr fun call _ => ?_
      cases call.place.seconds? <;> rfl

/-- Two batch searches with the right key: one uses the pool, the other has been ended by a second exception. -/
theorem requests_are_accounted_for_search : ∃ s : State,
    s.calls.map (·.place) = [.pooled, .finishing { status := 507, escaped := true }] ∧
    s.inFlight = 2 ∧ s.slots = 3 := by
  let c : ServerConfig := { apiKey := ascii "key" }
  let call : Call := { request := { route := 13, authorization := ascii "Bearer key" } }
  have s₀ : (machine c).Reachable { calls := [call, call] } := ⟨_, ⟨[call.request, call.request], rfl⟩, .refl⟩
  have s₁ := s₀.step (.start rfl)
  have s₂ := s₁.step (.receive (i := 0) rfl rfl (by decide) (.inl rfl))
  have s₃ := s₂.step (.accept (i := 0) rfl rfl (by decide) rfl)
  have s₄ := s₃.step (.authorize (i := 0) rfl rfl (by decide))
  have s₅ := s₄.step (.enter (i := 0) rfl rfl)
  have s₆ := s₅.step (.acquire (i := 0) rfl rfl rfl (by decide))
  have s₇ := s₆.step (.receive (i := 1) rfl rfl (by decide) (.inl rfl))
  have s₈ := s₇.step (.accept (i := 1) rfl rfl (by decide) rfl)
  have s₉ := s₈.step (.authorize (i := 1) rfl rfl (by decide))
  have s₁₀ := s₉.step (.enter (i := 1) rfl rfl)
  have s₁₁ := s₁₀.step (@Step.escape c _ 1 507 _ rfl rfl)
  have accounted := requests_are_accounted_for c s₁₁
  exact ⟨_, rfl, accounted.1.1, Nat.add_right_cancel accounted.2.1⟩

section Stopping
variable {c : ServerConfig} {s t : State} {i j : Nat} {call other : Call} {place : Place}

/-- Not received, or on the way to be recorded with 503 (or, where the refusal itself has thrown, with no status
set), or recorded so. -/
def Place.turnedAway : Place → Bool
  | waiting | received => true
  | finishing outcome | counted outcome _ | measured outcome _ | finished outcome _ =>
    outcome.status == 503 || outcome.unset
  | dropped => true
  | _ => false

/-- `stop` has been called. -/
def Stopping (s : State) : Prop :=
  s.accepting = false ∧ (s.lifecycle = .draining ∨ s.lifecycle = .closing ∨ s.lifecycle = .stopped)

theorem Stopping.step (stopping : Stopping s) (step : Step c s t) : Stopping t := by
  obtain ⟨refuses, life⟩ := stopping
  cases step with
  | start first => simp [first] at life
  | startFails first => simp [first] at life
  | startThrows first => simp [first] at life
  | stop serving => simp [serving] at life
  | drained draining none => exact ⟨refuses, .inr (.inl rfl)⟩
  | timesOut draining => exact ⟨refuses, .inr (.inl rfl)⟩
  | joined closing ended => exact ⟨refuses, .inr (.inr rfl)⟩
  | _ => exact ⟨refuses, life⟩

/-- What becomes of a request when one request goes on. -/
theorem put_turnedAway (atI : s.calls[i]? = some call) (away : call.place.turnedAway = true)
    (atJ : t.calls[j]? = some other) (calls : t.calls = s.calls) (next : other = call → place.turnedAway = true) :
    ∃ after, (t.put j other place).calls[i]? = some { call with place := after } ∧ after.turnedAway = true := by
  have set : (t.put j other place).calls = s.calls.set j { other with place } := by rw [← calls]; rfl
  rw [set]
  rw [calls] at atJ
  by_cases same : j = i
  · subst same
    have one : other = call := Option.some.inj (atJ.symm.trans atI)
    refine ⟨place, ?_, next one⟩
    rw [List.getElem?_set_self (List.getElem?_eq_some_iff.mp atI).1, one]
  · exact ⟨call.place, by rw [List.getElem?_set_ne same, atI], away⟩

theorem Step.turnedAway (step : Step c s t) (stopping : Stopping s) (at_ : s.calls[i]? = some call)
    (route : call.request.matched = true)
    (closed : call.request.openRoute = false) (away : call.place.turnedAway = true) :
    ∃ after, t.calls[i]? = some { call with place := after } ∧ after.turnedAway = true := by
  cases step with
  | start | startFails | startThrows | stop | drained | timesOut | joined => exact ⟨call.place, at_, away⟩
  | receive atJ place _ _ | unavailable atJ place _ _ | drop atJ place _ =>
    exact put_turnedAway at_ away atJ rfl fun _ => rfl
  | refusalThrows atJ place _ _ => exact put_turnedAway at_ away atJ rfl fun _ => Bool.or_true _
  | unmatched atJ place unmatched listens =>
    exact put_turnedAway at_ away atJ rfl fun same => absurd route (by rw [← same, unmatched]; decide)
  | admitOpen atJ place openRoute =>
    exact put_turnedAway at_ away atJ rfl fun same => absurd openRoute (by rw [same, closed]; decide)
  | accept atJ place closed accepts => exact absurd accepts (by rw [stopping.1]; decide)
  -- a request that has been accepted is not one of those that are turned away
  | unauthorized atJ place _ | authorize atJ place _ | checkThrows atJ place | enter atJ place
  | acquire atJ place _ _ | inlineBody atJ place | release atJ place | inlineEnds atJ place | answer atJ place
  | escape atJ place | leave atJ place =>
    exact put_turnedAway at_ away atJ rfl fun same => (by rw [← same, place] at away; cases away)
  | count atJ place | measure atJ place | finish atJ place =>
    exact put_turnedAway at_ away atJ rfl fun same => (by rw [← same, place] at away; exact away)

/-- A request that comes too late. -/
def TurnedAway (i : Nat) (request : Request) (s : State) : Prop :=
  Stopping s ∧ ∃ place, s.calls[i]? = some { request, place } ∧ place.turnedAway = true

theorem TurnedAway.step {request : Request} (route : request.matched = true)
    (closed : request.openRoute = false) (step : Step c s t)
    (away : TurnedAway i request s) : TurnedAway i request t := by
  obtain ⟨stopping, place, at_, away⟩ := away
  have next := Step.turnedAway step stopping at_ route closed away
  exact ⟨stopping.step step, next⟩

end Stopping

/-- Once `stop` has been called, the server is never ready again, and a request of a closed route that has not been
seen to be accepted never gets to its handler: if it is recorded, it is recorded with 503, unless the refusal itself
has thrown before it set the status. -/
theorem late_requests_are_turned_away (c : ServerConfig) {s t : State} {i : Nat} {call : Call}
    (reachable : (machine c).Reachable s)
    (stopping : s.lifecycle = .draining) (more : (machine c).Runs s t) (at_ : s.calls[i]? = some call)
    (late : call.place = .waiting ∨ call.place = .received) (route : call.request.matched = true)
    (closed : call.request.openRoute = false) :
    t.accepting = false ∧ ∃ place, t.calls[i]? = some { call with place } ∧ place.turnedAway = true := by
  have refuses : s.accepting = false := by
    cases accepts : s.accepting with
    | false => rfl
    | true => exact absurd ((sound_of_reachable reachable).accepting accepts) (by rw [stopping]; decide)
  have away : call.place.turnedAway = true := by
    rcases late with place | place <;> (rw [place]; rfl)
  have now : TurnedAway i call.request s := ⟨⟨refuses, .inl stopping⟩, call.place, at_, away⟩
  obtain ⟨later, turned⟩ := more.keeps (TurnedAway.step route closed) now
  exact ⟨later.1, turned⟩

/-- A request that is received when the server is already shutting down. -/
theorem late_requests_are_turned_away_search : ∃ t : State, t.lifecycle = .draining ∧ t.accepting = false ∧
    ∃ place, t.calls[0]? = some ⟨{ route := 13 }, place⟩ ∧ place.turnedAway = true := by
  let c : ServerConfig := {}
  let call : Call := { request := { route := 13 } }
  have s₀ : (machine c).Reachable { calls := [call] } := ⟨_, ⟨[call.request], rfl⟩, .refl⟩
  have s₁ := s₀.step (.start rfl)
  let s : State := { lifecycle := .draining, calls := [call] }
  have s₂ : (machine c).Reachable s := s₁.step (.stop rfl)
  have r₁ : (machine c).Runs s (s.put 0 call .received) := .single (.receive rfl rfl (by decide) (.inr (.inl rfl)))
  have r₂ : (machine c).Runs s ((s.put 0 call .received).put 0 { call with place := .received }
      (.finishing { status := 503 })) :=
    r₁.tail (.unavailable rfl rfl (by decide) rfl)
  have at_ : s.calls[0]? = some call := rfl
  exact ⟨_, rfl, late_requests_are_turned_away c s₂ rfl r₂ at_ (.inl rfl) (by decide) (by decide)⟩

end VectorForge.Server
