import Ugdr.Errno
import Ugdr.Foundation.Machine

/-! # The shared ring

A single-producer single-consumer ring in shared memory. Each endpoint owns one
64-bit position word, the producer the tail and the consumer the head, and keeps
a private copy of its own position, the index of its next slot and a possibly
stale copy of the other side's position.
-/

namespace Ugdr.Queue

open Machine

inductive Side
  | producer
  | consumer
  deriving DecidableEq, Repr

namespace Side

def peer : Side → Side
  | producer => consumer
  | consumer => producer

/-- The shared word a side owns: `tail` for the producer, `head` for the
consumer. -/
abbrev Position := Side

abbrev tail : Position := producer

abbrev head : Position := consumer

end Side

/-- `ProducerState` and `ConsumerState`. For the producer `localPosition` is
`local_tail`, `cachedPosition` is `cached_head` and `held` is `reserved`; for the
consumer they are `local_head`, `cached_tail` and `peeked`. -/
structure Endpoint where
  localPosition : Nat := 0
  cachedPosition : Nat := 0
  localIndex : Nat := 0
  held : Nat := 0
  initialized : Bool := false
  deriving DecidableEq, Repr

structure SlotSpan where
  start : Nat := 0
  count : Nat := 0
  deriving DecidableEq, Repr

/-- `MutableSlotBatch` and `ConstSlotBatch`, with slot indices for pointers. -/
structure SlotBatch where
  first : SlotSpan
  second : SlotSpan
  count : Nat
  deriving DecidableEq, Repr

def SlotSpan.slots (span : SlotSpan) : List Nat :=
  List.range' span.start span.count

def SlotBatch.slots (batch : SlotBatch) : List Nat :=
  batch.first.slots ++ batch.second.slots

namespace Endpoint

/-- Occupied slots between an own and a peer position, in 64-bit arithmetic. -/
def occupied (side : Side) (own peer : Nat) : Nat :=
  match side with
  | .producer => wrapSub 64 own peer
  | .consumer => wrapSub 64 peer own

def available (side : Side) (capacity occupied : Nat) : Nat :=
  match side with
  | .producer => capacity - occupied
  | .consumer => occupied

abbrev Result := Endpoint × Except Errno SlotBatch

/-- The common tail of `producer_reserve` and `consumer_peek`. -/
def grant (endpoint : Endpoint) (capacity maxCount available : Nat) : Result :=
  if available = 0 then
    (endpoint, .error .eagain)
  else
    let count := min maxCount available
    let firstCount := min count (wrapSub 32 capacity endpoint.localIndex)
    ({ endpoint with held := count },
      .ok
        { first := ⟨endpoint.localIndex, firstCount⟩
          second := ⟨0, count - firstCount⟩
          count := count })

/-- After the refreshing load of the peer's position. -/
def refreshed (side : Side) (endpoint : Endpoint) (capacity maxCount : Nat) : Result :=
  let used := occupied side endpoint.localPosition endpoint.cachedPosition
  if capacity < used then
    (endpoint, .error .eproto)
  else
    endpoint.grant capacity maxCount (available side capacity used)

/-- The part after the one-time initialisation. -/
def acquireInitialized (side : Side) (endpoint : Endpoint) (capacity maxCount : Nat) :
    Program Side Result :=
  let used := occupied side endpoint.localPosition endpoint.cachedPosition
  if capacity < used then
    .done (endpoint, .error .eproto)
  else if available side capacity used < maxCount then
    .load side.peer fun position =>
      .done (refreshed side { endpoint with cachedPosition := position } capacity maxCount)
  else
    .done (endpoint.grant capacity maxCount (available side capacity used))

def attach (endpoint : Endpoint) (capacity own peer : Nat) : Endpoint :=
  { endpoint with
    localPosition := own
    cachedPosition := peer
    localIndex := own % capacity
    initialized := true }

/-- `producer_reserve` and `consumer_peek`. -/
def acquire (side : Side) (endpoint : Endpoint) (capacity maxCount : Nat) :
    Program Side Result :=
  if maxCount = 0 ∨ endpoint.held ≠ 0 then
    .done (endpoint, .error .einval)
  else if endpoint.initialized then
    acquireInitialized side endpoint capacity maxCount
  else
    .load side fun own => .load side.peer fun peer =>
      acquireInitialized side (endpoint.attach capacity own peer) capacity maxCount

/-- The incremental slot index: 32-bit addition, then at most one subtraction of
the capacity. -/
def advanceIndex (localIndex capacity count : Nat) : Nat :=
  let moved := wrapAdd 32 localIndex count
  if capacity ≤ moved then wrapSub 32 moved capacity else moved

/-- The endpoint after `count` slots have been published or released. -/
def advance (endpoint : Endpoint) (capacity count : Nat) : Endpoint :=
  { endpoint with
    localPosition := wrapAdd 64 endpoint.localPosition count
    localIndex := advanceIndex endpoint.localIndex capacity count
    held := 0 }

/-- `producer_publish` and `consumer_release`. A successful call returns an empty
batch. -/
def commit (side : Side) (endpoint : Endpoint) (capacity count : Nat) :
    Program Side Result :=
  let finished : Except Errno SlotBatch := .ok ⟨{}, {}, 0⟩
  if endpoint.held = 0 ∨ endpoint.held < count then
    .done (endpoint, .error .einval)
  else if count ≠ 0 then
    let moved := endpoint.advance capacity count
    .store side moved.localPosition (.done (moved, finished))
  else
    .done ({ endpoint with held := 0 }, finished)

end Endpoint

def producerReserve := Endpoint.acquire .producer

def producerPublish := Endpoint.commit .producer

def consumerPeek := Endpoint.acquire .consumer

def consumerRelease := Endpoint.commit .consumer

end Ugdr.Queue
