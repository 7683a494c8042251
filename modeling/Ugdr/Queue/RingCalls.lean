import Ugdr.Queue.RingInvariant

/-! # Whole calls of a ring

A call of one side that runs to its end while the other side takes no step, and what the
producer's calls do then.
-/

namespace Ugdr.Queue.RingSystem

open Machine Endpoint

universe u

variable {Cell : Type u} {capacity : Nat} {system : RingSystem Cell} {side : Side}

/-! ## Running a call -/

/-- The rest of a call, with the loads and stores made one after the other. -/
def conclude (side : Side) (request : Request) :
    RingSystem Cell → Program Side Endpoint.Result → Except Errno SlotBatch × RingSystem Cell
  | system, .done result => (result.2, system.complete side request result)
  | system, .load word next => conclude side request system (next (system.words word))
  | system, .store word value next =>
      let stored := system.transfer side request
      conclude side request { stored with words := Function.update stored.words word value }
        next

def invoke (capacity : Nat) (side : Side) (request : Request) (system : RingSystem Cell) :
    Except Errno SlotBatch × RingSystem Cell :=
  conclude side request system (program capacity side (system.endpoints side) request)

/-- A call that is suspended overwrites only its own record when it goes on. -/
theorem settle_waiting (waiting : Option (Request × Program Side Endpoint.Result))
    (request : Request) (rest : Program Side Endpoint.Result) :
    settle { system with calls := Function.update system.calls side waiting } side request rest =
      settle system side request rest := by
  cases rest with
  | done result =>
      simp only [settle, complete, Function.update_idem]
      cases request <;> cases result.2 <;> cases side <;> rfl
  | load => simp only [settle, Function.update_idem]
  | store => simp only [settle, Function.update_idem]

theorem step_load (system : RingSystem Cell) (request : Request) (word : Side)
    (next : Nat → Program Side Endpoint.Result) :
    step capacity (system.settle side request (.load word next)) (.access side) =
      system.settle side request (next (system.words word)) := by
  refine Eq.trans ?_ (settle_waiting (some (request, .load word next)) _ _)
  simp only [settle, step, Function.update_self]

theorem step_store (system : RingSystem Cell) (request : Request) (word : Side) (value : Nat)
    (next : Program Side Endpoint.Result) :
    step capacity (system.settle side request (.store word value next)) (.access side) =
      settle
        { system.transfer side request with
          words := Function.update (system.transfer side request).words word value }
        side request next := by
  refine Eq.trans ?_ (settle_waiting (some (request, .store word value next)) _ _)
  cases request with
  | acquire maxCount => simp only [settle, step, Function.update_self, transfer]
  | commit count => cases side <;> simp only [settle, step, Function.update_self, transfer]

/-- A whole call is a sequence of accesses of its side. -/
theorem conclude_run (capacity : Nat) (side : Side) (system : RingSystem Cell) (request : Request)
    (rest : Program Side Endpoint.Result) :
    ∃ accesses, (conclude side request system rest).2 =
      Execution.run (step capacity) (system.settle side request rest)
        (List.replicate accesses (.access side)) := by
  induction rest generalizing system with
  | done result => exact ⟨0, rfl⟩
  | load word next induction =>
      obtain ⟨accesses, same⟩ := induction (system.words word) system
      refine ⟨accesses + 1, ?_⟩
      rw [conclude, same, List.replicate_succ, Execution.run_cons, step_load]
  | store word value next induction =>
      obtain ⟨accesses, same⟩ := induction
        { system.transfer side request with
          words := Function.update (system.transfer side request).words word value }
      refine ⟨accesses + 1, ?_⟩
      rw [conclude, same, List.replicate_succ, Execution.run_cons, step_store]

theorem invoke_run (capacity : Nat) (system : RingSystem Cell) (request : Request)
    (idle : system.calls side = none) :
    ∃ accesses, (system.invoke capacity side request).2 =
      Execution.run (step capacity) system
        (.call side request :: List.replicate accesses (.access side)) := by
  obtain ⟨accesses, same⟩ := conclude_run capacity side system request
    (program capacity side (system.endpoints side) request)
  refine ⟨accesses, ?_⟩
  rw [invoke, same, Execution.run_cons]
  simp only [step, idle]

theorem invoke_invariant (positive : 0 < capacity) (small : capacity ≤ 2 ^ 31)
    (invariant : Invariant capacity system) (request : Request)
    (idle : system.calls side = none) :
    Invariant capacity (system.invoke capacity side request).2 := by
  obtain ⟨accesses, same⟩ := invoke_run capacity system request idle
  rw [same]
  exact Execution.run_invariant
    (fun _ action invariant => step_invariant positive small action invariant) invariant _

/-! ## Reserving -/

/-- What the producer's calls leave alone. -/
structure ConsumerFrame (system next : RingSystem Cell) : Prop where
  word : next.words .consumer = system.words .consumer
  endpoint : next.endpoints .consumer = system.endpoints .consumer
  call : next.calls .consumer = system.calls .consumer
  handed : next.handed .consumer = system.handed .consumer
  peeked : next.peeked = system.peeked
  released : next.released = system.released

theorem ConsumerFrame.trans {middle next : RingSystem Cell} (first : ConsumerFrame system middle)
    (second : ConsumerFrame middle next) : ConsumerFrame system next :=
  ⟨second.word.trans first.word, second.endpoint.trans first.endpoint,
    second.call.trans first.call, second.handed.trans first.handed,
    second.peeked.trans first.peeked, second.released.trans first.released⟩

/-- The producer's call changed its private state and nothing else. -/
structure Reserved (system next : RingSystem Cell) (held : Nat) : Prop where
  frame : ConsumerFrame system next
  published : next.published = system.published
  slots : next.slots = system.slots
  tail : next.words .producer = system.words .producer
  idle : next.calls .producer = none
  held : (next.endpoints .producer).held = held

/-- A full ring answers `EAGAIN`, any other gives out its free slots. -/
def GivesOut (system : RingSystem Cell) (limit own : Nat)
    (answer : Except Errno SlotBatch × RingSystem Cell) (capacity : Nat) : Prop :=
  (limit = own ∧ answer.1 = .error .eagain ∧ Reserved system answer.2 0) ∨
    (own < limit ∧ ∃ batch, answer.1 = .ok batch ∧
      batch.slots = window capacity own (limit - own) ∧
      answer.2.handed .producer = batch.slots ∧ Reserved system answer.2 (limit - own))

theorem reserved_complete (system : RingSystem Cell) (request : Request)
    (result : Endpoint.Result) :
    Reserved system (system.complete .producer request result) result.1.held := by
  obtain ⟨endpoint, answer⟩ := result
  cases request <;> cases answer <;>
    exact ⟨⟨rfl, rfl, rfl, rfl, rfl, rfl⟩, rfl, rfl, rfl, rfl, rfl⟩

/-- A grant of as many slots as there are. -/
theorem givesOut_grant {endpoint : Endpoint} {own limit maxCount : Nat} (positive : 0 < capacity)
    (small : capacity ≤ 2 ^ 31) (reach : own ≤ limit) (near : limit ≤ own + capacity)
    (enough : limit ≤ own + maxCount) (localIndex : endpoint.localIndex = own % capacity)
    (still : endpoint.held = 0) :
    GivesOut system limit own
      (conclude .producer (.acquire maxCount) system
        (.done (endpoint.grant capacity maxCount (limit - own)))) capacity := by
  have reserved := reserved_complete system (.acquire maxCount)
    (endpoint.grant capacity maxCount (limit - own))
  rw [conclude]
  unfold grant at reserved ⊢
  by_cases full : limit - own = 0
  · rw [if_pos full] at reserved ⊢
    rw [still] at reserved
    exact .inl ⟨by omega, rfl, reserved⟩
  · rw [if_neg full] at reserved ⊢
    have count : min maxCount (limit - own) = limit - own := by omega
    refine .inr ⟨by omega, _, rfl, ?_, ?_, ?_⟩
    · simp only [count, localIndex]
      exact batch_slots_eq positive (by omega) (by omega)
    · simp only [complete, Function.update_self]
    · simp only [count] at reserved ⊢
      exact reserved

theorem givesOut_acquireInitialized {endpoint : Endpoint} {own peer : Nat}
    (positive : 0 < capacity) (small : capacity ≤ 2 ^ 31)
    (head : system.words .consumer = peer % 2 ^ 64) (reach : own ≤ peer + capacity)
    (order : peer ≤ own) (inStep : InStep .producer capacity own peer endpoint)
    (still : endpoint.held = 0) :
    GivesOut system (peer + capacity) own
      (conclude .producer (.acquire capacity) system
        (acquireInitialized .producer endpoint capacity capacity)) capacity := by
  obtain ⟨localPosition, localIndex, seen, known, cached, seenReach, seenNear⟩ := inStep
  rw [still, Nat.add_zero] at seenReach
  obtain ⟨within, room⟩ := occupied_add_available small seenReach seenNear
  have near : Side.producer.limit capacity peer ≤ own + capacity :=
    Nat.add_le_add_right order capacity
  unfold acquireInitialized
  simp only [localPosition, cached]
  rw [if_neg (by omega), room]
  by_cases short : Side.producer.limit capacity seen - own < capacity
  · -- The stale head shows too little room, so it is loaded again.
    rw [if_pos short, conclude]
    have far : own ≤ Side.producer.limit capacity peer := reach
    obtain ⟨within, room⟩ := occupied_add_available small far near
    simp only [Side.peer, head, refreshed]
    rw [if_neg (by omega), room]
    exact givesOut_grant positive small reach near near localIndex still
  · -- The whole ring is free, and the stale head shows it.
    rw [if_neg short]
    have same : Side.producer.limit capacity seen = peer + capacity := by
      simp only [Side.limit] at short seenNear ⊢
      omega
    rw [same]
    exact givesOut_grant positive small reach near near localIndex still

/-- `producer_reserve(capacity)` gives out the free slots in order. -/
theorem invoke_reserve (positive : 0 < capacity) (small : capacity ≤ 2 ^ 31)
    (invariant : Invariant capacity system) (closed : (system.endpoints .producer).held = 0) :
    GivesOut system (system.released.length + capacity) system.published.length
      (system.invoke capacity .producer (.acquire capacity)) capacity := by
  have head : system.words .consumer = system.released.length % 2 ^ 64 :=
    invariant.words .consumer
  have tail : system.words .producer = system.published.length % 2 ^ 64 :=
    invariant.words .producer
  have requested : ¬(capacity = 0 ∨ (system.endpoints .producer).held ≠ 0) := by omega
  rw [invoke]
  simp only [program, acquire]
  rw [if_neg requested]
  rcases invariant.attached .producer with ⟨flag, start, -⟩ | ⟨flag, inStep⟩
  · rw [flag, if_neg Bool.false_ne_true, conclude, conclude, Side.peer, head, tail]
    exact givesOut_acquireInitialized positive small head invariant.bounded invariant.order
      (attach_inStep start invariant.bounded
        (Nat.add_le_add_right invariant.order capacity) closed) closed
  · rw [if_pos flag]
    exact givesOut_acquireInitialized positive small head invariant.bounded invariant.order
      inStep closed

/-- The producer may have written to the slots it was given. -/
theorem overwrite_invariant (invariant : Invariant capacity system) {slots : Nat → Content Cell}
    (same : ∀ slot, slot ∉ system.handed .producer → slots slot = system.slots slot) :
    Invariant capacity { system with slots } := by
  refine { invariant with intact := ?_ }
  intro position element unreleased found
  have kept := same element.1 fun reserved =>
    reserved_free invariant reserved unreleased found rfl
  exact kept.trans (invariant.intact position element unreleased found)

/-! ## Publishing -/

/-- The first reserved slots, with what they hold, are published. -/
structure Published (system next : RingSystem Cell) (count : Nat) : Prop where
  frame : ConsumerFrame system next
  published : next.published = system.published ++
    ((system.handed .producer).take count).map fun slot => (slot, system.slots slot)
  slots : next.slots = system.slots
  idle : next.calls .producer = none
  held : (next.endpoints .producer).held = 0

/-- `producer_publish` of a part of the reservation. -/
theorem invoke_publish (capacity : Nat) (system : RingSystem Cell) (count : Nat)
    (holding : (system.endpoints .producer).held ≠ 0)
    (le : count ≤ (system.endpoints .producer).held) :
    (∃ batch, (system.invoke capacity .producer (.commit count)).1 = .ok batch) ∧
      Published system (system.invoke capacity .producer (.commit count)).2 count := by
  rw [invoke]
  simp only [program, commit]
  rw [if_neg (by omega)]
  by_cases nothing : count = 0
  · rw [if_neg (not_not_intro nothing), conclude]
    refine ⟨⟨_, rfl⟩, ⟨rfl, rfl, rfl, rfl, rfl, rfl⟩, ?_, rfl, rfl, rfl⟩
    simp [complete, nothing]
  · rw [if_pos nothing, conclude, conclude]
    exact ⟨⟨_, rfl⟩, ⟨rfl, rfl, rfl, rfl, rfl, rfl⟩, rfl, rfl, rfl, rfl⟩

end Ugdr.Queue.RingSystem
