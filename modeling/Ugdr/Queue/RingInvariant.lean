import Ugdr.Queue.RingEndpoint
import Ugdr.Queue.RingInterleaving
import Mathlib.Data.List.Nodup

/-! # The ring is a bounded FIFO

The invariant relates the shared words, the private endpoint states and the
suspended calls to two unbounded counters, the numbers of published and released
elements. Every step of either side keeps it, whatever the interleaving.
-/

namespace Ugdr.Queue

open Machine

universe u

namespace Endpoint

/-- An endpoint is either not yet attached, and then its side has done nothing,
or in step with the counters. -/
inductive Attached (side : Side) (capacity own peer : Nat) (endpoint : Endpoint) : Prop
  | fresh (flag : endpoint.initialized = false) (start : own = 0)
      (idle : endpoint.held = 0)
  | ready (flag : endpoint.initialized = true)
      (inStep : InStep side capacity own peer endpoint)

/-- What a finished call leaves behind. -/
inductive Outcome (side : Side) (capacity own peer : Nat) (endpoint : Endpoint) :
    Request → Result → Prop
  | rejected (request : Request) :
      Outcome side capacity own peer endpoint request (endpoint, .error .einval)
  | blocked (maxCount : Nat) (result : Endpoint)
      (attached : Attached side capacity own peer result)
      (idle : endpoint.held = 0) (still : result.held = 0)
      (full : side.limit capacity peer = own) :
      Outcome side capacity own peer endpoint (.acquire maxCount) (result, .error .eagain)
  | granted (maxCount : Nat) (result : Endpoint) (batch : SlotBatch)
      (attached : Attached side capacity own peer result)
      (slots : batch.slots = window capacity own result.held) :
      Outcome side capacity own peer endpoint (.acquire maxCount) (result, .ok batch)
  | committed (count : Nat) (result : Endpoint) (batch : SlotBatch)
      (attached : Attached side capacity own peer result) (still : result.held = 0) :
      Outcome side capacity own peer endpoint (.commit count) (result, .ok batch)

/-- The points at which a call waits for its next access of a shared word. -/
inductive Suspended (side : Side) (capacity own peer : Nat) (endpoint : Endpoint) :
    Request → Program Side Result → Prop
  | attachOwn (maxCount : Nat) (requested : maxCount ≠ 0) (start : own = 0)
      (idle : endpoint.held = 0) :
      Suspended side capacity own peer endpoint (.acquire maxCount)
        (.load side fun position => .load side.peer fun other =>
          acquireInitialized side (endpoint.attach capacity position other)
            capacity maxCount)
  | attachPeer (maxCount : Nat) (requested : maxCount ≠ 0) (start : own = 0)
      (idle : endpoint.held = 0) :
      Suspended side capacity own peer endpoint (.acquire maxCount)
        (.load side.peer fun other =>
          acquireInitialized side (endpoint.attach capacity (own % 2 ^ 64) other)
            capacity maxCount)
  | refresh (maxCount : Nat) (attached : Endpoint) (requested : maxCount ≠ 0)
      (flag : attached.initialized = true) (idle : endpoint.held = 0)
      (still : attached.held = 0)
      (inStep : InStep side capacity own peer attached) :
      Suspended side capacity own peer endpoint (.acquire maxCount)
        (.load side.peer fun position =>
          .done (refreshed side { attached with cachedPosition := position }
            capacity maxCount))
  | publish (count : Nat) (batch : SlotBatch) (requested : count ≠ 0)
      (le : count ≤ endpoint.held) :
      Suspended side capacity own peer endpoint (.commit count)
        (.store side (endpoint.advance capacity count).localPosition
          (.done (endpoint.advance capacity count, .ok batch)))

/-- A call either finishes or waits for an access. -/
inductive Continues (side : Side) (capacity own peer : Nat) (endpoint : Endpoint)
    (request : Request) : Program Side Result → Prop
  | finished (result : Result)
      (outcome : Outcome side capacity own peer endpoint request result) :
      Continues side capacity own peer endpoint request (.done result)
  | waiting (program : Program Side Result)
      (suspended : Suspended side capacity own peer endpoint request program) :
      Continues side capacity own peer endpoint request program

section

variable {side : Side} {capacity own peer : Nat} {endpoint : Endpoint}

theorem Attached.mono {later : Nat} (le : peer ≤ later)
    (attached : Attached side capacity own peer endpoint) :
    Attached side capacity own later endpoint := by
  rcases attached with ⟨flag, start, idle⟩ | ⟨flag, inStep⟩
  · exact .fresh flag start idle
  · exact .ready flag (inStep.mono le)

theorem Suspended.mono {later : Nat} {request : Request} {program : Program Side Result}
    (le : peer ≤ later)
    (suspended : Suspended side capacity own peer endpoint request program) :
    Suspended side capacity own later endpoint request program := by
  cases suspended with
  | attachOwn maxCount requested start idle =>
      exact .attachOwn maxCount requested start idle
  | attachPeer maxCount requested start idle =>
      exact .attachPeer maxCount requested start idle
  | refresh maxCount attached requested flag idle still inStep =>
      exact .refresh maxCount attached requested flag idle still (inStep.mono le)
  | publish count batch requested within => exact .publish count batch requested within

/-- An endpoint in step never holds slots beyond the peer's limit. -/
theorem Attached.held_le (attached : Attached side capacity own peer endpoint)
    (reach : own ≤ side.limit capacity peer) :
    own + endpoint.held ≤ side.limit capacity peer := by
  rcases attached with ⟨-, -, idle⟩ | ⟨-, inStep⟩
  · rw [idle]
    exact reach
  · obtain ⟨-, -, seen, known, -, within, -⟩ := inStep
    cases side with
    | producer =>
        simp only [Side.limit] at within ⊢
        omega
    | consumer =>
        simp only [Side.limit] at within ⊢
        omega

theorem ready_of_held (attached : Attached side capacity own peer endpoint)
    (holding : endpoint.held ≠ 0) :
    endpoint.initialized = true ∧ InStep side capacity own peer endpoint := by
  rcases attached with ⟨-, -, idle⟩ | ⟨flag, inStep⟩
  · exact absurd idle holding
  · exact ⟨flag, inStep⟩

theorem acquireInitialized_continues {maxCount : Nat} {attached : Endpoint}
    (positive : 0 < capacity) (small : capacity ≤ 2 ^ 31) (requested : maxCount ≠ 0)
    (flag : attached.initialized = true) (idle : endpoint.held = 0)
    (still : attached.held = 0) (inStep : InStep side capacity own peer attached) :
    Continues side capacity own peer endpoint (.acquire maxCount)
      (acquireInitialized side attached capacity maxCount) := by
  rcases acquireInitialized_spec positive small requested inStep still with
    ⟨result, batch, equation, resultInStep, sameFlag, -, slots⟩ | equation
  · rw [equation]
    exact .finished _ (.granted maxCount result batch
      (.ready (sameFlag.trans flag) resultInStep) slots)
  · rw [equation]
    exact .waiting _ (.refresh maxCount attached requested flag idle still inStep)

theorem attach_inStep (start : own = 0) (reach : own ≤ side.limit capacity peer)
    (near : side.limit capacity peer ≤ own + capacity) (idle : endpoint.held = 0) :
    InStep side capacity own peer
      (endpoint.attach capacity (own % 2 ^ 64) (peer % 2 ^ 64)) := by
  subst start
  refine ⟨rfl, ?_, peer, Nat.le_refl peer, rfl, ?_, near⟩
  · simp [attach]
  · simp only [attach, idle]
    exact reach

theorem acquire_continues (positive : 0 < capacity) (small : capacity ≤ 2 ^ 31)
    (attached : Attached side capacity own peer endpoint) (maxCount : Nat) :
    Continues side capacity own peer endpoint (.acquire maxCount)
      (acquire side endpoint capacity maxCount) := by
  unfold acquire
  by_cases refused : maxCount = 0 ∨ endpoint.held ≠ 0
  · rw [if_pos refused]
    exact .finished _ (.rejected _)
  · rw [if_neg refused]
    have requested : maxCount ≠ 0 := fun none => refused (.inl none)
    have idle : endpoint.held = 0 := by omega
    rcases attached with ⟨flag, start, -⟩ | ⟨flag, inStep⟩
    · rw [flag]
      exact .waiting _ (.attachOwn maxCount requested start idle)
    · rw [if_pos flag]
      exact acquireInitialized_continues positive small requested flag idle idle inStep

theorem commit_continues (attached : Attached side capacity own peer endpoint)
    (count : Nat) :
    Continues side capacity own peer endpoint (.commit count)
      (commit side endpoint capacity count) := by
  unfold commit
  by_cases refused : endpoint.held = 0 ∨ endpoint.held < count
  · rw [if_pos refused]
    exact .finished _ (.rejected _)
  · rw [if_neg refused]
    by_cases nothing : count = 0
    · rw [if_neg (not_not_intro nothing)]
      refine .finished _ (.committed count _ _ ?_ rfl)
      rcases attached with ⟨flag, start, -⟩ | ⟨flag, inStep⟩
      · exact .fresh flag start rfl
      · obtain ⟨localPosition, localIndex, seen, known, cached, reach, near⟩ := inStep
        refine .ready flag ⟨localPosition, localIndex, seen, known, cached, ?_, near⟩
        simp only
        omega
    · rw [if_pos nothing]
      exact .waiting _ (.publish count _ nothing (by omega))

/-- A call starting from an attached endpoint. -/
theorem program_continues (positive : 0 < capacity) (small : capacity ≤ 2 ^ 31)
    (attached : Attached side capacity own peer endpoint) (request : Request) :
    Continues side capacity own peer endpoint request
      (RingSystem.program capacity side endpoint request) := by
  cases request with
  | acquire maxCount => exact acquire_continues positive small attached maxCount
  | commit count => exact commit_continues attached count

/-- A suspended load continues correctly with the value the word holds now. -/
theorem load_continues {request : Request} {word : Side} {next : Nat → Program Side Result}
    (positive : 0 < capacity) (small : capacity ≤ 2 ^ 31)
    (reach : own ≤ side.limit capacity peer)
    (near : side.limit capacity peer ≤ own + capacity)
    (suspended : Suspended side capacity own peer endpoint request (.load word next)) :
    Continues side capacity own peer endpoint request
      (next ((if word = side then own else peer) % 2 ^ 64)) := by
  have other : side.peer ≠ side := by cases side <;> decide
  cases suspended with
  | attachOwn maxCount requested start idle =>
      rw [if_pos rfl]
      exact .waiting _ (.attachPeer maxCount requested start idle)
  | attachPeer maxCount requested start idle =>
      rw [if_neg other]
      exact acquireInitialized_continues positive small requested rfl idle idle
        (attach_inStep start reach near idle)
  | refresh maxCount attached requested flag idle still inStep =>
      rw [if_neg other]
      obtain ⟨localPosition, localIndex, -⟩ := inStep
      obtain ⟨resultInStep, sameFlag, outcome⟩ :=
        refreshed_spec positive small requested localPosition localIndex reach near still
      have ready := Attached.ready (sameFlag.trans flag) resultInStep
      beta_reduce
      generalize refreshed side { attached with cachedPosition := peer % 2 ^ 64 }
        capacity maxCount = result at ready outcome ⊢
      obtain ⟨updated, answer⟩ := result
      rcases outcome with ⟨batch, rfl, -, slots⟩ | ⟨rfl, nothing, full⟩
      · exact .finished _ (.granted maxCount updated batch ready slots)
      · exact .finished _ (.blocked maxCount updated ready idle nothing full)

end

end Endpoint

def Side.pick (side : Side) (producer consumer : Nat) : Nat :=
  match side with
  | .producer => producer
  | .consumer => consumer

namespace RingSystem

open Endpoint

variable {Cell : Type u}

/-- The number of elements a side has handed over. -/
def counter (system : RingSystem Cell) (side : Side) : Nat :=
  side.pick system.published.length system.released.length

/-- What holds between any two steps. -/
structure Invariant (capacity : Nat) (system : RingSystem Cell) : Prop where
  words : ∀ side, system.words side = system.counter side % 2 ^ 64
  order : system.released.length ≤ system.published.length
  bounded : system.published.length ≤ system.released.length + capacity
  attached : ∀ side, Attached side capacity (system.counter side)
    (system.counter side.peer) (system.endpoints side)
  calls : ∀ side request program, system.calls side = some (request, program) →
    Suspended side capacity (system.counter side) (system.counter side.peer)
      (system.endpoints side) request program
  handed : ∀ side, system.handed side =
    window capacity (system.counter side) (system.endpoints side).held
  peeked : (system.endpoints .consumer).held ≠ 0 → system.peeked =
    ((system.published.map Prod.snd).drop system.released.length).take
      (system.endpoints .consumer).held
  placed : system.published.map Prod.fst = window capacity 0 system.published.length
  intact : ∀ position element, system.released.length ≤ position →
    system.published[position]? = some element → system.slots element.1 = element.2
  fifo : system.released = (system.published.map Prod.snd).take system.released.length
  returns : ∀ call ∈ system.returns, call.result ≠ .error .eproto ∧
    (call.result = .error .eagain →
      call.published = call.released + if call.side = .producer then capacity else 0)

section

variable {capacity : Nat} {system : RingSystem Cell}

theorem counter_reach (invariant : Invariant capacity system) (side : Side) :
    system.counter side ≤ side.limit capacity (system.counter side.peer) ∧
      side.limit capacity (system.counter side.peer) ≤ system.counter side + capacity := by
  have order := invariant.order
  have bounded := invariant.bounded
  cases side with
  | producer => exact ⟨bounded, Nat.add_le_add_right order capacity⟩
  | consumer => exact ⟨order, bounded⟩

theorem created_invariant (slots : Nat → Content Cell) :
    Invariant capacity (created slots) where
  words := by intro side; cases side <;> rfl
  order := Nat.le_refl 0
  bounded := Nat.zero_le _
  attached := by
    intro side
    exact .fresh rfl (by cases side <;> rfl) rfl
  calls := by
    intro side request program waiting
    cases waiting
  handed := by intro side; rfl
  peeked := fun held => absurd rfl held
  placed := rfl
  intact := by
    intro position element _ found
    simp [created] at found
  fifo := rfl
  returns := by simp [created]

theorem published_slot (invariant : Invariant capacity system) {position : Nat}
    {element : Nat × Content Cell} (found : system.published[position]? = some element) :
    element.1 = position % capacity := by
  obtain ⟨inside, rfl⟩ := List.getElem?_eq_some_iff.mp found
  have placed := congrArg (fun slots => slots[position]?) invariant.placed
  simpa [window, inside] using placed

/-- The contents of the oldest unreleased slots. -/
theorem window_contents (invariant : Invariant capacity system) {count : Nat}
    (le : system.released.length + count ≤ system.published.length) :
    (window capacity system.released.length count).map system.slots =
      ((system.published.map Prod.snd).drop system.released.length).take count := by
  apply List.ext_getElem
  · simp
    omega
  · intro offset inLeft inRight
    simp only [List.length_map, window_length] at inLeft
    have inside : system.released.length + offset < system.published.length := by omega
    have slot := published_slot invariant (List.getElem?_eq_getElem inside)
    have content := invariant.intact (system.released.length + offset) _ (by omega)
      (List.getElem?_eq_getElem inside)
    simp only [window, List.getElem_map, List.getElem_range, List.getElem_take,
      List.getElem_drop]
    rw [← slot, content]

/-- The record a finished call adds, when its result is an allowed one. -/
def Return.Allowed (capacity : Nat) (call : Return) : Prop :=
  call.result ≠ .error .eproto ∧
    (call.result = .error .eagain →
      call.published = call.released + if call.side = .producer then capacity else 0)

/-- Replacing one side's private state at the end of a call. -/
theorem Invariant.finish (invariant : Invariant capacity system) {side : Side}
    {endpoint : Endpoint} {handed : List Nat} {peeked : List (Content Cell)}
    {call : Return}
    (attached : Attached side capacity (system.counter side) (system.counter side.peer)
      endpoint)
    (handedSlots : handed = window capacity (system.counter side) endpoint.held)
    (peekedContents : (Function.update system.endpoints side endpoint .consumer).held ≠ 0 →
      peeked = ((system.published.map Prod.snd).drop system.released.length).take
        (Function.update system.endpoints side endpoint .consumer).held)
    (allowed : Return.Allowed capacity call) :
    Invariant capacity
      { system with
        endpoints := Function.update system.endpoints side endpoint
        calls := Function.update system.calls side none
        handed := Function.update system.handed side handed
        peeked := peeked
        returns := system.returns ++ [call] } where
  words := invariant.words
  order := invariant.order
  bounded := invariant.bounded
  attached := by
    intro other
    by_cases same : other = side
    · subst same
      simp only [Function.update_self]
      exact attached
    · simp only [Function.update_of_ne same]
      exact invariant.attached other
  calls := by
    intro other request program waiting
    by_cases same : other = side
    · subst same
      simp at waiting
    · simp only [Function.update_of_ne same] at waiting ⊢
      exact invariant.calls other request program waiting
  handed := by
    intro other
    by_cases same : other = side
    · subst same
      simp only [Function.update_self]
      exact handedSlots
    · simp only [Function.update_of_ne same]
      exact invariant.handed other
  peeked := peekedContents
  placed := invariant.placed
  intact := invariant.intact
  fifo := invariant.fifo
  returns := by
    intro other member
    rcases List.mem_append.mp member with old | new
    · exact invariant.returns other old
    · rw [List.mem_singleton.mp new]
      exact allowed

/-- A side that ends its call holding nothing leaves the peeked contents right. -/
theorem peeked_of_idle (invariant : Invariant capacity system) {side : Side}
    {endpoint : Endpoint} (still : endpoint.held = 0)
    (holding : (Function.update system.endpoints side endpoint .consumer).held ≠ 0) :
    system.peeked = ((system.published.map Prod.snd).drop system.released.length).take
      (Function.update system.endpoints side endpoint .consumer).held := by
  cases side with
  | producer => exact invariant.peeked holding
  | consumer => exact absurd still holding

theorem peeked_of_grant (invariant : Invariant capacity system) {side : Side}
    {endpoint : Endpoint} {batch : SlotBatch}
    (attached : Attached side capacity (system.counter side) (system.counter side.peer)
      endpoint)
    (slots : batch.slots = window capacity (system.counter side) endpoint.held)
    (holding : (Function.update system.endpoints side endpoint .consumer).held ≠ 0) :
    system.read side batch.slots =
      ((system.published.map Prod.snd).drop system.released.length).take
        (Function.update system.endpoints side endpoint .consumer).held := by
  cases side with
  | producer => exact invariant.peeked holding
  | consumer =>
      have within := attached.held_le (counter_reach invariant .consumer).1
      rw [slots]
      exact window_contents invariant within

/-- Finishing a call. -/
theorem complete_invariant (invariant : Invariant capacity system) {side : Side}
    {request : Request} {result : Result}
    (outcome : Outcome side capacity (system.counter side) (system.counter side.peer)
      (system.endpoints side) request result) :
    Invariant capacity (system.complete side request result) := by
  cases outcome with
  | rejected request =>
      have finished := invariant.finish (invariant.attached side) (invariant.handed side)
        (by simpa using invariant.peeked)
        (show Return.Allowed capacity
            ⟨side, request, .error .einval, system.published.length,
              system.released.length⟩ by simp [Return.Allowed])
      simpa [complete] using finished
  | blocked maxCount endpoint attached idle still full =>
      have finished := invariant.finish attached
        (show system.handed side = window capacity (system.counter side) endpoint.held by
          rw [invariant.handed, idle, still])
        (peeked_of_idle invariant still)
        (show Return.Allowed capacity
            ⟨side, .acquire maxCount, .error .eagain, system.published.length,
              system.released.length⟩ by
          refine ⟨by simp, fun _ => ?_⟩
          cases side with
          | producer => exact full.symm
          | consumer => exact full)
      simpa [complete] using finished
  | granted maxCount endpoint batch attached slots =>
      have finished := invariant.finish attached slots
        (peeked_of_grant invariant attached slots)
        (show Return.Allowed capacity
            ⟨side, .acquire maxCount, .ok batch, system.published.length,
              system.released.length⟩ by simp [Return.Allowed])
      exact finished
  | committed count endpoint batch attached still =>
      have finished := invariant.finish attached
        (show [] = window capacity (system.counter side) endpoint.held by
          rw [still]
          rfl)
        (peeked_of_idle invariant still)
        (show Return.Allowed capacity
            ⟨side, .commit count, .ok batch, system.published.length,
              system.released.length⟩ by simp [Return.Allowed])
      exact finished

theorem settle_invariant (invariant : Invariant capacity system) {side : Side}
    {request : Request} {program : Program Side Result}
    (continues : Continues side capacity (system.counter side) (system.counter side.peer)
      (system.endpoints side) request program) :
    Invariant capacity (system.settle side request program) := by
  cases continues with
  | finished result outcome => exact complete_invariant invariant outcome
  | waiting program suspended =>
      have waits : system.settle side request program =
          { system with
            calls := Function.update system.calls side (some (request, program)) } := by
        cases suspended <;> rfl
      rw [waits]
      refine { invariant with calls := ?_ }
      intro other otherRequest otherProgram waiting
      by_cases same : other = side
      · subst same
        simp only [Function.update_self, Option.some.injEq, Prod.mk.injEq] at waiting
        obtain ⟨rfl, rfl⟩ := waiting
        exact suspended
      · simp only [Function.update_of_ne same] at waiting
        exact invariant.calls other otherRequest otherProgram waiting

/-- The elements a producer publishes are the slots it was handed, in order. -/
theorem transfer_published (invariant : Invariant capacity system) {count : Nat}
    (le : count ≤ (system.endpoints .producer).held) :
    (system.transfer .producer (.commit count)).published = system.published ++
      (window capacity system.published.length count).map fun slot =>
        (slot, system.slots slot) := by
  have handed : (system.handed .producer).take count =
      window capacity system.published.length count := by
    rw [invariant.handed, window_take, Nat.min_eq_left le]
    rfl
  simp only [transfer, handed]

/-- The elements a consumer releases are the oldest unreleased ones. -/
theorem transfer_released (invariant : Invariant capacity system) {count : Nat}
    (le : count ≤ (system.endpoints .consumer).held) (some : count ≠ 0) :
    (system.transfer .consumer (.commit count)).released =
      (system.published.map Prod.snd).take (system.released.length + count) := by
  have peeked := invariant.peeked (by omega)
  simp only [transfer]
  rw [peeked, List.take_take, Nat.min_eq_left le, List.take_add]
  exact congrArg (· ++ _) invariant.fifo

theorem window_append (capacity position left right : Nat) :
    window capacity position (left + right) =
      window capacity position left ++ window capacity (position + left) right := by
  simp [window, List.range_add, Nat.add_assoc]

/-- The store that publishes a batch, with the end of its call. -/
theorem publish_invariant (invariant : Invariant capacity system)
    (positive : 0 < capacity) (small : capacity ≤ 2 ^ 31) {count : Nat} {batch : SlotBatch}
    (le : count ≤ (system.endpoints .producer).held) (some : count ≠ 0) :
    let moved := (system.endpoints .producer).advance capacity count
    let stored := system.transfer .producer (.commit count)
    Invariant capacity ({ stored with
      words := Function.update stored.words .producer moved.localPosition }.complete
        .producer (.commit count) (moved, .ok batch)) := by
  intro moved stored
  have contents := transfer_published invariant le
  have length : stored.published.length = system.published.length + count := by
    rw [contents]
    simp
  obtain ⟨flag, inStep⟩ := ready_of_held (invariant.attached .producer) (by omega)
  have moves : Attached .producer capacity (system.published.length + count)
      system.released.length moved :=
    .ready flag (advance_inStep positive small inStep le)
  have within := (invariant.attached .producer).held_le (counter_reach invariant .producer).1
  have longer : system.published.length ≤ stored.published.length := by omega
  have bounded := invariant.bounded
  have order := invariant.order
  constructor
  case words =>
    intro side
    cases side with
    | producer =>
        change moved.localPosition = stored.published.length % 2 ^ 64
        rw [length]
        exact (advance_inStep positive small inStep le).localPosition
    | consumer => exact invariant.words .consumer
  case order => exact Nat.le_trans order longer
  case bounded =>
    change stored.published.length ≤ system.released.length + capacity
    simp only [counter, Side.pick, Side.limit, Side.peer] at within
    omega
  case attached =>
    intro side
    cases side with
    | producer =>
        change Attached .producer capacity stored.published.length system.released.length moved
        rw [length]
        exact moves
    | consumer => exact (invariant.attached .consumer).mono longer
  case calls =>
    intro side request program waiting
    cases side with
    | producer => cases waiting
    | consumer => exact (invariant.calls .consumer request program waiting).mono longer
  case handed =>
    intro side
    cases side with
    | producer => rfl
    | consumer => exact invariant.handed .consumer
  case peeked =>
    intro holding
    have reads := (invariant.attached .consumer).held_le (counter_reach invariant .consumer).1
    simp only [counter, Side.pick, Side.limit, Side.peer] at reads
    change system.peeked =
      ((stored.published.map Prod.snd).drop system.released.length).take
        (system.endpoints .consumer).held
    rw [contents, List.map_append, List.drop_append_of_le_length (by simpa using order),
      List.take_append_of_le_length (by simp; omega)]
    exact invariant.peeked holding
  case placed =>
    change stored.published.map Prod.fst = window capacity 0 stored.published.length
    rw [length, window_append, ← invariant.placed, Nat.zero_add, contents, List.map_append,
      List.map_map]
    exact congrArg _ (List.map_id _)
  case intact =>
    intro position element unreleased found
    change stored.published[position]? = _ at found
    rw [contents] at found
    change system.slots element.1 = element.2
    by_cases old : position < system.published.length
    · rw [List.getElem?_append_left old] at found
      exact invariant.intact position element unreleased found
    · rw [List.getElem?_append_right (by omega), List.getElem?_map] at found
      obtain ⟨slot, -, rfl⟩ := Option.map_eq_some_iff.mp found
      rfl
  case fifo =>
    change system.released = (stored.published.map Prod.snd).take system.released.length
    rw [contents, List.map_append, List.take_append_of_le_length (by simpa using order)]
    exact invariant.fifo
  case returns =>
    intro call member
    rcases List.mem_append.mp member with old | new
    · exact invariant.returns call old
    · rw [List.mem_singleton.mp new]
      simp

/-- The store that releases a batch, with the end of its call. -/
theorem release_invariant (invariant : Invariant capacity system)
    (positive : 0 < capacity) (small : capacity ≤ 2 ^ 31) {count : Nat} {batch : SlotBatch}
    (le : count ≤ (system.endpoints .consumer).held) (some : count ≠ 0) :
    let moved := (system.endpoints .consumer).advance capacity count
    let stored := system.transfer .consumer (.commit count)
    Invariant capacity ({ stored with
      words := Function.update stored.words .consumer moved.localPosition }.complete
        .consumer (.commit count) (moved, .ok batch)) := by
  intro moved stored
  have contents := transfer_released invariant le some
  have within := (invariant.attached .consumer).held_le (counter_reach invariant .consumer).1
  simp only [counter, Side.pick, Side.limit, Side.peer] at within
  have length : stored.released.length = system.released.length + count := by
    rw [contents, List.length_take, List.length_map]
    omega
  obtain ⟨flag, inStep⟩ := ready_of_held (invariant.attached .consumer) (by omega)
  have moves : Attached .consumer capacity (system.released.length + count)
      system.published.length moved :=
    .ready flag (advance_inStep positive small inStep le)
  have longer : system.released.length ≤ stored.released.length := by omega
  have bounded := invariant.bounded
  constructor
  case words =>
    intro side
    cases side with
    | producer => exact invariant.words .producer
    | consumer =>
        change moved.localPosition = stored.released.length % 2 ^ 64
        rw [length]
        exact (advance_inStep positive small inStep le).localPosition
  case order =>
    change stored.released.length ≤ system.published.length
    omega
  case bounded =>
    change system.published.length ≤ stored.released.length + capacity
    omega
  case attached =>
    intro side
    cases side with
    | producer => exact (invariant.attached .producer).mono longer
    | consumer =>
        change Attached .consumer capacity stored.released.length system.published.length moved
        rw [length]
        exact moves
  case calls =>
    intro side request program waiting
    cases side with
    | producer => exact (invariant.calls .producer request program waiting).mono longer
    | consumer => cases waiting
  case handed =>
    intro side
    cases side with
    | producer => exact invariant.handed .producer
    | consumer => rfl
  case peeked => exact fun holding => absurd rfl holding
  case placed => exact invariant.placed
  case intact =>
    intro position element unreleased found
    exact invariant.intact position element (Nat.le_trans longer unreleased) found
  case fifo =>
    change stored.released = (system.published.map Prod.snd).take stored.released.length
    rw [length]
    exact contents
  case returns =>
    intro call member
    rcases List.mem_append.mp member with old | new
    · exact invariant.returns call old
    · rw [List.mem_singleton.mp new]
      simp

/-- A reserved slot holds no unreleased element. -/
theorem reserved_free (invariant : Invariant capacity system) {slot position : Nat}
    {element : Nat × Content Cell} (reserved : slot ∈ system.handed .producer)
    (unreleased : system.released.length ≤ position)
    (found : system.published[position]? = some element) : element.1 ≠ slot := by
  have inside := (List.getElem?_eq_some_iff.mp found).1
  have within := (invariant.attached .producer).held_le (counter_reach invariant .producer).1
  rw [invariant.handed] at reserved
  obtain ⟨offset, less, rfl⟩ := mem_window.mp reserved
  simp only [counter, Side.pick, Side.limit, Side.peer] at within less ⊢
  rw [published_slot invariant found]
  exact mod_capacity_ne (by omega) (by omega)

theorem write_invariant (invariant : Invariant capacity system) {slot : Nat}
    (reserved : slot ∈ system.handed .producer) (content : Content Cell) :
    Invariant capacity
      { system with slots := Function.update system.slots slot content } := by
  refine { invariant with intact := ?_ }
  intro position element unreleased found
  have different := reserved_free invariant reserved unreleased found
  simp only [Function.update_of_ne different]
  exact invariant.intact position element unreleased found

theorem step_invariant (positive : 0 < capacity) (small : capacity ≤ 2 ^ 31)
    (action : Action Cell) (invariant : Invariant capacity system) :
    Invariant capacity (step capacity system action) := by
  cases action with
  | call side request =>
      simp only [step]
      split
      · exact invariant
      · exact settle_invariant invariant
          (program_continues positive small (invariant.attached side) request)
  | access side =>
      simp only [step]
      split
      · exact invariant
      · rename_i request result waiting
        cases invariant.calls side request _ waiting
      · rename_i request word next waiting
        obtain ⟨reach, near⟩ := counter_reach invariant side
        have suspended := invariant.calls side request _ waiting
        have continues := load_continues positive small reach near suspended
        have current : system.words word =
            (if word = side then system.counter side else system.counter side.peer) %
              2 ^ 64 := by
          rw [invariant.words]
          cases suspended with
          | attachOwn => rw [if_pos rfl]
          | attachPeer => rw [if_neg (by cases side <;> decide)]
          | refresh => rw [if_neg (by cases side <;> decide)]
        rw [current]
        exact settle_invariant invariant continues
      · rename_i request word value next waiting
        have suspended := invariant.calls side request _ waiting
        cases suspended with
        | publish count batch some le =>
            cases side with
            | producer => exact publish_invariant invariant positive small le some
            | consumer => exact release_invariant invariant positive small le some
  | write slot offset value =>
      simp only [step]
      split
      · rename_i allowed
        exact write_invariant invariant allowed.2 _
      · exact invariant

theorem run_invariant (positive : 0 < capacity) (small : capacity ≤ 2 ^ 31)
    (slots : Nat → Content Cell) (actions : List (Action Cell)) :
    Invariant capacity (Execution.run (step capacity) (created slots) actions) :=
  Execution.run_invariant
    (fun _ action invariant => step_invariant positive small action invariant)
    (created_invariant slots) actions

end

/-- Published elements that have not been released, oldest first. -/
def unreleased (system : RingSystem Cell) : List (Nat × Content Cell) :=
  system.published.drop system.released.length

/-- A bounded FIFO as its two users see it. -/
structure BoundedFifo (capacity : Nat) (system : RingSystem Cell) : Prop where
  /-- Nothing is lost, repeated, reordered or torn on the way. -/
  released : system.released <+: system.published.map Prod.snd
  bounded : system.unreleased.length ≤ capacity
  /-- Unreleased elements occupy different slots and stay as published. -/
  separate : (system.unreleased.map Prod.fst).Nodup
  intact : ∀ element ∈ system.unreleased, system.slots element.1 = element.2
  /-- A reservation consists of different slots of the ring, none of which holds
  an unreleased element. -/
  reserved : (system.handed .producer).Nodup ∧
    ∀ slot ∈ system.handed .producer, slot < capacity ∧
      slot ∉ system.unreleased.map Prod.fst
  /-- A peek hands out the oldest unreleased elements. -/
  peeked : system.handed .consumer <+: system.unreleased.map Prod.fst
  noProtocolError : ∀ call ∈ system.returns, call.result ≠ .error .eproto
  /-- The counts of a `Return` are those at the access that ended the call. -/
  producerFull : ∀ call ∈ system.returns, call.side = .producer →
    call.result = .error .eagain → call.published = call.released + capacity
  consumerEmpty : ∀ call ∈ system.returns, call.side = .consumer →
    call.result = .error .eagain → call.published = call.released

section

variable {capacity : Nat} {system : RingSystem Cell}

theorem window_nodup {position count : Nat} (le : count ≤ capacity) :
    (window capacity position count).Nodup := by
  refine List.nodup_range.map_on ?_
  intro left leftMember right rightMember same
  rw [List.mem_range] at leftMember rightMember
  rcases Nat.lt_trichotomy left right with less | equal | greater
  · exact absurd same (mod_capacity_ne (by omega) (by omega))
  · exact equal
  · exact absurd same.symm (mod_capacity_ne (by omega) (by omega))

theorem unreleased_slots (invariant : Invariant capacity system) :
    system.unreleased.map Prod.fst = window capacity system.released.length
      (system.published.length - system.released.length) := by
  have order := invariant.order
  have split := window_append capacity 0 system.released.length
    (system.published.length - system.released.length)
  rw [Nat.add_sub_cancel' order, Nat.zero_add] at split
  rw [unreleased, List.map_drop, invariant.placed, split,
    List.drop_left' (window_length _ _ _)]

theorem boundedFifo_of_invariant (positive : 0 < capacity)
    (invariant : Invariant capacity system) : BoundedFifo capacity system := by
  have order := invariant.order
  have bounded := invariant.bounded
  have reach := (counter_reach invariant .producer).1
  have writes := (invariant.attached .producer).held_le reach
  have reads := (invariant.attached .consumer).held_le (counter_reach invariant .consumer).1
  simp only [counter, Side.pick, Side.limit, Side.peer] at writes reads
  constructor
  case released =>
    rw [invariant.fifo]
    exact List.take_prefix _ _
  case bounded =>
    rw [unreleased, List.length_drop]
    omega
  case separate =>
    rw [unreleased_slots invariant]
    exact window_nodup (by omega)
  case intact =>
    intro element member
    obtain ⟨offset, found⟩ := List.getElem?_of_mem member
    rw [unreleased, List.getElem?_drop] at found
    exact invariant.intact _ element (Nat.le_add_right _ offset) found
  case reserved =>
    refine ⟨?_, fun slot reserved => ⟨?_, ?_⟩⟩
    · rw [invariant.handed]
      exact window_nodup (by omega)
    · rw [invariant.handed] at reserved
      obtain ⟨offset, -, rfl⟩ := mem_window.mp reserved
      exact Nat.mod_lt _ positive
    · intro member
      obtain ⟨element, unreleasedMember, same⟩ := List.mem_map.mp member
      obtain ⟨offset, found⟩ := List.getElem?_of_mem unreleasedMember
      rw [unreleased, List.getElem?_drop] at found
      exact reserved_free invariant reserved (Nat.le_add_right _ offset) found same
  case peeked =>
    have short : (system.endpoints .consumer).held =
        min (system.endpoints .consumer).held
          (system.published.length - system.released.length) := by
      omega
    rw [unreleased_slots invariant, invariant.handed, short, ← window_take]
    exact List.take_prefix _ _
  case noProtocolError => exact fun call member => (invariant.returns call member).1
  case producerFull =>
    intro call member side blocked
    have full := (invariant.returns call member).2 blocked
    rwa [if_pos side] at full
  case consumerEmpty =>
    intro call member side blocked
    have empty := (invariant.returns call member).2 blocked
    rwa [if_neg (by rw [side]; decide)] at empty

end

/-- Every interleaving of the two endpoints, of any length, behaves as a bounded
FIFO. -/
theorem ring_boundedFifo (capacity : Nat) (positive : 1 ≤ capacity)
    (small : capacity ≤ 2 ^ 31) (slots : Nat → Content Cell)
    (actions : List (Action Cell)) :
    BoundedFifo capacity (Execution.run (step capacity) (created slots) actions) :=
  boundedFifo_of_invariant positive (run_invariant positive small slots actions)

/-- One element through a ring with one slot. -/
def roundTrip : List (Action Bool) :=
  [.call .producer (.acquire 3), .access .producer, .access .producer, .access .producer,
    .write 0 0 true,
    .call .producer (.commit 1), .call .consumer (.acquire 1), .access .producer,
    .access .consumer, .access .consumer, .call .consumer (.commit 1), .access .consumer]

theorem ring_boundedFifo_roundTrip :
    let system := Execution.run (step 1) (created fun _ _ => false) roundTrip
    (system.released.map fun content => content 0) = [true] ∧ BoundedFifo 1 system :=
  ⟨by decide, ring_boundedFifo 1 (by decide) (by decide) _ roundTrip⟩

end RingSystem

end Ugdr.Queue
