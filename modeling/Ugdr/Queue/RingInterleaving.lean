import Ugdr.Foundation.Execution
import Ugdr.Queue.SharedRing
import Mathlib.Data.List.Basic

/-! # Interleaved ring endpoints

One producer and one consumer working on one ring. Every load and store of the
tail and head words, every store of one cell of a slot and every start of a call
is a separate step, and the steps of the two sides interleave freely.

The state also keeps what the callers of the ring see: the slots handed out, the
contents published and the contents read and released. These components are
written only; no step reads them to decide what to do.
-/

namespace Ugdr.Queue

open Machine

universe u

/-- The content of a slot, cell by cell. -/
abbrev Content (Cell : Type u) := Nat → Cell

inductive Request
  /-- `producer_reserve` or `consumer_peek`. -/
  | acquire (maxCount : Nat)
  /-- `producer_publish` or `consumer_release`. -/
  | commit (count : Nat)
  deriving DecidableEq, Repr

/-- A finished call, with the numbers of published and released elements at that
moment. -/
structure Return where
  side : Side
  request : Request
  result : Except Errno SlotBatch
  published : Nat
  released : Nat

structure RingSystem (Cell : Type u) where
  words : Side → Nat
  slots : Nat → Content Cell
  endpoints : Side → Endpoint := fun _ => {}
  calls : Side → Option (Request × Program Side Endpoint.Result) := fun _ => none
  /-- Slots of the batch returned by the side's last successful acquire. -/
  handed : Side → List Nat := fun _ => []
  /-- Contents of the consumer's handed slots at the time of its peek. -/
  peeked : List (Content Cell) := []
  /-- Published elements, oldest first, with the slot each was written to. -/
  published : List (Nat × Content Cell) := []
  /-- Released elements as they were read at peek time, oldest first. -/
  released : List (Content Cell) := []
  returns : List Return := []

namespace RingSystem

variable {Cell : Type u}

/-- A freshly created ring: both position words are zero, the slots hold
anything. -/
def created (slots : Nat → Content Cell) : RingSystem Cell where
  words := fun _ => 0
  slots := slots

inductive Action (Cell : Type u)
  | call (side : Side) (request : Request)
  | access (side : Side)
  | write (slot offset : Nat) (value : Cell)

/-- The endpoint code of a call. -/
def program (capacity : Nat) (side : Side) (endpoint : Endpoint) :
    Request → Program Side Endpoint.Result
  | .acquire maxCount => Endpoint.acquire side endpoint capacity maxCount
  | .commit count => Endpoint.commit side endpoint capacity count

/-- A consumer reads every slot it is handed; a producer reads nothing. -/
def read (system : RingSystem Cell) (side : Side) (handed : List Nat) :
    List (Content Cell) :=
  match side with
  | .producer => system.peeked
  | .consumer => handed.map system.slots

/-- Record the outcome of a finished call. -/
def complete (system : RingSystem Cell) (side : Side) (request : Request)
    (result : Endpoint.Result) : RingSystem Cell :=
  let finished : RingSystem Cell :=
    { system with
      endpoints := Function.update system.endpoints side result.1
      calls := Function.update system.calls side none
      returns := system.returns ++
        [⟨side, request, result.2, system.published.length, system.released.length⟩] }
  match request, result.2 with
  | _, .error _ => finished
  | .acquire _, .ok batch =>
      { finished with
        handed := Function.update system.handed side batch.slots
        peeked := system.read side batch.slots }
  | .commit _, .ok _ =>
      { finished with handed := Function.update system.handed side [] }

/-- Continue a call up to its next access or its end. -/
def settle (system : RingSystem Cell) (side : Side) (request : Request) :
    Program Side Endpoint.Result → RingSystem Cell
  | .done result => system.complete side request result
  | program =>
      { system with calls := Function.update system.calls side (some (request, program)) }

/-- The elements that a store of the own position word hands over. -/
def transfer (system : RingSystem Cell) (side : Side) : Request → RingSystem Cell
  | .acquire _ => system
  | .commit count =>
      match side with
      | .producer =>
          { system with
            published := system.published ++
              ((system.handed .producer).take count).map fun slot =>
                (slot, system.slots slot) }
      | .consumer =>
          { system with released := system.released ++ system.peeked.take count }

def step (capacity : Nat) (system : RingSystem Cell) :
    Action Cell → RingSystem Cell
  | .call side request =>
      match system.calls side with
      | some _ => system
      | none =>
          system.settle side request
            (program capacity side (system.endpoints side) request)
  | .access side =>
      match system.calls side with
      | none => system
      | some (request, .done result) => system.complete side request result
      | some (request, .load word next) =>
          system.settle side request (next (system.words word))
      | some (request, .store word value next) =>
          let stored := system.transfer side request
          { stored with words := Function.update stored.words word value }.settle
            side request next
  | .write slot offset value =>
      -- The producer may store into any slot of its open reservation.
      if system.calls .producer = none ∧ slot ∈ system.handed .producer then
        { system with
          slots := Function.update system.slots slot
            (Function.update (system.slots slot) offset value) }
      else
        system

end RingSystem

end Ugdr.Queue
