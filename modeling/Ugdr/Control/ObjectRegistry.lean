import Ugdr.Errno
import Ugdr.Control.ObjectIdentity

/-! # The generation registry

`GenerationRegistry` stores the records of one object type in slots that are
reused through a free stack. A slot's generation is part of the identity of the
record it holds and advances whenever the slot is released.
-/

namespace Ugdr.Control

universe u

abbrev OwnerSessionId := Nat

structure Slot (Record : Type u) where
  generation : Nat
  ownerSession : OwnerSessionId := 0
  value : Option Record := none
  retired : Bool := false
  deriving DecidableEq, Repr

/-- The object type is a parameter, as in the source template. The top of the
free stack is the head of `freeSlots`. -/
structure GenerationRegistry (Record : Type u) (type : ObjectType) where
  initialGeneration : Nat := 1
  slots : List (Slot Record) := []
  freeSlots : List Nat := []
  liveCount : Nat := 0
  deriving DecidableEq, Repr

namespace GenerationRegistry

variable {Record : Type u} {type : ObjectType}

def create (initialGeneration : UInt32) : GenerationRegistry Record type :=
  { initialGeneration :=
      if initialGeneration.toNat = 0 then 1 else initialGeneration.toNat }

/-- Fill a vacant slot and hand out its identity. -/
def occupy (registry : GenerationRegistry Record type)
    (slotIndex : Nat) (slot : Slot Record) (ownerSession : OwnerSessionId)
    (record : Record) : Option Nat × GenerationRegistry Record type :=
  match encodeObjectIdentity ⟨type.code, slot.generation, slotIndex⟩ with
  | none =>
      (none, { registry with
        slots := registry.slots.set slotIndex
          { slot with value := none, ownerSession := 0, retired := true } })
  | some identity =>
      (some identity, { registry with
        slots := registry.slots.set slotIndex
          { slot with ownerSession := ownerSession, value := some record }
        liveCount := registry.liveCount + 1 })

def insert (registry : GenerationRegistry Record type)
    (ownerSession : OwnerSessionId) (record : Record) :
    Option Nat × GenerationRegistry Record type :=
  match registry.freeSlots with
  | slotIndex :: remaining =>
      let popped := { registry with freeSlots := remaining }
      match registry.slots[slotIndex]? with
      | none => (none, popped)
      | some slot => popped.occupy slotIndex slot ownerSession record
  | [] =>
      if maxObjectSlot < registry.slots.length then
        (none, registry)
      else
        let fresh : Slot Record := { generation := registry.initialGeneration }
        let grown := { registry with slots := registry.slots ++ [fresh] }
        grown.occupy registry.slots.length fresh ownerSession record

/-- The slot an identity addresses, when it decodes to this registry's type, the
slot exists, is not retired and still carries the same generation. -/
def locate (registry : GenerationRegistry Record type) (identity : Nat) :
    Option (Nat × Slot Record) :=
  match decodeObjectIdentity identity with
  | none => none
  | some parts =>
      if parts.type ≠ type.code then
        none
      else
        match registry.slots[parts.slot]? with
        | none => none
        | some slot =>
            if slot.retired ∨ slot.generation ≠ parts.generation then
              none
            else
              some (parts.slot, slot)

def resolve (registry : GenerationRegistry Record type)
    (ownerSession : OwnerSessionId) (identity : Nat) : Option Record :=
  match registry.locate identity with
  | none => none
  | some (_, slot) =>
      if slot.ownerSession ≠ ownerSession then none else slot.value

def resolveAny (registry : GenerationRegistry Record type) (identity : Nat) :
    Option Record :=
  match registry.locate identity with
  | none => none
  | some (_, slot) => slot.value

/-- Empty a slot. At the last generation the slot is retired for good. -/
def release (registry : GenerationRegistry Record type) (index : Nat) :
    GenerationRegistry Record type :=
  match registry.slots[index]? with
  | none => registry
  | some slot =>
      if slot.generation = 2 ^ 32 - 1 then
        { registry with
          slots := registry.slots.set index
            { slot with value := none, ownerSession := 0, retired := true }
          liveCount := registry.liveCount - 1 }
      else
        { registry with
          slots := registry.slots.set index
            { slot with
              value := none, ownerSession := 0, generation := slot.generation + 1 }
          freeSlots := index :: registry.freeSlots
          liveCount := registry.liveCount - 1 }

def erase (registry : GenerationRegistry Record type)
    (ownerSession : OwnerSessionId) (identity : Nat) :
    Status × GenerationRegistry Record type :=
  match decodeObjectIdentity identity with
  | none => (some .einval, registry)
  | some parts =>
      match registry.resolve ownerSession identity with
      | none => (some .einval, registry)
      | some _ => (none, registry.release parts.slot)

/-- The body of the loop of `erase_session` at one slot index. -/
def releaseOwned (ownerSession : OwnerSessionId)
    (state : Nat × GenerationRegistry Record type) (index : Nat) :
    Nat × GenerationRegistry Record type :=
  match state.2.slots[index]? with
  | none => state
  | some slot =>
      if slot.value.isSome ∧ slot.ownerSession = ownerSession then
        (state.1 + 1, state.2.release index)
      else
        state

def eraseSession (registry : GenerationRegistry Record type)
    (ownerSession : OwnerSessionId) : Nat × GenerationRegistry Record type :=
  (List.range registry.slots.length).foldl (releaseOwned ownerSession) (0, registry)

/-- Store through the pointer that `resolve` returns. -/
def modify (registry : GenerationRegistry Record type)
    (ownerSession : OwnerSessionId) (identity : Nat)
    (update : Record → Record) : GenerationRegistry Record type :=
  match registry.locate identity with
  | none => registry
  | some (index, slot) =>
      if slot.ownerSession ≠ ownerSession then
        registry
      else
        { registry with
          slots := registry.slots.set index
            { slot with value := slot.value.map update } }

/-- The visits of `for_each_session`, in slot order. -/
def forEachSession (registry : GenerationRegistry Record type)
    (ownerSession : OwnerSessionId) : List (Nat × Record) :=
  (List.range registry.slots.length).filterMap fun index =>
    match registry.slots[index]? with
    | none => none
    | some slot =>
        if slot.retired ∨ slot.ownerSession ≠ ownerSession then
          none
        else
          match slot.value,
              encodeObjectIdentity ⟨type.code, slot.generation, index⟩ with
          | some record, some identity => some (identity, record)
          | _, _ => none

def size (registry : GenerationRegistry Record type) : Nat :=
  registry.liveCount

end GenerationRegistry

end Ugdr.Control
