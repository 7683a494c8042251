import Ugdr.Foundation.SlotTable
import Ugdr.Gpu.CopyHost

/-! # Table of task contexts

The context table, the pending tasks and the ring of local completions agree with each
other. Every operation of the host moves one context at a time from one state to
another, and each such move is followed here once.
-/

namespace Ugdr.Gpu

open Ugdr.Machine Ugdr.SlotTable
open Ugdr.Worker (BackendRequest BackendCompletion DatagramResult)

/-! ## What the table holds -/

def ticketIn (state : SlotState) (context : TaskContextSlot) : Option Ticket :=
  if context.state = state then some context.ticket else none

theorem ticketIn_of_eq {state : SlotState} {context : TaskContextSlot}
    (same : context.state = state) : ticketIn state context = some context.ticket :=
  if_pos same

theorem ticketIn_of_ne {state : SlotState} {context : TaskContextSlot}
    (different : context.state ≠ state) : ticketIn state context = none :=
  if_neg different

def held (context : TaskContextSlot) : Option Ticket :=
  if context.state = .free then none else some context.ticket

/-- The contexts in `state` are those of the tasks `ids`. -/
def Tracks (contexts : Nat → TaskContextSlot) (capacity : Nat) (state : SlotState)
    (ids : List Nat) : Prop :=
  ids.Perm ((contents (ticketIn state) capacity contexts).map Ticket.taskId)

namespace Tracks

variable {contexts : Nat → TaskContextSlot} {capacity index : Nat} {state : SlotState}
  {ids others : List Nat} {context : TaskContextSlot}

theorem mem (tracks : Tracks contexts capacity state ids) {taskId : Nat}
    (member : taskId ∈ ids) :
    ∃ index < capacity, (contexts index).state = state ∧ (contexts index).taskId = taskId := by
  obtain ⟨ticket, inside, named⟩ := List.mem_map.mp (tracks.mem_iff.mp member)
  obtain ⟨index, bound, found⟩ := mem_contents.mp inside
  by_cases same : (contexts index).state = state
  · rw [ticketIn_of_eq same] at found
    injection found with found
    exact ⟨index, bound, same, by rw [← named, ← found]; rfl⟩
  · rw [ticketIn_of_ne same] at found
    cases found

/-- A tracked task is found at its slot if every context is at the slot of its task. -/
theorem at_slot (tracks : Tracks contexts capacity state ids) {slot : Nat → Nat}
    (owned : ∀ index < capacity, (contexts index).state ≠ .free →
      slot (contexts index).taskId = index)
    (occupied : state ≠ .free) {taskId : Nat} (member : taskId ∈ ids) :
    (contexts (slot taskId)).state = state ∧ (contexts (slot taskId)).taskId = taskId := by
  obtain ⟨index, inside, inState, named⟩ := tracks.mem member
  have own := owned index inside (by rw [inState]; exact occupied)
  rw [named] at own
  rw [own]
  exact ⟨inState, named⟩

theorem length_lt (tracks : Tracks contexts capacity state ids) (inside : index < capacity)
    (different : (contexts index).state ≠ state) : ids.length < capacity := by
  rw [tracks.length_eq, List.length_map]
  exact length_contents_lt inside (ticketIn_of_ne different)

/-- A context that is not in `state` before and after the write. -/
theorem other (tracks : Tracks contexts capacity state ids)
    (before : (contexts index).state ≠ state) (after : context.state ≠ state) :
    Tracks (Function.update contexts index context) capacity state ids := by
  have same : ticketIn state context = ticketIn state (contexts index) := by
    rw [ticketIn_of_ne before, ticketIn_of_ne after]
  rwa [Tracks, contents_update_of_eq same]

theorem enter (tracks : Tracks contexts capacity state ids) (inside : index < capacity)
    (before : (contexts index).state ≠ state) (after : context.state = state)
    (more : others.Perm (context.taskId :: ids)) :
    Tracks (Function.update contexts index context) capacity state others := by
  have inserted := contents_update_insert inside (ticketIn_of_ne before) (ticketIn_of_eq after)
  have renamed := inserted.map Ticket.taskId
  exact (more.trans (tracks.cons _)).trans renamed.symm

theorem leave (tracks : Tracks contexts capacity state ids) (inside : index < capacity)
    (before : (contexts index).state = state) (after : context.state ≠ state)
    (fewer : ids.Perm ((contexts index).taskId :: others)) :
    Tracks (Function.update contexts index context) capacity state others := by
  have erased := contents_update_erase inside (ticketIn_of_eq before) (ticketIn_of_ne after)
  have renamed := erased.map Ticket.taskId
  exact ((fewer.symm.trans tracks).trans renamed).cons_inv

end Tracks

namespace Host

variable {host : Host}

def capacity (host : Host) : Nat :=
  host.config.queueCapacity

/-- The tickets of the contexts in `state`, in the order of the table. -/
def ticketsIn (host : Host) (state : SlotState) : List Ticket :=
  contents (ticketIn state) host.capacity host.contexts

/-- The tickets of all contexts that are not free. -/
def tickets (host : Host) : List Ticket :=
  contents held host.capacity host.contexts

/-- `local_completions()`. -/
def localCount (host : Host) : Nat :=
  wrapSub 64 host.localTail host.localHead

/-- The entries of the ring from `local_completion_head_` to `local_completion_tail_`. -/
def localEntries (host : Host) : List Nat :=
  ring host.localTaskIds host.capacity host.localHead host.localCount

def ticketOf (host : Host) (taskId : Nat) : Ticket :=
  (host.contexts (host.slot taskId)).ticket

def pendingTickets (host : Host) : List Ticket :=
  host.pending.map fun task => host.ticketOf task.taskId

def localTickets (host : Host) : List Ticket :=
  host.localEntries.map host.ticketOf

theorem tickets_perm (host : Host) :
    host.tickets.Perm
      (host.ticketsIn .pending ++ host.ticketsIn .submitted ++ host.ticketsIn .localError) := by
  unfold tickets ticketsIn
  generalize host.capacity = size
  induction size with
  | zero => exact List.Perm.refl _
  | succ size induction =>
      simp only [contents_succ, held, ticketIn]
      cases state : (host.contexts size).state with
      | free => simpa using induction
      | pending =>
          simp only [reduceCtorEq, ↓reduceIte, Option.toList_some, Option.toList_none,
            List.append_nil]
          refine (induction.append_right _).trans ?_
          simp only [List.append_assoc]
          refine List.Perm.append_left _ ?_
          rw [← List.append_assoc]
          exact List.perm_append_comm
      | submitted =>
          simp only [reduceCtorEq, ↓reduceIte, Option.toList_some, Option.toList_none,
            List.append_nil]
          refine (induction.append_right _).trans ?_
          simp only [List.append_assoc]
          exact ((List.perm_append_comm).append_left _).append_left _
      | localError =>
          simp only [reduceCtorEq, ↓reduceIte, Option.toList_some, Option.toList_none,
            List.append_nil]
          simpa using induction.append_right _

end Host

/-! ## Consistency -/

/-- The table, the pending tasks, the ring of local completions and the count of
outstanding tasks say the same. -/
structure Consistent (host : Host) : Prop where
  sized : ∃ bits, 6 ≤ bits ∧ bits < 59 ∧ host.capacity = 2 ^ bits
  mask : host.capacityMask = host.capacity - 1
  owned : ∀ index < host.capacity, (host.contexts index).state ≠ .free →
    host.slot (host.contexts index).taskId = index
  pending : Tracks host.contexts host.capacity .pending (host.pending.map CopyTask.taskId)
  localErrors : Tracks host.contexts host.capacity .localError host.localEntries
  outstanding : host.outstanding =
    host.pending.length + host.localCount + (host.ticketsIn .submitted).length
  head : host.localHead < 2 ^ 64
  tail : host.localTail < 2 ^ 64
  failed : ∀ index < host.capacity, (host.contexts index).state = .localError →
    (host.contexts index).result = .backendError

namespace Host

/-- The fields that consistency is about. -/
def core (host : Host) : Host :=
  { host with
    nextTaskId := 1
    firstPending := 0
    publishBlocked := false
    pendingFlushed := false
    lastPublishFailure := .none }

end Host

namespace Consistent

variable {host : Host}

theorem of_core (consistent : Consistent host.core) : Consistent host :=
  ⟨consistent.sized, consistent.mask, consistent.owned, consistent.pending,
    consistent.localErrors, consistent.outstanding, consistent.head, consistent.tail,
    consistent.failed⟩

theorem core (consistent : Consistent host) : Consistent host.core :=
  ⟨consistent.sized, consistent.mask, consistent.owned, consistent.pending,
    consistent.localErrors, consistent.outstanding, consistent.head, consistent.tail,
    consistent.failed⟩

theorem congr {other : Host} (consistent : Consistent host) (same : other.core = host.core) :
    Consistent other :=
  of_core (same ▸ consistent.core)

variable (consistent : Consistent host)

include consistent

theorem capacity_dvd : host.capacity ∣ 2 ^ 64 := by
  obtain ⟨bits, -, small, capacity⟩ := consistent.sized
  rw [capacity]
  exact Nat.pow_dvd_pow 2 (by omega)

theorem capacity_lt : host.capacity < 2 ^ 64 := by
  obtain ⟨bits, -, small, capacity⟩ := consistent.sized
  rw [capacity]
  exact Nat.pow_lt_pow_right (by decide) (by omega)

theorem batch_le_capacity : 64 ≤ host.capacity := by
  obtain ⟨bits, large, -, capacity⟩ := consistent.sized
  rw [capacity]
  exact Nat.pow_le_pow_right (by decide : 0 < 2) large

theorem slot_eq (taskId : Nat) : host.slot taskId = taskId % host.capacity := by
  obtain ⟨bits, -, -, capacity⟩ := consistent.sized
  rw [Host.slot, consistent.mask, capacity, Nat.and_two_pow_sub_one_eq_mod]

theorem slot_lt (taskId : Nat) : host.slot taskId < host.capacity := by
  rw [consistent.slot_eq]
  exact Nat.mod_lt _ (by have := consistent.batch_le_capacity; omega)

theorem of_mem_pending {task : CopyTask} (member : task ∈ host.pending) :
    (host.contexts (host.slot task.taskId)).state = .pending ∧
      (host.contexts (host.slot task.taskId)).taskId = task.taskId :=
  consistent.pending.at_slot consistent.owned (by decide) (List.mem_map_of_mem member)

theorem of_pending_cons {task : CopyTask} {tasks : List CopyTask}
    (pending : host.pending = task :: tasks) :
    (host.contexts (host.slot task.taskId)).state = .pending ∧
      (host.contexts (host.slot task.taskId)).taskId = task.taskId :=
  consistent.of_mem_pending (pending ▸ List.mem_cons_self)

theorem of_mem_localEntries {taskId : Nat} (member : taskId ∈ host.localEntries) :
    (host.contexts (host.slot taskId)).state = .localError ∧
      (host.contexts (host.slot taskId)).taskId = taskId :=
  consistent.localErrors.at_slot consistent.owned (by decide) member

/-- The ring has room for a context that is not in it. -/
theorem localCount_lt {index : Nat} (inside : index < host.capacity)
    (different : (host.contexts index).state ≠ .localError) :
    host.localCount < host.capacity := by
  have shorter := consistent.localErrors.length_lt inside different
  rwa [Host.localEntries, length_ring] at shorter

/-- The contexts that are not free are counted by `outstanding_tasks_`. -/
theorem length_tickets : host.tickets.length = host.outstanding := by
  have pendingLength := consistent.pending.length_eq
  have localLength := consistent.localErrors.length_eq
  rw [Host.localEntries, length_ring, List.length_map] at localLength
  rw [List.length_map, List.length_map] at pendingLength
  have total := consistent.outstanding
  have parts := (Host.tickets_perm host).length_eq
  simp only [List.length_append] at parts
  unfold Host.ticketsIn at parts total
  omega

theorem outstanding_le : host.outstanding ≤ host.capacity := by
  rw [← consistent.length_tickets]
  exact length_contents_le

end Consistent

/-! ## Ring of local completions -/

namespace Consistent

variable {host : Host} (consistent : Consistent host)

include consistent

theorem localCount_pushLocal (room : host.localCount < host.capacity) (taskId : Nat) :
    (host.pushLocal taskId).localCount = host.localCount + 1 := by
  have head := consistent.head
  have tail := consistent.tail
  have small := consistent.capacity_lt
  simp only [Host.localCount, Host.pushLocal, wrapSub, wrapAdd] at room ⊢
  omega

theorem slot_tail :
    host.slot host.localTail = (host.localHead + host.localCount) % host.capacity := by
  have head := consistent.head
  have tail := consistent.tail
  have whole : (host.localHead + host.localCount) % 2 ^ 64 = host.localTail := by
    simp only [Host.localCount, wrapSub]
    omega
  rw [consistent.slot_eq, ← Nat.mod_mod_of_dvd (host.localHead + _) consistent.capacity_dvd, whole]

theorem localEntries_pushLocal (room : host.localCount < host.capacity) (taskId : Nat) :
    (host.pushLocal taskId).localEntries = host.localEntries ++ [taskId] := by
  rw [Host.localEntries, consistent.localCount_pushLocal room]
  change ring (Function.update host.localTaskIds (host.slot host.localTail) taskId)
    host.capacity host.localHead (host.localCount + 1) = _
  rw [consistent.slot_tail, ring_push room]
  rfl

/-- The head of the ring and what is left after `++local_completion_head_`. -/
theorem localEntries_pop (nonempty : host.localCount ≠ 0) :
    host.localEntries =
      host.localTaskIds (host.slot host.localHead) ::
        ({ host with localHead := wrapAdd 64 host.localHead 1 } : Host).localEntries := by
  have head := consistent.head
  have tail := consistent.tail
  have fewer : host.localCount =
      ({ host with localHead := wrapAdd 64 host.localHead 1 } : Host).localCount + 1 := by
    simp only [Host.localCount, wrapSub, wrapAdd] at nonempty ⊢
    omega
  rw [Host.localEntries, fewer, ring_succ_left, consistent.slot_eq]
  congr 1
  exact (ring_mod consistent.capacity_dvd).symm

end Consistent

end Ugdr.Gpu
