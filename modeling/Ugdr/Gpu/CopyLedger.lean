import Ugdr.Foundation.Trace
import Ugdr.Gpu.ContextMoves

/-! # Ledger of a copy backend

What a copy backend is for: it takes requests, hands them to a runtime in batches that
have been flushed, and answers each of them once. The ledger has no slots, no ring and
no counters, and every entry says what one operation of the backend does to it.
-/

namespace Ugdr.Gpu

open Ugdr.Trace
open Ugdr.Worker (BackendRequest BackendCompletion DatagramResult)

def ticketFor (taskId : Nat) (request : BackendRequest) : Ticket :=
  { taskId
    parentRequestId := request.parentRequestId
    payloadIndex := request.payloadIndex }

def Ticket.completion (ticket : Ticket) (result : DatagramResult) : BackendCompletion :=
  { parentRequestId := ticket.parentRequestId
    payloadIndex := ticket.payloadIndex
    result }

/-- The books with the tasks that wait and whether they have been flushed. -/
structure Ledger extends Books where
  tasks : List CopyTask
  flushed : Bool

namespace Ledger

def empty : Ledger :=
  { pending := [], submitted := [], locals := [], tasks := [], flushed := false }

end Ledger

/-- An event that no entry of the ledger is about. -/
def Event.Quiet : Event → Prop
  | .polled _ _ | .stopRequested _ | .started | .draining | .stopped => True
  | _ => False

/-- How the runtime breaks down: it is read wrongly, or it refuses the tasks. -/
inductive Breakdown (ledger : Ledger) : List Event → Prop
  | quiet {events : List Event} (quiet : ∀ event ∈ events, event.Quiet) :
      Breakdown ledger events
  | refused {status : Status} {count : Nat} (flushed : ledger.flushed = true)
      (waiting : ledger.tasks ≠ [])
      (failed : status ≠ some .eagain)
      (useless : status = none → count = 0 ∨ ledger.tasks.length < count) :
      Breakdown ledger [.offered ledger.tasks status count]

inductive Entry : Ledger → List Event → Ledger → Prop
  | quiet {ledger : Ledger} {events : List Event} {flushed : Bool}
      (quiet : ∀ event ∈ events, event.Quiet)
      (same : ledger.tasks ≠ [] → flushed = ledger.flushed) :
      Entry ledger events { ledger with flushed }
  | queue {ledger : Ledger} {task : CopyTask} {request : BackendRequest}
      (fresh : ledger.tasks = [] ∨ ledger.flushed = false)
      (room : ledger.tasks.length < hostBatchSize) :
      Entry ledger [.queued task request ledger.tasks.length]
        { ledger with
          tasks := ledger.tasks ++ [task]
          pending := ledger.pending ++ [ticketFor task.taskId request]
          flushed := false }
  | reject {ledger : Ledger} {taskId : Nat} {request : BackendRequest} :
      Entry ledger [.rejected taskId request]
        { ledger with locals := ledger.locals ++ [ticketFor taskId request] }
  | flush {ledger : Ledger} (waiting : ledger.tasks ≠ []) (unflushed : ledger.flushed = false) :
      Entry ledger [.flushed none] { ledger with flushed := true }
  | retain {ledger : Ledger} {count : Nat} (waiting : ledger.tasks ≠ [])
      (flushed : ledger.flushed = true) :
      Entry ledger [.offered ledger.tasks (some .eagain) count] ledger
  | take {ledger : Ledger} {count : Nat} {flushed : Bool} (flushes : ledger.flushed = true)
      (positive : 1 ≤ count) (enough : count ≤ ledger.tasks.length)
      (same : ledger.tasks.drop count ≠ [] → flushed = true) :
      Entry ledger [.offered ledger.tasks none count]
        { ledger with
          tasks := ledger.tasks.drop count
          pending := ledger.pending.drop count
          submitted := ledger.pending.take count ++ ledger.submitted
          flushed }
  | abandon {ledger : Ledger} {status : Errno} (waiting : ledger.tasks ≠ [])
      (unflushed : ledger.flushed = false) :
      Entry ledger (.flushed (some status) :: ledger.pending.map .abandoned)
        { ledger with
          tasks := []
          pending := []
          locals := ledger.locals ++ ledger.pending
          flushed := false }
  | breakdown {ledger : Ledger} {events : List Event} {revoked : List Ticket}
      (fault : Breakdown ledger events) (all : ledger.submitted.Perm revoked) :
      Entry ledger
        (events ++ (ledger.pending.map .abandoned ++ revoked.map .revoked) ++ [.draining])
        { tasks := []
          pending := []
          submitted := []
          locals := ledger.locals ++ (ledger.pending ++ revoked)
          flushed := false }
  | deliverLocal {ledger : Ledger} {ticket : Ticket} {locals : List Ticket}
      (first : ledger.locals = ticket :: locals) :
      Entry ledger [.delivered ticket.taskId false (ticket.completion .backendError)]
        { ledger with locals }
  | deliverPolled {ledger : Ledger} {ticket : Ticket} {submitted : List Ticket}
      {result : CopyTaskResult} (one : ledger.submitted.Perm (ticket :: submitted)) :
      Entry ledger
        [.polled none ⟨ticket.taskId, result⟩,
          .delivered ticket.taskId true (ticket.completion result.datagramResult)]
        { ledger with submitted }

/-! ## Accounts -/

namespace Event

/-- The request that a call has accepted. -/
def accepted : Event → Option Ticket
  | .queued task request _ => some (ticketFor task.taskId request)
  | .rejected taskId request => some (ticketFor taskId request)
  | _ => none

/-- The request that is to be completed without the runtime. -/
def settledLocally : Event → Option Ticket
  | .rejected taskId request => some (ticketFor taskId request)
  | .abandoned ticket => some ticket
  | .revoked ticket => some ticket
  | _ => none

def ticketOfCompletion (taskId : Nat) (completion : BackendCompletion) : Ticket :=
  { taskId
    parentRequestId := completion.parentRequestId
    payloadIndex := completion.payloadIndex }

@[simp] theorem ticketOfCompletion_completion (ticket : Ticket) (result : DatagramResult) :
    ticketOfCompletion ticket.taskId (ticket.completion result) = ticket :=
  rfl

def deliveredLocally : Event → Option Ticket
  | .delivered taskId false completion => some (ticketOfCompletion taskId completion)
  | _ => none

def deliveredByRuntime : Event → Option Ticket
  | .delivered taskId true completion => some (ticketOfCompletion taskId completion)
  | _ => none

def completed : Event → Option Ticket
  | .delivered taskId _ completion => some (ticketOfCompletion taskId completion)
  | _ => none

theorem Quiet.accepted {event : Event} (quiet : event.Quiet) : event.accepted = none := by
  cases event <;> first | rfl | cases quiet

theorem Quiet.settledLocally {event : Event} (quiet : event.Quiet) :
    event.settledLocally = none := by
  cases event <;> first | rfl | cases quiet

theorem Quiet.deliveredLocally {event : Event} (quiet : event.Quiet) :
    event.deliveredLocally = none := by
  cases event <;> first | rfl | cases quiet

theorem Quiet.deliveredByRuntime {event : Event} (quiet : event.Quiet) :
    event.deliveredByRuntime = none := by
  cases event <;> first | rfl | cases quiet

end Event

/-- Every accepted request is in one place: it has been settled locally, it has been
delivered by the runtime, it waits, or the runtime has it. What has been settled locally
is delivered in order. -/
structure Accounted (trace : List Event) (books : Books) : Prop where
  everyone : (trace.filterMap Event.accepted).Perm
    (trace.filterMap Event.settledLocally ++ trace.filterMap Event.deliveredByRuntime ++
      (books.pending ++ books.submitted))
  inOrder : trace.filterMap Event.settledLocally =
    trace.filterMap Event.deliveredLocally ++ books.locals

section

variable {projection : Event → Option Ticket}

theorem filterMap_quiet {events : List Event} (quiet : ∀ event ∈ events, event.Quiet)
    (ignores : ∀ event : Event, event.Quiet → projection event = none) :
    events.filterMap projection = [] := by
  rw [List.filterMap_eq_nil_iff]
  intro event member
  exact ignores event (quiet event member)

theorem filterMap_fault {ledger : Ledger} {events : List Event}
    (fault : Breakdown ledger events)
    (ignores : ∀ event : Event, event.Quiet → projection event = none)
    (offers : ∀ tasks status count, projection (.offered tasks status count) = none) :
    events.filterMap projection = [] := by
  cases fault with
  | quiet quiet => exact filterMap_quiet quiet ignores
  | refused => rw [List.filterMap_cons_none (offers _ _ _), List.filterMap_nil]

theorem filterMap_map_some {tickets : List Ticket} {event : Ticket → Event}
    (names : ∀ ticket, projection (event ticket) = some ticket) :
    (tickets.map event).filterMap projection = tickets := by
  rw [List.filterMap_map]
  refine (List.filterMap_congr fun ticket _ => ?_).trans List.filterMap_some
  exact names ticket

theorem filterMap_map_none {tickets : List Ticket} {event : Ticket → Event}
    (ignores : ∀ ticket, projection (event ticket) = none) :
    (tickets.map event).filterMap projection = [] := by
  rw [List.filterMap_map, List.filterMap_eq_nil_iff]
  intro ticket _
  exact ignores ticket

end

namespace Accounted

variable {trace events : List Event} {books after : Books}

/-- The accounts stay right if what the events add on both sides is the same. -/
theorem extend (accounted : Accounted trace books)
    (everyone : ∀ ticket,
      (events.filterMap Event.accepted).count ticket +
          (books.pending.count ticket + books.submitted.count ticket) =
        (events.filterMap Event.settledLocally).count ticket +
          (events.filterMap Event.deliveredByRuntime).count ticket +
          (after.pending.count ticket + after.submitted.count ticket))
    (inOrder : books.locals ++ events.filterMap Event.settledLocally =
      events.filterMap Event.deliveredLocally ++ after.locals) :
    Accounted (trace ++ events) after := by
  constructor
  · rw [List.perm_iff_count]
    intro ticket
    have before := accounted.everyone.count_eq ticket
    have added := everyone ticket
    simp only [List.filterMap_append, List.count_append] at before ⊢
    omega
  · rw [List.filterMap_append, List.filterMap_append, accounted.inOrder, List.append_assoc,
      inOrder, List.append_assoc]

/-- Events that no account is about. -/
theorem quiet (accounted : Accounted trace books)
    (accepted : events.filterMap Event.accepted = [])
    (settled : events.filterMap Event.settledLocally = [])
    (locals : events.filterMap Event.deliveredLocally = [])
    (runtime : events.filterMap Event.deliveredByRuntime = []) :
    Accounted (trace ++ events) books := by
  apply accounted.extend
  · intro ticket
    rw [accepted, settled, runtime]
    simp
  · rw [settled, locals, List.append_nil, List.nil_append]

/-- Every entry keeps the accounts. -/
theorem entry {ledger next : Ledger} (accounted : Accounted trace ledger.toBooks)
    (entry : Entry ledger events next) : Accounted (trace ++ events) next.toBooks := by
  cases entry with
  | quiet quiet =>
      exact accounted.quiet (filterMap_quiet quiet fun _ => Event.Quiet.accepted)
        (filterMap_quiet quiet fun _ => Event.Quiet.settledLocally)
        (filterMap_quiet quiet fun _ => Event.Quiet.deliveredLocally)
        (filterMap_quiet quiet fun _ => Event.Quiet.deliveredByRuntime)
  | flush => exact accounted.quiet rfl rfl rfl rfl
  | retain => exact accounted.quiet rfl rfl rfl rfl
  | queue =>
      apply accounted.extend
      · intro ticket
        simp [Event.accepted, Event.settledLocally, Event.deliveredByRuntime]
        omega
      · simp [Event.settledLocally, Event.deliveredLocally]
  | reject =>
      apply accounted.extend
      · intro ticket
        simp [Event.accepted, Event.settledLocally, Event.deliveredByRuntime]
      · simp [Event.settledLocally, Event.deliveredLocally]
  | @take count =>
      apply accounted.extend
      · intro ticket
        have split := congrArg (List.count ticket) (List.take_append_drop count ledger.pending)
        rw [List.count_append] at split
        simp [Event.accepted, Event.settledLocally, Event.deliveredByRuntime]
        omega
      · simp [Event.settledLocally, Event.deliveredLocally]
  | abandon =>
      have settled : (ledger.pending.map Event.abandoned).filterMap Event.settledLocally =
          ledger.pending := filterMap_map_some fun _ => rfl
      have others : ∀ {projection : Event → Option Ticket},
          (∀ ticket, projection (.abandoned ticket) = none) →
            (ledger.pending.map Event.abandoned).filterMap projection = [] :=
        fun ignores => filterMap_map_none ignores
      apply accounted.extend
      · intro ticket
        rw [List.filterMap_cons_none rfl, List.filterMap_cons_none rfl,
          List.filterMap_cons_none rfl, settled, others fun _ => rfl, others fun _ => rfl]
        simp
      · rw [List.filterMap_cons_none rfl, List.filterMap_cons_none rfl, settled,
          others fun _ => rfl, List.nil_append]
  | @breakdown faults revoked fault all =>
      have settled : (faults ++ (ledger.pending.map Event.abandoned ++
          revoked.map Event.revoked) ++ [Event.draining]).filterMap Event.settledLocally =
            ledger.pending ++ revoked := by
        rw [List.filterMap_append, List.filterMap_append, List.filterMap_append,
          filterMap_fault fault (fun _ => Event.Quiet.settledLocally) fun _ _ _ => rfl,
          filterMap_map_some fun _ => rfl, filterMap_map_some fun _ => rfl]
        simp [Event.settledLocally]
      have others : ∀ {projection : Event → Option Ticket},
          (∀ event : Event, event.Quiet → projection event = none) →
          (∀ tasks status count, projection (.offered tasks status count) = none) →
          (∀ ticket, projection (.abandoned ticket) = none) →
          (∀ ticket, projection (.revoked ticket) = none) →
          (faults ++ (ledger.pending.map Event.abandoned ++
            revoked.map Event.revoked) ++ [Event.draining]).filterMap projection = [] := by
        intro projection quiet offers abandons revokes
        rw [List.filterMap_append, List.filterMap_append, List.filterMap_append,
          filterMap_fault fault quiet offers, filterMap_map_none abandons,
          filterMap_map_none revokes, List.filterMap_cons_none (quiet .draining trivial)]
        rfl
      apply accounted.extend
      · intro ticket
        have same := all.count_eq ticket
        rw [settled, others (fun _ => Event.Quiet.accepted) (fun _ _ _ => rfl) (fun _ => rfl)
          fun _ => rfl, others (fun _ => Event.Quiet.deliveredByRuntime) (fun _ _ _ => rfl)
          (fun _ => rfl) fun _ => rfl]
        simp [same]
      · rw [settled, others (fun _ => Event.Quiet.deliveredLocally) (fun _ _ _ => rfl)
          (fun _ => rfl) fun _ => rfl, List.nil_append]
  | deliverLocal first =>
      apply accounted.extend
      · intro ticket
        simp [Event.accepted, Event.settledLocally, Event.deliveredByRuntime]
      · rw [first]
        simp [Event.settledLocally, Event.deliveredLocally, Event.ticketOfCompletion,
          Ticket.completion]
  | @deliverPolled delivered submitted result one =>
      apply accounted.extend
      · intro ticket
        have count := one.count_eq ticket
        rw [← List.singleton_append, List.count_append] at count
        change List.count ticket [] + _ =
          List.count ticket [] + List.count ticket [delivered] +
            (ledger.pending.count ticket + submitted.count ticket)
        rw [List.count_nil]
        omega
      · exact List.append_nil _

end Accounted

end Ugdr.Gpu
