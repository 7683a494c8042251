import Ugdr.Gpu.StopDiscipline

/-! # Back-pressure

A backend whose runtime is a queue without errors goes on accepting. What can still fail
it is the context of the next task: a request that was completed locally leaves room
before the older tasks of the runtime have left their contexts.
-/

namespace Ugdr.Gpu

open Ugdr.Execution Ugdr.Machine Ugdr.SlotTable Ugdr.Trace
open Ugdr.Worker (BackendRequest BackendCompletion DatagramResult)

variable {σ : Type}

/-! ## A runtime without errors -/

/-- The runtime is a queue that holds the tasks `inFlight`. It takes some of what it is
offered or reports that it is full, and completes the tasks in the order in which it has
taken them. The visibility gate always succeeds. -/
structure Healthy (device : Device σ) (inFlight : σ → List CopyTask) : Prop where
  clock : ∀ state, inFlight (device.now state).2 = inFlight state
  flush : ∀ state, (device.flushToOwner state).1 = none ∧
    inFlight (device.flushToOwner state).2 = inFlight state
  start : ∀ config state, inFlight (device.start config state).2 = []
  submit : ∀ tasks state, tasks ≠ [] →
    ((device.submitBatch tasks state).1.1 = some .eagain ∧
      inFlight (device.submitBatch tasks state).2 = inFlight state) ∨
    ((device.submitBatch tasks state).1.1 = none ∧
      1 ≤ (device.submitBatch tasks state).1.2 ∧
      (device.submitBatch tasks state).1.2 ≤ tasks.length ∧
      inFlight (device.submitBatch tasks state).2 =
        inFlight state ++ tasks.take (device.submitBatch tasks state).1.2)
  poll : ∀ state,
    ((device.poll state).1.1 = some .eagain ∧
      inFlight (device.poll state).2 = inFlight state) ∨
    ((device.poll state).1.1 = none ∧
      ∃ task, task.taskId = (device.poll state).1.2.taskId ∧
        inFlight state = task :: inFlight (device.poll state).2)

/-- The context of the next task is free if there is room for it. -/
def Vacant (host : Host) : Prop :=
  host.outstanding < host.config.queueCapacity →
    ¬(host.publishBlocked = true ∧ host.pending ≠ []) →
    (host.contexts (host.slot host.nextTaskId)).state = .free

/-- Every request of the batch finds a free context. -/
def VacantBatch (device : Device σ) (now : Nat) : List BackendRequest → Backend σ → Prop
  | [], _ => True
  | request :: requests, backend =>
      Vacant backend.host ∧
        ((backend.trySubmitAtTime device request now).1 = true →
          VacantBatch device now requests (backend.trySubmitAtTime device request now).2)

/-- A call that does not stop the backend and whose requests find free contexts. -/
def Unhindered (device : Device σ) (backend : Backend σ) : Backend.Call → Prop
  | .trySubmit _ => Vacant backend.host
  | .trySubmitBatch requests =>
      VacantBatch device (backend.readClock device).1 requests (backend.readClock device).2
  | .requestStop => False
  | _ => True

/-! ## What happens -/

namespace Event

/-- Nothing goes wrong. -/
def Smooth (config : Config) : Event → Prop
  | .queued task request _ => makeCopyTask config request task.taskId = .ok task
  | .rejected taskId request => ∃ status, makeCopyTask config request taskId = .error status
  | .flushed status => status = none
  | .offered _ status _ => status = none ∨ status = some .eagain
  | .polled status _ => status = none ∨ status = some .eagain
  | .delivered _ _ _ => True
  | .started => True
  | .abandoned _ => False
  | .revoked _ => False
  | .stopRequested _ => False
  | .draining => False
  | .stopped => False

/-- The request that has become a task. -/
def becameTask : Event → Option Ticket
  | .queued task request _ => some (ticketFor task.taskId request)
  | _ => none

/-- The request that makes no task. -/
def madeNoTask : Event → Option Ticket
  | .rejected taskId request => some (ticketFor taskId request)
  | _ => none

end Event

/-- The runtime has the tasks that the host believes it has. -/
structure Flows (inFlight : σ → List CopyTask) (system : System σ) : Prop where
  initialized : system.host.initialized = true
  clear : system.host.lastPublishFailure = .none
  smooth : ∀ event ∈ system.trace, event.Smooth system.host.config
  blocked : system.host.publishBlocked = true →
    system.host.pending ≠ [] ∧ leftOver system.trace = system.host.pending
  agree : ∃ books, Represents system.host books ∧
    ((inFlight system.device).map CopyTask.taskId).Perm (books.submitted.map Ticket.taskId)

theorem Represents.names_pending {host : Host} {books : Books}
    (represents : Represents host books) :
    host.pending.map CopyTask.taskId = books.pending.map Ticket.taskId := by
  rw [← represents.pending, Host.pendingTickets, List.map_map]
  apply List.map_congr_left
  intro task member
  exact (represents.consistent.of_mem_pending member).2.symm

/-- The context of a task that the runtime has. -/
theorem Represents.of_mem_submitted {host : Host} {books : Books}
    (represents : Represents host books) {ticket : Ticket} (member : ticket ∈ books.submitted) :
    (host.contexts (host.slot ticket.taskId)).state = .submitted ∧
      (host.contexts (host.slot ticket.taskId)).taskId = ticket.taskId := by
  obtain ⟨index, inside, found⟩ := mem_contents.mp (represents.submitted.mem_iff.mpr member)
  by_cases state : (host.contexts index).state = .submitted
  · rw [ticketIn_of_eq state] at found
    injection found with found
    have own := represents.consistent.owned index inside (by rw [state]; decide)
    have slot : host.slot ticket.taskId = index := by
      rw [← found]
      exact own
    rw [slot]
    exact ⟨state, congrArg Ticket.taskId found⟩
  · rw [ticketIn_of_ne state] at found
    cases found

namespace Flows

variable {device : Device σ} {inFlight : σ → List CopyTask} {system : System σ}

theorem smooth_concat {events : List Event} {config : Config} {event : Event}
    (smooth : ∀ other ∈ events, other.Smooth config) (last : event.Smooth config) :
    ∀ other ∈ events ++ [event], other.Smooth config := by
  intro other member
  rcases List.mem_append.mp member with member | member
  · exact smooth other member
  · exact List.mem_singleton.mp member ▸ last

theorem leftOver_concat (events : List Event) {event : Event}
    (still : ∀ tasks, leftOverStep tasks event = tasks) :
    leftOver (events ++ [event]) = leftOver events := by
  rw [leftOver_append, List.foldl_cons, List.foldl_nil, still]

/-- A call of the device that leaves its tasks alone. -/
theorem answered (flows : Flows inFlight system) {after : σ} {event : Event}
    (same : inFlight after = inFlight system.device) (smooth : event.Smooth system.host.config)
    (still : ∀ tasks, leftOverStep tasks event = tasks) :
    Flows inFlight (system.answered after event) := by
  obtain ⟨books, represents, agree⟩ := flows.agree
  refine ⟨flows.initialized, flows.clear, smooth_concat flows.smooth smooth, ?_, books,
    represents, ?_⟩
  · change _ → _ ∧ leftOver (system.trace ++ [event]) = _
    rw [leftOver_concat _ still]
    exact flows.blocked
  · change ((inFlight after).map _).Perm _
    rw [same]
    exact agree

/-- A change of the flags of the host. -/
theorem flags (flows : Flows inFlight system) {host : Host}
    (core : host.core = system.host.core) (clear : host.lastPublishFailure = .none)
    (blocked : host.publishBlocked = system.host.publishBlocked) :
    Flows inFlight { system with host } := by
  obtain ⟨books, represents, agree⟩ := flows.agree
  have pending : host.pending = system.host.pending := congrArg (fun host => host.pending) core
  refine ⟨?_, clear, ?_, ?_, books, represents.congr core, agree⟩
  · exact (congrArg Host.initialized core).trans flows.initialized
  · have config : host.config = system.host.config := congrArg (fun host => host.config) core
    change ∀ event ∈ system.trace, event.Smooth host.config
    rw [config]
    exact flows.smooth
  · change host.publishBlocked = true → host.pending ≠ [] ∧ leftOver system.trace = host.pending
    rw [blocked, pending]
    exact flows.blocked

variable (healthy : Healthy device inFlight)

include healthy

theorem submitPending (flows : Flows inFlight system) (waiting : system.host.pending ≠ []) :
    (system.submitPending device).1 = none ∧ Flows inFlight (system.submitPending device).2 := by
  have answers := healthy.submit system.host.pending system.device waiting
  rw [System.submitPending]
  dsimp only
  rcases answer : device.submitBatch system.host.pending system.device with ⟨⟨status, count⟩, after⟩
  rw [answer] at answers
  dsimp only at answers ⊢
  rcases answers with ⟨rfl, same⟩ | ⟨rfl, positive, enough, grown⟩
  · obtain ⟨books, represents, agree⟩ := flows.agree
    rw [if_pos rfl]
    refine ⟨rfl, flows.initialized, flows.clear, smooth_concat flows.smooth (.inr rfl),
      fun _ => ⟨waiting, ?_⟩, books, represents.congr rfl, ?_⟩
    · exact leftOver_append _ _
    · change ((inFlight after).map _).Perm _
      rw [same]
      exact agree
  · rw [if_neg (by decide)]
    dsimp only
    rw [if_neg (by omega)]
    obtain ⟨books, represents, agree⟩ := flows.agree
    obtain ⟨contexts, marked, moved⟩ :=
      represents.markSubmitted (List.take_append_drop count system.host.pending).symm
    rw [List.length_take, Nat.min_eq_left enough] at moved
    rw [marked, if_neg (by rintro ⟨⟩)]
    have core := Host.advance_core system.host count contexts
    have config : (system.host.advance count contexts).config = system.host.config :=
      congrArg (fun host => host.config) core
    have clear : (system.host.advance count contexts).lastPublishFailure = .none := by
      rw [Host.advance]
      split <;> exact flows.clear
    refine ⟨rfl, (congrArg Host.initialized core).trans flows.initialized, clear, ?_, ?_, _,
      moved.congr core, ?_⟩
    · change ∀ event ∈ _, Event.Smooth (system.host.advance count contexts).config event
      rw [config]
      exact smooth_concat flows.smooth (.inl rfl)
    · change (system.host.advance count contexts).publishBlocked = true →
        (system.host.advance count contexts).pending ≠ [] ∧
          leftOver (system.trace ++ [.offered system.host.pending none count]) =
            (system.host.advance count contexts).pending
      rw [Host.advance, leftOver_append]
      split
      · rename_i left
        exact fun _ => ⟨left, rfl⟩
      · rintro ⟨⟩
    · change ((inFlight after).map CopyTask.taskId).Perm _
      have names : (system.host.pending.take count).map CopyTask.taskId =
          (books.pending.take count).map Ticket.taskId := by
        rw [List.map_take, List.map_take, represents.names_pending]
      rw [grown, List.map_append, List.map_append, names]
      exact List.perm_append_comm.trans (agree.append_left _)

theorem publishPending (flows : Flows inFlight system) (waiting : system.host.pending ≠ []) :
    (system.publishPending device).1 = none ∧
      Flows inFlight (system.publishPending device).2 := by
  have ready : Flows inFlight (system.withFailure .none) := flows.flags rfl rfl rfl
  by_cases flushed : system.host.pendingFlushed = true
  · rw [System.publishPending_of_flushed flushed]
    exact submitPending healthy ready waiting
  · rw [Bool.not_eq_true] at flushed
    obtain ⟨seen, same⟩ := healthy.flush system.device
    rcases answer : device.flushToOwner system.device with ⟨status, after⟩
    rw [answer] at seen same
    dsimp only at seen same
    subst seen
    have noted : Flows inFlight ((system.withFailure .none).answered after (.flushed none)) :=
      ready.answered same rfl fun _ => rfl
    rw [System.publishPending_of_seen flushed answer]
    exact submitPending healthy (noted.flags rfl rfl rfl) waiting

theorem progressHostBatch (flows : Flows inFlight system) (now : Nat) :
    (system.progressHostBatch device now).1 = none ∧
      Flows inFlight (system.progressHostBatch device now).2 := by
  rw [System.progressHostBatch, if_neg (by rw [flows.initialized]; decide)]
  split
  · exact ⟨rfl, flows⟩
  · rename_i waiting
    split
    · exact ⟨rfl, flows⟩
    · exact publishPending healthy flows (mt List.length_eq_zero_iff.mpr waiting)

theorem publishPendingNow (flows : Flows inFlight system) :
    (system.publishPendingNow device).1 = none ∧
      Flows inFlight (system.publishPendingNow device).2 := by
  rw [System.publishPendingNow, if_neg (by rw [flows.initialized]; decide)]
  split
  · exact ⟨rfl, flows⟩
  · rename_i waiting
    exact publishPending healthy flows (mt List.length_eq_zero_iff.mpr waiting)

omit healthy in
theorem deliverLocal (flows : Flows inFlight system) (nonempty : system.host.localCount ≠ 0) :
    Flows inFlight
      (system.deliverLocal
        (system.host.localTaskIds (system.host.slot system.host.localHead))) := by
  obtain ⟨books, represents, agree⟩ := flows.agree
  obtain ⟨locals, taskId, head, -, -, -, -, moved⟩ := represents.deliverLocal nonempty
  rw [← head]
  refine ⟨flows.initialized, flows.clear, smooth_concat flows.smooth trivial, ?_, _,
    moved.congr rfl, agree⟩
  rw [System.deliverLocal, leftOver_concat _ fun _ => rfl]
  exact flows.blocked

omit healthy in
theorem deliverPolled (flows : Flows inFlight system) {task : CopyTask}
    {completion : CopyCompletion} {after : σ} (named : task.taskId = completion.taskId)
    (first : inFlight system.device = task :: inFlight after) :
    (system.host.contexts (system.host.slot completion.taskId)).state = .submitted ∧
      (system.host.contexts (system.host.slot completion.taskId)).taskId = completion.taskId ∧
      system.host.outstanding ≠ 0 ∧
      Flows inFlight
        ((system.answered after (.polled none completion)).deliverPolled completion) := by
  obtain ⟨books, represents, agree⟩ := flows.agree
  rw [first, List.map_cons, named] at agree
  obtain ⟨ticket, member, same⟩ :=
    List.mem_map.mp (agree.mem_iff.mp List.mem_cons_self)
  obtain ⟨taken, own⟩ := represents.of_mem_submitted member
  rw [same] at taken own
  obtain ⟨submitted, one, outstanding, moved⟩ := represents.deliverSubmitted taken
  refine ⟨taken, own, outstanding, flows.initialized, flows.clear, ?_, ?_, _, moved.congr rfl, ?_⟩
  · have polled : ∀ event ∈ system.trace ++ [.polled none completion],
        event.Smooth system.host.config := smooth_concat flows.smooth (.inl rfl)
    exact smooth_concat polled trivial
  · rw [System.deliverPolled, System.answered, leftOver_concat _ fun _ => rfl,
      leftOver_concat _ fun _ => rfl]
    exact flows.blocked
  · have counted := agree.trans (one.map Ticket.taskId)
    have head : (system.host.ticketOf completion.taskId).taskId = completion.taskId := own
    rw [List.map_cons, head] at counted
    exact counted.cons_inv

theorem readCompletion (flows : Flows inFlight system) :
    (system.readCompletion device).1.1 = none ∧
      Flows inFlight (system.readCompletion device).2 := by
  obtain ⟨books, represents, -⟩ := flows.agree
  rw [System.readCompletion]
  dsimp only
  by_cases ready : system.host.localHead < system.host.localTail
  · have nonempty : system.host.localCount ≠ 0 := by
      have tail := represents.consistent.tail
      rw [Host.localCount, wrapSub_of_le (Nat.le_of_lt ready) tail]
      exact Nat.sub_ne_zero_of_lt ready
    have delivered := flows.deliverLocal nonempty
    obtain ⟨-, taskId, head, -, failing, named, outstanding, -⟩ :=
      represents.deliverLocal nonempty
    rw [if_pos ready, ← head, if_neg (by simp [failing, named, outstanding])]
    rw [← head] at delivered
    exact ⟨rfl, delivered⟩
  · rw [if_neg ready]
    have answers := healthy.poll system.device
    rcases answer : device.poll system.device with ⟨⟨status, completion⟩, after⟩
    rw [answer] at answers
    dsimp only at answers ⊢
    rcases answers with ⟨rfl, same⟩ | ⟨rfl, task, named, first⟩
    · have polled : Flows inFlight (system.answered after (.polled (some .eagain) completion)) :=
        flows.answered same (.inr rfl) fun _ => rfl
      rw [if_pos rfl]
      exact ⟨rfl, polled⟩
    · obtain ⟨taken, own, outstanding, delivered⟩ := flows.deliverPolled named first
      rw [if_neg (by decide)]
      dsimp only
      rw [if_neg (by simp [taken, own, outstanding])]
      exact ⟨rfl, delivered⟩

theorem tryPopCompletion (flows : Flows inFlight system) (now : Nat) :
    (system.tryPopCompletion device now).1.1 = none ∧
      Flows inFlight (system.tryPopCompletion device now).2 := by
  have progress := progressHostBatch healthy flows now
  rw [System.tryPopCompletion, if_neg (by rw [flows.initialized]; decide)]
  rcases result : system.progressHostBatch device now with ⟨status, after⟩
  rw [result] at progress
  obtain ⟨rfl, next⟩ := progress
  exact readCompletion healthy next

omit healthy in
theorem enqueue (flows : Flows inFlight system) {request : BackendRequest} {task : CopyTask}
    (now : Nat) (unblocked : system.host.publishBlocked = false)
    (free : (system.host.contexts (system.host.slot system.host.nextTaskId)).state = .free)
    (valid : makeCopyTask system.host.config request system.host.nextTaskId = .ok task) :
    Flows inFlight (system.enqueue request task now) := by
  obtain ⟨books, represents, agree⟩ := flows.agree
  have named := makeCopyTask_taskId valid
  refine ⟨flows.initialized, flows.clear, smooth_concat flows.smooth ?_, fun blocked => ?_, _,
    represents.queued now free valid, agree⟩
  · change makeCopyTask system.host.config request task.taskId = _
    rw [named]
    exact valid
  · change system.host.publishBlocked = true at blocked
    rw [unblocked] at blocked
    cases blocked

omit healthy in
theorem completeLocally (flows : Flows inFlight system) {request : BackendRequest}
    {status : Errno} (free : (system.host.contexts
      (system.host.slot system.host.nextTaskId)).state = .free)
    (invalid : makeCopyTask system.host.config request system.host.nextTaskId = .error status) :
    Flows inFlight (system.completeLocally request .backendError) := by
  obtain ⟨books, represents, agree⟩ := flows.agree
  set context : TaskContextSlot :=
    { taskId := system.host.nextTaskId
      parentRequestId := request.parentRequestId
      payloadIndex := request.payloadIndex
      state := .localError
      result := .backendError } with context_eq
  have failing : context.state = .localError := rfl
  have moved := represents.reject free failing rfl
  refine ⟨flows.initialized, flows.clear, smooth_concat flows.smooth ⟨status, invalid⟩, ?_, _,
    moved.congr rfl, agree⟩
  rw [System.completeLocally, leftOver_concat _ fun _ => rfl]
  exact flows.blocked

/-- A request is refused only for want of room, it makes no task, or it is taken. -/
theorem trySubmit (flows : Flows inFlight system) (vacant : Vacant system.host)
    (request : BackendRequest) (now : Nat) :
    ((system.trySubmit device request now).1.1 = none ∧
      Flows inFlight (system.trySubmit device request now).2 ∧
      ((system.trySubmit device request now).1.2 = false →
        system.host.outstanding = system.host.config.queueCapacity ∨
          (system.host.pending ≠ [] ∧ leftOver system.trace = system.host.pending))) ∨
    (Backend.Ready system.host ∧
      (∃ status, makeCopyTask system.host.config request system.host.nextTaskId =
        .error status) ∧
      system.trySubmit device request now = ((some .einval, false), system)) := by
  rw [System.trySubmit]
  dsimp only
  rw [if_neg (by rw [flows.initialized]; decide)]
  split
  · rename_i refused
    obtain ⟨books, represents, -⟩ := flows.agree
    exact .inl ⟨rfl, flows, fun _ => refused.imp
      (fun full => Nat.le_antisymm represents.consistent.outstanding_le full)
      fun blocked => flows.blocked blocked.1⟩
  · rename_i room
    obtain ⟨room, unblocked⟩ := not_or.mp room
    have unblocked : system.host.publishBlocked = false := by
      rw [← Bool.not_eq_true]
      exact fun blocked => unblocked
        ⟨blocked, mt List.length_eq_zero_iff.mp (flows.blocked blocked).1⟩
    have free := vacant (Nat.lt_of_not_le room) fun blocked => by
      rw [unblocked] at blocked
      cases blocked.1
    rw [if_neg (not_not_intro free)]
    rcases made : makeCopyTask system.host.config request system.host.nextTaskId with status | task
    · right
      rw [Backend.makeCopyTask_error made]
      exact ⟨⟨Nat.lt_of_not_le room, free⟩, ⟨_, rfl⟩, rfl⟩
    · left
      have queued := flows.enqueue now unblocked free made
      have waiting : (system.enqueue request task now).host.pending ≠ [] := by
        simp [System.enqueue]
      dsimp only
      split
      · obtain ⟨published, next⟩ := publishPending healthy queued waiting
        exact ⟨published, next, by rintro ⟨⟩⟩
      · exact ⟨rfl, queued, by rintro ⟨⟩⟩

end Flows

/-! ## Calls -/

/-- The backend accepts and has met no error. -/
structure Smooth (inFlight : σ → List CopyTask) (backend : Backend σ) : Prop where
  accepting : backend.state = .accepting
  quiet : backend.lastError = none
  flows : Flows inFlight backend.system

namespace Smooth

variable {device : Device σ} {inFlight : σ → List CopyTask} {backend : Backend σ}

variable (healthy : Healthy device inFlight)

include healthy

theorem readClock (smooth : Smooth inFlight backend) :
    Smooth inFlight (backend.readClock device).2 := by
  have flows := smooth.flows
  obtain ⟨books, represents, agree⟩ := flows.agree
  refine ⟨smooth.accepting, smooth.quiet, flows.initialized, flows.clear, flows.smooth,
    flows.blocked, books, represents, ?_⟩
  change ((inFlight (device.now backend.system.device).2).map _).Perm _
  rw [healthy.clock]
  exact agree

theorem trySubmitAtTime (smooth : Smooth inFlight backend) (vacant : Vacant backend.host)
    (request : BackendRequest) (now : Nat) :
    Smooth inFlight (backend.trySubmitAtTime device request now).2 ∧
      ((backend.trySubmitAtTime device request now).1 = false →
        backend.host.outstanding = backend.host.config.queueCapacity ∨
          (backend.host.pending ≠ [] ∧ leftOver backend.trace = backend.host.pending)) := by
  rw [Backend.trySubmitAtTime]
  rcases Flows.trySubmit healthy smooth.flows vacant request now with
    ⟨done, next, refused⟩ | ⟨ready, ⟨status, invalid⟩, failed⟩
  · rcases result : backend.system.trySubmit device request now with ⟨⟨status, took⟩, after⟩
    rw [result] at done next refused
    dsimp only at done
    subst done
    exact ⟨⟨smooth.accepting, smooth.quiet, next⟩, refused⟩
  · have completed := @Backend.System.tryCompleteLocally_of_ready _ backend.system request
      .backendError
      smooth.flows.initialized ready
    rw [failed]
    dsimp only
    rw [if_pos ⟨rfl, rfl, smooth.flows.clear⟩, completed]
    exact ⟨⟨smooth.accepting, smooth.quiet, smooth.flows.completeLocally ready.2 invalid⟩,
      by rintro ⟨⟩⟩

theorem submitAll (smooth : Smooth inFlight backend) (now : Nat)
    {requests : List BackendRequest} (vacant : VacantBatch device now requests backend) :
    Smooth inFlight (backend.submitAll device now requests).2 := by
  induction requests generalizing backend with
  | nil => exact smooth
  | cons request requests induction =>
      have next := (trySubmitAtTime healthy smooth vacant.1 request now).1
      have later := vacant.2
      rw [Backend.submitAll]
      rcases result : backend.trySubmitAtTime device request now with ⟨accepted, after⟩
      rw [result] at next later
      cases accepted with
      | false => exact next
      | true => exact induction next (later rfl)

theorem tryPopCompletionAtTime (smooth : Smooth inFlight backend) (now : Nat) :
    Smooth inFlight (backend.tryPopCompletionAtTime device now).2 := by
  obtain ⟨done, next⟩ := Flows.tryPopCompletion healthy smooth.flows now
  have attempt : (backend.attemptPop device now).2 =
      { backend with system := (backend.system.tryPopCompletion device now).2 } := by
    rw [Backend.attemptPop]
    rcases result : backend.system.tryPopCompletion device now with ⟨⟨status, completion⟩, after⟩
    rw [result] at done
    dsimp only at done
    subst done
    rfl
  have after : Smooth inFlight (backend.attemptPop device now).2 := by
    rw [attempt]
    exact ⟨smooth.accepting, smooth.quiet, next⟩
  rw [Backend.tryPopCompletionAtTime, if_neg (by rw [after.accepting]; decide)]
  exact after

theorem popAll (smooth : Smooth inFlight backend) (now capacity : Nat) :
    Smooth inFlight (backend.popAll device now capacity).2 := by
  induction capacity generalizing backend with
  | zero => exact smooth
  | succ capacity induction =>
      have next := tryPopCompletionAtTime healthy smooth now
      rw [Backend.popAll]
      rcases result : backend.tryPopCompletionAtTime device now with ⟨completion, after⟩
      rw [result] at next
      cases completion with
      | none => exact next
      | some completion => exact induction next

theorem flushSubmissions (smooth : Smooth inFlight backend) :
    Smooth inFlight (backend.flushSubmissions device).2 := by
  obtain ⟨done, next⟩ := Flows.publishPendingNow healthy smooth.flows
  rw [Backend.flushSubmissions, if_neg (not_not_intro smooth.accepting),
    Backend.publishPendingNow]
  rcases result : backend.system.publishPendingNow device with ⟨status, after⟩
  rw [result] at done next
  dsimp only at done
  subst done
  exact ⟨smooth.accepting, smooth.quiet, next⟩

theorem step (smooth : Smooth inFlight backend) {call : Backend.Call}
    (unhindered : Unhindered device backend call) :
    Smooth inFlight (backend.step device call) := by
  have running : backend.state ≠ .stopped := by
    rw [smooth.accepting]
    decide
  have accepting := not_not_intro smooth.accepting
  have clock := readClock healthy smooth
  cases call with
  | start config =>
      rw [Backend.step, Backend.start, if_pos (.inl running)]
      exact smooth
  | trySubmit request =>
      rw [Backend.step, Backend.trySubmit, if_neg accepting]
      exact (trySubmitAtTime healthy clock unhindered request _).1
  | trySubmitBatch requests =>
      rw [Backend.step, Backend.trySubmitBatch, if_neg accepting]
      exact submitAll healthy clock _ unhindered
  | flushSubmissions => exact flushSubmissions healthy smooth
  | tryPopCompletion =>
      rw [Backend.step, Backend.tryPopCompletion, if_neg running]
      exact tryPopCompletionAtTime healthy clock _
  | tryPopCompletionBatch capacity =>
      rw [Backend.step, Backend.tryPopCompletionBatch, if_neg running]
      exact popAll healthy clock _ capacity
  | requestStop => exact unhindered.elim
  | wait =>
      have idle : backend.state ≠ .draining := by
        rw [smooth.accepting]
        decide
      rw [Backend.step, Backend.wait, if_pos idle]
      exact smooth

end Smooth

/-! ## Runs -/

/-- The backend accepts and has met no error. Every request that makes no task is completed
with an error, in order, and every other one with what the runtime reports. A request is
only refused if all places are taken, or if the waiting tasks are what the full runtime has
left of the last batch. -/
structure NeverFails (device : Device σ) (backend : Backend σ) : Prop where
  accepting : backend.state = .accepting
  quiet : backend.lastError = none
  smooth : ∀ event ∈ backend.trace, event.Smooth backend.host.config
  rejected : backend.trace.filterMap Event.madeNoTask =
    backend.trace.filterMap Event.deliveredLocally ++ backend.host.localTickets
  valid : (backend.trace.filterMap Event.becameTask).Perm
    (backend.trace.filterMap Event.deliveredByRuntime ++
      (backend.host.pendingTickets ++ backend.host.ticketsIn .submitted))
  reports : Every ReportsResult backend.trace
  refuses : ∀ request, Vacant backend.host → (backend.trySubmit device request).1 = false →
    backend.host.outstanding = backend.host.config.queueCapacity ∨
      (backend.host.pending ≠ [] ∧ leftOver backend.trace = backend.host.pending)

/-- Only requests that make no task are settled locally. -/
theorem settledLocally_of_smooth {config : Config} {trace : List Event}
    (smooth : ∀ event ∈ trace, event.Smooth config) :
    trace.filterMap Event.settledLocally = trace.filterMap Event.madeNoTask := by
  apply List.filterMap_congr
  intro event member
  have calm := smooth event member
  cases event <;> first | rfl | cases calm

theorem count_accepted (ticket : Ticket) (trace : List Event) :
    (trace.filterMap Event.accepted).count ticket =
      (trace.filterMap Event.madeNoTask).count ticket +
        (trace.filterMap Event.becameTask).count ticket := by
  induction trace using List.reverseRecOn with
  | nil => rfl
  | append_singleton trace event induction =>
      simp only [List.filterMap_append, List.count_append, induction, filterMap_singleton]
      cases event <;> simp [Event.accepted, Event.madeNoTask, Event.becameTask] <;> omega

/-- A backend that has been started. -/
theorem smooth_start {device : Device σ} {inFlight : σ → List CopyTask}
    (healthy : Healthy device inFlight) (initial : σ) {config : Config}
    (valid : ValidConfig config) (succeeds : Succeeds device config initial) :
    Smooth inFlight (Backend.step device (Backend.create initial) (.start config)) := by
  have ready : ¬((Backend.create initial).state ≠ .stopped ∨ validateConfig config ≠ none) := by
    rw [not_or, not_ne_iff, not_ne_iff]
    exact ⟨rfl, valid.valid⟩
  have accepted : ¬(({} : Host).initialized = true ∨ validateConfig config ≠ none ∨
      (2 ^ 64 - 1) / contextSlotBytes < config.queueCapacity) := by
    rw [not_or, not_or, not_ne_iff, not_lt]
    exact ⟨by decide, valid.valid, valid.small⟩
  rw [Backend.step, Backend.start, if_neg ready]
  dsimp only [Backend.create]
  rw [succeeds.opened]
  dsimp only
  rw [succeeds.gated]
  dsimp only
  rw [System.initializeHost]
  dsimp only
  rw [if_neg accepted, if_neg (by rw [succeeds.allocated]; decide)]
  dsimp only
  rw [succeeds.launched]
  refine ⟨rfl, rfl, rfl, rfl, ?_, (fun wrong => by cases wrong), ⟨[], [], []⟩, ?_, ?_⟩
  · intro event member
    rw [List.mem_singleton.mp member]
    trivial
  · exact represents_fresh valid rfl rfl rfl rfl rfl rfl
  · change ((inFlight (device.start config _).2).map _).Perm _
    rw [healthy.start]
    exact List.Perm.refl _

/-- With a runtime without errors, the backend never fails as long as every request that
there is room for finds a free context. -/
theorem healthy_backend_never_fails (device : Device σ) (inFlight : σ → List CopyTask)
    (healthy : Healthy device inFlight) (initial : σ) (config : Config)
    (valid : ValidConfig config) (succeeds : Succeeds device config initial)
    (calls : List Backend.Call)
    (unhindered : Along (Backend.step device) (Unhindered device)
      (Backend.step device (Backend.create initial) (.start config)) calls) :
    NeverFails device
      (run (Backend.step device) (Backend.create initial) (.start config :: calls)) := by
  have smooth : Smooth inFlight
      (run (Backend.step device) (Backend.create initial) (.start config :: calls)) := by
    rw [run_cons]
    exact run_invariant_along (fun _ _ unhindered smooth => Smooth.step healthy smooth unhindered)
      (smooth_start healthy initial valid succeeds) unhindered
  have flushes := flush_before_publish device initial (.start config :: calls)
  have reports := (every_request_accounted_once device initial (.start config :: calls)).reports
  generalize run (Backend.step device) (Backend.create initial) (.start config :: calls) =
    backend at *
  have rejected : backend.trace.filterMap Event.settledLocally =
      backend.trace.filterMap Event.madeNoTask := settledLocally_of_smooth smooth.flows.smooth
  refine ⟨smooth.accepting, smooth.quiet, smooth.flows.smooth, rejected ▸ flushes.settled, ?_,
    reports, ?_⟩
  · rw [List.perm_iff_count]
    intro ticket
    have everyone := flushes.everyone.count_eq ticket
    rw [count_accepted, rejected] at everyone
    simp only [List.count_append] at everyone ⊢
    omega
  · intro request vacant
    rw [Backend.trySubmit, if_neg (not_not_intro smooth.accepting)]
    exact (Smooth.trySubmitAtTime healthy (Smooth.readClock healthy smooth) vacant request _).2

/-- A queue with room for `capacity` tasks that completes one at each poll. Its clock stands
still. -/
def promptRuntime (capacity : Nat) : Device (List CopyTask) where
  initializeDevice _ tasks := (none, tasks)
  initializeGate _ tasks := (none, tasks)
  allocate tasks := (true, tasks)
  start _ _ := (none, [])
  submitBatch offered tasks :=
    if capacity ≤ tasks.length then ((some .eagain, 0), tasks)
    else
      ((none, min offered.length (capacity - tasks.length)),
        tasks ++ offered.take (min offered.length (capacity - tasks.length)))
  poll
    | [] => ((some .eagain, { taskId := 0, result := .success }), [])
    | task :: tasks => ((none, { taskId := task.taskId, result := .success }), tasks)
  requestStop tasks := (none, tasks)
  wait tasks := (none, tasks)
  resetRuntime tasks := (none, tasks)
  flushToOwner tasks := (none, tasks)
  resetGate tasks := (none, tasks)
  now tasks := (0, tasks)

theorem healthy_promptRuntime (capacity : Nat) : Healthy (promptRuntime capacity) id := by
  refine ⟨fun _ => rfl, fun _ => ⟨rfl, rfl⟩, fun _ _ => rfl, ?_, ?_⟩
  · intro offered tasks waiting
    have some := List.length_pos_iff.mpr waiting
    dsimp only [promptRuntime]
    split
    · exact .inl ⟨rfl, rfl⟩
    · right
      refine ⟨rfl, ?_, ?_, rfl⟩
      · dsimp only
        omega
      · exact Nat.min_le_left _ _
  · intro tasks
    cases tasks with
    | nil => exact .inl ⟨rfl, rfl⟩
    | cons task tasks => exact .inr ⟨rfl, task, rfl, rfl⟩

/-- A request whose source lies outside of the stage buffer. -/
def strayRequest : BackendRequest :=
  { smallRequest 63 with sourceDaemonAddress := 0 }

/-- A valid request and a stray one are taken and the stray one is completed. -/
theorem healthy_backend_never_fails_small :
    NeverFails (promptRuntime 64)
      (run (Backend.step (promptRuntime 64)) (Backend.create [])
        [.start (smallConfig 64), .trySubmitBatch [smallRequest 0, strayRequest],
          .tryPopCompletion, .trySubmit (smallRequest 1)]) := by
  apply healthy_backend_never_fails (promptRuntime 64) id (healthy_promptRuntime 64) []
    (smallConfig 64)
  · exact ⟨by decide, by decide⟩
  · exact ⟨rfl, rfl, rfl, rfl⟩
  · refine ⟨⟨fun _ _ => ?_, fun _ => ⟨fun _ _ => ?_, fun _ => trivial⟩⟩, trivial,
      fun _ _ => ?_, trivial⟩
    · decide +kernel
    · decide +kernel
    · decide +kernel

/-- A stray request after 63 valid ones, and a poll that completes it. -/
def strayBatch : List Backend.Call :=
  [.start (smallConfig 64),
    .trySubmitBatch ((List.range 63).map smallRequest ++ [strayRequest]),
    .tryPopCompletion]

/-- The first task still has its context, which is that of the next task as well. The next
request finds room and fails the backend. -/
theorem backpressure_fails_backend :
    Healthy (promptRuntime 64) id ∧
      (run (Backend.step (promptRuntime 64)) (Backend.create []) strayBatch).state =
        .accepting ∧
      (run (Backend.step (promptRuntime 64)) (Backend.create []) strayBatch).host.outstanding =
        63 ∧
      (run (Backend.step (promptRuntime 64)) (Backend.create [])
        (strayBatch ++ [.trySubmit (smallRequest 63)])).state = .draining ∧
      (run (Backend.step (promptRuntime 64)) (Backend.create [])
        (strayBatch ++ [.trySubmit (smallRequest 63)])).lastError = some .eproto := by
  refine ⟨healthy_promptRuntime 64, ?_⟩
  decide +kernel

end Ugdr.Gpu
