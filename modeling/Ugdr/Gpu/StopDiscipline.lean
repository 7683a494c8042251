import Ugdr.Gpu.Lifecycle

/-! # Stop discipline

A backend that stops takes no request and publishes nothing new, except that the loop of
`try_submit_batch` does not notice when the runtime fails on a batch in its middle.
-/

namespace Ugdr.Gpu

open Ugdr.Execution Ugdr.Machine Ugdr.SlotTable Ugdr.Trace
open Ugdr.Worker (BackendRequest BackendCompletion DatagramResult)

variable {σ : Type}

/-- A request is only taken while the backend accepts, and the runtime is offered nothing
after it was asked to stop. -/
def ObeysStop (before : List Event) (event : Event) : Prop :=
  (event.accepted ≠ none → stateAfter before = .accepting) ∧
    (event.Offers → stopAsked before = false)

/-! ## Strict steps -/

structure Obedient (backend : Backend σ) : Prop where
  silent : stopAsked backend.trace = true →
    backend.state ≠ .accepting ∧ backend.host.pending = []
  obeys : Every ObeysStop backend.trace

namespace Obedient

variable {device : Device σ} {backend next : Backend σ} {ledger : Ledger}

theorem every_steady {events : List Event} (obedient : Obedient backend)
    (timely : Timely backend) (steady : ∀ event ∈ events, event.Steady)
    (takes : ∀ event ∈ events, event.accepted ≠ none → backend.state = .accepting)
    (offers : ∀ event ∈ events, event.Offers → backend.host.pending ≠ []) :
    Every ObeysStop (backend.trace ++ events) := by
  have state : ∀ {some : List Event}, (∀ event ∈ some, event.Steady) →
      stateAfter (backend.trace ++ some) = backend.state := by
    intro some still
    rw [stateAfter_append, foldl_steady still stateStep_steady, timely.state]
  have asked : ∀ {some : List Event}, (∀ event ∈ some, event.Steady) →
      stopAsked (backend.trace ++ some) = stopAsked backend.trace := by
    intro some still
    rw [stopAsked_append, foldl_steady still stopStep_steady]
  induction events using List.reverseRecOn with
  | nil =>
      rw [List.append_nil]
      exact obedient.obeys
  | append_singleton events event induction =>
      have earlier : ∀ event ∈ events, event.Steady := fun other member =>
        steady other (List.mem_append_left _ member)
      rw [← List.append_assoc, every_concat]
      refine ⟨induction earlier (fun other member => takes other (List.mem_append_left _ member))
        fun other member => offers other (List.mem_append_left _ member), ?_, ?_⟩
      · rw [state earlier]
        exact takes event (List.mem_append_right _ (List.mem_singleton.mpr rfl))
      · rw [asked earlier]
        intro offering
        have waiting := offers event (List.mem_append_right _ (List.mem_singleton.mpr rfl)) offering
        by_contra stopping
        rw [Bool.not_eq_false] at stopping
        exact waiting (obedient.silent stopping).2

theorem step (obedient : Obedient backend) (timely : Timely backend)
    (sound : Sound backend ledger) (step : Backend.Step device True backend next) :
    Obedient next := by
  obtain ⟨events, trace, change⟩ := step.change sound.keeps
  cases change with
  | steady steady state requested takes offers pending =>
      refine ⟨?_, ?_⟩
      · rw [trace, stopAsked_append, foldl_steady steady stopStep_steady, state]
        intro asked
        obtain ⟨running, empty⟩ := obedient.silent asked
        refine ⟨running, by_contra fun waiting => ?_⟩
        rcases pending waiting with before | accepting
        · exact before empty
        · exact running (accepting trivial)
      · rw [trace]
        exact obedient.every_steady timely steady
          (fun event member accepts => takes event member accepts trivial) offers
  | @drain events steady running state requested takes offers pending =>
      refine ⟨?_, ?_⟩
      · rw [trace, ← List.append_assoc, stopAsked_append, stopAsked_append,
          foldl_steady steady stopStep_steady, state]
        intro asked
        refine ⟨by decide, by_contra fun waiting => ?_⟩
        exact pending waiting (obedient.silent asked).2
      · rw [trace, ← List.append_assoc, every_concat]
        refine ⟨obedient.every_steady timely steady
          (fun event member accepts => absurd (takes event member) accepts) offers, ?_, ?_⟩
        · exact fun accepts => absurd rfl accepts
        · exact fun offering => offering.elim
  | stopRequest draining state empty =>
      refine ⟨fun _ => ⟨by rw [state]; decide, empty⟩, ?_⟩
      rw [trace]
      exact every_concat.mpr ⟨obedient.obeys, fun accepts => absurd rfl accepts,
        fun offering => offering.elim⟩
  | finish draining requested nothing state empty =>
      refine ⟨fun _ => ⟨by rw [state]; decide, empty⟩, ?_⟩
      rw [trace]
      exact every_concat.mpr ⟨obedient.obeys, fun accepts => absurd rfl accepts,
        fun offering => offering.elim⟩
  | start stopped state =>
      refine ⟨?_, ?_⟩
      · rw [trace, stopAsked_append]
        exact fun asked => by cases asked
      · rw [trace]
        exact every_concat.mpr ⟨obedient.obeys, fun accepts => absurd rfl accepts,
          fun offering => offering.elim⟩

end Obedient

/-! ## A batch in which the runtime fails -/

/-- The request fills the batch, the batch is flushed, and the runtime fails on it. -/
def Overruled (device : Device σ) (request : BackendRequest) (backend : Backend σ) : Prop :=
  backend.host.pending.length + 1 = hostBatchSize ∧
    ∃ task, makeCopyTask backend.host.config request backend.host.nextTaskId = .ok task ∧
      (device.flushToOwner backend.system.device).1 = none ∧
      ∃ status count after,
        device.submitBatch (backend.host.pending ++ [task])
          (device.flushToOwner backend.system.device).2 = ((status, count), after) ∧
        status ≠ some .eagain ∧
        (status = none → count = 0 ∨ hostBatchSize < count)

/-- The runtime fails on the batch that the request fills, while there is room for one more
request. -/
def Disturbs (device : Device σ) (request : BackendRequest) (backend : Backend σ) : Prop :=
  Overruled device request backend ∧
    backend.host.outstanding + 1 < backend.host.capacity ∧
    (backend.host.contexts
      (backend.host.slot (wrapAdd 64 backend.host.nextTaskId 1))).state = .free

/-- No request of the batch but the last disturbs it. -/
def NeverDisturbed (device : Device σ) (now : Nat) : List BackendRequest → Backend σ → Prop
  | [], _ => True
  | [_], _ => True
  | request :: next :: requests, backend =>
      ¬Disturbs device request backend ∧
        ((backend.trySubmitAtTime device request now).1 = true →
          NeverDisturbed device now (next :: requests)
            (backend.trySubmitAtTime device request now).2)

/-- A call that does not meet a failing runtime in the middle of its batch. -/
def Steadfast (device : Device σ) (backend : Backend σ) : Backend.Call → Prop
  | .trySubmitBatch requests =>
      NeverDisturbed device (backend.readClock device).1 requests (backend.readClock device).2
  | _ => True

namespace Represents

variable {host : Host} {books : Books} (represents : Represents host books)

include represents

/-- A context that is not free is that of a request in the books. -/
theorem mem_of_occupied {index : Nat} (inside : index < host.capacity)
    (occupied : (host.contexts index).state ≠ .free) :
    ∃ ticket ∈ books.pending ++ books.submitted ++ books.locals,
      host.slot ticket.taskId = index := by
  refine ⟨(host.contexts index).ticket, represents.tickets_perm.mem_iff.mp ?_,
    represents.consistent.owned index inside occupied⟩
  exact mem_contents.mpr ⟨index, inside, if_neg occupied⟩

/-- The context of a request in the books is not free. -/
theorem occupied_of_mem {ticket : Ticket}
    (member : ticket ∈ books.pending ++ books.submitted ++ books.locals) :
    (host.contexts (host.slot ticket.taskId)).state ≠ .free := by
  obtain ⟨index, inside, found⟩ := mem_contents.mp (represents.tickets_perm.mem_iff.mpr member)
  rw [held] at found
  split at found
  · cases found
  · rename_i occupied
    injection found with found
    have own := represents.consistent.owned index inside occupied
    have named : ticket.taskId = (host.contexts index).taskId := by
      rw [← found]
      rfl
    rw [named, own]
    exact occupied

end Represents

namespace System

variable {device : Device σ} {system after : System σ} {status : Errno}

/-- How `publish_pending` fails on a batch that has been flushed. -/
theorem submitPending_fails {books : Books} (represents : Represents system.host books)
    (failed : system.submitPending device = (some status, after)) :
    ∃ answer count later,
      device.submitBatch system.host.pending system.device = ((answer, count), later) ∧
      answer ≠ some .eagain ∧
      (answer = none → count = 0 ∨ system.host.pending.length < count) ∧
      after.host = { system.host with lastPublishFailure := .queue } := by
  rcases answer : device.submitBatch system.host.pending system.device with
    ⟨⟨answer', count⟩, later⟩
  refine ⟨answer', count, later, rfl, ?_⟩
  rw [submitPending, answer] at failed
  dsimp only at failed
  split at failed
  · cases failed
  · rename_i again
    refine ⟨again, ?_⟩
    cases answer' with
    | some other =>
        injection failed with _ failed
        exact ⟨fun wrong => (by cases wrong), by rw [← failed]⟩
    | none =>
        dsimp only at failed
        split at failed
        · rename_i useless
          injection failed with _ failed
          exact ⟨fun _ => useless, by rw [← failed]⟩
        · obtain ⟨contexts, marked, -⟩ :=
            represents.markSubmitted (List.take_append_drop count system.host.pending).symm
          rw [marked, if_neg (by simp)] at failed
          cases failed

/-- `try_submit` reports an error of a request that it has taken only if the batch is full
and its publication fails. -/
theorem trySubmit_fails {request : BackendRequest} {now : Nat}
    (failed : system.trySubmit device request now = ((some status, true), after)) :
    ∃ task, makeCopyTask system.host.config request system.host.nextTaskId = .ok task ∧
      (system.host.contexts (system.host.slot system.host.nextTaskId)).state = .free ∧
      ¬(system.host.publishBlocked = true ∧ system.host.pending ≠ []) ∧
      system.host.pending.length + 1 = system.host.config.hostBatch ∧
      (system.enqueue request task now).publishPending device = (some status, after) := by
  rw [trySubmit] at failed
  dsimp only at failed
  split at failed
  · cases failed
  · split at failed
    · cases failed
    · rename_i open'
      obtain ⟨-, unblocked⟩ := not_or.mp open'
      split at failed
      · cases failed
      · rename_i free
        rw [not_ne_iff] at free
        split at failed
        · cases failed
        · rename_i task made
          split at failed
          · rename_i full
            refine ⟨task, made, free, fun blocked => unblocked
              ⟨blocked.1, mt List.length_eq_zero_iff.mp blocked.2⟩, ?_, ?_⟩
            · rw [← full]
              change _ = (system.host.pending ++ [task]).length
              rw [List.length_append, List.length_singleton]
            · have status := congrArg (fun result => result.1.1) failed
              have system := congrArg Prod.snd failed
              exact Prod.ext status system
          · cases failed

theorem tryCompleteLocally_fails {request : BackendRequest} {result : DatagramResult}
    {accepted : Bool}
    (failed : system.tryCompleteLocally request result = ((some status, accepted), after)) :
    accepted = false := by
  rw [tryCompleteLocally] at failed
  dsimp only at failed
  split at failed
  · exact (congrArg (fun result => result.1.2) failed).symm
  · split at failed
    · cases failed
    · split at failed
      · exact (congrArg (fun result => result.1.2) failed).symm
      · cases failed

end System

namespace Backend

variable {device : Device σ} {backend : Backend σ}

theorem noteStopRequest_host : (backend.noteStopRequest device).host = backend.host := by
  have host := (backend.progressStopRequest_steps device True).2.1
  rw [noteStopRequest]
  rcases answer : backend.progressStopRequest device with ⟨status, next⟩
  rw [answer] at host
  cases status <;> exact host

/-- A request that is taken and makes the backend drain is one that the runtime has failed
on. -/
theorem trySubmitAtTime_fails {request : BackendRequest} {now : Nat}
    (accepting : backend.state = .accepting)
    (accepted : (backend.trySubmitAtTime device request now).1 = true)
    (drained : (backend.trySubmitAtTime device request now).2.state ≠ .accepting) :
    ∃ status after,
      backend.system.trySubmit device request now = ((some status, true), after) ∧
      (backend.trySubmitAtTime device request now).2 =
        handleHostError device status { backend with system := after } := by
  rw [trySubmitAtTime] at accepted drained ⊢
  rcases result : backend.system.trySubmit device request now with ⟨⟨status, took⟩, after⟩
  rw [result] at accepted drained
  cases status with
  | none => exact absurd accepting drained
  | some status =>
      dsimp only at accepted drained ⊢
      split at accepted
      · rename_i invalid
        rw [if_pos invalid] at drained
        rcases completed : after.tryCompleteLocally request .backendError with
          ⟨⟨failure, took'⟩, later⟩
        rw [completed] at accepted drained
        cases failure with
        | none => exact absurd accepting drained
        | some failure =>
            rw [System.tryCompleteLocally_fails completed] at accepted
            cases accepted
      · rename_i valid
        rw [if_neg valid]
        dsimp only at accepted
        subst accepted
        exact ⟨status, after, rfl, rfl⟩

/-- The batch that a request fills has not been flushed. -/
theorem AtRest.unflushed_enqueue (rest : AtRest backend) {request : BackendRequest}
    {task : CopyTask} {now : Nat}
    (unblocked : ¬(backend.host.publishBlocked = true ∧ backend.host.pending ≠ [])) :
    (backend.system.enqueue request task now).host.pendingFlushed = false := by
  rw [System.enqueue]
  dsimp only
  split
  · rfl
  · rename_i waiting
    have waiting : backend.host.pending ≠ [] := mt List.length_eq_zero_iff.mpr waiting
    change backend.host.pendingFlushed = false
    rw [rest.settled.tight waiting]
    exact Bool.not_eq_true _ ▸ fun blocked => unblocked ⟨blocked, waiting⟩

/-- Giving everything up frees no context. -/
theorem free_before_failAll {system failed : System σ} {books : Books} {index : Nat}
    (represents : Represents system.host books)
    (initialized : system.host.initialized = true)
    (result : system.failAll .backendError = (none, failed))
    (inside : index < system.host.capacity)
    (free : (failed.host.contexts index).state = .free) :
    (system.host.contexts index).state = .free := by
  obtain ⟨contexts, localTaskIds, localTail, revoked, done, perm, after⟩ :=
    represents.failAll initialized
  rw [done] at result
  injection result with _ result
  rw [← result] at free
  by_contra occupied
  obtain ⟨ticket, member, slot⟩ := represents.mem_of_occupied inside occupied
  have kept : ticket ∈ books.locals ++ (books.pending ++ revoked) := by
    simp only [List.mem_append, perm.mem_iff] at member ⊢
    tauto
  have still := after.occupied_of_mem (by simpa using kept)
  change (contexts (system.host.slot ticket.taskId)).state ≠ .free at still
  rw [slot] at still
  exact still free

/-- A request that is taken and leaves the backend draining, with room for one more, is one
that disturbs its batch. -/
theorem AtRest.disturbs (rest : AtRest backend) (accepting : backend.state = .accepting)
    {request : BackendRequest} {now : Nat}
    (accepted : (backend.trySubmitAtTime device request now).1 = true)
    (ready : Ready (backend.trySubmitAtTime device request now).2.host)
    (drained : (backend.trySubmitAtTime device request now).2.state ≠ .accepting) :
    Disturbs device request backend := by
  obtain ⟨status, after, submitted, handled⟩ := trySubmitAtTime_fails accepting accepted drained
  obtain ⟨task, made, free, unblocked, full, published⟩ := System.trySubmit_fails submitted
  have initialized := rest.initialized (by rw [accepting]; decide)
  obtain ⟨ledger, kept⟩ := rest.keeps
  obtain ⟨-, batch, represents, -, -⟩ := kept.of_initialized initialized
  obtain ⟨books, queued⟩ : ∃ books,
      Represents (backend.system.enqueue request task now).host books :=
    ⟨_, represents.queued now free made⟩
  have unflushed := @AtRest.unflushed_enqueue _ _ rest request task now unblocked
  rw [handled] at ready drained
  rcases answer : device.flushToOwner backend.system.device with ⟨seen, flushed⟩
  cases seen with
  | some hidden =>
      -- The requests of the batch fail, and the backend goes on.
      rw [System.publishPending_of_unseen unflushed answer] at published
      injection published with _ published
      have host := congrArg System.host published
      have representing : Represents after.host books := by
        rw [← host]
        exact queued.congr rfl
      obtain ⟨contexts, localTaskIds, localTail, failed, -⟩ :=
        representing.failPending (by rw [← host]; exact initialized)
      have result := @handleHostError_of_visibility _ device { backend with system := after }
        status _ (by rw [Backend.host, ← host]) failed
      rw [result] at drained
      exact absurd accepting drained
  | none =>
      rw [System.publishPending_of_seen unflushed answer] at published
      obtain ⟨reply, count, later, offered, again, useless, host⟩ :=
        System.submitPending_fails (by exact queued.congr rfl) published
      have representing : Represents after.host books := by
        rw [host]
        exact queued.congr rfl
      have running : after.host.initialized = true := by
        rw [host]
        exact initialized
      obtain ⟨contexts, localTaskIds, localTail, revoked, failed, -⟩ :=
        representing.failAll running
      have result := @handleHostError_of_queue _ device { backend with system := after }
        status _ (by rw [Backend.host, host]; rintro ⟨⟩) failed
      rw [result, noteStopRequest_host] at ready
      obtain ⟨room, next⟩ := ready
      refine ⟨⟨full.trans batch, task, made, by rw [answer], reply, count, later, ?_, again, ?_⟩,
        ?_, ?_⟩
      · rw [answer]
        exact offered
      · intro none
        have length : (backend.host.pending ++ [task]).length = hostBatchSize := by
          rw [List.length_append, List.length_singleton, full, batch]
        exact length ▸ useless none
      · have shape : after.host.outstanding < after.host.capacity := room
        rw [host] at shape
        exact shape
      · have inside := representing.consistent.slot_lt (wrapAdd 64 backend.host.nextTaskId 1)
        have unused := free_before_failAll representing running failed inside
        rw [host] at unused
        have empty := unused (by rw [host] at next; exact next)
        change (Function.update backend.host.contexts _ _ _).state = .free at empty
        rw [Function.update_apply] at empty
        split at empty
        · cases empty
        · exact empty

/-- A request is only taken if there is room and the next context is free. -/
theorem AtRest.ready_of_accepted (rest : AtRest backend)
    (initialized : backend.host.initialized = true) {request : BackendRequest} {now : Nat}
    (accepted : (backend.trySubmitAtTime device request now).1 = true) :
    Ready backend.host := by
  rw [Backend.trySubmitAtTime] at accepted
  rcases @AtRest.trySubmitHost _ device False _ rest initialized request now
    (fun no => no.elim) with ⟨ready, -, -⟩ | ⟨-, valid⟩
  · exact ready
  · rcases result : backend.system.trySubmit device request now with ⟨⟨status, took⟩, after⟩
    have took : took = true := by
      rw [result] at accepted valid
      cases status with
      | none => exact accepted
      | some status =>
          dsimp only at accepted valid
          split at accepted
          · rename_i invalid
            exact absurd ⟨congrArg some invalid.1, invalid.2.1⟩ valid
          · exact accepted
    subst took
    rw [System.trySubmit] at result
    dsimp only at result
    split at result
    · cases result
    · split at result
      · cases result
      · rename_i refused
        split at result
        · cases result
        · rename_i free
          exact ⟨Nat.lt_of_not_le (not_or.mp refused).1, not_ne_iff.mp free⟩

theorem AtRest.undisturbed (rest : AtRest backend) (accepting : backend.state = .accepting)
    {requests : List BackendRequest} {now : Nat}
    (never : NeverDisturbed device now requests backend) :
    Undisturbed device now requests backend := by
  induction requests generalizing backend with
  | nil => trivial
  | cons request requests induction =>
      refine ⟨fun _ => accepting, fun accepted => ?_⟩
      have initialized := rest.initialized (by rw [accepting]; decide)
      have next : Continues device False backend _ :=
        rest.trySubmitAtTime initialized request now fun no => no.elim
      cases requests with
      | nil => trivial
      | cons following requests =>
          obtain ⟨calm, later⟩ := never
          by_cases still : (backend.trySubmitAtTime device request now).2.state = .accepting
          · exact induction next.rest still (later accepted)
          · -- There is no room for the request that follows.
            have full : ¬Ready (backend.trySubmitAtTime device request now).2.host :=
              fun ready => calm (rest.disturbs accepting accepted ready still)
            refine ⟨fun ready => absurd ready full, fun accepted => absurd ?_ full⟩
            exact next.rest.ready_of_accepted (next.rest.initialized next.running) accepted

theorem AtRest.undisturbed_call (rest : AtRest backend) (accepting : backend.state = .accepting)
    {call : Call} (steadfast : Steadfast device backend call) :
    call.Undisturbed device backend := by
  cases call with
  | trySubmitBatch requests =>
      exact (@AtRest.readClock _ device False _ rest).2.undisturbed accepting steadfast
  | _ => trivial

end Backend

/-! ## Runs -/

theorem Obedient.steps {device : Device σ} {backend next : Backend σ}
    (steps : Backend.Steps device True backend next)
    (holds : Obedient backend ∧ Timely backend ∧ ∃ ledger, Sound backend ledger) :
    Obedient next := by
  suffices Obedient next ∧ Timely next ∧ ∃ ledger, Sound next ledger from this.1
  induction steps with
  | refl => exact holds
  | tail _ step induction =>
      obtain ⟨obedient, timely, ledger, sound⟩ := induction
      exact ⟨obedient.step timely sound step, timely.step sound step, sound.step step⟩

/-- In a run in which the runtime never fails in the middle of a batch, a backend that stops
takes nothing and publishes nothing. -/
theorem stopping_takes_nothing (device : Device σ) (initial : σ) (calls : List Backend.Call)
    (steadfast : Along (Backend.step device) (Steadfast device) (Backend.create initial) calls) :
    stateAfter (run (Backend.step device) (Backend.create initial) calls).trace =
        (run (Backend.step device) (Backend.create initial) calls).state ∧
      Every ObeysStop (run (Backend.step device) (Backend.create initial) calls).trace := by
  suffices Obedient (run (Backend.step device) (Backend.create initial) calls) from
    ⟨(run_timely device initial calls).state, this.obeys⟩
  induction calls using List.reverseRecOn with
  | nil => exact ⟨fun asked => (by cases asked), every_nil⟩
  | append_singleton calls call induction =>
      obtain ⟨before, last, -⟩ := along_append.mp steadfast
      have rest := run_atRest device initial calls
      have steps := (@Backend.AtRest.step _ device True _ rest call fun _ accepting =>
        rest.undisturbed_call accepting last).1
      rw [run_concat]
      exact Obedient.steps steps
        ⟨induction before, run_timely device initial calls, run_sound device initial calls⟩

/-- A runtime that can be started and stopped, and fails on every batch. Its clock goes on at
each reading. -/
def failingRuntime : Device Nat where
  initializeDevice _ clock := (none, clock)
  initializeGate _ clock := (none, clock)
  allocate clock := (true, clock)
  start _ clock := (none, clock)
  submitBatch _ clock := ((some .eio, 0), clock)
  poll clock := ((some .eagain, { taskId := 0, result := .success }), clock)
  requestStop clock := (none, clock)
  wait clock := (none, clock)
  resetRuntime clock := (none, clock)
  flushToOwner clock := (none, clock)
  resetGate clock := (none, clock)
  now clock := (clock, clock + 1)

def smallConfig (queueCapacity : Nat) : Config :=
  { stageBufferBase := 4096, stageBufferBytes := 65536, queueCapacity, maxBatchDelay := 1 }

def smallRequest (payloadIndex : Nat) : BackendRequest :=
  { parentRequestId := 7
    parentTotalLength := 8192
    payloadOffset := 64 * payloadIndex
    sourceDaemonAddress := 4096 + 64 * payloadIndex
    targetDaemonAddress := 1048576 + 64 * payloadIndex
    payloadLength := 64
    payloadIndex
    payloadCount := 128 }

theorem stopping_takes_nothing_small :
    Every ObeysStop
      (run (Backend.step failingRuntime) (Backend.create 0)
        [.start (smallConfig 128), .trySubmitBatch [smallRequest 0, smallRequest 1],
          .requestStop, .trySubmit (smallRequest 2)]).trace := by
  refine (stopping_takes_nothing failingRuntime 0 _ ?_).2
  refine ⟨trivial, ⟨fun disturbs => ?_, fun _ => trivial⟩, trivial, trivial, trivial⟩
  exact absurd disturbs.1.1 (by decide +kernel)

/-- A batch of 65 requests, of which the runtime fails on the first 64, and a poll. -/
def overruledBatch : Backend Nat :=
  run (Backend.step failingRuntime) (Backend.create 0)
    [.start (smallConfig 128), .trySubmitBatch ((List.range 65).map smallRequest),
      .tryPopCompletion]

def smallTask (payloadIndex : Nat) : CopyTask :=
  { taskId := payloadIndex + 1
    targetAddress := 1048576 + 64 * payloadIndex
    length := 64
    relativeOffset := 64 * payloadIndex }

/-- What happens until the runtime has been asked to stop. -/
def overruledStart : List Event :=
  [.started] ++
    (List.range 64).map (fun index => .queued (smallTask index) (smallRequest index) index) ++
    [.flushed none, .offered ((List.range 64).map smallTask) (some .eio) 0] ++
    (List.range 64).map (fun index => .abandoned ⟨index + 1, 7, index⟩) ++
    [.draining, .stopRequested none]

theorem overruledBatch_trace :
    overruledBatch.trace =
      overruledStart ++
        [.queued (smallTask 64) (smallRequest 64) 0, .flushed none,
          .offered [smallTask 64] (some .eio) 0, .abandoned ⟨65, 7, 64⟩, .draining,
          .delivered 1 false ⟨7, 0, .backendError⟩] := by
  decide +kernel

/-- The last request is taken while the backend drains, and is offered to the runtime that
was asked to stop. -/
theorem batch_overlooks_failure :
    ¬Every (fun before event => event.accepted ≠ none → stateAfter before = .accepting)
        overruledBatch.trace ∧
      ¬Every (fun before event => event.Offers → stopAsked before = false)
        overruledBatch.trace := by
  rw [overruledBatch_trace]
  constructor
  · intro every
    have taken := every overruledStart (.queued (smallTask 64) (smallRequest 64) 0) _ rfl
    exact absurd (taken fun none => nomatch none) (by decide +kernel)
  · intro every
    have offered := every (overruledStart ++ [.queued (smallTask 64) (smallRequest 64) 0,
      .flushed none]) (.offered [smallTask 64] (some .eio) 0) _ (by rw [List.append_assoc]; rfl)
    exact absurd (offered trivial) (by decide +kernel)

end Ugdr.Gpu
