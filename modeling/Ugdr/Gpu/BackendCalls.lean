import Mathlib.Logic.Relation
import Ugdr.Gpu.BackendRefinement

/-! # Calls as steps

Every call of the backend, from a backend that is at rest, is a sequence of steps and
leaves the backend at rest.
-/

namespace Ugdr.Gpu

open Ugdr.Machine Ugdr.SlotTable
open Ugdr.Worker (BackendRequest BackendCompletion DatagramResult)

variable {σ : Type}

/-! ## Hosts at rest -/

/-- What holds of the host between two calls. -/
structure Settled (host : Host) : Prop where
  bound : host.pending.length ≤ hostBatchSize
  full : host.publishBlocked = false → host.pending.length < hostBatchSize
  idle : host.pending = [] → host.publishBlocked = false
  tight : host.pending ≠ [] → host.pendingFlushed = host.publishBlocked
  seen : host.lastPublishFailure ≠ .visibility

/-- A host without pending tasks. -/
theorem settled_of_cleared {host : Host} (empty : host.pending = [])
    (unblocked : host.publishBlocked = false) (cleared : host.lastPublishFailure = .none) :
    Settled host := by
  refine ⟨?_, fun _ => ?_, fun _ => unblocked, fun waiting => absurd empty waiting, ?_⟩
  · rw [empty]
    exact Nat.zero_le _
  · rw [empty]
    decide
  · rw [cleared]
    decide

theorem settled_advance {host : Host} {count : Nat} {contexts : Nat → TaskContextSlot}
    (bound : host.pending.length ≤ hostBatchSize) (flushed : host.pendingFlushed = true)
    (seen : host.lastPublishFailure = .none) : Settled (host.advance count contexts) := by
  rw [Host.advance]
  by_cases left : host.pending.drop count = []
  · rw [if_neg (not_not_intro left)]
    exact settled_of_cleared left rfl seen
  · rw [if_pos left]
    refine ⟨?_, fun unblocked => (by cases unblocked), fun empty => absurd empty left,
      fun _ => flushed, ?_⟩
    · exact (List.length_drop).trans_le ((Nat.sub_le _ _).trans bound)
    · rw [seen]
      decide

namespace Backend

/-- A backend between two calls. -/
structure AtRest (backend : Backend σ) : Prop where
  keeps : ∃ ledger, Keeps backend ledger
  settled : Settled backend.host

namespace AtRest

variable {backend : Backend σ} (rest : AtRest backend)

include rest

theorem running (initialized : backend.host.initialized = true) : backend.state ≠ .stopped := by
  obtain ⟨ledger, kept⟩ := rest.keeps
  exact (kept.of_initialized initialized).1

theorem initialized (running : backend.state ≠ .stopped) : backend.host.initialized = true := by
  obtain ⟨ledger, kept⟩ := rest.keeps
  cases kept with
  | stopped stopped => exact absurd stopped running
  | running _ initialized => exact initialized

end AtRest

def Steps (device : Device σ) (strict : Prop) : Backend σ → Backend σ → Prop :=
  Relation.ReflTransGen (Step device strict)

namespace Steps

variable {device : Device σ} {strict : Prop} {backend next : Backend σ}

theorem refl : Steps device strict backend backend :=
  Relation.ReflTransGen.refl

theorem tail {last : Backend σ} (steps : Steps device strict backend next)
    (step : Step device strict next last) : Steps device strict backend last :=
  Relation.ReflTransGen.tail steps step

theorem trans {last : Backend σ} (steps : Steps device strict backend next)
    (more : Steps device strict next last) : Steps device strict backend last :=
  Relation.ReflTransGen.trans steps more

theorem keeps (steps : Steps device strict backend next) (keeps : ∃ ledger, Keeps backend ledger) :
    ∃ ledger, Keeps next ledger := by
  induction steps with
  | refl => exact keeps
  | tail _ step induction =>
      obtain ⟨ledger, kept⟩ := induction
      obtain ⟨-, after, -, -, next⟩ := step.refines kept
      exact ⟨after, next⟩

end Steps

/-- The backend goes on running. -/
structure Continues (device : Device σ) (strict : Prop) (backend next : Backend σ) : Prop where
  steps : Steps device strict backend next
  rest : AtRest next
  running : next.state ≠ .stopped

theorem Continues.trans {device : Device σ} {strict : Prop} {backend next last : Backend σ}
    (continues : Continues device strict backend next)
    (more : Continues device strict next last) : Continues device strict backend last :=
  ⟨continues.steps.trans more.steps, more.rest, more.running⟩

/-- What an operation of the host may come to, seen from the backend that calls it. -/
inductive Outcome (device : Device σ) (strict : Prop) (backend : Backend σ) :
    Status → System σ → Prop
  | done {system : System σ} (steps : Steps device strict backend (backend.withSystem system))
      (settled : Settled system.host) :
      Outcome device strict backend none system
  | unseen {status : Errno} {system : System σ} {after : σ}
      (steps : Steps device strict backend (backend.withSystem system))
      (initialized : system.host.initialized = true) (waiting : system.host.pending ≠ [])
      (unflushed : system.host.pendingFlushed = false)
      (answer : device.flushToOwner system.device = (some status, after)) :
      Outcome device strict backend (some status)
        { system.answered after (.flushed (some status)) with
          host :=
            { system.host with
              publishBlocked := true
              lastPublishFailure := .visibility } }
  | broken {status : Errno} {system after : System σ} {failure : HostPublishFailure}
      (steps : Steps device strict backend (backend.withSystem system))
      (initialized : system.host.initialized = true) (fault : Fault device system after)
      (seen : failure ≠ .visibility) :
      Outcome device strict backend (some status) (after.withFailure failure)

/-! ## Publishing -/

end Backend

namespace System

variable {device : Device σ} {system : System σ} {after : σ}

theorem publishPending_of_flushed (flushed : system.host.pendingFlushed = true) :
    system.publishPending device = (system.withFailure .none).submitPending device := by
  have ready : (system.withFailure .none).flushPending device =
      (none, system.withFailure .none) := if_pos flushed
  rw [publishPending]
  dsimp only [withFailure] at ready ⊢
  rw [ready]

theorem publishPending_of_unseen {status : Errno}
    (unflushed : system.host.pendingFlushed = false)
    (answer : device.flushToOwner system.device = (some status, after)) :
    system.publishPending device =
      (some status,
        { (system.withFailure .none).answered after (.flushed (some status)) with
          host :=
            { (system.withFailure .none).host with
              publishBlocked := true
              lastPublishFailure := .visibility } }) := by
  rw [publishPending, flushPending]
  dsimp only
  rw [if_neg (by rw [unflushed]; decide), answer]
  rfl

theorem publishPending_of_seen (unflushed : system.host.pendingFlushed = false)
    (answer : device.flushToOwner system.device = (none, after)) :
    system.publishPending device =
      System.submitPending device
        { (system.withFailure .none).answered after (.flushed none) with
          host := { (system.withFailure .none).host with pendingFlushed := true } } := by
  rw [publishPending, flushPending]
  dsimp only
  rw [if_neg (by rw [unflushed]; decide), answer]
  rfl

end System

namespace Backend

section

variable {device : Device σ} {strict : Prop} {backend : Backend σ} {system : System σ}

theorem Outcome.submitPending
    (steps : Steps device strict backend (backend.withSystem system))
    (keeps : ∃ ledger, Keeps (backend.withSystem system) ledger)
    (initialized : system.host.initialized = true) (waiting : system.host.pending ≠ [])
    (flushed : system.host.pendingFlushed = true)
    (bound : system.host.pending.length ≤ hostBatchSize)
    (seen : system.host.lastPublishFailure = .none) :
    Outcome device strict backend (system.submitPending device).1
      (system.submitPending device).2 := by
  rcases answer : device.submitBatch system.host.pending system.device with ⟨⟨status, count⟩, after⟩
  have broken : status ≠ some .eagain → (status = none → count = 0 ∨
      system.host.pending.length < count) → ∀ {error : Errno}, Outcome device strict backend
        (some error) ((system.answered after
          (.offered system.host.pending status count)).withFailure .queue) :=
    fun failed useless => .broken steps initialized (.refused waiting flushed answer failed useless)
      (by decide)
  rw [System.submitPending, answer]
  dsimp only
  by_cases again : status = some .eagain
  · subst again
    rw [if_pos rfl]
    refine .done (steps.tail (.retain initialized waiting flushed answer)) ⟨bound, ?_, ?_, ?_, ?_⟩
    · exact fun unblocked => by cases unblocked
    · exact fun empty => absurd empty waiting
    · exact fun _ => flushed
    · rw [seen]
      decide
  · rw [if_neg again]
    cases status with
    | some status => exact broken again fun wrong => by cases wrong
    | none =>
        dsimp only
        by_cases useless : count = 0 ∨ system.host.pending.length < count
        · rw [if_pos useless]
          exact broken again fun _ => useless
        · rw [if_neg useless]
          obtain ⟨ledger, keeps⟩ := keeps
          obtain ⟨state, batch, represents, -, -⟩ := keeps.of_initialized initialized
          obtain ⟨contexts, marked, -⟩ :=
            represents.markSubmitted (List.take_append_drop count system.host.pending).symm
          change Gpu.markSubmitted system.host.capacityMask _ system.host.contexts = _ at marked
          rw [marked, if_neg (by simp)]
          obtain ⟨positive, enough⟩ := not_or.mp useless
          refine .done (steps.tail (.take initialized flushed answer (by omega)
            (Nat.le_of_not_lt enough) marked)) ?_
          exact settled_advance bound flushed seen

theorem Outcome.publishPending
    (steps : Steps device strict backend (backend.withSystem system))
    (keeps : ∃ ledger, Keeps backend ledger)
    (initialized : system.host.initialized = true) (waiting : system.host.pending ≠ [])
    (bound : system.host.pending.length ≤ hostBatchSize) :
    Outcome device strict backend (system.publishPending device).1
      (system.publishPending device).2 := by
  have rearmed : Steps device strict backend
      (backend.withSystem (system.withFailure .none)) := steps.tail .rearm
  by_cases flushed : system.host.pendingFlushed = true
  · rw [System.publishPending_of_flushed flushed]
    exact .submitPending rearmed (rearmed.keeps keeps) initialized waiting flushed bound rfl
  · rw [Bool.not_eq_true] at flushed
    rcases answer : device.flushToOwner system.device with ⟨status, after⟩
    cases status with
    | some status =>
        rw [System.publishPending_of_unseen flushed answer]
        exact .unseen rearmed initialized waiting flushed answer
    | none =>
        rw [System.publishPending_of_seen flushed answer]
        have visible := rearmed.tail (.flush initialized waiting flushed answer)
        exact .submitPending visible (visible.keeps keeps) initialized waiting rfl bound rfl

theorem AtRest.publishPendingHost (rest : AtRest backend)
    (initialized : backend.host.initialized = true) :
    Outcome device strict backend (backend.system.publishPendingNow device).1
      (backend.system.publishPendingNow device).2 := by
  rw [System.publishPendingNow, if_neg (by rw [← host, initialized]; decide)]
  by_cases empty : backend.system.host.pending.length = 0
  · rw [if_pos empty]
    exact .done .refl rest.settled
  · rw [if_neg empty]
    exact .publishPending .refl rest.keeps initialized (mt List.length_eq_zero_iff.mpr empty)
      rest.settled.bound

theorem AtRest.progressHostBatch (rest : AtRest backend)
    (initialized : backend.host.initialized = true) (now : Nat) :
    Outcome device strict backend (backend.system.progressHostBatch device now).1
      (backend.system.progressHostBatch device now).2 := by
  rw [System.progressHostBatch, if_neg (by rw [← host, initialized]; decide)]
  by_cases empty : backend.system.host.pending.length = 0
  · rw [if_pos empty]
    exact .done .refl rest.settled
  · rw [if_neg empty]
    split
    · exact .done .refl rest.settled
    · exact .publishPending .refl rest.keeps initialized (mt List.length_eq_zero_iff.mpr empty)
        rest.settled.bound

/-! ## Stopping the runtime and giving up -/

theorem progressStopRequest_steps (device : Device σ) (strict : Prop) (backend : Backend σ) :
    Steps device strict backend (backend.progressStopRequest device).2 ∧
      (backend.progressStopRequest device).2.host = backend.host ∧
      (backend.progressStopRequest device).2.state = backend.state := by
  rw [progressStopRequest]
  split
  · exact ⟨.refl, rfl, rfl⟩
  · rename_i idle
    simp only [not_or, not_not, Bool.not_eq_true] at idle
    obtain ⟨draining, unrequested, empty⟩ := idle
    refine ⟨Steps.refl.tail (.stopRequest draining unrequested ?_ rfl), rfl, rfl⟩
    exact List.length_eq_zero_iff.mp empty

theorem AtRest.noteStopRequest (rest : AtRest backend) :
    Steps device strict backend (backend.noteStopRequest device) ∧
      AtRest (backend.noteStopRequest device) ∧
      (backend.noteStopRequest device).host = backend.host ∧
      (backend.noteStopRequest device).state = backend.state := by
  obtain ⟨steps, host, state⟩ := backend.progressStopRequest_steps device strict
  rw [Backend.noteStopRequest]
  rcases answer : backend.progressStopRequest device with ⟨status, next⟩
  rw [answer] at steps host state
  have settled : Settled next.host := host ▸ rest.settled
  cases status with
  | none => exact ⟨steps, ⟨steps.keeps rest.keeps, settled⟩, host, state⟩
  | some status =>
      have noted := steps.tail (.note (some status))
      exact ⟨noted, ⟨noted.keeps rest.keeps, settled⟩, host, state⟩

theorem handleHostError_of_visibility {status : Errno} {failed : System σ}
    (hidden : backend.host.lastPublishFailure = .visibility)
    (result : backend.system.failPending .backendError = (none, failed)) :
    backend.handleHostError device status =
      { backend with lastError := some status, system := failed } := by
  have noted : ({ backend with lastError := some status } : Backend σ).host.lastPublishFailure =
      .visibility := hidden
  rw [Backend.handleHostError]
  dsimp only
  rw [if_pos noted, result]

theorem handleHostError_of_queue {status : Errno} {failed : System σ}
    (seen : backend.host.lastPublishFailure ≠ .visibility)
    (result : backend.system.failAll .backendError = (none, failed)) :
    backend.handleHostError device status =
      (setState { backend with lastError := some status, system := failed }
        .draining .draining).noteStopRequest device := by
  have noted : ({ backend with lastError := some status } : Backend σ).host.lastPublishFailure ≠
      .visibility := seen
  rw [Backend.handleHostError]
  dsimp only
  rw [if_neg noted, result]

theorem Outcome.handleHostError {status : Errno}
    (outcome : Outcome device strict backend (some status) system)
    (keeps : ∃ ledger, Keeps backend ledger) :
    Steps device strict backend ((backend.withSystem system).handleHostError device status) ∧
      AtRest ((backend.withSystem system).handleHostError device status) ∧
      ((backend.withSystem system).handleHostError device status).host.pending = [] ∧
      ((backend.withSystem system).handleHostError device status).state ≠ .stopped := by
  cases outcome with
  | @unseen _ before after steps initialized waiting unflushed answer =>
      obtain ⟨ledger, kept⟩ := steps.keeps keeps
      obtain ⟨running, -, represents, -, -⟩ := kept.of_initialized initialized
      set hidden : System σ :=
        { before.answered after (.flushed (some status)) with
          host :=
            { before.host with
              publishBlocked := true
              lastPublishFailure := .visibility } } with hidden_eq
      have representing : Represents hidden.host ledger.toBooks := represents.congr rfl
      obtain ⟨contexts, localTaskIds, localTail, failed, -⟩ :=
        representing.failPending initialized
      have result := @handleHostError_of_visibility _ device (backend.withSystem hidden) status _
        rfl failed
      have noted := steps.tail (.note (some status))
      have step := noted.tail (.abandon initialized waiting unflushed answer)
      change Steps device strict backend
        { backend with
          lastError := some status
          system := (hidden.failPending .backendError).2 } at step
      rw [failed] at step
      rw [result]
      exact ⟨step, ⟨step.keeps keeps, settled_of_cleared rfl rfl rfl⟩, rfl, running⟩
  | @broken _ before after failure steps initialized fault seen =>
      obtain ⟨ledger, kept⟩ := steps.keeps keeps
      obtain ⟨running, -, represents, tasks, flushed⟩ := kept.of_initialized initialized
      obtain ⟨-, -, host, -⟩ := fault.events tasks flushed
      have core : after.host.core = before.host.core := congrArg Host.core host
      have representing : Represents (after.withFailure failure).host ledger.toBooks :=
        represents.congr core
      obtain ⟨contexts, localTaskIds, localTail, revoked, failed, -⟩ :=
        representing.failAll ((congrArg Host.initialized host).trans initialized)
      have result := @handleHostError_of_queue _ device
        (backend.withSystem (after.withFailure failure)) status _ seen failed
      have noted := steps.tail (.note (some status))
      have step := noted.tail (@Step.breakdown _ _ _ _ after failure initialized running fault)
      change Steps device strict backend
        (setState
          { backend with
            lastError := some status
            system := ((after.withFailure failure).failAll .backendError).2 }
          .draining .draining) at step
      rw [failed] at step
      have rest : AtRest _ := ⟨step.keeps keeps, settled_of_cleared rfl rfl rfl⟩
      obtain ⟨more, still, same, state⟩ := @AtRest.noteStopRequest _ device strict _ rest
      have draining : BackendState.draining = _ := state.symm
      rw [result]
      refine ⟨step.trans more, still, congrArg Host.pending same, fun stopped => ?_⟩
      cases draining.trans stopped

/-! ## Submitting -/

/-- The request would be taken: there is room, and the slot of the next task is free. -/
def Ready (host : Host) : Prop :=
  host.outstanding < host.capacity ∧
    (host.contexts (host.slot host.nextTaskId)).state = .free

theorem makeCopyTask_error {config : Config} {request : BackendRequest} {taskId : Nat}
    {status : Errno} (invalid : makeCopyTask config request taskId = .error status) :
    status = .einval := by
  rw [makeCopyTask] at invalid
  split at invalid
  · injection invalid with invalid
    exact invalid.symm
  · dsimp only at invalid
    split at invalid
    · injection invalid with invalid
      exact invalid.symm
    · cases invalid

/-- `try_submit` of the host: the request is invalid, or the operation comes to an
outcome. -/
theorem AtRest.trySubmitHost (rest : AtRest backend)
    (initialized : backend.host.initialized = true) (request : BackendRequest) (now : Nat)
    (taking : strict → Ready backend.host → backend.state = .accepting) :
    (Ready backend.host ∧
      (∃ status, makeCopyTask backend.host.config request backend.host.nextTaskId =
        .error status) ∧
      backend.system.trySubmit device request now = ((some .einval, false), backend.system)) ∨
    (Outcome device strict backend (backend.system.trySubmit device request now).1.1
        (backend.system.trySubmit device request now).2 ∧
      ¬((backend.system.trySubmit device request now).1.1 = some .einval ∧
        (backend.system.trySubmit device request now).1.2 = false)) := by
  rw [System.trySubmit]
  dsimp only
  rw [if_neg (by rw [← host, initialized]; decide)]
  by_cases refused : backend.system.host.config.queueCapacity ≤ backend.system.host.outstanding ∨
      (backend.system.host.publishBlocked = true ∧ backend.system.host.pending.length ≠ 0)
  · right
    rw [if_pos refused]
    exact ⟨.done .refl rest.settled, by simp⟩
  · rw [if_neg refused]
    obtain ⟨room, unblocked⟩ := not_or.mp refused
    have room : backend.host.outstanding < backend.host.capacity := Nat.lt_of_not_le room
    by_cases occupied : (backend.system.host.contexts
        (backend.system.host.slot backend.system.host.nextTaskId)).state ≠ .free
    · right
      rw [if_pos occupied]
      refine ⟨?_, by simp⟩
      have blocked : ¬(backend.host.publishBlocked = true ∧ backend.host.pending ≠ []) :=
        fun blocked => unblocked ⟨blocked.1, mt List.length_eq_zero_iff.mp blocked.2⟩
      exact .broken .refl initialized (.busy room blocked occupied) rest.settled.seen
    · rw [if_neg occupied]
      rw [not_ne_iff] at occupied
      have ready : Ready backend.host := ⟨room, occupied⟩
      rcases made : makeCopyTask backend.system.host.config request
        backend.system.host.nextTaskId with status | task
      · left
        exact ⟨ready, ⟨status, rfl⟩, by rw [makeCopyTask_error made]⟩
      · right
        have open' : backend.host.publishBlocked = false := by
          by_cases empty : backend.host.pending = []
          · exact rest.settled.idle empty
          · by_contra blocked
            exact unblocked ⟨Bool.not_eq_false _ ▸ blocked, mt List.length_eq_zero_iff.mp empty⟩
        have fresh : backend.host.pending = [] ∨ backend.host.pendingFlushed = false := by
          by_cases empty : backend.host.pending = []
          · exact .inl empty
          · exact .inr ((rest.settled.tight empty).trans open')
        have short := rest.settled.full open'
        have queued := @Steps.tail _ device strict _ _ _ .refl
          (.queue now initialized (fun on => taking on ready) room short fresh occupied made)
        dsimp only
        obtain ⟨ledger, kept⟩ := rest.keeps
        have batch := (kept.of_initialized initialized).2.1
        have longer : (backend.system.enqueue request task now).host.pending.length =
            backend.host.pending.length + 1 := List.length_append
        by_cases filled : (backend.system.enqueue request task now).host.pending.length =
            backend.system.host.config.hostBatch
        · rw [if_pos filled]
          refine ⟨?_, by simp⟩
          refine .publishPending queued rest.keeps initialized ?_ (by omega)
          exact List.append_ne_nil_of_right_ne_nil _ (List.cons_ne_nil _ _)
        · rw [if_neg filled]
          have less : (backend.system.enqueue request task now).host.pending.length <
              hostBatchSize := by
            have : backend.system.host.config.hostBatch = hostBatchSize := batch
            omega
          refine ⟨.done queued ⟨less.le, fun _ => less, fun _ => open', fun _ => ?_, ?_⟩, by simp⟩
          · change (if backend.host.pending.length = 0 then false else
              backend.host.pendingFlushed) = backend.host.publishBlocked
            rw [open']
            rcases fresh with empty | unflushed
            · rw [if_pos (List.length_eq_zero_iff.mpr empty)]
            · rw [unflushed, ite_self]
          · exact rest.settled.seen

theorem System.tryCompleteLocally_of_ready {request : BackendRequest} {result : DatagramResult}
    (initialized : system.host.initialized = true) (ready : Ready system.host) :
    system.tryCompleteLocally request result =
      ((none, true), system.completeLocally request result) := by
  have room : ¬system.host.config.queueCapacity ≤ system.host.outstanding :=
    Nat.not_le.mpr ready.1
  rw [System.tryCompleteLocally]
  dsimp only
  rw [if_neg (by rw [initialized]; decide), if_neg room, if_neg (not_not_intro ready.2)]

theorem AtRest.trySubmitAtTime (rest : AtRest backend)
    (initialized : backend.host.initialized = true) (request : BackendRequest) (now : Nat)
    (taking : strict → Ready backend.host → backend.state = .accepting) :
    Continues device strict backend (backend.trySubmitAtTime device request now).2 := by
  have running := rest.running initialized
  rw [Backend.trySubmitAtTime]
  rcases rest.trySubmitHost initialized request now taking with
    ⟨ready, ⟨status, invalid⟩, result⟩ | ⟨outcome, valid⟩
  · rw [result]
    dsimp only
    by_cases clear : backend.host.lastPublishFailure = .none
    · rw [if_pos ⟨rfl, rfl, clear⟩, System.tryCompleteLocally_of_ready initialized ready]
      have taken := fun on => taking on ready
      have steps := @Steps.tail _ device strict _ _ _ .refl
        (.reject initialized taken ready.1 ready.2 invalid)
      have settled := rest.settled
      exact ⟨steps, ⟨steps.keeps rest.keeps,
        settled.bound, settled.full, settled.idle, settled.tight, settled.seen⟩, running⟩
    · rw [if_neg fun wrong => clear wrong.2.2]
      have outcome : Outcome device strict backend (some .einval) backend.system :=
        .broken .refl initialized (.stale clear) rest.settled.seen
      obtain ⟨steps, after, -, running⟩ := outcome.handleHostError rest.keeps
      exact ⟨steps, after, running⟩
  · rcases result : backend.system.trySubmit device request now with ⟨⟨status, accepted⟩, system⟩
    rw [result] at outcome valid
    cases status with
    | none =>
        cases outcome with
        | done steps settled => exact ⟨steps, ⟨steps.keeps rest.keeps, settled⟩, running⟩
    | some status =>
        obtain ⟨steps, after, -, running⟩ := outcome.handleHostError rest.keeps
        dsimp only
        rw [if_neg fun wrong => valid ⟨congrArg some wrong.1, wrong.2.1⟩]
        exact ⟨steps, after, running⟩

/-- In the loop of `try_submit_batch`, a request is only taken while the backend accepts. -/
def Undisturbed (device : Device σ) (now : Nat) : List BackendRequest → Backend σ → Prop
  | [], _ => True
  | request :: requests, backend =>
      (Ready backend.host → backend.state = .accepting) ∧
        ((backend.trySubmitAtTime device request now).1 = true →
          Undisturbed device now requests (backend.trySubmitAtTime device request now).2)

theorem AtRest.submitAll (rest : AtRest backend) (initialized : backend.host.initialized = true)
    (now : Nat) (requests : List BackendRequest)
    (undisturbed : strict → Undisturbed device now requests backend) :
    Continues device strict backend (backend.submitAll device now requests).2 := by
  induction requests generalizing backend with
  | nil => exact ⟨.refl, rest, rest.running initialized⟩
  | cons request requests induction =>
      have next : Continues device strict backend _ :=
        rest.trySubmitAtTime initialized request now fun on => (undisturbed on).1
      have later := fun on => (undisturbed on).2
      rw [Backend.submitAll]
      rcases result : backend.trySubmitAtTime device request now with ⟨accepted, after⟩
      rw [result] at next later
      cases accepted with
      | false => exact next
      | true =>
          exact next.trans (induction next.rest (next.rest.initialized next.running)
            fun on => later on rfl)

/-! ## Completing -/

/-- Reading a completion succeeds, or the runtime is misread. -/
theorem AtRest.readCompletion (rest : AtRest backend)
    (initialized : backend.host.initialized = true) :
    ((backend.system.readCompletion device).1.1 = none ∧
      Steps device strict backend
        (backend.withSystem (backend.system.readCompletion device).2) ∧
      Settled (backend.system.readCompletion device).2.host) ∨
    ∃ status after, (backend.system.readCompletion device).1.1 = some status ∧
      (backend.system.readCompletion device).2 = after.withFailure .queue ∧
      Misread device backend.system after := by
  obtain ⟨ledger, kept⟩ := rest.keeps
  obtain ⟨-, -, represents, -, -⟩ := kept.of_initialized initialized
  have settled := rest.settled
  rw [System.readCompletion]
  dsimp only
  by_cases ready : backend.system.host.localHead < backend.system.host.localTail
  · rw [if_pos ready]
    have nonempty : backend.host.localCount ≠ 0 := by
      have tail := represents.consistent.tail
      rw [Host.localCount, wrapSub_of_le (Nat.le_of_lt ready) tail]
      exact Nat.sub_ne_zero_of_lt ready
    obtain ⟨-, taskId, head, -, failing, named, outstanding, -⟩ :=
      represents.deliverLocal nonempty
    subst head
    have valid : ¬((backend.host.contexts (backend.host.slot (backend.host.localTaskIds
        (backend.host.slot backend.host.localHead)))).state ≠ .localError ∨
          (backend.host.contexts (backend.host.slot (backend.host.localTaskIds
            (backend.host.slot backend.host.localHead)))).taskId ≠
              backend.host.localTaskIds (backend.host.slot backend.host.localHead) ∨
          backend.host.outstanding = 0) := by
      rw [not_or, not_or, not_ne_iff, not_ne_iff]
      exact ⟨failing, named, outstanding⟩
    rw [if_neg valid]
    exact .inl ⟨rfl, Steps.refl.tail (.deliverLocal initialized nonempty), settled.bound,
      settled.full, settled.idle, settled.tight, settled.seen⟩
  · rw [if_neg ready]
    rcases answer : device.poll backend.system.device with ⟨⟨status, completion⟩, after⟩
    dsimp only
    by_cases again : status = some .eagain
    · subst again
      rw [if_pos rfl]
      exact .inl ⟨rfl, Steps.refl.tail (.pollEmpty initialized answer), settled.bound,
        settled.full, settled.idle, settled.tight, settled.seen⟩
    · rw [if_neg again]
      cases status with
      | some status =>
          right
          exact ⟨status, _, rfl, rfl, .failed answer fun same => again (congrArg some same)⟩
      | none =>
          dsimp only
          by_cases valid : (backend.host.contexts (backend.host.slot completion.taskId)).state =
                .submitted ∧
              (backend.host.contexts (backend.host.slot completion.taskId)).taskId =
                completion.taskId
          · obtain ⟨-, -, outstanding, -⟩ := represents.deliverSubmitted valid.1
            rw [if_neg (by simp [valid.1, valid.2, outstanding])]
            exact .inl ⟨rfl, Steps.refl.tail (.deliverPolled initialized answer valid.1 valid.2),
              settled.bound, settled.full, settled.idle, settled.tight, settled.seen⟩
          · rw [if_pos (by tauto)]
            exact .inr ⟨.eproto, _, rfl, rfl, .unknown answer valid⟩

theorem AtRest.tryPopHost (rest : AtRest backend)
    (initialized : backend.host.initialized = true) (now : Nat) :
    Outcome device strict backend (backend.system.tryPopCompletion device now).1.1
      (backend.system.tryPopCompletion device now).2 := by
  rw [System.tryPopCompletion, if_neg (by rw [initialized]; decide)]
  have outcome : Outcome device strict backend _ _ := rest.progressHostBatch initialized now
  rcases result : backend.system.progressHostBatch device now with ⟨status, system⟩
  rw [result] at outcome
  cases status with
  | some status => exact outcome
  | none =>
      cases outcome with
      | done steps settled =>
          have kept := steps.keeps rest.keeps
          have running := (rest.running initialized)
          have next : AtRest (backend.withSystem system) := ⟨kept, settled⟩
          have still : system.host.initialized = true := next.initialized running
          rcases @AtRest.readCompletion _ device strict _ next still with
            ⟨done, more, after⟩ | ⟨status, after, failed, result, misread⟩
          · change (system.readCompletion device).1.1 = none at done
            dsimp only
            rw [done]
            exact .done (steps.trans more) after
          · change (system.readCompletion device).1.1 = some status at failed
            change (system.readCompletion device).2 = _ at result
            dsimp only
            rw [failed, result]
            exact .broken steps still (.misread misread) (by decide)

/-- Without pending tasks, `try_pop_completion` only reads. -/
theorem System.tryPopCompletion_of_nil (initialized : system.host.initialized = true)
    (empty : system.host.pending = []) (now : Nat) :
    system.tryPopCompletion device now = system.readCompletion device := by
  rw [System.tryPopCompletion, if_neg (by rw [initialized]; decide), System.progressHostBatch,
    if_neg (by rw [initialized]; decide), if_pos (by rw [empty]; rfl)]

theorem AtRest.attemptPop (rest : AtRest backend)
    (initialized : backend.host.initialized = true) (now : Nat) :
    Continues device strict backend (backend.attemptPop device now).2 := by
  rw [Backend.attemptPop]
  have outcome : Outcome device strict backend _ _ := rest.tryPopHost initialized now
  rcases result : backend.system.tryPopCompletion device now with ⟨⟨status, completion⟩, system⟩
  rw [result] at outcome
  cases status with
  | none =>
      cases outcome with
      | done steps settled =>
          exact ⟨steps, ⟨steps.keeps rest.keeps, settled⟩, rest.running initialized⟩
  | some status =>
      dsimp only
      obtain ⟨steps, failed, empty, running⟩ := outcome.handleHostError rest.keeps
      change Steps device strict backend (handleHostError device status { backend with system })
        at steps
      change AtRest (handleHostError device status { backend with system }) at failed
      change (handleHostError device status { backend with system }).host.pending = [] at empty
      change (handleHostError device status { backend with system }).state ≠ _ at running
      generalize handleHostError device status { backend with system } = next at *
      have still := failed.initialized running
      rw [System.tryPopCompletion_of_nil still empty]
      rcases result : next.system.readCompletion device with ⟨⟨status, completion⟩, system⟩
      rcases @AtRest.readCompletion _ device strict _ failed still with
        ⟨done, more, settled⟩ | ⟨failure, after, wrong, same, misread⟩
      · rw [result] at done more settled
        dsimp only at done
        subst done
        exact ⟨steps.trans more, ⟨(steps.trans more).keeps rest.keeps, settled⟩, running⟩
      · rw [result] at wrong same
        dsimp only at wrong same
        subst wrong same
        have noted := (steps.tail (.misread still misread)).tail (.note (some failure))
        obtain ⟨-, -, -, host⟩ := misread.polls
        have settled := failed.settled
        rw [Backend.host, ← host] at settled
        have seen : HostPublishFailure.queue ≠ .visibility := by decide
        exact ⟨noted, ⟨noted.keeps rest.keeps, settled.bound, settled.full, settled.idle,
          settled.tight, seen⟩, running⟩

theorem AtRest.tryPopCompletionAtTime (rest : AtRest backend)
    (initialized : backend.host.initialized = true) (now : Nat) :
    Continues device strict backend (backend.tryPopCompletionAtTime device now).2 := by
  have next : Continues device strict backend _ := rest.attemptPop initialized now
  rw [Backend.tryPopCompletionAtTime]
  split
  · obtain ⟨more, last, -, state⟩ := @AtRest.noteStopRequest _ device strict _ next.rest
    exact ⟨next.steps.trans more, last, fun stopped => next.running (state.symm.trans stopped)⟩
  · exact next

theorem AtRest.popAll (rest : AtRest backend) (initialized : backend.host.initialized = true)
    (now capacity : Nat) :
    Continues device strict backend (backend.popAll device now capacity).2 := by
  induction capacity generalizing backend with
  | zero => exact ⟨.refl, rest, rest.running initialized⟩
  | succ capacity induction =>
      have next : Continues device strict backend _ :=
        rest.tryPopCompletionAtTime initialized now
      rw [Backend.popAll]
      rcases result : backend.tryPopCompletionAtTime device now with ⟨completion, after⟩
      rw [result] at next
      cases completion with
      | none => exact next
      | some completion =>
          exact next.trans (induction next.rest (next.rest.initialized next.running))

/-! ## Calls -/

theorem AtRest.readClock (rest : AtRest backend) :
    Steps device strict backend (backend.readClock device).2 ∧
      AtRest (backend.readClock device).2 := by
  have steps := @Steps.tail _ device strict _ _ _ .refl (@Step.clock _ _ _ backend)
  exact ⟨steps, steps.keeps rest.keeps, rest.settled⟩

/-- `progress_stop_request` with its status returned. -/
theorem AtRest.progressStopRequest (rest : AtRest backend) :
    Steps device strict backend (backend.progressStopRequest device).2 ∧
      AtRest (backend.progressStopRequest device).2 := by
  obtain ⟨steps, host, -⟩ := backend.progressStopRequest_steps device strict
  exact ⟨steps, steps.keeps rest.keeps, host ▸ rest.settled⟩

theorem AtRest.note (rest : AtRest backend) (status : Status) :
    AtRest { backend with lastError := status } := by
  obtain ⟨⟨ledger, kept⟩, settled⟩ := rest
  refine ⟨⟨ledger, ?_⟩, settled⟩
  cases kept with
  | stopped state host => exact .stopped state host
  | running state initialized batch represents tasks flushed =>
      exact .running state initialized batch represents tasks flushed

theorem AtRest.publishPendingNow (rest : AtRest backend)
    (initialized : backend.host.initialized = true) :
    Continues device strict backend (backend.publishPendingNow device).2 := by
  have outcome : Outcome device strict backend _ _ := rest.publishPendingHost initialized
  rw [Backend.publishPendingNow]
  rcases result : backend.system.publishPendingNow device with ⟨status, system⟩
  rw [result] at outcome
  cases status with
  | none =>
      cases outcome with
      | done steps settled =>
          exact ⟨steps, ⟨steps.keeps rest.keeps, settled⟩, rest.running initialized⟩
  | some status =>
      obtain ⟨steps, after, -, running⟩ := outcome.handleHostError rest.keeps
      exact ⟨steps, after, running⟩

theorem AtRest.requestStop (rest : AtRest backend) :
    Steps device strict backend (backend.requestStop device).2 ∧
      AtRest (backend.requestStop device).2 := by
  rw [Backend.requestStop]
  split
  · exact ⟨.refl, rest⟩
  · rename_i accepting
    rw [not_ne_iff] at accepting
    have drained := @Steps.tail _ device strict _ _ _ .refl (.drain accepting)
    have resting : AtRest (backend.setState .draining .draining) :=
      ⟨drained.keeps rest.keeps, rest.settled⟩
    have initialized : (backend.setState .draining .draining).host.initialized = true :=
      rest.initialized (by rw [accepting]; decide)
    have next : Continues device strict _ _ := resting.publishPendingNow initialized
    obtain ⟨more, last⟩ := @AtRest.progressStopRequest _ device strict _ next.rest
    have steps := (drained.trans next.steps).trans more
    dsimp only
    rcases answer : Backend.progressStopRequest device
      ((backend.setState .draining .draining).publishPendingNow device).2 with ⟨stop, final⟩
    rw [answer] at steps last
    cases stop with
    | none => exact ⟨steps, last⟩
    | some stop => exact ⟨steps.tail (.note (some stop)), last.note _⟩

/-- A host that owes nothing is reset to the host of a constructed backend. -/
theorem System.resetHost_of_idle (consistent : Consistent system.host)
    (initialized : system.host.initialized = true) (nothing : system.host.outstanding = 0)
    (empty : system.host.pending = []) :
    system.resetHost = (none, { system with host := {} }) := by
  have total := consistent.outstanding
  have head := consistent.head
  have tail := consistent.tail
  have level : system.host.localHead = system.host.localTail := by
    rw [Host.localCount, wrapSub] at total
    omega
  rw [System.resetHost, if_neg (by rw [initialized]; decide),
    if_neg (by simp [nothing, empty, level])]
  simp only [nothing, empty]

theorem AtRest.wait (rest : AtRest backend) :
    Steps device strict backend (backend.wait device).2 ∧ AtRest (backend.wait device).2 := by
  rw [Backend.wait]
  split
  · exact ⟨.refl, rest⟩
  · rename_i draining
    rw [not_ne_iff] at draining
    obtain ⟨steps, next⟩ := @AtRest.progressStopRequest _ device strict _ rest
    have state := (backend.progressStopRequest_steps device strict).2.2
    rcases answer : backend.progressStopRequest device with ⟨stop, final⟩
    rw [answer] at steps next state
    cases stop with
    | some stop => exact ⟨steps.tail (.note (some stop)), next.note _⟩
    | none =>
        dsimp only
        split
        · exact ⟨steps, next⟩
        · rename_i done
          simp only [not_or, not_not, Bool.not_eq_false] at done
          obtain ⟨requested, nothing, empty⟩ := done
          have drained : final.state = .draining := state.trans draining
          have initialized := next.initialized (by rw [drained]; decide)
          obtain ⟨ledger, kept⟩ := next.keeps
          obtain ⟨-, -, represents, -, -⟩ := kept.of_initialized initialized
          have reset : ∀ after, ({ final.system with device := after } : System σ).resetHost =
              (none, { final.system with device := after, host := {} }) := fun after =>
            System.resetHost_of_idle represents.consistent initialized nothing
              (List.length_eq_zero_iff.mp empty)
          rw [reset]
          have finished : ∀ after status, Steps device strict backend
              (setState
                { final with
                  system := { final.system with device := after, host := {} }
                  lastError := status
                  runtimeStopRequested := false }
                .stopped .stopped) := fun after status =>
            (steps.tail (.note status)).tail (@Step.finish _ _ _ _ after drained requested nothing
              (List.length_eq_zero_iff.mp empty))
          exact ⟨finished _ _, (finished _ _).keeps rest.keeps, settled_of_cleared rfl rfl rfl⟩

/-- A failed `start` leaves nothing behind but the error. -/
theorem AtRest.failed_start (rest : AtRest backend) (stopped : backend.state = .stopped)
    (after : σ) (status : Status) :
    Steps device strict backend
        { backend with
          system := { backend.system with device := after }
          lastError := status } ∧
      AtRest
        { backend with
          system := { backend.system with device := after }
          lastError := status } := by
  have steps := @Steps.tail _ device strict _ _ _
    (@Steps.tail _ device strict _ _ _ .refl (.setup after stopped)) (.note status)
  exact ⟨steps, steps.keeps rest.keeps, rest.settled⟩

theorem AtRest.idle (rest : AtRest backend) (stopped : backend.state = .stopped) :
    backend.host = {} := by
  obtain ⟨ledger, kept⟩ := rest.keeps
  cases kept with
  | stopped _ host => exact host
  | running state => exact absurd stopped state

theorem System.initializeHost_cases (device : Device σ) (config : Config) (system : System σ) :
    (∃ status after, system.initializeHost device config =
      (some status, { system with device := after })) ∨
    (system.host.initialized = false ∧
      config.queueCapacity ≤ (2 ^ 64 - 1) / contextSlotBytes ∧
      ∃ after, system.initializeHost device config =
        (none,
          { system with
            device := after
            host :=
              { system.host with
                config
                initialized := true
                contexts := fun _ => {}
                localTaskIds := fun _ => 0
                capacityMask := config.queueCapacity - 1 } })) := by
  rw [System.initializeHost]
  split
  · exact .inl ⟨_, system.device, rfl⟩
  · rename_i accepted
    obtain ⟨uninitialized, accepted⟩ := not_or.mp accepted
    obtain ⟨-, small⟩ := not_or.mp accepted
    dsimp only
    split
    · exact .inl ⟨_, _, rfl⟩
    · exact .inr ⟨Bool.not_eq_true _ ▸ uninitialized, Nat.le_of_not_lt small, _, rfl⟩

/-- A host that has just been initialized can be reset. -/
theorem System.resetHost_fresh {config : Config} {after : σ} (valid : ValidConfig config)
    (host : system.host = {}) :
    System.resetHost
        { system with
          device := after
          host :=
            { system.host with
              config
              initialized := true
              contexts := fun _ => {}
              localTaskIds := fun _ => 0
              capacityMask := config.queueCapacity - 1 } } =
      (none, { system with device := after }) := by
  rw [host, System.resetHost_of_idle (represents_fresh valid rfl rfl rfl rfl rfl rfl).consistent
    rfl rfl rfl, ← host]

/-- `start` fails and leaves nothing behind but the error, or it starts the backend. -/
theorem AtRest.start_cases (rest : AtRest backend) (stopped : backend.state = .stopped)
    (config : Config) :
    (∃ status after error, backend.start device config =
      (some status,
        { backend with
          system := { backend.system with device := after }
          lastError := error })) ∨
    (ValidConfig config ∧ ∃ after, backend.start device config =
      (none,
        setState
          { backend with
            system :=
              { backend.system with
                device := after
                host :=
                  { backend.host with
                    config
                    initialized := true
                    contexts := fun _ => {}
                    localTaskIds := fun _ => 0
                    capacityMask := config.queueCapacity - 1 } }
            lastError := none
            runtimeStopRequested := false }
          .accepting .started)) := by
  have host := rest.idle stopped
  rw [Backend.start]
  split
  · exact .inl ⟨.einval, backend.system.device, backend.lastError, rfl⟩
  · rename_i ready
    simp only [not_or, not_not] at ready
    dsimp only
    split
    · exact .inl ⟨_, _, _, rfl⟩
    · split
      · exact .inl ⟨_, _, _, rfl⟩
      · rcases System.initializeHost_cases device config
          { backend.system with
            device := (device.initializeGate config.deviceOrdinal
              (device.initializeDevice config.deviceOrdinal backend.system.device).2).2 } with
          ⟨status, after, failed⟩ | ⟨-, small, after, done⟩
        · rw [failed]
          exact .inl ⟨_, _, _, rfl⟩
        · rw [done]
          dsimp only
          split
          · rw [System.resetHost_fresh ⟨ready.2, small⟩ host]
            exact .inl ⟨_, _, _, rfl⟩
          · exact .inr ⟨⟨ready.2, small⟩, _, rfl⟩

theorem AtRest.start (rest : AtRest backend) (config : Config) :
    Steps device strict backend (backend.start device config).2 ∧
      AtRest (backend.start device config).2 := by
  by_cases stopped : backend.state = .stopped
  · rcases @AtRest.start_cases _ device _ rest stopped config with
      ⟨status, after, error, failed⟩ | ⟨⟨valid, small⟩, after, done⟩
    · rw [failed]
      exact rest.failed_start stopped after error
    · rw [done]
      have started := @Steps.tail _ device strict _ _ _ .refl
        (@Step.start _ _ _ _ config after stopped valid small)
      refine ⟨started, started.keeps rest.keeps, ?_⟩
      change Settled { backend.host with
        config
        initialized := true
        contexts := fun _ => {}
        localTaskIds := fun _ => 0
        capacityMask := config.queueCapacity - 1 }
      rw [rest.idle stopped]
      exact settled_of_cleared rfl rfl rfl
  · rw [Backend.start, if_pos (.inl stopped)]
    exact ⟨.refl, rest⟩

/-- What a call must respect for its steps to be strict. -/
def Call.Undisturbed (device : Device σ) (backend : Backend σ) : Call → Prop
  | .trySubmitBatch requests =>
      Backend.Undisturbed device (backend.readClock device).1 requests
        (backend.readClock device).2
  | _ => True

/-- Every call is a sequence of steps from rest to rest. -/
theorem AtRest.step (rest : AtRest backend) (call : Call)
    (undisturbed : strict → backend.state = .accepting → call.Undisturbed device backend) :
    Steps device strict backend (backend.step device call) ∧
      AtRest (backend.step device call) := by
  obtain ⟨clock, resting⟩ := @AtRest.readClock _ device strict _ rest
  cases call with
  | start config => exact rest.start config
  | trySubmit request =>
      rw [Backend.step, Backend.trySubmit]
      split
      · exact ⟨.refl, rest⟩
      · rename_i accepting
        rw [not_ne_iff] at accepting
        have initialized := rest.initialized (by rw [accepting]; decide)
        have next : Continues device strict _ _ := resting.trySubmitAtTime initialized request
          (backend.readClock device).1 fun _ _ => accepting
        exact ⟨clock.trans next.steps, next.rest⟩
  | trySubmitBatch requests =>
      rw [Backend.step, Backend.trySubmitBatch]
      split
      · exact ⟨.refl, rest⟩
      · rename_i accepting
        rw [not_ne_iff] at accepting
        have initialized := rest.initialized (by rw [accepting]; decide)
        have next : Continues device strict _ _ := resting.submitAll initialized
          (backend.readClock device).1 requests fun on => undisturbed on accepting
        exact ⟨clock.trans next.steps, next.rest⟩
  | flushSubmissions =>
      rw [Backend.step, Backend.flushSubmissions]
      split
      · exact ⟨.refl, rest⟩
      · rename_i accepting
        rw [not_ne_iff] at accepting
        have next : Continues device strict _ _ := rest.publishPendingNow
          (rest.initialized (by rw [accepting]; decide))
        exact ⟨next.steps, next.rest⟩
  | tryPopCompletion =>
      rw [Backend.step, Backend.tryPopCompletion]
      split
      · exact ⟨.refl, rest⟩
      · rename_i running
        have next : Continues device strict _ _ := resting.tryPopCompletionAtTime
          (rest.initialized running) (backend.readClock device).1
        exact ⟨clock.trans next.steps, next.rest⟩
  | tryPopCompletionBatch capacity =>
      rw [Backend.step, Backend.tryPopCompletionBatch]
      split
      · exact ⟨.refl, rest⟩
      · rename_i running
        have next : Continues device strict _ _ := resting.popAll (rest.initialized running)
          (backend.readClock device).1 capacity
        exact ⟨clock.trans next.steps, next.rest⟩
  | requestStop => exact rest.requestStop
  | wait => exact rest.wait

end

end Backend

end Ugdr.Gpu
