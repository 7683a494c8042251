import Ugdr.Gpu.BackendSteps

/-! # The backend refines the ledger

A backend keeps a ledger, and every step of the backend makes one entry in it.
-/

namespace Ugdr.Gpu

open Ugdr.Machine Ugdr.SlotTable
open Ugdr.Worker (BackendRequest BackendCompletion DatagramResult)

variable {σ : Type}

theorem makeCopyTask_taskId {config : Config} {request : BackendRequest} {taskId : Nat}
    {task : CopyTask} (valid : makeCopyTask config request taskId = .ok task) :
    task.taskId = taskId := by
  rw [makeCopyTask] at valid
  split at valid
  · cases valid
  · dsimp only at valid
    split at valid
    · cases valid
    · injection valid with valid
      rw [← valid]

/-! ## A host that has just been initialized -/

/-- What `start` and the host demand of a configuration. -/
structure ValidConfig (config : Config) : Prop where
  valid : validateConfig config = none
  small : config.queueCapacity ≤ (2 ^ 64 - 1) / contextSlotBytes

namespace ValidConfig

variable {config : Config} (valid : ValidConfig config)

include valid

theorem demands :
    isPowerOfTwo config.queueCapacity = true ∧ hostBatchSize ≤ config.queueCapacity ∧
      config.hostBatch = hostBatchSize := by
  have demands := valid.valid
  rw [validateConfig] at demands
  split at demands
  · cases demands
  · split at demands
    · cases demands
    · rename_i accepted
      simp only [not_or, not_lt, Bool.not_eq_false, not_ne_iff] at accepted
      exact ⟨accepted.1, accepted.2.1, accepted.2.2.1⟩

theorem sized : ∃ bits, 6 ≤ bits ∧ bits < 59 ∧ config.queueCapacity = 2 ^ bits := by
  obtain ⟨power, large, -⟩ := valid.demands
  have small := valid.small
  simp only [isPowerOfTwo, decide_eq_true_eq] at power
  obtain ⟨bits, capacity⟩ := Nat.ne_zero_and_sub_one_eq_zero_iff_isPowerOfTwo.mp power
  refine ⟨bits, ?_, ?_, capacity⟩
  · by_contra few
    have := Nat.pow_lt_pow_right (by decide : 1 < 2) (Nat.lt_of_not_le few)
    rw [capacity] at large
    simp only [hostBatchSize] at large
    omega
  · by_contra many
    have := Nat.pow_le_pow_right (by decide : 0 < 2) (Nat.le_of_not_lt many)
    rw [capacity] at small
    simp only [contextSlotBytes] at small
    omega

end ValidConfig

theorem contents_default {β : Type} (view : TaskContextSlot → Option β) (size : Nat)
    (free : view {} = none) : contents view size (fun _ => {}) = [] :=
  contents_eq_nil_of_free fun _ _ => free

theorem represents_fresh {host : Host} (valid : ValidConfig host.config)
    (contexts : host.contexts = fun _ => {}) (mask : host.capacityMask = host.capacity - 1)
    (pending : host.pending = []) (outstanding : host.outstanding = 0)
    (head : host.localHead = 0) (tail : host.localTail = 0) :
    Represents host Ledger.empty.toBooks := by
  have count : host.localCount = 0 := by
    rw [Host.localCount, head, tail]
    rfl
  have entries : host.localEntries = [] := by
    rw [Host.localEntries, count, ring_zero]
  refine ⟨⟨valid.sized, mask, ?_, ?_, ?_, ?_, ?_, ?_, ?_⟩, ?_, ?_, ?_⟩
  · intro index _ occupied
    rw [contexts] at occupied
    exact absurd rfl occupied
  · rw [Tracks, contexts, pending, contents_default _ _ rfl]
    exact List.Perm.refl _
  · rw [Tracks, contexts, entries, contents_default _ _ rfl]
    exact List.Perm.refl _
  · rw [outstanding, pending, count, Host.ticketsIn, contexts, contents_default _ _ rfl]
    rfl
  · rw [head]
    decide
  · rw [tail]
    decide
  · intro index _ failing
    rw [contexts] at failing
    cases failing
  · rw [Host.pendingTickets, pending]
    rfl
  · rw [Host.ticketsIn, contexts, contents_default _ _ rfl]
    exact List.Perm.refl _
  · rw [Host.localTickets, entries]
    rfl

theorem Host.advance_core (host : Host) (count : Nat) (contexts : Nat → TaskContextSlot) :
    (host.advance count contexts).core =
      ({ host with contexts, pending := host.pending.drop count } : Host).core := by
  unfold Host.advance
  dsimp only
  split <;> rfl

/-- A request that is taken as a task is entered in the books. -/
theorem Represents.queued {system : System σ} {books : Books}
    (represents : Represents system.host books) {request : BackendRequest} {task : CopyTask}
    (now : Nat)
    (free : (system.host.contexts (system.host.slot system.host.nextTaskId)).state = .free)
    (valid : makeCopyTask system.host.config request system.host.nextTaskId = .ok task) :
    Represents (system.enqueue request task now).host
      { books with pending := books.pending ++ [ticketFor task.taskId request] } := by
  have named := makeCopyTask_taskId valid
  set context : TaskContextSlot :=
    { taskId := system.host.nextTaskId
      parentRequestId := request.parentRequestId
      payloadIndex := request.payloadIndex
      state := .pending
      result := .success } with context_eq
  have ticket : ticketFor task.taskId request = context.ticket := by
    rw [named]
    rfl
  have pending : context.state = .pending := rfl
  have moved := represents.enqueue free pending named
  rw [ticket]
  exact moved.congr rfl

/-! ## Keeping a ledger -/

inductive Keeps (backend : Backend σ) : Ledger → Prop
  | stopped (state : backend.state = .stopped) (host : backend.host = {}) :
      Keeps backend Ledger.empty
  | running {ledger : Ledger} (state : backend.state ≠ .stopped)
      (initialized : backend.host.initialized = true)
      (batch : backend.host.config.hostBatch = hostBatchSize)
      (represents : Represents backend.host ledger.toBooks)
      (tasks : backend.host.pending = ledger.tasks)
      (flushed : backend.host.pendingFlushed = ledger.flushed) :
      Keeps backend ledger

namespace Keeps

variable {backend : Backend σ} {ledger : Ledger}

/-- A backend with an initialized host keeps a ledger through its host. -/
theorem of_initialized (keeps : Keeps backend ledger)
    (initialized : backend.host.initialized = true) :
    backend.state ≠ .stopped ∧ backend.host.config.hostBatch = hostBatchSize ∧
      Represents backend.host ledger.toBooks ∧ backend.host.pending = ledger.tasks ∧
      backend.host.pendingFlushed = ledger.flushed := by
  cases keeps with
  | stopped state host =>
      rw [host] at initialized
      cases initialized
  | running state _ batch represents tasks flushed =>
      exact ⟨state, batch, represents, tasks, flushed⟩

/-- Books with no outstanding request are empty. -/
theorem empty_of_outstanding {host : Host} (represents : Represents host ledger.toBooks)
    (nothing : host.outstanding = 0) :
    ledger.pending = [] ∧ ledger.submitted = [] ∧ ledger.locals = [] := by
  have total := represents.consistent.outstanding
  have pending := represents.length_pending
  have submitted := represents.submitted.length_eq
  have locals := represents.length_locals
  refine ⟨?_, ?_, ?_⟩ <;>
  · rw [← List.length_eq_zero_iff]
    omega

end Keeps

/-! ## Steps as entries -/

theorem Misread.polls {device : Device σ} {system after : System σ}
    (misread : Misread device system after) :
    ∃ status completion, after.trace = system.trace ++ [.polled status completion] ∧
      after.host = system.host := by
  cases misread with
  | failed => exact ⟨_, _, rfl, rfl⟩
  | unknown => exact ⟨_, _, rfl, rfl⟩

theorem Fault.events {device : Device σ} {system after : System σ} {ledger : Ledger}
    (fault : Fault device system after) (tasks : system.host.pending = ledger.tasks)
    (flushed : system.host.pendingFlushed = ledger.flushed) :
    ∃ events, after.trace = system.trace ++ events ∧ after.host = system.host ∧
      Breakdown ledger events := by
  cases fault with
  | misread misread =>
      obtain ⟨status, completion, noted, host⟩ := misread.polls
      exact ⟨_, noted, host, .quiet (by simp [Event.Quiet])⟩
  | refused waiting flushes answer failed useless =>
      rw [tasks] at useless
      refine ⟨_, ?_, rfl, .refused (flushed ▸ flushes) (tasks ▸ waiting) failed useless⟩
      rw [← tasks]
      rfl
  | busy => exact ⟨[], (List.append_nil _).symm, rfl, .quiet (by simp)⟩
  | stale => exact ⟨[], (List.append_nil _).symm, rfl, .quiet (by simp)⟩

/-- The step from `backend` to `next` makes an entry in the ledger. -/
def Refines (backend next : Backend σ) (ledger : Ledger) : Prop :=
  ∃ events after, next.trace = backend.trace ++ events ∧ Entry ledger events after ∧
    Keeps next after

namespace Keeps

variable {backend next : Backend σ} {ledger : Ledger} (keeps : Keeps backend ledger)

include keeps

/-- Steps that leave the ledger alone. -/
theorem quietly {events : List Event} (state : next.state = .stopped ↔ backend.state = .stopped)
    (core : next.host.core = backend.host.core)
    (flushed : next.host.pendingFlushed = backend.host.pendingFlushed)
    (still : backend.state = .stopped → next.host = backend.host)
    (trace : next.trace = backend.trace ++ events) (quiet : ∀ event ∈ events, event.Quiet) :
    Refines backend next ledger := by
  refine ⟨events, { ledger with flushed := ledger.flushed }, trace, .quiet quiet fun _ => rfl, ?_⟩
  cases keeps with
  | stopped stopped host => exact .stopped (state.mpr stopped) ((still stopped).trans host)
  | running running initialized batch represents tasks same =>
      have config := congrArg Host.config core
      have pending := congrArg Host.pending core
      have table := congrArg Host.initialized core
      exact .running (fun stopped => running (state.mp stopped)) (table.trans initialized)
        ((congrArg Config.hostBatch config).trans batch) (represents.congr core)
        (pending.trans tasks) (flushed.trans same)

theorem rearmed (stopped : backend.state = .stopped) :
    backend.host = (backend.system.withFailure .none).host := by
  cases keeps with
  | running state => exact absurd stopped state
  | stopped _ host =>
      change _ = ({ backend.host with lastPublishFailure := .none } : Host)
      rw [host]

theorem queue {request : BackendRequest} {task : CopyTask} (now : Nat)
    (initialized : backend.host.initialized = true)
    (short : backend.host.pending.length < hostBatchSize)
    (fresh : backend.host.pending = [] ∨ backend.host.pendingFlushed = false)
    (free : (backend.host.contexts (backend.host.slot backend.host.nextTaskId)).state = .free)
    (valid : makeCopyTask backend.host.config request backend.host.nextTaskId = .ok task) :
    Refines backend (backend.withSystem (backend.system.enqueue request task now)) ledger := by
  obtain ⟨state, batch, represents, tasks, flushed⟩ := keeps.of_initialized initialized
  have moved := represents.queued now free valid
  rw [tasks] at short fresh
  rw [flushed] at fresh
  refine ⟨[.queued task request ledger.tasks.length], _, ?_, .queue fresh short,
    .running state initialized batch ?_ ?_ ?_⟩
  · rw [← tasks]
    rfl
  · exact moved
  · exact congrArg (· ++ [task]) tasks
  · change (if backend.host.pending.length = 0 then false else backend.host.pendingFlushed) = false
    rw [tasks, flushed]
    rcases fresh with empty | unflushed
    · rw [if_pos (List.length_eq_zero_iff.mpr empty)]
    · rw [unflushed, ite_self]

theorem reject {request : BackendRequest} (initialized : backend.host.initialized = true)
    (free : (backend.host.contexts (backend.host.slot backend.host.nextTaskId)).state = .free) :
    Refines backend
      (backend.withSystem (backend.system.completeLocally request .backendError)) ledger := by
  obtain ⟨state, batch, represents, tasks, flushed⟩ := keeps.of_initialized initialized
  set context : TaskContextSlot :=
    { taskId := backend.host.nextTaskId
      parentRequestId := request.parentRequestId
      payloadIndex := request.payloadIndex
      state := .localError
      result := .backendError } with context_eq
  have failing : context.state = .localError := rfl
  have moved := represents.reject free failing rfl
  exact ⟨_, _, rfl, .reject,
    .running state initialized batch (moved.congr rfl) tasks flushed⟩

theorem take {count : Nat} {after : σ} {contexts : Nat → TaskContextSlot}
    (initialized : backend.host.initialized = true)
    (flushes : backend.host.pendingFlushed = true)
    (positive : 1 ≤ count) (enough : count ≤ backend.host.pending.length)
    (marked : markSubmitted backend.host.capacityMask (backend.host.pending.take count)
      backend.host.contexts = (true, contexts)) :
    Refines backend
      (backend.withSystem
        { backend.system.answered after (.offered backend.host.pending none count) with
          host := backend.host.advance count contexts }) ledger := by
  obtain ⟨state, batch, represents, tasks, flushed⟩ := keeps.of_initialized initialized
  obtain ⟨found, same, moved⟩ :=
    represents.markSubmitted (List.take_append_drop count backend.host.pending).symm
  rw [marked] at same
  injection same with _ same
  subst same
  rw [List.length_take, Nat.min_eq_left enough] at moved
  have flag : ledger.tasks.drop count ≠ [] → (backend.host.advance count contexts).pendingFlushed =
      true := by
    intro left
    rw [Host.advance, tasks, if_pos left]
    exact flushes
  have core := Host.advance_core backend.host count contexts
  refine ⟨_, _, ?_, .take (flushed ▸ flushes) positive (tasks ▸ enough) flag,
    .running state ?_ ?_ (moved.congr core) ?_ rfl⟩
  · rw [← tasks]
    rfl
  · exact (congrArg Host.initialized core).trans initialized
  · exact (congrArg (fun host => host.config.hostBatch) core).trans batch
  · exact (congrArg Host.pending core).trans (congrArg (List.drop count) tasks)

theorem abandon {status : Errno} {after : σ} (initialized : backend.host.initialized = true)
    (waiting : backend.host.pending ≠ []) (unflushed : backend.host.pendingFlushed = false) :
    Refines backend
      (backend.withSystem
        (System.failPending .backendError
          { backend.system.answered after (.flushed (some status)) with
            host :=
              { backend.host with
                publishBlocked := true
                lastPublishFailure := .visibility } }).2) ledger := by
  obtain ⟨state, batch, represents, tasks, flushed⟩ := keeps.of_initialized initialized
  set system : System σ :=
    { backend.system.answered after (.flushed (some status)) with
      host :=
        { backend.host with
          publishBlocked := true
          lastPublishFailure := .visibility } } with system_eq
  have before : Represents system.host ledger.toBooks := represents.congr rfl
  obtain ⟨contexts, localTaskIds, localTail, failed, moved⟩ := before.failPending initialized
  rw [failed]
  refine ⟨.flushed (some status) :: ledger.pending.map .abandoned, _, ?_,
    .abandon (tasks ▸ waiting) (flushed ▸ unflushed),
    .running state initialized batch (moved.congr rfl) rfl rfl⟩
  exact List.append_assoc _ _ _

theorem breakdown {device : Device σ} {system : System σ} {failure : HostPublishFailure}
    (initialized : backend.host.initialized = true)
    (fault : Fault device backend.system system) :
    Refines backend
      (Backend.setState
        (backend.withSystem ((system.withFailure failure).failAll .backendError).2)
        .draining .draining) ledger := by
  obtain ⟨state, batch, represents, tasks, flushed⟩ := keeps.of_initialized initialized
  obtain ⟨events, noted, host, fault⟩ := fault.events tasks flushed
  have core : system.host.core = backend.system.host.core := congrArg Host.core host
  have before : Represents (system.withFailure failure).host ledger.toBooks :=
    represents.congr core
  obtain ⟨contexts, localTaskIds, localTail, revoked, failed, all, moved⟩ :=
    before.failAll ((congrArg Host.initialized host).trans initialized)
  rw [failed]
  refine ⟨_, _, ?_, .breakdown fault all, .running ?_ ?_ ?_ (moved.congr rfl) rfl rfl⟩
  · change (system.trace ++ _) ++ [_] = _
    rw [noted]
    simp only [List.append_assoc]
  · exact fun stopped => by cases stopped
  · exact (congrArg Host.initialized host).trans initialized
  · exact (congrArg (fun host => host.config.hostBatch) host).trans batch

theorem deliverLocal (initialized : backend.host.initialized = true)
    (nonempty : backend.host.localCount ≠ 0) :
    Refines backend
      (backend.withSystem
        (backend.system.deliverLocal
          (backend.host.localTaskIds (backend.host.slot backend.host.localHead)))) ledger := by
  obtain ⟨state, batch, represents, tasks, flushed⟩ := keeps.of_initialized initialized
  obtain ⟨locals, taskId, head, first, failing, named, -, moved⟩ :=
    represents.deliverLocal nonempty
  rw [← head]
  have result := represents.consistent.failed _ (represents.consistent.slot_lt taskId) failing
  refine ⟨_, _, ?_, .deliverLocal first,
    .running state initialized batch (moved.congr rfl) tasks flushed⟩
  have ticket : (backend.host.ticketOf taskId).taskId = taskId := named
  rw [ticket, Backend.trace, Backend.withSystem, System.deliverLocal]
  dsimp only
  rw [← result]
  rfl

theorem deliverPolled {completion : CopyCompletion} {after : σ}
    (initialized : backend.host.initialized = true)
    (taken : (backend.host.contexts (backend.host.slot completion.taskId)).state = .submitted)
    (named : (backend.host.contexts (backend.host.slot completion.taskId)).taskId =
      completion.taskId) :
    Refines backend
      (backend.withSystem
        ((backend.system.answered after (.polled none completion)).deliverPolled completion))
      ledger := by
  obtain ⟨state, batch, represents, tasks, flushed⟩ := keeps.of_initialized initialized
  obtain ⟨submitted, one, -, moved⟩ := represents.deliverSubmitted taken
  have entry : Entry ledger _ { ledger with submitted } :=
    @Entry.deliverPolled ledger _ submitted completion.result one
  refine ⟨_, _, ?_, entry, .running state initialized batch (moved.congr rfl) tasks flushed⟩
  have ticket : (backend.host.ticketOf completion.taskId).taskId = completion.taskId := named
  rw [ticket]
  exact List.append_assoc _ _ _

theorem finish {after : σ} (draining : backend.state = .draining)
    (nothing : backend.host.outstanding = 0) :
    Refines backend
      (Backend.setState
        { backend.withSystem { backend.system with device := after, host := {} } with
          runtimeStopRequested := false }
        .stopped .stopped) ledger := by
  cases keeps with
  | stopped stopped =>
      rw [stopped] at draining
      cases draining
  | running state initialized batch represents tasks flushed =>
      obtain ⟨pending, submitted, locals⟩ := empty_of_outstanding represents nothing
      have waiting : ledger.tasks = [] := by
        rw [← tasks, ← List.length_eq_zero_iff, represents.length_pending, pending]
        rfl
      have quiet : ∀ event ∈ [Event.stopped], event.Quiet := by simp [Event.Quiet]
      refine ⟨[.stopped], _, rfl,
        @Entry.quiet ledger _ false quiet fun left => absurd waiting left, ?_⟩
      have same : ({ ledger with flushed := false } : Ledger) = Ledger.empty := by
        obtain ⟨⟨_, _, _⟩, _, _⟩ := ledger
        simp_all [Ledger.empty]
      rw [same]
      exact .stopped rfl rfl

theorem start {config : Config} {after : σ} (stopped : backend.state = .stopped)
    (valid : ValidConfig config) :
    Refines backend
      (Backend.setState
        { backend.withSystem
            { backend.system with
              device := after
              host :=
                { backend.host with
                  config
                  initialized := true
                  contexts := fun _ => {}
                  localTaskIds := fun _ => 0
                  capacityMask := config.queueCapacity - 1 } } with
          lastError := none
          runtimeStopRequested := false }
        .accepting .started) ledger := by
  cases keeps with
  | running state => exact absurd stopped state
  | stopped _ host =>
      have quiet : ∀ event ∈ [Event.started], event.Quiet := by simp [Event.Quiet]
      refine ⟨[.started], _, rfl, .quiet quiet fun _ => rfl, ?_⟩
      rw [host]
      refine .running (fun wrong => by cases wrong) rfl valid.demands.2.2 ?_ rfl rfl
      exact represents_fresh valid rfl rfl rfl rfl rfl rfl

end Keeps

namespace Backend

theorem Step.refines {device : Device σ} {strict : Prop} {backend next : Backend σ}
    {ledger : Ledger} (keeps : Keeps backend ledger) (step : Step device strict backend next) :
    Refines backend next ledger := by
  cases step with
  | clock => exact keeps.quietly Iff.rfl rfl rfl (fun _ => rfl) (List.append_nil _).symm (by simp)
  | note => exact keeps.quietly Iff.rfl rfl rfl (fun _ => rfl) (List.append_nil _).symm (by simp)
  | rearm =>
      refine keeps.quietly Iff.rfl rfl rfl (fun stopped => ?_) (List.append_nil _).symm (by simp)
      exact (keeps.rearmed stopped).symm
  | queue now initialized accepting room short fresh free valid =>
      exact keeps.queue now initialized short fresh free valid
  | reject initialized accepting room free invalid => exact keeps.reject initialized free
  | flush initialized waiting unflushed answer =>
      obtain ⟨state, batch, represents, tasks, flushed⟩ := keeps.of_initialized initialized
      exact ⟨_, _, rfl, .flush (tasks ▸ waiting) (flushed ▸ unflushed),
        .running state initialized batch (represents.congr rfl) tasks rfl⟩
  | @retain count _ initialized waiting flushed answer =>
      obtain ⟨state, batch, represents, tasks, same⟩ := keeps.of_initialized initialized
      refine ⟨[.offered ledger.tasks (some .eagain) count], _, ?_,
        .retain (tasks ▸ waiting) (same ▸ flushed),
        .running state initialized batch (represents.congr rfl) tasks same⟩
      rw [← tasks]
      rfl
  | take initialized flushed answer positive enough marked =>
      exact keeps.take initialized flushed positive enough marked
  | abandon initialized waiting unflushed answer =>
      exact keeps.abandon initialized waiting unflushed
  | breakdown initialized running fault => exact keeps.breakdown initialized fault
  | misread initialized misread =>
      obtain ⟨status, completion, noted, host⟩ := misread.polls
      have state := (keeps.of_initialized initialized).1
      have core : _ = backend.host.core := congrArg Host.core host
      have flushed : _ = backend.host.pendingFlushed := congrArg Host.pendingFlushed host
      exact keeps.quietly Iff.rfl core flushed (fun stopped => absurd stopped state) noted
        (by simp [Event.Quiet])
  | pollEmpty initialized answer =>
      exact keeps.quietly Iff.rfl rfl rfl (fun _ => rfl) rfl (by simp [Event.Quiet])
  | deliverLocal initialized nonempty => exact keeps.deliverLocal initialized nonempty
  | deliverPolled initialized answer taken named =>
      exact keeps.deliverPolled initialized taken named
  | stopRequest draining unrequested empty answer =>
      exact keeps.quietly Iff.rfl rfl rfl (fun _ => rfl) rfl (by simp [Event.Quiet])
  | drain accepting =>
      refine keeps.quietly ⟨fun wrong => (by cases wrong), fun wrong => ?_⟩ rfl rfl (fun _ => rfl)
        rfl (by simp [Event.Quiet])
      rw [accepting] at wrong
      cases wrong
  | finish draining requested nothing empty => exact keeps.finish draining nothing
  | setup after stopped =>
      exact keeps.quietly Iff.rfl rfl rfl (fun _ => rfl) (List.append_nil _).symm (by simp)
  | start stopped valid small => exact keeps.start stopped ⟨valid, small⟩

end Backend

end Ugdr.Gpu
