import Ugdr.Gpu.ContextMoves

/-! # What the loops of the host do

The loops of `publish_pending`, `fail_pending` and `fail_all` move the contexts of a
consistent host one by one. None of them meets a context that does not belong to its
task.
-/

namespace Ugdr.Gpu

open Ugdr.Machine Ugdr.SlotTable
open Ugdr.Worker (BackendRequest BackendCompletion DatagramResult)

namespace Host

/-- The host with another table and another end of the ring. -/
def retable (host : Host) (contexts : Nat → TaskContextSlot) (localTaskIds : Nat → Nat)
    (localTail : Nat) : Host :=
  { host with contexts, localTaskIds, localTail }

end Host

namespace System

variable {σ : Type} {system : System σ} {index : Nat} {result : DatagramResult}

theorem failSlot_of_submitted (taken : (system.host.contexts index).state = .submitted) :
    failSlot result system index =
      { system with
        host :=
          (system.host.store index
            { system.host.contexts index with state := .localError, result }).pushLocal
              (system.host.contexts index).taskId
        trace := system.trace ++ [.revoked (system.host.contexts index).ticket] } := by
  rw [failSlot, if_neg (not_not_intro taken)]
  rfl

theorem failSlot_of_ne (other : (system.host.contexts index).state ≠ .submitted) :
    failSlot result system index = system := by
  rw [failSlot, if_pos other]

end System

namespace Represents

variable {host : Host} {books : Books}

/-- The loop of `publish_pending` over the tasks that the runtime has taken. -/
theorem markSubmitted (represents : Represents host books) {front back : List CopyTask}
    (pending : host.pending = front ++ back) :
    ∃ contexts, Gpu.markSubmitted host.capacityMask front host.contexts = (true, contexts) ∧
      Represents { host with contexts, pending := back }
        { books with
          pending := books.pending.drop front.length
          submitted := books.pending.take front.length ++ books.submitted } := by
  induction front generalizing host books with
  | nil =>
      refine ⟨host.contexts, rfl, ?_⟩
      rw [List.nil_append] at pending
      rw [← pending]
      simpa using represents
  | cons task front induction =>
      have first := represents.consistent.of_pending_cons pending
      have belongs : ¬((host.contexts (task.taskId &&& host.capacityMask)).state ≠ .pending ∨
          (host.contexts (task.taskId &&& host.capacityMask)).taskId ≠ task.taskId) := by
        rw [not_or, not_ne_iff, not_ne_iff]
        exact first
      have ticket : ({ host.contexts (host.slot task.taskId) with
          state := .submitted } : TaskContextSlot).ticket = host.ticketOf task.taskId := rfl
      have moved := represents.submitHead pending ticket rfl
      obtain ⟨contexts, marked, after⟩ := induction moved rfl
      refine ⟨contexts, ?_, ?_⟩
      · rw [Gpu.markSubmitted]
        simp only [belongs, ↓reduceIte]
        exact marked
      · rw [represents.pending_cons pending, List.length_cons, List.drop_succ_cons,
          List.take_succ_cons]
        refine after.reorder ?_
        rw [List.cons_append]
        exact List.perm_middle

/-- The loop of `fail_pending`. -/
theorem failTasks {σ : Type} {system : System σ} {tasks : List CopyTask}
    (represents : Represents { system.host with pending := tasks } books) :
    ∃ contexts localTaskIds localTail,
      System.failTasks .backendError tasks system =
        (true,
          { system with
            host := system.host.retable contexts localTaskIds localTail
            trace := system.trace ++ books.pending.map .abandoned }) ∧
      Represents { system.host.retable contexts localTaskIds localTail with pending := [] }
        { books with pending := [], locals := books.locals ++ books.pending } := by
  induction tasks generalizing system books with
  | nil =>
      have empty : books.pending = [] := by
        rw [← represents.pending]
        rfl
      refine ⟨system.host.contexts, system.host.localTaskIds, system.host.localTail, ?_, ?_⟩
      · rw [System.failTasks, empty, List.map_nil, List.append_nil]
        rfl
      · rw [empty, List.append_nil, ← empty]
        exact represents
  | cons task tasks induction =>
      have first := represents.consistent.of_pending_cons rfl
      have belongs : ¬((system.host.contexts (system.host.slot task.taskId)).state ≠ .pending ∨
          (system.host.contexts (system.host.slot task.taskId)).taskId ≠ task.taskId) := by
        rw [not_or, not_ne_iff, not_ne_iff]
        exact first
      have ticket : ({ system.host.contexts (system.host.slot task.taskId) with
          state := .localError
          result := .backendError } : TaskContextSlot).ticket =
            system.host.ticketOf task.taskId := rfl
      have moved := represents.abandonHead rfl ticket rfl rfl
      obtain ⟨contexts, localTaskIds, localTail, failed, after⟩ := @induction
        _ { system with
          host :=
            (system.host.store (system.host.slot task.taskId)
              { system.host.contexts (system.host.slot task.taskId) with
                state := .localError
                result := .backendError }).pushLocal task.taskId
          trace := system.trace ++ [.abandoned (system.host.ticketOf task.taskId)] } moved
      have split := represents.pending_cons rfl
      refine ⟨contexts, localTaskIds, localTail, ?_, ?_⟩
      · rw [System.failTasks]
        simp only [belongs, ↓reduceIte]
        refine failed.trans ?_
        rw [split]
        simp [Host.retable, Host.pushLocal, Host.store, Host.ticketOf, Host.slot]
      · rw [split, List.append_cons]
        exact after

theorem failPending {σ : Type} {system : System σ} (represents : Represents system.host books)
    (initialized : system.host.initialized = true) :
    ∃ contexts localTaskIds localTail,
      system.failPending .backendError =
        (none,
          { system with
            host :=
              { system.host.retable contexts localTaskIds localTail with
                pending := []
                firstPending := 0
                publishBlocked := false
                pendingFlushed := false
                lastPublishFailure := .none }
            trace := system.trace ++ books.pending.map .abandoned }) ∧
      Represents { system.host.retable contexts localTaskIds localTail with pending := [] }
        { books with pending := [], locals := books.locals ++ books.pending } := by
  obtain ⟨contexts, localTaskIds, localTail, failed, after⟩ :=
    @failTasks books _ system system.host.pending represents
  refine ⟨contexts, localTaskIds, localTail, ?_, after⟩
  rw [System.failPending, if_neg (by rw [initialized]; decide), failed]

/-- The loop of `fail_all` over the first slots of the table. -/
theorem failSlots {σ : Type} {system : System σ} (represents : Represents system.host books)
    {count : Nat} (inside : count ≤ system.host.capacity) :
    ∃ contexts localTaskIds localTail revoked submitted,
      (List.range count).foldl (System.failSlot .backendError) system =
        { system with
          host := system.host.retable contexts localTaskIds localTail
          trace := system.trace ++ revoked.map .revoked } ∧
      books.submitted.Perm (revoked ++ submitted) ∧
      (∀ index < count, (contexts index).state ≠ .submitted) ∧
      Represents (system.host.retable contexts localTaskIds localTail)
        { books with submitted, locals := books.locals ++ revoked } := by
  induction count with
  | zero =>
      refine ⟨system.host.contexts, system.host.localTaskIds, system.host.localTail, [],
        books.submitted, ?_, List.Perm.refl _, ?_, ?_⟩
      · rw [List.map_nil, List.append_nil]
        rfl
      · intro index less
        omega
      · rw [List.append_nil]
        exact represents
  | succ count induction =>
      obtain ⟨contexts, localTaskIds, localTail, revoked, submitted, folded, perm, clear,
        after⟩ := induction (by omega)
      rw [List.range_succ, List.foldl_append, folded, List.foldl_cons, List.foldl_nil]
      by_cases taken : (contexts count).state = .submitted
      · set failing : TaskContextSlot :=
          { contexts count with state := .localError, result := .backendError } with failing_eq
        have ticket : failing.ticket = (contexts count).ticket := rfl
        obtain ⟨fewer, removed, moved⟩ := after.revoke inside taken ticket rfl rfl
        refine ⟨Function.update contexts count failing,
          Function.update localTaskIds (system.host.slot localTail) failing.taskId,
          wrapAdd 64 localTail 1, revoked ++ [failing.ticket], fewer, ?_, ?_, ?_, ?_⟩
        · refine (System.failSlot_of_submitted taken).trans ?_
          rw [List.map_append, ← List.append_assoc]
          rfl
        · rw [List.append_assoc]
          exact perm.trans (removed.append_left revoked)
        · intro index less
          by_cases same : index = count
          · simp [same, failing_eq]
          · rw [Function.update_of_ne same]
            exact clear index (by omega)
        · rw [← List.append_assoc]
          exact moved
      · refine ⟨contexts, localTaskIds, localTail, revoked, submitted, ?_, perm, ?_, after⟩
        · exact System.failSlot_of_ne taken
        · intro index less
          rcases Nat.lt_succ_iff_lt_or_eq.mp less with less | rfl
          · exact clear index less
          · exact taken

theorem failAll {σ : Type} {system : System σ} (represents : Represents system.host books)
    (initialized : system.host.initialized = true) :
    ∃ contexts localTaskIds localTail revoked,
      system.failAll .backendError =
        (none,
          { system with
            host :=
              { system.host.retable contexts localTaskIds localTail with
                pending := []
                firstPending := 0
                publishBlocked := false
                pendingFlushed := false
                lastPublishFailure := .none }
            trace :=
              system.trace ++ (books.pending.map .abandoned ++ revoked.map .revoked) }) ∧
      books.submitted.Perm revoked ∧
      Represents { system.host.retable contexts localTaskIds localTail with pending := [] }
        { pending := []
          submitted := []
          locals := books.locals ++ (books.pending ++ revoked) } := by
  obtain ⟨contexts, localTaskIds, localTail, failed, after⟩ := represents.failPending initialized
  set cleared : System σ :=
    { system with
      host :=
        { system.host.retable contexts localTaskIds localTail with
          pending := []
          firstPending := 0
          publishBlocked := false
          pendingFlushed := false
          lastPublishFailure := .none }
      trace := system.trace ++ books.pending.map .abandoned } with cleared_eq
  have reset : Represents cleared.host
      { books with pending := [], locals := books.locals ++ books.pending } := after.congr rfl
  obtain ⟨contexts', localTaskIds', localTail', revoked, submitted, folded, perm, clear, done⟩ :=
    reset.failSlots (Nat.le_refl _)
  have none : submitted = [] := by
    have empty : (cleared.host.retable contexts' localTaskIds' localTail').ticketsIn
        .submitted = [] :=
      contents_eq_nil_of_free fun index inside => ticketIn_of_ne (clear index inside)
    have same := done.submitted
    rw [empty] at same
    exact same.symm.eq_nil
  rw [none, List.append_nil] at perm
  rw [none, List.append_assoc] at done
  refine ⟨contexts', localTaskIds', localTail', revoked, ?_, perm, done.congr rfl⟩
  rw [System.failAll, failed]
  change (Option.none, _) = _
  rw [show cleared.host.config.queueCapacity = cleared.host.capacity from rfl, folded]
  simp only [cleared_eq, Host.retable, List.append_assoc]

end Represents

end Ugdr.Gpu
