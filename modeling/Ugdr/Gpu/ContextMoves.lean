import Ugdr.Gpu.ContextTable

/-! # Moves of one context

The books of a copy backend are three lists of tickets: those that wait to be
published, those that the runtime has, and those that are completed locally. A
consistent host represents such books, and each move of one context does to the
books what it should.
-/

namespace Ugdr.Gpu

open Ugdr.Machine Ugdr.SlotTable
open Ugdr.Worker (BackendRequest BackendCompletion DatagramResult)

/-- Whom the backend still owes a completion. -/
structure Books where
  pending : List Ticket
  submitted : List Ticket
  locals : List Ticket

structure Represents (host : Host) (books : Books) : Prop where
  consistent : Consistent host
  pending : host.pendingTickets = books.pending
  submitted : (host.ticketsIn .submitted).Perm books.submitted
  locals : host.localTickets = books.locals

namespace Host

def store (host : Host) (index : Nat) (context : TaskContextSlot) : Host :=
  { host with contexts := Function.update host.contexts index context }

variable {host other : Host} {index : Nat} {context : TaskContextSlot}

@[simp] theorem store_self : (host.store index context).contexts index = context := by
  simp [store]

theorem store_of_ne {position : Nat} (different : position ≠ index) :
    (host.store index context).contexts position = host.contexts position :=
  Function.update_of_ne different _ _

theorem owned_store (owned : ∀ index < host.capacity,
      (host.contexts index).state ≠ .free → host.slot (host.contexts index).taskId = index)
    (own : context.state ≠ .free → host.slot context.taskId = index) :
    ∀ index' < host.capacity,
      ((host.store index context).contexts index').state ≠ .free →
        host.slot ((host.store index context).contexts index').taskId = index' := by
  intro index' inside occupied
  by_cases same : index' = index
  · subst same
    rw [store_self] at occupied ⊢
    exact own occupied
  · rw [store_of_ne same] at occupied ⊢
    exact owned index' inside occupied

theorem failed_store (failed : ∀ index < host.capacity,
      (host.contexts index).state = .localError → (host.contexts index).result = .backendError)
    (result : context.state = .localError → context.result = .backendError) :
    ∀ index' < host.capacity,
      ((host.store index context).contexts index').state = .localError →
        ((host.store index context).contexts index').result = .backendError := by
  intro index' inside failing
  by_cases same : index' = index
  · subst same
    rw [store_self] at failing ⊢
    exact result failing
  · rw [store_of_ne same] at failing ⊢
    exact failed index' inside failing

end Host

/-- The tickets of the contexts in a state are those of the tasks that are tracked. -/
theorem Consistent.ticketsIn_perm {host : Host} (consistent : Consistent host)
    {state : SlotState} {ids : List Nat}
    (tracks : Tracks host.contexts host.capacity state ids) (occupied : state ≠ .free) :
    (ids.map host.ticketOf).Perm (host.ticketsIn state) := by
  have named : (host.ticketsIn state).map (host.ticketOf ∘ Ticket.taskId) =
      host.ticketsIn state := by
    refine (List.map_congr_left ?_).trans (List.map_id _)
    intro ticket member
    obtain ⟨index, inside, found⟩ := mem_contents.mp member
    by_cases same : (host.contexts index).state = state
    · rw [ticketIn_of_eq same] at found
      injection found with found
      have own := consistent.owned index inside (by rw [same]; exact occupied)
      have mine : ticket.taskId = (host.contexts index).taskId := by
        rw [← found]
        rfl
      rw [Function.comp_apply, Host.ticketOf, mine, own, found, id_eq]
    · rw [ticketIn_of_ne same] at found
      cases found
  have mapped := tracks.map host.ticketOf
  rw [List.map_map] at mapped
  exact mapped.trans (named ▸ List.Perm.refl _)

namespace Represents

variable {host : Host} {books : Books} (represents : Represents host books)

include represents

/-- Fields that consistency is not about may change. -/
theorem congr {other : Host} (same : other.core = host.core) : Represents other books := by
  have pending : other.pendingTickets = host.pendingTickets := by
    change other.core.pendingTickets = host.core.pendingTickets
    rw [same]
  have submitted : other.ticketsIn .submitted = host.ticketsIn .submitted := by
    change other.core.ticketsIn .submitted = host.core.ticketsIn .submitted
    rw [same]
  have locals : other.localTickets = host.localTickets := by
    change other.core.localTickets = host.core.localTickets
    rw [same]
  exact ⟨represents.consistent.congr same, pending.trans represents.pending,
    submitted ▸ represents.submitted, locals.trans represents.locals⟩

theorem reorder {submitted : List Ticket} (same : books.submitted.Perm submitted) :
    Represents host { books with submitted } :=
  ⟨represents.consistent, represents.pending, represents.submitted.trans same,
    represents.locals⟩

theorem pending_cons {task : CopyTask} {tasks : List CopyTask}
    (pending : host.pending = task :: tasks) :
    books.pending = host.ticketOf task.taskId :: books.pending.tail := by
  rw [← represents.pending, Host.pendingTickets, pending]
  rfl

theorem length_pending : host.pending.length = books.pending.length := by
  rw [← represents.pending, Host.pendingTickets, List.length_map]

theorem length_locals : host.localCount = books.locals.length := by
  rw [← represents.locals, Host.localTickets, List.length_map, Host.localEntries, length_ring]

/-- The tickets of the table are those of the books. -/
theorem tickets_perm :
    host.tickets.Perm (books.pending ++ books.submitted ++ books.locals) := by
  have consistent := represents.consistent
  have pending := consistent.ticketsIn_perm consistent.pending (by decide)
  rw [List.map_map] at pending
  have locals := consistent.ticketsIn_perm consistent.localErrors (by decide)
  rw [← represents.pending, ← represents.locals]
  exact (Host.tickets_perm host).trans
    ((pending.symm.append represents.submitted).append locals.symm)

end Represents

/-! ## Tickets after a write -/

namespace Host

variable {host : Host} {index : Nat} {context : TaskContextSlot} {state : SlotState}

theorem ticketsIn_store_other (before : (host.contexts index).state ≠ state)
    (after : context.state ≠ state) :
    (host.store index context).ticketsIn state = host.ticketsIn state := by
  have same : ticketIn state context = ticketIn state (host.contexts index) := by
    rw [ticketIn_of_ne before, ticketIn_of_ne after]
  exact contents_update_of_eq same

theorem ticketsIn_store_enter (inside : index < host.capacity)
    (before : (host.contexts index).state ≠ state) (after : context.state = state) :
    ((host.store index context).ticketsIn state).Perm
      (context.ticket :: host.ticketsIn state) :=
  contents_update_insert inside (ticketIn_of_ne before) (ticketIn_of_eq after)

theorem ticketsIn_store_leave (inside : index < host.capacity)
    (before : (host.contexts index).state = state) (after : context.state ≠ state) :
    (host.ticketsIn state).Perm
      ((host.contexts index).ticket :: (host.store index context).ticketsIn state) :=
  contents_update_erase inside (ticketIn_of_eq before) (ticketIn_of_ne after)

theorem ticketOf_store_of_ne {taskId : Nat} (different : host.slot taskId ≠ index) :
    (host.store index context).ticketOf taskId = host.ticketOf taskId := by
  change ((host.store index context).contexts (host.slot taskId)).ticket = _
  rw [store_of_ne different]
  rfl

end Host

namespace Consistent

variable {host : Host} {index : Nat} {context : TaskContextSlot} (consistent : Consistent host)

include consistent

theorem pendingTickets_store (before : (host.contexts index).state ≠ .pending) :
    (host.store index context).pendingTickets = host.pendingTickets := by
  apply List.map_congr_left
  intro task member
  apply Host.ticketOf_store_of_ne
  rintro rfl
  exact before (consistent.of_mem_pending member).1

theorem localTickets_store (before : (host.contexts index).state ≠ .localError) :
    (host.store index context).localTickets = host.localTickets := by
  apply List.map_congr_left
  intro taskId member
  apply Host.ticketOf_store_of_ne
  rintro rfl
  exact before (consistent.of_mem_localEntries member).1

theorem localEntries_fail (inside : index < host.capacity)
    (before : (host.contexts index).state ≠ .localError) (taskId : Nat) :
    ((host.store index context).pushLocal taskId).localEntries =
      host.localEntries ++ [taskId] :=
  consistent.localEntries_pushLocal (consistent.localCount_lt inside before) taskId

theorem localCount_fail (inside : index < host.capacity)
    (before : (host.contexts index).state ≠ .localError) (taskId : Nat) :
    ((host.store index context).pushLocal taskId).localCount = host.localCount + 1 :=
  consistent.localCount_pushLocal (consistent.localCount_lt inside before) taskId

theorem localTickets_fail (own : host.slot context.taskId = index)
    (before : (host.contexts index).state ≠ .localError) :
    ((host.store index context).pushLocal context.taskId).localTickets =
      host.localTickets ++ [context.ticket] := by
  have inside : index < host.capacity := own ▸ consistent.slot_lt _
  rw [Host.localTickets, consistent.localEntries_fail inside before, List.map_append]
  congr 1
  · exact consistent.localTickets_store before
  · change [((host.store index context).contexts (host.slot context.taskId)).ticket] = _
    rw [own, Host.store_self]

theorem localErrors_fail (own : host.slot context.taskId = index)
    (before : (host.contexts index).state ≠ .localError) (after : context.state = .localError) :
    Tracks (host.store index context).contexts host.capacity .localError
      ((host.store index context).pushLocal context.taskId).localEntries := by
  have inside : index < host.capacity := own ▸ consistent.slot_lt _
  rw [consistent.localEntries_fail inside before]
  exact consistent.localErrors.enter inside before after List.perm_append_comm

end Consistent

/-! ## Moves -/

namespace Consistent

variable {host : Host} {context : TaskContextSlot} {task : CopyTask} {tasks : List CopyTask}
  (consistent : Consistent host)

include consistent

theorem tracks_tail (pending : host.pending = task :: tasks)
    (after : context.state ≠ .pending) :
    Tracks (host.store (host.slot task.taskId) context).contexts host.capacity .pending
      (tasks.map CopyTask.taskId) := by
  have first := consistent.of_pending_cons pending
  refine consistent.pending.leave (consistent.slot_lt _) first.1 after ?_
  rw [pending, List.map_cons, first.2]

theorem owned_tail (named : context.taskId = task.taskId) :
    ∀ index < host.capacity,
      ((host.store (host.slot task.taskId) context).contexts index).state ≠ .free →
        host.slot ((host.store (host.slot task.taskId) context).contexts index).taskId = index :=
  Host.owned_store consistent.owned fun _ => by rw [named]

/-- The first pending task leaves, and the tickets of the others stay. -/
theorem pendingTickets_tail (pending : host.pending = task :: tasks)
    (named : context.taskId = task.taskId) (after : context.state ≠ .pending) :
    ({ host.store (host.slot task.taskId) context with pending := tasks } : Host).pendingTickets =
      host.pendingTickets.tail := by
  rw [Host.pendingTickets, Host.pendingTickets, pending, List.map_cons, List.tail_cons]
  apply List.map_congr_left
  intro other member
  have tracks := consistent.tracks_tail pending after
  have owned := consistent.owned_tail named
  have found := tracks.at_slot owned (by decide) (List.mem_map_of_mem member)
  apply Host.ticketOf_store_of_ne
  intro same
  rw [same, Host.store_self] at found
  exact after found.1

end Consistent

namespace Represents

variable {host : Host} {books : Books} (represents : Represents host books)

include represents

theorem enqueue {task : CopyTask} {context : TaskContextSlot}
    (free : (host.contexts (host.slot context.taskId)).state = .free)
    (state : context.state = .pending) (named : task.taskId = context.taskId) :
    Represents
      { host.store (host.slot context.taskId) context with
        pending := host.pending ++ [task]
        outstanding := host.outstanding + 1 }
      { books with pending := books.pending ++ [context.ticket] } := by
  have consistent := represents.consistent
  have inside := consistent.slot_lt context.taskId
  have submitted : (host.store (host.slot context.taskId) context).ticketsIn .submitted =
      host.ticketsIn .submitted :=
    Host.ticketsIn_store_other (by rw [free]; decide) (by rw [state]; decide)
  refine ⟨⟨consistent.sized, consistent.mask, ?_, ?_, ?_, ?_, consistent.head,
    consistent.tail, ?_⟩, ?_, ?_, ?_⟩
  · exact Host.owned_store consistent.owned fun _ => rfl
  · refine consistent.pending.enter inside (by rw [free]; decide) state ?_
    rw [List.map_append, ← named]
    exact List.perm_append_comm
  · exact consistent.localErrors.other (by rw [free]; decide) (by rw [state]; decide)
  · have total := consistent.outstanding
    change host.outstanding + 1 = (host.pending ++ [task]).length + host.localCount +
      ((host.store (host.slot context.taskId) context).ticketsIn .submitted).length
    rw [submitted, List.length_append, List.length_singleton]
    omega
  · exact Host.failed_store consistent.failed fun failing => by rw [state] at failing; cases failing
  · rw [← represents.pending, Host.pendingTickets, List.map_append]
    congr 1
    · exact consistent.pendingTickets_store (by rw [free]; decide)
    · change [((host.store _ context).contexts (host.slot task.taskId)).ticket] = _
      rw [named, Host.store_self]
  · exact submitted ▸ represents.submitted
  · exact (consistent.localTickets_store (by rw [free]; decide)).trans represents.locals

theorem reject {context : TaskContextSlot}
    (free : (host.contexts (host.slot context.taskId)).state = .free)
    (state : context.state = .localError) (result : context.result = .backendError) :
    Represents
      { (host.store (host.slot context.taskId) context).pushLocal context.taskId with
        outstanding := host.outstanding + 1 }
      { books with locals := books.locals ++ [context.ticket] } := by
  have consistent := represents.consistent
  have inside := consistent.slot_lt context.taskId
  have before : (host.contexts (host.slot context.taskId)).state ≠ .localError := by
    rw [free]
    decide
  have submitted : (host.store (host.slot context.taskId) context).ticketsIn .submitted =
      host.ticketsIn .submitted :=
    Host.ticketsIn_store_other (by rw [free]; decide) (by rw [state]; decide)
  refine ⟨⟨consistent.sized, consistent.mask, ?_, ?_, ?_, ?_, consistent.head,
    Nat.mod_lt _ (by decide), ?_⟩, ?_, ?_, ?_⟩
  · exact Host.owned_store consistent.owned fun _ => rfl
  · exact consistent.pending.other (by rw [free]; decide) (by rw [state]; decide)
  · exact consistent.localErrors_fail rfl before state
  · have total := consistent.outstanding
    have count := @Consistent.localCount_fail _ _ context consistent inside before context.taskId
    change host.outstanding + 1 = host.pending.length +
      ((host.store (host.slot context.taskId) context).pushLocal context.taskId).localCount +
      ((host.store (host.slot context.taskId) context).ticketsIn .submitted).length
    rw [submitted, count]
    omega
  · exact Host.failed_store consistent.failed fun _ => result
  · exact (consistent.pendingTickets_store (by rw [free]; decide)).trans represents.pending
  · exact submitted ▸ represents.submitted
  · exact (consistent.localTickets_fail rfl before).trans (by rw [represents.locals])

/-- The runtime takes the first pending task. -/
theorem submitHead {task : CopyTask} {tasks : List CopyTask} {context : TaskContextSlot}
    (pending : host.pending = task :: tasks)
    (ticket : context.ticket = host.ticketOf task.taskId) (state : context.state = .submitted) :
    Represents
      { host.store (host.slot task.taskId) context with pending := tasks }
      { books with
        pending := books.pending.tail
        submitted := context.ticket :: books.submitted } := by
  have consistent := represents.consistent
  have first := consistent.of_pending_cons pending
  have named : context.taskId = task.taskId := (congrArg Ticket.taskId ticket).trans first.2
  have leaves : context.state ≠ .pending := by
    rw [state]
    decide
  have submitted : ((host.store (host.slot task.taskId) context).ticketsIn .submitted).Perm
      (context.ticket :: host.ticketsIn .submitted) :=
    Host.ticketsIn_store_enter (consistent.slot_lt _) (by rw [first.1]; decide) state
  refine ⟨⟨consistent.sized, consistent.mask, consistent.owned_tail named,
    consistent.tracks_tail pending leaves, ?_, ?_, consistent.head, consistent.tail, ?_⟩,
    ?_, ?_, ?_⟩
  · exact consistent.localErrors.other (by rw [first.1]; decide) (by rw [state]; decide)
  · have total := consistent.outstanding
    rw [pending, List.length_cons] at total
    change host.outstanding = tasks.length + host.localCount +
      ((host.store (host.slot task.taskId) context).ticketsIn .submitted).length
    rw [submitted.length_eq, List.length_cons]
    omega
  · exact Host.failed_store consistent.failed fun failing => by rw [state] at failing; cases failing
  · rw [consistent.pendingTickets_tail pending named leaves, represents.pending]
  · exact submitted.trans (represents.submitted.cons _)
  · exact (consistent.localTickets_store (by rw [first.1]; decide)).trans represents.locals

/-- The first pending task is completed locally. -/
theorem abandonHead {task : CopyTask} {tasks : List CopyTask} {context : TaskContextSlot}
    (pending : host.pending = task :: tasks)
    (ticket : context.ticket = host.ticketOf task.taskId) (state : context.state = .localError)
    (result : context.result = .backendError) :
    Represents
      { (host.store (host.slot task.taskId) context).pushLocal task.taskId with
        pending := tasks }
      { books with
        pending := books.pending.tail
        locals := books.locals ++ [context.ticket] } := by
  have consistent := represents.consistent
  have first := consistent.of_pending_cons pending
  have named : context.taskId = task.taskId := (congrArg Ticket.taskId ticket).trans first.2
  have leaves : context.state ≠ .pending := by
    rw [state]
    decide
  have before : (host.contexts (host.slot task.taskId)).state ≠ .localError := by
    rw [first.1]
    decide
  have submitted : (host.store (host.slot task.taskId) context).ticketsIn .submitted =
      host.ticketsIn .submitted :=
    Host.ticketsIn_store_other (by rw [first.1]; decide) (by rw [state]; decide)
  refine ⟨⟨consistent.sized, consistent.mask, consistent.owned_tail named,
    consistent.tracks_tail pending leaves, ?_, ?_, consistent.head,
    Nat.mod_lt _ (by decide), ?_⟩, ?_, ?_, ?_⟩
  · have tracks := consistent.localErrors_fail (by rw [named]) before state
    rw [named] at tracks
    exact tracks
  · have total := consistent.outstanding
    have count : ((host.store (host.slot task.taskId) context).pushLocal task.taskId).localCount =
        host.localCount + 1 :=
      consistent.localCount_fail (consistent.slot_lt _) before _
    rw [pending, List.length_cons] at total
    change host.outstanding = tasks.length +
      ((host.store (host.slot task.taskId) context).pushLocal task.taskId).localCount +
      ((host.store (host.slot task.taskId) context).ticketsIn .submitted).length
    rw [submitted, count]
    omega
  · exact Host.failed_store consistent.failed fun _ => result
  · exact (consistent.pendingTickets_tail pending named leaves).trans (by rw [represents.pending])
  · exact submitted ▸ represents.submitted
  · have tickets := consistent.localTickets_fail (by rw [named]) before
    rw [named, represents.locals] at tickets
    exact tickets

/-- A task that the runtime has taken is completed locally. -/
theorem revoke {index : Nat} {context : TaskContextSlot} (inside : index < host.capacity)
    (taken : (host.contexts index).state = .submitted)
    (ticket : context.ticket = (host.contexts index).ticket) (state : context.state = .localError)
    (result : context.result = .backendError) :
    ∃ submitted, books.submitted.Perm (context.ticket :: submitted) ∧
      Represents ((host.store index context).pushLocal context.taskId)
        { books with submitted, locals := books.locals ++ [context.ticket] } := by
  have consistent := represents.consistent
  have named : context.taskId = (host.contexts index).taskId := congrArg Ticket.taskId ticket
  have own : host.slot context.taskId = index := by
    rw [named]
    exact consistent.owned index inside (by rw [taken]; decide)
  have before : (host.contexts index).state ≠ .localError := by
    rw [taken]
    decide
  have submitted : (host.ticketsIn .submitted).Perm
      (context.ticket :: (host.store index context).ticketsIn .submitted) :=
    ticket ▸ Host.ticketsIn_store_leave inside taken (by rw [state]; decide)
  refine ⟨(host.store index context).ticketsIn .submitted,
    represents.submitted.symm.trans submitted, ⟨consistent.sized, consistent.mask, ?_, ?_, ?_,
      ?_, consistent.head, Nat.mod_lt _ (by decide), ?_⟩, ?_, ?_, ?_⟩
  · exact Host.owned_store consistent.owned fun _ => own
  · exact consistent.pending.other (by rw [taken]; decide) (by rw [state]; decide)
  · exact consistent.localErrors_fail own before state
  · have total := consistent.outstanding
    have count : ((host.store index context).pushLocal context.taskId).localCount =
        host.localCount + 1 :=
      consistent.localCount_fail inside before _
    change host.outstanding = host.pending.length +
      ((host.store index context).pushLocal context.taskId).localCount +
      ((host.store index context).ticketsIn .submitted).length
    rw [submitted.length_eq, List.length_cons] at total
    rw [count]
    omega
  · exact Host.failed_store consistent.failed fun _ => result
  · exact (consistent.pendingTickets_store (by rw [taken]; decide)).trans represents.pending
  · exact List.Perm.refl _
  · exact (consistent.localTickets_fail own before).trans (by rw [represents.locals])

/-- A completion of the runtime is delivered. -/
theorem deliverSubmitted {taskId : Nat}
    (taken : (host.contexts (host.slot taskId)).state = .submitted) :
    ∃ submitted, books.submitted.Perm (host.ticketOf taskId :: submitted) ∧
      host.outstanding ≠ 0 ∧
      Represents
        { host.store (host.slot taskId) {} with outstanding := host.outstanding - 1 }
        { books with submitted } := by
  have consistent := represents.consistent
  have inside := consistent.slot_lt taskId
  have submitted : (host.ticketsIn .submitted).Perm
      (host.ticketOf taskId :: (host.store (host.slot taskId) {}).ticketsIn .submitted) :=
    Host.ticketsIn_store_leave inside taken (by decide)
  have total := consistent.outstanding
  rw [submitted.length_eq, List.length_cons] at total
  refine ⟨(host.store (host.slot taskId) {}).ticketsIn .submitted,
    represents.submitted.symm.trans submitted, by omega, ⟨consistent.sized, consistent.mask, ?_,
      ?_, ?_, ?_, consistent.head, consistent.tail, ?_⟩, ?_, ?_, ?_⟩
  · exact Host.owned_store consistent.owned fun occupied => absurd rfl occupied
  · exact consistent.pending.other (by rw [taken]; decide) (by decide)
  · exact consistent.localErrors.other (by rw [taken]; decide) (by decide)
  · change host.outstanding - 1 = host.pending.length + host.localCount +
      ((host.store (host.slot taskId) {}).ticketsIn .submitted).length
    omega
  · exact Host.failed_store consistent.failed fun failing => by cases failing
  · exact (consistent.pendingTickets_store (by rw [taken]; decide)).trans represents.pending
  · exact List.Perm.refl _
  · exact (consistent.localTickets_store (by rw [taken]; decide)).trans represents.locals

/-- The first local completion is delivered. -/
theorem deliverLocal (nonempty : host.localCount ≠ 0) :
    ∃ locals taskId, taskId = host.localTaskIds (host.slot host.localHead) ∧
      books.locals = host.ticketOf taskId :: locals ∧
      (host.contexts (host.slot taskId)).state = .localError ∧
      (host.contexts (host.slot taskId)).taskId = taskId ∧
      host.outstanding ≠ 0 ∧
      Represents
        { host.store (host.slot taskId) {} with
          localHead := wrapAdd 64 host.localHead 1
          outstanding := host.outstanding - 1 }
        { books with locals } := by
  have consistent := represents.consistent
  have popped := consistent.localEntries_pop nonempty
  set taskId := host.localTaskIds (host.slot host.localHead) with taskId_eq
  set entries := ({ host with localHead := wrapAdd 64 host.localHead 1 } : Host).localEntries
    with entries_eq
  have first := consistent.of_mem_localEntries (popped ▸ List.mem_cons_self)
  have inside := consistent.slot_lt taskId
  have tracks : Tracks (host.store (host.slot taskId) {}).contexts host.capacity .localError
      entries := by
    refine consistent.localErrors.leave inside first.1 (by decide) ?_
    rw [popped, first.2]
  have owned : ∀ index < host.capacity,
      ((host.store (host.slot taskId) {}).contexts index).state ≠ .free →
        host.slot ((host.store (host.slot taskId) {}).contexts index).taskId = index :=
    Host.owned_store consistent.owned fun occupied => absurd rfl occupied
  have others : entries.map (host.store (host.slot taskId) {}).ticketOf =
      entries.map host.ticketOf := by
    apply List.map_congr_left
    intro other member
    have found := tracks.at_slot owned (by decide) member
    apply Host.ticketOf_store_of_ne
    intro same
    rw [same, Host.store_self] at found
    cases found.1
  have submitted : (host.store (host.slot taskId) {}).ticketsIn .submitted =
      host.ticketsIn .submitted :=
    Host.ticketsIn_store_other (by rw [first.1]; decide) (by decide)
  have fewer : host.localCount = entries.length + 1 := by
    have lengths := congrArg List.length popped
    rwa [Host.localEntries, length_ring, List.length_cons] at lengths
  have total := consistent.outstanding
  refine ⟨entries.map host.ticketOf, taskId, rfl, ?_, first.1, first.2, by omega,
    ⟨consistent.sized, consistent.mask, owned, ?_, tracks, ?_, Nat.mod_lt _ (by decide),
      consistent.tail, ?_⟩, ?_, ?_, ?_⟩
  · rw [← represents.locals, Host.localTickets, popped, List.map_cons]
  · exact consistent.pending.other (by rw [first.1]; decide) (by decide)
  · have count : ({ host with localHead := wrapAdd 64 host.localHead 1 } : Host).localCount =
        entries.length := by
      rw [entries_eq, Host.localEntries, length_ring]
    change host.outstanding - 1 = host.pending.length +
      ({ host with localHead := wrapAdd 64 host.localHead 1 } : Host).localCount +
      ((host.store (host.slot taskId) {}).ticketsIn .submitted).length
    rw [submitted, count]
    omega
  · exact Host.failed_store consistent.failed fun failing => by cases failing
  · exact (consistent.pendingTickets_store (by rw [first.1]; decide)).trans represents.pending
  · exact submitted ▸ represents.submitted
  · exact others

end Represents

end Ugdr.Gpu
