import Ugdr.Gpu.BackendCalls

/-! # Runs of the backend

The accounts of the ledger and the rule of publication hold after any sequence of calls,
whatever the runtime, the visibility gate and the clock answer.
-/

namespace Ugdr.Gpu

open Ugdr.Execution Ugdr.SlotTable Ugdr.Trace
open Ugdr.Worker (BackendRequest BackendCompletion DatagramResult)

variable {σ : Type}

/-! ## Completions -/

/-- A completion goes to an accepted request that had none before. -/
def CompletesOnce (before : List Event) (event : Event) : Prop :=
  ∀ ticket, event.completed = some ticket →
    (before.filterMap Event.completed ++ [ticket]).Subperm (before.filterMap Event.accepted)

/-- What a completion reports: an error if it was settled locally, and else what the
runtime has just reported for the task. -/
def ReportsResult (before : List Event) : Event → Prop
  | .delivered _ false completion => completion.result = .backendError
  | .delivered taskId true completion =>
      ∃ earlier result, before = earlier ++ [.polled none ⟨taskId, result⟩] ∧
        completion.result = result.datagramResult
  | _ => True

theorem count_completed (ticket : Ticket) (trace : List Event) :
    (trace.filterMap Event.completed).count ticket =
      (trace.filterMap Event.deliveredLocally).count ticket +
        (trace.filterMap Event.deliveredByRuntime).count ticket := by
  induction trace using List.reverseRecOn with
  | nil => rfl
  | append_singleton trace event induction =>
      simp only [List.filterMap_append, List.count_append, induction, filterMap_singleton]
      cases event with
      | delivered taskId fromRuntime completion =>
          cases fromRuntime <;>
            simp [Event.completed, Event.deliveredLocally, Event.deliveredByRuntime] <;> omega
      | _ => simp [Event.completed, Event.deliveredLocally, Event.deliveredByRuntime]

namespace Accounted

variable {trace : List Event} {books : Books} (accounted : Accounted trace books)

include accounted

/-- The accepted requests are those that have been completed and those that are owed a
completion. -/
theorem balance :
    (trace.filterMap Event.accepted).Perm
      (trace.filterMap Event.completed ++ (books.pending ++ books.submitted ++ books.locals)) := by
  rw [List.perm_iff_count]
  intro ticket
  have everyone := accounted.everyone.count_eq ticket
  rw [accounted.inOrder] at everyone
  simp only [List.count_append, count_completed] at everyone ⊢
  omega

/-- A request that is owed a completion may be given one. -/
theorem may_complete {ticket : Ticket}
    (owed : ticket ∈ books.pending ++ books.submitted ++ books.locals) :
    (trace.filterMap Event.completed ++ [ticket]).Subperm (trace.filterMap Event.accepted) := by
  have single : List.Sublist [ticket] (books.pending ++ books.submitted ++ books.locals) :=
    List.singleton_sublist.mpr owed
  exact (single.append_left _).subperm.trans accounted.balance.symm.subperm

end Accounted

/-- The events of an entry complete nothing, or they deliver one completion that is
owed. -/
theorem Entry.deliveries {ledger after : Ledger} {events : List Event}
    (entry : Entry ledger events after) :
    (∀ event ∈ events, event.completed = none) ∨
      (∃ ticket ∈ ledger.locals,
        events = [.delivered ticket.taskId false (ticket.completion .backendError)]) ∨
      ∃ ticket ∈ ledger.submitted, ∃ result : CopyTaskResult,
        events = [.polled none ⟨ticket.taskId, result⟩] ++
          [.delivered ticket.taskId true (ticket.completion result.datagramResult)] := by
  have quiet : ∀ event : Event, event.Quiet → event.completed = none := by
    intro event quiet
    cases event <;> first | rfl | cases quiet
  cases entry with
  | quiet still => exact .inl fun event member => quiet event (still event member)
  | abandon =>
      left
      simp [Event.completed]
  | breakdown fault =>
      left
      intro event member
      simp only [List.mem_append, List.mem_map, List.mem_singleton] at member
      rcases member with (member | ⟨ticket, -, rfl⟩ | ⟨ticket, -, rfl⟩) | rfl
      · cases fault with
        | quiet still => exact quiet event (still event member)
        | refused =>
            rw [List.mem_singleton.mp member]
            rfl
      · rfl
      · rfl
      · rfl
  | deliverLocal first =>
      exact .inr (.inl ⟨_, by rw [first]; exact List.mem_cons_self, rfl⟩)
  | @deliverPolled _ _ result one =>
      exact .inr (.inr ⟨_, one.mem_iff.mpr List.mem_cons_self, result, rfl⟩)
  | _ =>
      left
      simp [Event.completed]

/-! ## What holds after every step -/

/-- The backend keeps the ledger, and what has happened is in order. -/
structure Sound (backend : Backend σ) (ledger : Ledger) : Prop where
  keeps : Keeps backend ledger
  accounted : Accounted backend.trace ledger.toBooks
  published : Published backend.trace ledger
  completes : Every CompletesOnce backend.trace
  reports : Every ReportsResult backend.trace

theorem Sound.step {device : Device σ} {strict : Prop} {backend next : Backend σ}
    {ledger : Ledger} (sound : Sound backend ledger)
    (step : Backend.Step device strict backend next) : ∃ after, Sound next after := by
  obtain ⟨events, after, trace, entry, keeps⟩ := step.refines sound.keeps
  refine ⟨after, keeps, trace ▸ sound.accounted.entry entry, trace ▸ sound.published.entry entry,
    ?_, ?_⟩
  · rw [trace]
    rcases entry.deliveries with none | ⟨ticket, owed, rfl⟩ | ⟨ticket, owed, result, rfl⟩
    · refine every_append sound.completes fun before event member ticket completed => ?_
      rw [none event member] at completed
      cases completed
    · refine every_concat.mpr ⟨sound.completes, fun other completed => ?_⟩
      injection completed with completed
      rw [← completed]
      exact sound.accounted.may_complete (List.mem_append_right _ owed)
    · rw [← List.append_assoc]
      refine every_concat.mpr ⟨every_concat.mpr ⟨sound.completes, fun other completed => ?_⟩,
        fun other completed => ?_⟩
      · cases completed
      · injection completed with completed
        rw [← completed, List.filterMap_append, List.filterMap_append]
        simpa [Event.completed, Event.accepted] using sound.accounted.may_complete
          (List.mem_append_left _ (List.mem_append_right _ owed))
  · rw [trace]
    rcases entry.deliveries with none | ⟨ticket, -, rfl⟩ | ⟨ticket, -, result, rfl⟩
    · refine every_append sound.reports fun before event member => ?_
      have undelivered := none event member
      cases event <;> trivial
    · exact every_concat.mpr ⟨sound.reports, rfl⟩
    · rw [← List.append_assoc]
      exact every_concat.mpr ⟨every_concat.mpr ⟨sound.reports, trivial⟩, _, _, rfl, rfl⟩

theorem Sound.steps {device : Device σ} {strict : Prop} {backend next : Backend σ}
    (steps : Backend.Steps device strict backend next) (sound : ∃ ledger, Sound backend ledger) :
    ∃ ledger, Sound next ledger := by
  induction steps with
  | refl => exact sound
  | tail _ step induction =>
      obtain ⟨ledger, kept⟩ := induction
      exact kept.step step

/-! ## Runs -/

theorem atRest_create (device : σ) : Backend.AtRest (Backend.create device) :=
  ⟨⟨Ledger.empty, .stopped rfl rfl⟩, settled_of_cleared rfl rfl rfl⟩

theorem sound_create (device : σ) : Sound (Backend.create device) Ledger.empty := by
  refine ⟨.stopped rfl rfl, ⟨List.Perm.refl _, rfl⟩, ⟨rfl, rfl, ?_, ?_, every_nil, ?_⟩,
    every_nil, every_nil⟩
  · exact fun _ waiting => absurd rfl waiting
  · exact fun left => absurd rfl left
  · intro before status after split
    cases before <;> cases split

/-- After any sequence of calls the backend is at rest. -/
theorem run_atRest (device : Device σ) (initial : σ) (calls : List Backend.Call) :
    Backend.AtRest (run (Backend.step device) (Backend.create initial) calls) := by
  refine run_invariant (fun backend call rest => ?_) (atRest_create initial) calls
  exact (@Backend.AtRest.step _ device False _ rest call fun no => no.elim).2

theorem run_sound (device : Device σ) (initial : σ) (calls : List Backend.Call) :
    ∃ ledger, Sound (run (Backend.step device) (Backend.create initial) calls) ledger := by
  induction calls using List.reverseRecOn with
  | nil => exact ⟨_, sound_create initial⟩
  | append_singleton calls call induction =>
      have rest := run_atRest device initial calls
      rw [run_concat]
      exact Sound.steps (@Backend.AtRest.step _ device False _ rest call fun no => no.elim).1
        induction

/-! ## Exactly one account for every request -/

namespace Host

/-- The slots of the table whose context is in `state`. -/
def slotsIn (host : Host) (state : SlotState) : List Nat :=
  (List.range host.capacity).filter fun index => (host.contexts index).state = state

/-- The number of contexts that are not free. -/
def occupied (host : Host) : Nat :=
  (List.range host.capacity).countP fun index => (host.contexts index).state ≠ .free

theorem length_tickets (host : Host) : host.tickets.length = host.occupied := by
  rw [tickets, contents, List.length_filterMap_eq_countP, occupied]
  apply List.countP_congr
  intro index _
  rw [held]
  split <;> simp_all

end Host

theorem Consistent.slots_perm {host : Host} (consistent : Consistent host) {state : SlotState}
    {ids : List Nat} (tracks : Tracks host.contexts host.capacity state ids)
    (occupied : state ≠ .free) : (ids.map host.slot).Perm (host.slotsIn state) := by
  have mapped := tracks.map host.slot
  rw [List.map_map] at mapped
  refine mapped.trans (List.Perm.of_eq ?_)
  rw [contents, List.map_filterMap, Host.slotsIn, ← List.filterMap_eq_filter]
  apply List.filterMap_congr
  intro index member
  have inside := List.mem_range.mp member
  by_cases same : (host.contexts index).state = state
  · have own := consistent.owned index inside (by rw [same]; exact occupied)
    rw [ticketIn_of_eq same]
    simp [Option.guard, same, TaskContextSlot.ticket, own]
  · rw [ticketIn_of_ne same]
    simp [Option.guard, same]

/-- The state of the host and what has happened agree on every request. -/
structure Accountable (backend : Backend σ) : Prop where
  counted : backend.host.outstanding = backend.host.occupied
  bounded : backend.host.outstanding ≤ backend.host.config.queueCapacity
  short : backend.host.pending.length ≤ hostBatchSize
  pending : (backend.host.pending.map fun task => backend.host.slot task.taskId).Perm
    (backend.host.slotsIn .pending)
  locals : (backend.host.localEntries.map backend.host.slot).Perm
    (backend.host.slotsIn .localError)
  writes : ∀ task request index, Event.queued task request index ∈ backend.trace →
    index < hostBatchSize
  completes : Every CompletesOnce backend.trace
  reports : Every ReportsResult backend.trace
  balance : (backend.trace.filterMap Event.accepted).Perm
    (backend.trace.filterMap Event.completed ++ backend.host.tickets)

/-- Every accepted request has been completed or has a context. -/
theorem Sound.balance {backend : Backend σ} {ledger : Ledger} (sound : Sound backend ledger) :
    (backend.trace.filterMap Event.accepted).Perm
      (backend.trace.filterMap Event.completed ++ backend.host.tickets) := by
  have balance := sound.accounted.balance
  cases sound.keeps with
  | stopped state host =>
      have free : backend.host.tickets = [] := by
        rw [host]
        exact contents_default _ _ rfl
      rw [free]
      exact balance
  | running state initialized batch represents tasks flushed =>
      exact balance.trans (represents.tickets_perm.symm.append_left _)

/-- After any sequence of calls and whatever the runtime and the visibility gate answer,
the backend accounts for every accepted request exactly once. -/
theorem every_request_accounted_once (device : Device σ) (initial : σ)
    (calls : List Backend.Call) :
    Accountable (run (Backend.step device) (Backend.create initial) calls) := by
  have settled := (run_atRest device initial calls).settled
  obtain ⟨ledger, sound⟩ := run_sound device initial calls
  generalize run (Backend.step device) (Backend.create initial) calls = backend at *
  have writes : ∀ task request index, Event.queued task request index ∈ backend.trace →
      index < hostBatchSize := by
    intro task request index member
    obtain ⟨before, after, split⟩ := List.append_of_mem member
    exact (sound.published.inOrder before _ after split).2
  have balance := sound.balance
  cases sound.keeps with
  | stopped state host =>
      have free : backend.host.tickets = [] := by
        rw [host]
        exact contents_default _ _ rfl
      refine ⟨?_, ?_, settled.bound, ?_, ?_, writes, sound.completes, sound.reports, balance⟩
      · rw [← Host.length_tickets, free, host]
        rfl
      · rw [host]
        exact Nat.zero_le _
      · rw [host]
        decide +kernel
      · rw [host]
        decide +kernel
  | running state initialized batch represents tasks flushed =>
      have consistent := represents.consistent
      refine ⟨?_, consistent.outstanding_le, settled.bound, ?_, ?_, writes, sound.completes,
        sound.reports, balance⟩
      · rw [← consistent.length_tickets, Host.length_tickets]
      · have slots := consistent.slots_perm consistent.pending (by decide)
        rwa [List.map_map] at slots
      · exact consistent.slots_perm consistent.localErrors (by decide)

/-! ## Flush before publish -/

/-- What is offered to the runtime has been flushed, what it leaves is offered again before
anything newer, and what a failed flush leaves behind is never offered. -/
structure FlushesFirst (backend : Backend σ) : Prop where
  inOrder : Every PublishesInOrder backend.trace
  flushed : ∀ before tasks status count after,
    backend.trace = before ++ .offered tasks status count :: after →
      ∃ earlier later, before = earlier ++ .flushed none :: later ∧
        tasks <:+ earlier.filterMap Event.queuedTask
  abandoned : ∀ before status after,
    backend.trace = before ++ .flushed (some status) :: after →
      ∃ (tickets : List Ticket) (rest : List Event), after = tickets.map .abandoned ++ rest ∧
        tickets.map Ticket.taskId = (unsettled before).map CopyTask.taskId ∧
        ∀ middle tasks status count last,
          rest = middle ++ .offered tasks status count :: last →
            tasks <:+ middle.filterMap Event.queuedTask
  settled : backend.trace.filterMap Event.settledLocally =
    backend.trace.filterMap Event.deliveredLocally ++ backend.host.localTickets
  everyone : (backend.trace.filterMap Event.accepted).Perm
    (backend.trace.filterMap Event.settledLocally ++
      backend.trace.filterMap Event.deliveredByRuntime ++
      (backend.host.pendingTickets ++ backend.host.ticketsIn .submitted))
  failed : ∀ taskId completion, Event.delivered taskId false completion ∈ backend.trace →
    completion.result = .backendError

namespace Published

variable {trace : List Event} {ledger : Ledger} (published : Published trace ledger)

include published

theorem offered_flushed {before after : List Event} {tasks : List CopyTask} {status : Status}
    {count : Nat} (split : trace = before ++ .offered tasks status count :: after) :
    ∃ earlier later, before = earlier ++ .flushed none :: later ∧
      tasks <:+ earlier.filterMap Event.queuedTask := by
  obtain ⟨same, -, earlier, later, rfl, unqueued⟩ := published.inOrder before _ after split
  refine ⟨earlier, later, rfl, ?_⟩
  have suffix := unsettled_suffix (earlier ++ .flushed none :: later)
  rw [← same, List.filterMap_append, List.filterMap_cons_none rfl, unqueued,
    List.append_nil] at suffix
  exact suffix

/-- After a failed flush only tasks that are queued later are offered. -/
theorem offered_later {before after : List Event} {status : Errno}
    (split : trace = before ++ .flushed (some status) :: after) :
    ∃ (tickets : List Ticket) (rest : List Event), after = tickets.map .abandoned ++ rest ∧
      tickets.map Ticket.taskId = (unsettled before).map CopyTask.taskId ∧
      ∀ middle tasks status count last,
        rest = middle ++ .offered tasks status count :: last →
          tasks <:+ middle.filterMap Event.queuedTask := by
  obtain ⟨tickets, rest, rfl, named⟩ := published.abandons before status after split
  refine ⟨tickets, rest, rfl, named, ?_⟩
  rintro middle tasks answer count last rfl
  have position : trace = (before ++ .flushed (some status) :: (tickets.map .abandoned ++
      middle)) ++ .offered tasks answer count :: last := by
    rw [split]
    simp
  obtain ⟨same, -⟩ := published.inOrder _ _ _ position
  have lengths : tickets.length = (unsettled before).length := by
    simpa using congrArg List.length named
  rw [unsettled_append, List.foldl_cons, List.foldl_append, foldl_abandoned fun _ _ => rfl] at same
  change tasks = middle.foldl unsettledStep ((unsettled before).drop tickets.length) at same
  rw [lengths, List.drop_length] at same
  exact same ▸ unsettled_suffix middle

end Published

theorem flush_before_publish (device : Device σ) (initial : σ) (calls : List Backend.Call) :
    FlushesFirst (run (Backend.step device) (Backend.create initial) calls) := by
  obtain ⟨ledger, sound⟩ := run_sound device initial calls
  generalize run (Backend.step device) (Backend.create initial) calls = backend at *
  have published := sound.published
  have accounted := sound.accounted
  have failed : ∀ taskId completion, Event.delivered taskId false completion ∈ backend.trace →
      completion.result = .backendError := by
    intro taskId completion member
    obtain ⟨before, after, split⟩ := List.append_of_mem member
    exact sound.reports before _ after split
  refine ⟨published.inOrder, fun _ _ _ _ _ => published.offered_flushed,
    fun _ _ _ => published.offered_later, ?_, ?_, failed⟩
  · cases sound.keeps with
    | stopped state host =>
        rw [host]
        exact accounted.inOrder
    | running state initialized batch represents tasks flushed =>
        rw [represents.locals]
        exact accounted.inOrder
  · cases sound.keeps with
    | stopped state host =>
        have free : backend.host.ticketsIn .submitted = [] := by
          rw [host]
          exact contents_default _ _ rfl
        rw [free, host]
        exact accounted.everyone
    | running state initialized batch represents tasks flushed =>
        rw [represents.pending]
        refine accounted.everyone.trans ?_
        exact (represents.submitted.symm.append_left _).append_left _

end Ugdr.Gpu
