import Ugdr.Gpu.CopyLedger

/-! # Order of publication

Which tasks the runtime is offered, when they were flushed, and what becomes of the
tasks that a failed flush leaves behind.
-/

namespace Ugdr.Gpu

open Ugdr.Trace
open Ugdr.Worker (BackendRequest BackendCompletion DatagramResult)

def Event.queuedTask : Event → Option CopyTask
  | .queued task _ _ => some task
  | _ => none

/-- What an event does to the tasks that are neither taken by the runtime nor abandoned. -/
def unsettledStep (tasks : List CopyTask) : Event → List CopyTask
  | .queued task _ _ => tasks ++ [task]
  | .offered _ none count => if count ≤ tasks.length then tasks.drop count else tasks
  | .abandoned _ => tasks.tail
  | _ => tasks

/-- The tasks that have been queued and not yet taken by the runtime nor abandoned, in the
order in which they were queued. -/
def unsettled (trace : List Event) : List CopyTask :=
  trace.foldl unsettledStep []

/-- What an event does to the tasks that the runtime has not taken when it was offered
them. -/
def leftOverStep (tasks : List CopyTask) : Event → List CopyTask
  | .offered offered none count => offered.drop count
  | .offered offered (some _) _ => offered
  | .abandoned _ => tasks.tail
  | _ => tasks

/-- The tasks that are left of the last batch that the runtime was offered. -/
def leftOver (trace : List Event) : List CopyTask :=
  trace.foldl leftOverStep []

@[simp] theorem unsettled_append (trace events : List Event) :
    unsettled (trace ++ events) = events.foldl unsettledStep (unsettled trace) :=
  List.foldl_append

@[simp] theorem leftOver_append (trace events : List Event) :
    leftOver (trace ++ events) = events.foldl leftOverStep (leftOver trace) :=
  List.foldl_append

/-- An event that publication is not about. -/
def Event.Still : Event → Prop
  | .queued _ _ _ | .flushed _ | .offered _ _ _ | .abandoned _ => False
  | _ => True

namespace Event.Still

variable {event : Event} (still : event.Still)

include still

theorem unsettledStep (tasks : List CopyTask) : unsettledStep tasks event = tasks := by
  cases event <;> first | rfl | cases still

theorem leftOverStep (tasks : List CopyTask) : leftOverStep tasks event = tasks := by
  cases event <;> first | rfl | cases still

theorem queuedTask : event.queuedTask = none := by
  cases event <;> first | rfl | cases still

theorem ne_flushed (status : Status) : event ≠ .flushed status := by
  cases event <;> first | (intro same; cases same; done) | cases still

end Event.Still

theorem Event.Quiet.still {event : Event} (quiet : event.Quiet) : event.Still := by
  cases event <;> trivial

theorem foldl_quiet {step : List CopyTask → Event → List CopyTask} {events : List Event}
    (still : ∀ event ∈ events, ∀ tasks, step tasks event = tasks) (tasks : List CopyTask) :
    events.foldl step tasks = tasks := by
  induction events with
  | nil => rfl
  | cons event events induction =>
      rw [List.foldl_cons, still event List.mem_cons_self]
      exact induction fun other member => still other (List.mem_cons_of_mem _ member)

theorem foldl_abandoned {step : List CopyTask → Event → List CopyTask}
    (drops : ∀ tasks ticket, step tasks (.abandoned ticket) = tasks.tail)
    (tickets : List Ticket) (tasks : List CopyTask) :
    (tickets.map Event.abandoned).foldl step tasks = tasks.drop tickets.length := by
  induction tickets generalizing tasks with
  | nil => rfl
  | cons ticket tickets induction =>
      rw [List.map_cons, List.foldl_cons, drops, induction, List.length_cons, List.drop_tail]

/-- The runtime is only ever offered tasks that are still waiting, in their order. -/
theorem unsettled_suffix (trace : List Event) :
    unsettled trace <:+ trace.filterMap Event.queuedTask := by
  induction trace using List.reverseRecOn with
  | nil => exact List.suffix_refl _
  | append_singleton trace event induction =>
      rw [unsettled_append, List.filterMap_append, List.foldl_cons, List.foldl_nil,
        filterMap_singleton]
      cases event with
      | queued task request index =>
          obtain ⟨settled, split⟩ := induction
          exact ⟨settled, by rw [← split, List.append_assoc]; rfl⟩
      | offered tasks status count =>
          change unsettledStep _ _ <:+ _ ++ []
          rw [List.append_nil]
          cases status with
          | none =>
              rw [unsettledStep]
              split
              · exact (List.drop_suffix _ _).trans induction
              · exact induction
          | some status => exact induction
      | abandoned ticket =>
          change (unsettled trace).tail <:+ _ ++ []
          rw [List.append_nil]
          exact (List.tail_suffix _).trans induction
      | _ => simpa [unsettledStep, Event.queuedTask] using induction

/-! ## The rule of publication -/

/-- What holds when a task is queued and when the runtime is offered tasks. -/
def PublishesInOrder (before : List Event) : Event → Prop
  | .queued _ _ index => leftOver before = [] ∧ index < hostBatchSize
  | .offered tasks _ _ =>
      tasks = unsettled before ∧ (leftOver before ≠ [] → tasks = leftOver before) ∧
        ∃ earlier later, before = earlier ++ .flushed none :: later ∧
          later.filterMap Event.queuedTask = []
  | _ => True

/-- After a failed flush the tasks that were waiting are abandoned at once. -/
def AbandonsUnflushed (trace : List Event) : Prop :=
  ∀ before status after, trace = before ++ .flushed (some status) :: after →
    ∃ (tickets : List Ticket) (rest : List Event), after = tickets.map .abandoned ++ rest ∧
      tickets.map Ticket.taskId = (unsettled before).map CopyTask.taskId

structure Published (trace : List Event) (ledger : Ledger) : Prop where
  tasks : unsettled trace = ledger.tasks
  named : ledger.pending.map Ticket.taskId = ledger.tasks.map CopyTask.taskId
  flushed : ledger.flushed = true → ledger.tasks ≠ [] →
    ∃ earlier later, trace = earlier ++ .flushed none :: later ∧
      later.filterMap Event.queuedTask = []
  leftOver : leftOver trace ≠ [] → ledger.flushed = true ∧ ledger.tasks = Gpu.leftOver trace
  inOrder : Every PublishesInOrder trace
  abandons : AbandonsUnflushed trace

namespace Breakdown

variable {ledger : Ledger} {events : List Event} (fault : Breakdown ledger events)

include fault

/-- A runtime that breaks down has taken nothing. -/
theorem unsettled : events.foldl unsettledStep ledger.tasks = ledger.tasks := by
  cases fault with
  | quiet quiet =>
      exact foldl_quiet (fun event member => (quiet event member).still.unsettledStep) _
  | @refused status count _ _ _ useless =>
      rw [List.foldl_cons, List.foldl_nil]
      cases status with
      | some status => rfl
      | none =>
          rw [unsettledStep]
          rcases useless rfl with zero | many
          · rw [zero, List.drop_zero, ite_self]
          · rw [if_neg (by omega)]

theorem ne_flushed {event : Event} (member : event ∈ events) {status : Status} :
    event ≠ .flushed status := by
  cases fault with
  | quiet quiet => exact (quiet event member).still.ne_flushed status
  | refused =>
      rw [List.mem_singleton.mp member]
      intro wrong
      cases wrong

end Breakdown

namespace Published

variable {trace events : List Event} {ledger after : Ledger}

theorem length_pending (published : Published trace ledger) :
    ledger.pending.length = ledger.tasks.length := by
  simpa using congrArg List.length published.named

/-- Events that do not start with a failed flush. -/
theorem abandons_append (abandons : AbandonsUnflushed trace)
    (seen : ∀ status, Event.flushed (some status) ∉ events) :
    AbandonsUnflushed (trace ++ events) := by
  intro before status later split
  rcases List.append_eq_append_iff.mp split with ⟨more, rfl, same⟩ | ⟨more, rfl, same⟩
  · refine absurd ?_ (seen status)
    rw [same]
    simp
  · cases more with
    | nil =>
        refine absurd ?_ (seen status)
        rw [List.nil_append] at same
        rw [← same]
        exact List.mem_cons_self
    | cons first more =>
        injection same with same rest
        subst same
        obtain ⟨tickets, others, rfl, named⟩ := abandons before status more rfl
        exact ⟨tickets, others ++ events, by rw [rest]; exact List.append_assoc _ _ _, named⟩

theorem flushed_append {events : List Event}
    (flushed : ∃ earlier later, trace = earlier ++ Event.flushed none :: later ∧
      later.filterMap Event.queuedTask = [])
    (none : events.filterMap Event.queuedTask = []) :
    ∃ earlier later, trace ++ events = earlier ++ Event.flushed Option.none :: later ∧
      later.filterMap Event.queuedTask = [] := by
  obtain ⟨earlier, later, rfl, unqueued⟩ := flushed
  refine ⟨earlier, later ++ events, by simp, ?_⟩
  rw [List.filterMap_append, unqueued, none, List.append_nil]

theorem still (published : Published trace ledger) (still : ∀ event ∈ events, event.Still)
    (tasks : after.tasks = ledger.tasks) (pending : after.pending = ledger.pending)
    (flushed : ledger.tasks ≠ [] → after.flushed = ledger.flushed) :
    Published (trace ++ events) after := by
  have unqueued : events.filterMap Event.queuedTask = [] := by
    rw [List.filterMap_eq_nil_iff]
    exact fun event member => (still event member).queuedTask
  have same : Gpu.leftOver (trace ++ events) = Gpu.leftOver trace := by
    rw [leftOver_append]
    exact foldl_quiet (fun event member => (still event member).leftOverStep) _
  refine ⟨?_, ?_, ?_, ?_, ?_, ?_⟩
  · rw [unsettled_append, foldl_quiet fun event member => (still event member).unsettledStep,
      published.tasks, tasks]
  · rw [tasks, pending]
    exact published.named
  · rw [tasks]
    intro flushes waiting
    rw [flushed waiting] at flushes
    exact flushed_append (published.flushed flushes waiting) unqueued
  · rw [same, tasks]
    intro left
    obtain ⟨flushes, waiting⟩ := published.leftOver left
    exact ⟨(flushed (waiting ▸ left)).trans flushes, waiting⟩
  · refine every_append published.inOrder fun before event member => ?_
    have quiet := still event member
    cases event <;> trivial
  · refine abandons_append published.abandons fun status member => ?_
    exact (still _ member).ne_flushed _ rfl

/-- An offer of all waiting tasks keeps the rule. -/
theorem offers (published : Published trace ledger)
    (covered : ∃ earlier later, trace = earlier ++ Event.flushed none :: later ∧
      later.filterMap Event.queuedTask = []) {status : Status} {count : Nat} :
    PublishesInOrder trace (.offered ledger.tasks status count) :=
  ⟨published.tasks.symm, fun left => (published.leftOver left).2, covered⟩

theorem abandons_failed (published : Published trace ledger) (status : Errno) :
    AbandonsUnflushed
      (trace ++ .flushed (some status) :: ledger.pending.map Event.abandoned) := by
  intro before failure later split
  rcases List.append_eq_append_iff.mp split with ⟨more, rfl, same⟩ | ⟨more, rfl, same⟩
  · cases more with
    | nil =>
        injection same with _ same
        refine ⟨ledger.pending, [], by rw [List.append_nil]; exact same.symm, ?_⟩
        rw [List.append_nil, published.tasks, published.named]
    | cons first more =>
        injection same with _ same
        have member : Event.flushed (some failure) ∈ ledger.pending.map Event.abandoned := by
          rw [same]
          simp
        obtain ⟨ticket, -, wrong⟩ := List.mem_map.mp member
        cases wrong
  · cases more with
    | nil =>
        rw [List.nil_append] at same
        injection same with _ same
        refine ⟨ledger.pending, [], by rw [List.append_nil]; exact same, ?_⟩
        have tasks := published.tasks
        rw [List.append_nil] at tasks
        rw [tasks, published.named]
    | cons first more =>
        injection same with same rest
        subst same
        obtain ⟨tickets, others, rfl, named⟩ := published.abandons before failure more rfl
        exact ⟨tickets, others ++ _, by rw [rest]; exact List.append_assoc _ _ _, named⟩

theorem length_leftOver (published : Published trace ledger) (fault : Breakdown ledger events) :
    (events.foldl leftOverStep (Gpu.leftOver trace)).length ≤ ledger.tasks.length := by
  cases fault with
  | quiet quiet =>
      rw [foldl_quiet fun event member => (quiet event member).still.leftOverStep]
      by_cases left : Gpu.leftOver trace = []
      · rw [left]
        exact Nat.zero_le _
      · rw [(published.leftOver left).2]
  | @refused status count =>
      cases status with
      | none => exact (List.length_drop).trans_le (Nat.sub_le _ _)
      | some status => exact Nat.le_refl _

theorem every_fault (published : Published trace ledger) (fault : Breakdown ledger events) :
    Every PublishesInOrder (trace ++ events) := by
  cases fault with
  | quiet quiet =>
      refine every_append published.inOrder fun before event member => ?_
      have quiet := quiet event member
      cases event <;> trivial
  | refused flushed waiting =>
      exact every_concat.mpr
        ⟨published.inOrder, published.offers (published.flushed flushed waiting)⟩

theorem entry (published : Published trace ledger) (entry : Entry ledger events after) :
    Published (trace ++ events) after := by
  cases entry with
  | quiet quiet same =>
      exact published.still (fun event member => (quiet event member).still) rfl rfl same
  | @queue task request fresh room =>
      have gone : Gpu.leftOver trace = [] := by
        by_contra left
        obtain ⟨flushes, waiting⟩ := published.leftOver left
        rcases fresh with empty | unflushed
        · exact left (waiting ▸ empty)
        · rw [flushes] at unflushed
          cases unflushed
      refine ⟨?_, ?_, ?_, ?_, ?_, ?_⟩
      · rw [unsettled_append, published.tasks]
        rfl
      · rw [List.map_append, List.map_append, published.named]
        rfl
      · intro flushes
        cases flushes
      · rw [leftOver_append, gone]
        exact fun left => absurd rfl left
      · exact every_concat.mpr ⟨published.inOrder, gone, room⟩
      · exact abandons_append published.abandons (by simp)
  | reject =>
      refine published.still (fun event member => ?_) rfl rfl fun _ => rfl
      rw [List.mem_singleton.mp member]
      trivial
  | flush waiting unflushed =>
      have gone : Gpu.leftOver trace = [] := by
        by_contra left
        rw [(published.leftOver left).1] at unflushed
        cases unflushed
      refine ⟨?_, published.named, ?_, ?_, ?_, ?_⟩
      · rw [unsettled_append, published.tasks]
        rfl
      · exact fun _ _ => ⟨trace, [], rfl, rfl⟩
      · rw [leftOver_append, gone]
        exact fun left => absurd rfl left
      · exact every_concat.mpr ⟨published.inOrder, trivial⟩
      · exact abandons_append published.abandons (by simp)
  | retain waiting flushed =>
      have covered := published.flushed flushed waiting
      refine ⟨?_, published.named, ?_, ?_, ?_, ?_⟩
      · rw [unsettled_append, published.tasks]
        rfl
      · exact fun _ _ => flushed_append covered rfl
      · rw [leftOver_append]
        exact fun _ => ⟨flushed, rfl⟩
      · exact every_concat.mpr ⟨published.inOrder, published.offers covered⟩
      · exact abandons_append published.abandons (by simp)
  | @take count flushed flushes positive enough same =>
      have waiting : ledger.tasks ≠ [] := by
        rw [← List.length_pos_iff]
        omega
      have covered := published.flushed flushes waiting
      refine ⟨?_, ?_, ?_, ?_, ?_, ?_⟩
      · rw [unsettled_append, published.tasks]
        exact if_pos enough
      · rw [List.map_drop, List.map_drop, published.named]
      · exact fun _ _ => flushed_append covered rfl
      · rw [leftOver_append]
        exact fun left => ⟨same left, rfl⟩
      · exact every_concat.mpr ⟨published.inOrder, published.offers covered⟩
      · exact abandons_append published.abandons (by simp)
  | @abandon status waiting unflushed =>
      have gone : Gpu.leftOver trace = [] := by
        by_contra left
        rw [(published.leftOver left).1] at unflushed
        cases unflushed
      refine ⟨?_, rfl, ?_, ?_, ?_, ?_⟩
      · rw [unsettled_append, List.foldl_cons, foldl_abandoned fun _ _ => rfl]
        change (unsettled trace).drop _ = []
        rw [published.tasks, published.length_pending, List.drop_length]
      · exact fun _ waiting => absurd rfl waiting
      · rw [leftOver_append, List.foldl_cons, foldl_abandoned fun _ _ => rfl, gone]
        exact fun left => absurd List.drop_nil left
      · refine every_append published.inOrder fun before event member => ?_
        rcases List.mem_cons.mp member with rfl | member
        · trivial
        · obtain ⟨ticket, -, rfl⟩ := List.mem_map.mp member
          trivial
      · exact published.abandons_failed status
  | @breakdown faults revoked fault all =>
      have still : ∀ event ∈ revoked.map Event.revoked ++ [.draining], event.Still := by
        intro event member
        rcases List.mem_append.mp member with member | member
        · obtain ⟨ticket, -, rfl⟩ := List.mem_map.mp member
          trivial
        · rw [List.mem_singleton.mp member]
          trivial
      rw [List.append_assoc, List.append_assoc]
      refine ⟨?_, rfl, ?_, ?_, ?_, ?_⟩
      · rw [unsettled_append, List.foldl_append, List.foldl_append, published.tasks,
          fault.unsettled, foldl_abandoned fun _ _ => rfl, published.length_pending,
          List.drop_length, foldl_quiet fun event member => (still event member).unsettledStep]
      · exact fun _ waiting => absurd rfl waiting
      · have short := published.length_leftOver fault
        rw [leftOver_append, List.foldl_append, List.foldl_append,
          foldl_abandoned fun _ _ => rfl, published.length_pending,
          List.drop_eq_nil_of_le short,
          foldl_quiet fun event member => (still event member).leftOverStep]
        exact fun left => absurd rfl left
      · rw [← List.append_assoc]
        refine every_append (published.every_fault fault) fun before event member => ?_
        rcases List.mem_append.mp member with member | member
        · obtain ⟨ticket, -, rfl⟩ := List.mem_map.mp member
          trivial
        · have quiet := still event member
          cases event <;> trivial
      · refine abandons_append published.abandons fun status member => ?_
        rcases List.mem_append.mp member with member | member
        · exact fault.ne_flushed member rfl
        · rcases List.mem_append.mp member with member | member
          · obtain ⟨ticket, -, wrong⟩ := List.mem_map.mp member
            cases wrong
          · exact (still _ member).ne_flushed _ rfl
  | deliverLocal first =>
      refine published.still (fun event member => ?_) rfl rfl fun _ => rfl
      rw [List.mem_singleton.mp member]
      trivial
  | deliverPolled one =>
      refine published.still (fun event member => ?_) rfl rfl fun _ => rfl
      rcases List.mem_pair.mp member with rfl | rfl <;> trivial

end Published

end Ugdr.Gpu
