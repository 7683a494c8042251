import Ugdr.Gpu.BackendRuns

/-! # What the calls of the backend report

The caller of the backend sees what its calls return. A call that reports a request as
accepted has taken it, and a completion that it returns is one that has been handed out.
-/

namespace Ugdr.Gpu

open Ugdr.Execution
open Ugdr.Worker (BackendRequest BackendCompletion DatagramResult)

variable {σ : Type}

namespace Event

def taken : Event → Option BackendRequest
  | .queued _ request _ => some request
  | .rejected _ request => some request
  | _ => none

def handed : Event → Option BackendCompletion
  | .delivered _ _ completion => some completion
  | _ => none

end Event

/-- A request, when it is reported as accepted. -/
def reported (accepted : Bool) (request : BackendRequest) : List BackendRequest :=
  bif accepted then [request] else []

/-- Between two traces, these requests are taken and these completions are handed out. -/
def Gains (requests : List BackendRequest) (completions : List BackendCompletion)
    (before after : List Event) : Prop :=
  ∃ events, after = before ++ events ∧ events.filterMap Event.taken = requests ∧
    events.filterMap Event.handed = completions

namespace Gains

variable {before between after : List Event} {requests later : List BackendRequest}
  {completions others : List BackendCompletion}

theorem refl (trace : List Event) : Gains [] [] trace trace :=
  ⟨[], (List.append_nil trace).symm, rfl, rfl⟩

theorem trans (first : Gains requests completions before between)
    (second : Gains later others between after) :
    Gains (requests ++ later) (completions ++ others) before after := by
  obtain ⟨events, rfl, taken, handed⟩ := first
  obtain ⟨more, rfl, takenLater, handedLater⟩ := second
  refine ⟨events ++ more, List.append_assoc .., ?_, ?_⟩
  · rw [List.filterMap_append, taken, takenLater]
  · rw [List.filterMap_append, handed, handedLater]

/-- Nothing is gained before. -/
theorem after_none (first : Gains [] [] before between)
    (second : Gains requests completions between after) :
    Gains requests completions before after :=
  first.trans second

/-- Nothing is gained afterwards. -/
theorem then_none (first : Gains requests completions before between)
    (second : Gains [] [] between after) : Gains requests completions before after := by
  have both := first.trans second
  rwa [List.append_nil, List.append_nil] at both

theorem event (trace : List Event) (event : Event) :
    Gains event.taken.toList event.handed.toList trace (trace ++ [event]) := by
  refine ⟨[event], rfl, ?_, ?_⟩
  · cases taken : event.taken with
    | none => exact List.filterMap_cons_none taken
    | some request => exact List.filterMap_cons_some taken
  · cases handed : event.handed with
    | none => exact List.filterMap_cons_none handed
    | some completion => exact List.filterMap_cons_some handed

end Gains

/-! ## The host -/

namespace System

variable (device : Device σ) (system : System σ)

theorem flushPending_gains : Gains [] [] system.trace (system.flushPending device).2.trace := by
  unfold flushPending
  split
  · exact .refl _
  · dsimp only
    split
    · exact .event _ _
    · exact .event _ _

theorem submitPending_gains :
    Gains [] [] system.trace (system.submitPending device).2.trace := by
  unfold submitPending
  dsimp only
  split
  · exact .event _ _
  · split
    · exact .event _ _
    · split
      · exact .event _ _
      · split
        · exact .event _ _
        · exact .event _ _

theorem publishPending_gains :
    Gains [] [] system.trace (system.publishPending device).2.trace := by
  unfold publishPending
  dsimp only
  have flushed := flushPending_gains device
    { system with host := { system.host with lastPublishFailure := .none } }
  split
  · rename_i status after same
    rw [same] at flushed
    exact flushed
  · rename_i after same
    rw [same] at flushed
    exact flushed.after_none (submitPending_gains device after)

theorem progressHostBatch_gains (now : Nat) :
    Gains [] [] system.trace (system.progressHostBatch device now).2.trace := by
  unfold progressHostBatch
  split_ifs
  · exact .refl _
  · exact .refl _
  · exact .refl _
  · exact publishPending_gains device system

theorem publishPendingNow_gains :
    Gains [] [] system.trace (system.publishPendingNow device).2.trace := by
  unfold publishPendingNow
  split_ifs
  · exact .refl _
  · exact .refl _
  · exact publishPending_gains device system

/-- The request is taken exactly when it is reported as accepted. -/
theorem trySubmit_gains (request : BackendRequest) (now : Nat) :
    Gains (reported (system.trySubmit device request now).1.2 request) []
      system.trace (system.trySubmit device request now).2.trace := by
  unfold trySubmit
  dsimp only
  split_ifs
  · exact .refl _
  · exact .refl _
  · exact .refl _
  · split
    · exact .refl _
    · rename_i task _
      have queued : Gains [request] [] system.trace
          (system.enqueue request task now).trace := .event _ _
      split_ifs
      · exact queued.then_none (publishPending_gains device _)
      · exact queued

theorem tryCompleteLocally_gains (request : BackendRequest) (result : DatagramResult) :
    Gains (reported (system.tryCompleteLocally request result).1.2 request) []
      system.trace (system.tryCompleteLocally request result).2.trace := by
  unfold tryCompleteLocally
  dsimp only
  split_ifs
  · exact .refl _
  · exact .refl _
  · exact .refl _
  · exact .event _ _

/-- A completion is handed out exactly when it is returned, and none is when the call
fails. -/
theorem readCompletion_gains :
    Gains [] (system.readCompletion device).1.2.toList system.trace
        (system.readCompletion device).2.trace ∧
      ((system.readCompletion device).1.1 ≠ none →
        (system.readCompletion device).1.2 = none) := by
  unfold readCompletion
  dsimp only
  split
  · split
    · exact ⟨.refl _, fun _ => rfl⟩
    · exact ⟨.event _ _, fun failed => absurd rfl failed⟩
  · have polled : Gains [] [] system.trace (system.trace ++
        [.polled (device.poll system.device).1.1 (device.poll system.device).1.2]) :=
      .event _ _
    split
    · exact ⟨polled, fun _ => rfl⟩
    · split
      · exact ⟨polled, fun _ => rfl⟩
      · split
        · exact ⟨polled, fun _ => rfl⟩
        · exact ⟨polled.after_none (.event _ _), fun failed => absurd rfl failed⟩

theorem tryPopCompletion_gains (now : Nat) :
    Gains [] (system.tryPopCompletion device now).1.2.toList system.trace
        (system.tryPopCompletion device now).2.trace ∧
      ((system.tryPopCompletion device now).1.1 ≠ none →
        (system.tryPopCompletion device now).1.2 = none) := by
  unfold tryPopCompletion
  split_ifs
  · exact ⟨.refl _, fun _ => rfl⟩
  · have progress := progressHostBatch_gains device system now
    split
    · rename_i status after same
      rw [same] at progress
      exact ⟨progress, fun _ => rfl⟩
    · rename_i after same
      rw [same] at progress
      obtain ⟨read, failing⟩ := readCompletion_gains device after
      exact ⟨progress.after_none read, failing⟩

theorem failTasks_gains (result : DatagramResult) (tasks : List CopyTask) (system : System σ) :
    Gains [] [] system.trace (failTasks result tasks system).2.trace := by
  induction tasks generalizing system with
  | nil => exact .refl _
  | cons task tasks induction =>
      unfold failTasks
      dsimp only
      split_ifs
      · exact .refl _
      · exact Gains.after_none (.event _ (.abandoned _)) (induction _)

theorem failPending_gains (result : DatagramResult) :
    Gains [] [] system.trace (system.failPending result).2.trace := by
  unfold failPending
  split_ifs
  · exact .refl _
  · have failed := failTasks_gains result system.host.pending system
    split
    · rename_i after same
      rw [same] at failed
      exact failed
    · rename_i after same
      rw [same] at failed
      exact failed

theorem failSlots_gains (result : DatagramResult) (slots : List Nat) (system : System σ) :
    Gains [] [] system.trace (slots.foldl (failSlot result) system).trace := by
  induction slots generalizing system with
  | nil => exact .refl _
  | cons slot slots induction =>
      refine Gains.after_none ?_ (induction _)
      unfold failSlot
      dsimp only
      split_ifs
      · exact .refl _
      · exact .event _ (.revoked _)

theorem failAll_gains (result : DatagramResult) :
    Gains [] [] system.trace (system.failAll result).2.trace := by
  unfold failAll
  have failed := failPending_gains system result
  split
  · rename_i status after same
    rw [same] at failed
    exact failed
  · rename_i after same
    rw [same] at failed
    exact failed.after_none (failSlots_gains result _ after)

theorem trace_initializeHost (config : Config) :
    (system.initializeHost device config).2.trace = system.trace := by
  unfold initializeHost
  dsimp only
  split_ifs <;> rfl

theorem trace_resetHost : system.resetHost.2.trace = system.trace := by
  unfold resetHost
  dsimp only
  split_ifs <;> rfl

end System

/-! ## The backend -/

namespace Backend

variable (device : Device σ) (backend : Backend σ)

theorem start_gains (config : Config) :
    Gains [] [] backend.trace (backend.start device config).2.trace := by
  unfold start
  dsimp only
  split_ifs
  · exact .refl _
  · split
    · exact .refl _
    · split
      · exact .refl _
      · rename_i _ _ gated
        have host := System.trace_initializeHost device
          { backend.system with
            device := (device.initializeGate config.deviceOrdinal
              (device.initializeDevice config.deviceOrdinal backend.system.device).2).2 } config
        split
        · rename_i status system same
          rw [same] at host
          unfold unwind
          dsimp only at host ⊢
          rw [host]
          exact .refl _
        · rename_i system same
          rw [same] at host
          dsimp only at host
          split
          · unfold unwind
            dsimp only
            rw [System.trace_resetHost]
            dsimp only
            rw [host]
            exact .refl _
          · unfold setState
            dsimp only
            rw [host]
            exact .event _ _

theorem progressStopRequest_gains :
    Gains [] [] backend.trace (backend.progressStopRequest device).2.trace := by
  unfold progressStopRequest
  split_ifs
  · exact .refl _
  · exact .event _ _

theorem noteStopRequest_gains :
    Gains [] [] backend.trace (backend.noteStopRequest device).trace := by
  unfold noteStopRequest
  have progress := progressStopRequest_gains device backend
  split
  · rename_i after same
    rw [same] at progress
    exact progress
  · rename_i status after same
    rw [same] at progress
    exact progress

theorem handleHostError_gains (status : Errno) :
    Gains [] [] backend.trace (backend.handleHostError device status).trace := by
  unfold handleHostError
  dsimp only
  split_ifs
  · have failed := System.failPending_gains backend.system .backendError
    split
    · rename_i system same
      rw [same] at failed
      exact failed
    · rename_i failure system same
      rw [same] at failed
      exact failed.after_none (.event _ .draining)
  · have failed := System.failAll_gains backend.system .backendError
    refine Gains.after_none ?_ (noteStopRequest_gains device _)
    split
    · rename_i system same
      rw [same] at failed
      exact failed.after_none (.event _ .draining)
    · rename_i failure system same
      rw [same] at failed
      exact failed.after_none (.event _ .draining)

theorem trySubmitAtTime_gains (request : BackendRequest) (now : Nat) :
    Gains (reported (backend.trySubmitAtTime device request now).1 request) []
      backend.trace (backend.trySubmitAtTime device request now).2.trace := by
  unfold trySubmitAtTime
  have submitted := System.trySubmit_gains device backend.system request now
  split
  · rename_i accepted system same
    rw [same] at submitted
    exact submitted
  · rename_i status accepted system same
    rw [same] at submitted
    dsimp only at submitted ⊢
    split_ifs with invalid
    · rw [invalid.2.1] at submitted
      have completed := System.tryCompleteLocally_gains system request .backendError
      split
      · rename_i accepted after same
        rw [same] at completed
        exact submitted.after_none completed
      · rename_i status accepted after same
        rw [same] at completed
        exact (submitted.after_none completed).then_none (handleHostError_gains device _ status)
    · exact submitted.then_none (handleHostError_gains device _ status)

theorem trySubmit_gains (request : BackendRequest) :
    Gains (reported (backend.trySubmit device request).1 request) []
      backend.trace (backend.trySubmit device request).2.trace := by
  unfold trySubmit
  split_ifs
  · exact .refl _
  · exact trySubmitAtTime_gains device _ request _

theorem submitAll_gains (now : Nat) (requests : List BackendRequest) (backend : Backend σ) :
    Gains (requests.take (submitAll device now requests backend).1) [] backend.trace
        (submitAll device now requests backend).2.trace ∧
      (submitAll device now requests backend).1 ≤ requests.length := by
  induction requests generalizing backend with
  | nil => exact ⟨.refl _, Nat.le_refl 0⟩
  | cons request requests induction =>
      unfold submitAll
      have submitted := trySubmitAtTime_gains device backend request now
      split
      · rename_i after same
        rw [same] at submitted
        exact ⟨submitted, Nat.zero_le _⟩
      · rename_i after same
        rw [same] at submitted
        obtain ⟨rest, few⟩ := induction after
        exact ⟨submitted.trans rest, Nat.succ_le_succ few⟩

theorem trySubmitBatch_gains (requests : List BackendRequest) :
    Gains (requests.take (backend.trySubmitBatch device requests).1) [] backend.trace
        (backend.trySubmitBatch device requests).2.trace ∧
      (backend.trySubmitBatch device requests).1 ≤ requests.length := by
  unfold trySubmitBatch
  split_ifs
  · exact ⟨.refl _, Nat.zero_le _⟩
  · exact submitAll_gains device _ requests _

theorem publishPendingNow_gains :
    Gains [] [] backend.trace (backend.publishPendingNow device).2.trace := by
  unfold publishPendingNow
  have published := System.publishPendingNow_gains device backend.system
  split
  · rename_i system same
    rw [same] at published
    exact published
  · rename_i status system same
    rw [same] at published
    exact published.after_none (handleHostError_gains device _ status)

theorem flushSubmissions_gains :
    Gains [] [] backend.trace (backend.flushSubmissions device).2.trace := by
  unfold flushSubmissions
  split_ifs
  · exact .refl _
  · exact publishPendingNow_gains device backend

theorem attemptPop_gains (now : Nat) :
    Gains [] (backend.attemptPop device now).1.toList backend.trace
      (backend.attemptPop device now).2.trace := by
  unfold attemptPop
  obtain ⟨popped, failing⟩ := System.tryPopCompletion_gains device backend.system now
  split
  · rename_i completion system same
    rw [same] at popped
    exact popped
  · rename_i status completion system same
    rw [same] at popped failing
    have nothing : completion = none := failing (Option.some_ne_none status)
    rw [nothing] at popped
    have failed : Gains [] [] backend.trace
        (handleHostError device status { backend with system }).trace :=
      popped.after_none (handleHostError_gains device _ status)
    dsimp only
    obtain ⟨again, failingAgain⟩ := System.tryPopCompletion_gains device
      (handleHostError device status { backend with system }).system now
    split
    · rename_i completion after same
      rw [same] at again
      exact failed.after_none again
    · rename_i status completion after same
      rw [same] at again failingAgain
      have nothing : completion = none := failingAgain (Option.some_ne_none status)
      rw [nothing] at again
      exact failed.after_none again

theorem tryPopCompletionAtTime_gains (now : Nat) :
    Gains [] (backend.tryPopCompletionAtTime device now).1.toList backend.trace
      (backend.tryPopCompletionAtTime device now).2.trace := by
  unfold tryPopCompletionAtTime
  dsimp only
  have popped := attemptPop_gains device backend now
  split_ifs
  · exact popped.then_none (noteStopRequest_gains device _)
  · exact popped

theorem tryPopCompletion_gains :
    Gains [] (backend.tryPopCompletion device).1.toList backend.trace
      (backend.tryPopCompletion device).2.trace := by
  unfold tryPopCompletion
  split_ifs
  · exact .refl _
  · exact tryPopCompletionAtTime_gains device _ _

theorem popAll_gains (now capacity : Nat) (backend : Backend σ) :
    Gains [] (popAll device now capacity backend).1 backend.trace
      (popAll device now capacity backend).2.trace := by
  induction capacity generalizing backend with
  | zero => exact .refl _
  | succ capacity induction =>
      unfold popAll
      have popped := tryPopCompletionAtTime_gains device backend now
      split
      · rename_i after same
        rw [same] at popped
        exact popped
      · rename_i completion after same
        rw [same] at popped
        exact popped.trans (induction after)

theorem tryPopCompletionBatch_gains (capacity : Nat) :
    Gains [] (backend.tryPopCompletionBatch device capacity).1 backend.trace
      (backend.tryPopCompletionBatch device capacity).2.trace := by
  unfold tryPopCompletionBatch
  split_ifs
  · exact .refl _
  · exact popAll_gains device _ capacity _

theorem requestStop_gains :
    Gains [] [] backend.trace (backend.requestStop device).2.trace := by
  unfold requestStop
  split_ifs
  · exact .refl _
  · dsimp only
    have draining : Gains [] [] backend.trace
        ((backend.setState .draining .draining).publishPendingNow device).2.trace :=
      Gains.after_none (.event _ .draining) (publishPendingNow_gains device _)
    have stopping := progressStopRequest_gains device
      ((backend.setState .draining .draining).publishPendingNow device).2
    split
    · rename_i status after same
      rw [same] at stopping
      exact draining.after_none stopping
    · rename_i after same
      rw [same] at stopping
      exact draining.after_none stopping

theorem wait_gains : Gains [] [] backend.trace (backend.wait device).2.trace := by
  unfold wait
  split_ifs
  · exact .refl _
  · have stopping := progressStopRequest_gains device backend
    split
    · rename_i status after same
      rw [same] at stopping
      exact stopping
    · rename_i after same
      rw [same] at stopping
      dsimp only at stopping ⊢
      split_ifs
      · exact stopping
      · refine stopping.after_none ?_
        unfold setState
        dsimp only
        rw [System.trace_resetHost]
        exact .event _ .stopped
      · refine stopping.after_none ?_
        unfold setState
        dsimp only
        rw [System.trace_resetHost]
        exact .event _ .stopped

/-! ## Runs -/

/-- What a call returns: the requests that it reports as accepted, and the completions. -/
def answer (device : Device σ) (backend : Backend σ) :
    Call → List BackendRequest × List BackendCompletion
  | .trySubmit request => (reported (backend.trySubmit device request).1 request, [])
  | .trySubmitBatch requests => (requests.take (backend.trySubmitBatch device requests).1, [])
  | .tryPopCompletion => ([], (backend.tryPopCompletion device).1.toList)
  | .tryPopCompletionBatch capacity => ([], (backend.tryPopCompletionBatch device capacity).1)
  | _ => ([], [])

/-- What the calls of a run return one after the other. -/
def answers (device : Device σ) :
    Backend σ → List Call → List BackendRequest × List BackendCompletion
  | _, [] => ([], [])
  | backend, call :: calls =>
      let first := backend.answer device call
      let rest := answers device (backend.step device call) calls
      (first.1 ++ rest.1, first.2 ++ rest.2)

theorem step_gains (call : Call) :
    Gains (backend.answer device call).1 (backend.answer device call).2 backend.trace
      (backend.step device call).trace := by
  cases call with
  | start config => exact start_gains device backend config
  | trySubmit request => exact trySubmit_gains device backend request
  | trySubmitBatch requests => exact (trySubmitBatch_gains device backend requests).1
  | flushSubmissions => exact flushSubmissions_gains device backend
  | tryPopCompletion => exact tryPopCompletion_gains device backend
  | tryPopCompletionBatch capacity => exact tryPopCompletionBatch_gains device backend capacity
  | requestStop => exact requestStop_gains device backend
  | wait => exact wait_gains device backend

theorem run_gains (calls : List Call) (backend : Backend σ) :
    Gains (answers device backend calls).1 (answers device backend calls).2 backend.trace
      (run (Backend.step device) backend calls).trace := by
  induction calls generalizing backend with
  | nil => exact .refl _
  | cons call calls induction =>
      exact (step_gains device backend call).trans (induction (backend.step device call))

end Backend

/-! ## The caller's account -/

/-- The parent and the payload that a request is for. -/
def requestName (request : BackendRequest) : Nat × Nat :=
  (request.parentRequestId, request.payloadIndex)

def completionName (completion : BackendCompletion) : Nat × Nat :=
  (completion.parentRequestId, completion.payloadIndex)

def Ticket.name (ticket : Ticket) : Nat × Nat :=
  (ticket.parentRequestId, ticket.payloadIndex)

theorem map_name_accepted (trace : List Event) :
    (trace.filterMap Event.accepted).map Ticket.name =
      (trace.filterMap Event.taken).map requestName := by
  rw [List.map_filterMap, List.map_filterMap]
  refine List.filterMap_congr fun event _ => ?_
  cases event <;> rfl

theorem map_name_completed (trace : List Event) :
    (trace.filterMap Event.completed).map Ticket.name =
      (trace.filterMap Event.handed).map completionName := by
  rw [List.map_filterMap, List.map_filterMap]
  refine List.filterMap_congr fun event _ => ?_
  cases event <;> rfl

/-- What the calls have told the caller is what the trace has recorded, and each request that
was reported as accepted has been answered by one completion or is still owed one. -/
structure Told (backend : Backend σ) (requests : List BackendRequest)
    (completions : List BackendCompletion) : Prop where
  taken : backend.trace.filterMap Event.taken = requests
  handed : backend.trace.filterMap Event.handed = completions
  owed : (requests.map requestName).Perm
    (completions.map completionName ++ backend.host.tickets.map Ticket.name)

/-- After any sequence of calls and whatever the runtime and the visibility gate answer, the
requests that the calls have reported as accepted are those that are accounted for. -/
theorem calls_report_accounts (device : Device σ) (initial : σ) (calls : List Backend.Call) :
    Told (run (Backend.step device) (Backend.create initial) calls)
      (Backend.answers device (Backend.create initial) calls).1
      (Backend.answers device (Backend.create initial) calls).2 := by
  obtain ⟨events, trace, taken, handed⟩ :=
    Backend.run_gains device calls (Backend.create initial)
  have all : (run (Backend.step device) (Backend.create initial) calls).trace = events := trace
  obtain ⟨ledger, sound⟩ := run_sound device initial calls
  have named := sound.balance.map Ticket.name
  rw [List.map_append, map_name_accepted, map_name_completed, all, taken, handed] at named
  exact ⟨all ▸ taken, all ▸ handed, named⟩

end Ugdr.Gpu
