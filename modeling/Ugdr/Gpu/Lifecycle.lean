import Ugdr.Gpu.BackendRuns

/-! # Lifecycle of the backend

The states of the backend, which calls change them, and what `start` and `wait` find.
-/

namespace Ugdr.Gpu

open Ugdr.Execution Ugdr.Trace
open Ugdr.Worker (BackendRequest BackendCompletion DatagramResult)

variable {σ : Type}

/-! ## State changes inside a call -/

namespace Backend

/-- The state is the same, or the backend drains. -/
def Drains (backend next : Backend σ) : Prop :=
  next.state = backend.state ∨ next.state = .draining

namespace Drains

variable {backend next last : Backend σ}

theorem refl : Drains backend backend :=
  .inl rfl

theorem trans (drains : Drains backend next) (more : Drains next last) : Drains backend last := by
  rcases more with same | draining
  · rcases drains with before | draining
    · exact .inl (same.trans before)
    · exact .inr (same.trans draining)
  · exact .inr draining

end Drains

variable (device : Device σ)

theorem progressStopRequest_state (backend : Backend σ) :
    (backend.progressStopRequest device).2.state = backend.state :=
  (backend.progressStopRequest_steps device True).2.2

theorem noteStopRequest_state (backend : Backend σ) :
    (backend.noteStopRequest device).state = backend.state := by
  have state := backend.progressStopRequest_state device
  rw [noteStopRequest]
  rcases answer : backend.progressStopRequest device with ⟨status, next⟩
  rw [answer] at state
  cases status <;> exact state

theorem handleHostError_drains (status : Errno) (backend : Backend σ) :
    Drains backend (backend.handleHostError device status) := by
  rw [handleHostError]
  dsimp only
  split
  · split
    · exact .inl rfl
    · exact .inr rfl
  · exact .inr (noteStopRequest_state device _)

theorem trySubmitAtTime_drains (request : BackendRequest) (now : Nat) (backend : Backend σ) :
    Drains backend (backend.trySubmitAtTime device request now).2 := by
  rw [trySubmitAtTime]
  split
  · exact .inl rfl
  · dsimp only
    split
    · split
      · exact .inl rfl
      · exact handleHostError_drains device _ _
    · exact handleHostError_drains device _ _

theorem submitAll_drains (now : Nat) (requests : List BackendRequest) (backend : Backend σ) :
    Drains backend (backend.submitAll device now requests).2 := by
  induction requests generalizing backend with
  | nil => exact .refl
  | cons request requests induction =>
      have first := trySubmitAtTime_drains device request now backend
      rw [submitAll]
      rcases result : backend.trySubmitAtTime device request now with ⟨accepted, next⟩
      rw [result] at first
      cases accepted with
      | false => exact first
      | true => exact first.trans (induction next)

theorem attemptPop_drains (now : Nat) (backend : Backend σ) :
    Drains backend (backend.attemptPop device now).2 := by
  rw [attemptPop]
  split
  · exact .inl rfl
  · dsimp only
    have failed := handleHostError_drains device
    split
    · exact failed _ _
    · exact failed _ _

theorem tryPopCompletionAtTime_drains (now : Nat) (backend : Backend σ) :
    Drains backend (backend.tryPopCompletionAtTime device now).2 := by
  have attempt := attemptPop_drains device now backend
  rw [tryPopCompletionAtTime]
  split
  · exact attempt.trans (.inl (noteStopRequest_state device _))
  · exact attempt

theorem popAll_drains (now capacity : Nat) (backend : Backend σ) :
    Drains backend (backend.popAll device now capacity).2 := by
  induction capacity generalizing backend with
  | zero => exact .refl
  | succ capacity induction =>
      have first := tryPopCompletionAtTime_drains device now backend
      rw [popAll]
      rcases result : backend.tryPopCompletionAtTime device now with ⟨completion, next⟩
      rw [result] at first
      cases completion with
      | none => exact first
      | some completion => exact first.trans (induction next)

theorem publishPendingNow_drains (backend : Backend σ) :
    Drains backend (backend.publishPendingNow device).2 := by
  rw [publishPendingNow]
  split
  · exact .inl rfl
  · exact handleHostError_drains device _ _

theorem requestStop_drains (backend : Backend σ) :
    Drains backend (backend.requestStop device).2 := by
  rw [requestStop]
  split
  · exact .refl
  · have published := publishPendingNow_drains device (backend.setState .draining .draining)
    have state := progressStopRequest_state device
      ((backend.setState .draining .draining).publishPendingNow device).2
    have draining : ((backend.setState .draining .draining).publishPendingNow device).2.state =
        .draining := published.elim id id
    rw [draining] at state
    dsimp only
    rcases answer : progressStopRequest device
      ((backend.setState .draining .draining).publishPendingNow device).2 with ⟨stop, final⟩
    rw [answer] at state
    cases stop <;> exact .inr state

end Backend

/-! ## What has happened to the state -/

/-- The state that an event leaves. -/
def stateStep (state : BackendState) : Event → BackendState
  | .started => .accepting
  | .draining => .draining
  | .stopped => .stopped
  | _ => state

def stateAfter (trace : List Event) : BackendState :=
  trace.foldl stateStep .stopped

/-- Whether the runtime has been asked to stop since it was started. -/
def stopStep (asked : Bool) : Event → Bool
  | .stopRequested none => true
  | .started => false
  | _ => asked

def stopAsked (trace : List Event) : Bool :=
  trace.foldl stopStep false

@[simp] theorem stateAfter_append (trace events : List Event) :
    stateAfter (trace ++ events) = events.foldl stateStep (stateAfter trace) :=
  List.foldl_append

@[simp] theorem stopAsked_append (trace events : List Event) :
    stopAsked (trace ++ events) = events.foldl stopStep (stopAsked trace) :=
  List.foldl_append

/-- An event that neither changes the state nor asks the runtime to stop. -/
def Event.Steady : Event → Prop
  | .started | .draining | .stopped | .stopRequested _ => False
  | _ => True

def Event.Offers : Event → Prop
  | .offered _ _ _ => True
  | _ => False

theorem foldl_steady {α : Type} {step : α → Event → α} {events : List Event}
    (steady : ∀ event ∈ events, event.Steady)
    (still : ∀ (event : Event) (state : α), event.Steady → step state event = state) (state : α) :
    events.foldl step state = state := by
  induction events with
  | nil => rfl
  | cons event events induction =>
      rw [List.foldl_cons, still event state (steady event List.mem_cons_self)]
      exact induction fun other member => steady other (List.mem_cons_of_mem _ member)

theorem stateStep_steady (event : Event) (state : BackendState) (steady : event.Steady) :
    stateStep state event = state := by
  cases event <;> first | rfl | cases steady

theorem stopStep_steady (event : Event) (asked : Bool) (steady : event.Steady) :
    stopStep asked event = asked := by
  cases event <;> first | rfl | cases steady

/-- How a step may change the state, and what it does meanwhile. -/
inductive Change (strict : Prop) (backend next : Backend σ) : List Event → Prop
  | steady {events : List Event} (steady : ∀ event ∈ events, event.Steady)
      (state : next.state = backend.state)
      (requested : next.runtimeStopRequested = backend.runtimeStopRequested)
      (takes : ∀ event ∈ events, event.accepted ≠ none → strict → backend.state = .accepting)
      (offers : ∀ event ∈ events, event.Offers → backend.host.pending ≠ [])
      (pending : next.host.pending ≠ [] →
        backend.host.pending ≠ [] ∨ (strict → backend.state = .accepting)) :
      Change strict backend next events
  | drain {events : List Event} (steady : ∀ event ∈ events, event.Steady)
      (running : backend.state ≠ .stopped) (state : next.state = .draining)
      (requested : next.runtimeStopRequested = backend.runtimeStopRequested)
      (takes : ∀ event ∈ events, event.accepted = none)
      (offers : ∀ event ∈ events, event.Offers → backend.host.pending ≠ [])
      (pending : next.host.pending ≠ [] → backend.host.pending ≠ []) :
      Change strict backend next (events ++ [.draining])
  | stopRequest {status : Status} (draining : backend.state = .draining)
      (state : next.state = .draining) (empty : next.host.pending = [])
      (requested : next.runtimeStopRequested = true → status = none) :
      Change strict backend next [.stopRequested status]
  | finish (draining : backend.state = .draining)
      (requested : backend.runtimeStopRequested = true)
      (nothing : backend.host.outstanding = 0) (state : next.state = .stopped)
      (empty : next.host.pending = []) (unrequested : next.runtimeStopRequested = false) :
      Change strict backend next [.stopped]
  | start (stopped : backend.state = .stopped) (state : next.state = .accepting)
      (unrequested : next.runtimeStopRequested = false) :
      Change strict backend next [.started]

/-- An event that neither changes the state nor takes a request, and offers tasks only if
some wait. -/
def Event.Idle (host : Host) (event : Event) : Prop :=
  event.Steady ∧ event.accepted = none ∧ (event.Offers → host.pending ≠ [])

theorem Fault.idle {device : Device σ} {system after : System σ}
    (fault : Fault device system after) :
    ∃ events, after.trace = system.trace ++ events ∧ after.host = system.host ∧
      ∀ event ∈ events, event.Idle system.host := by
  cases fault with
  | misread misread =>
      obtain ⟨status, completion, noted, host⟩ := misread.polls
      exact ⟨_, noted, host, by simp [Event.Idle, Event.Steady, Event.accepted, Event.Offers]⟩
  | refused waiting =>
      exact ⟨_, rfl, rfl, by simp [Event.Idle, Event.Steady, Event.accepted, waiting]⟩
  | busy => exact ⟨[], (List.append_nil _).symm, rfl, by simp⟩
  | stale => exact ⟨[], (List.append_nil _).symm, rfl, by simp⟩

namespace Backend

theorem Step.change {device : Device σ} {strict : Prop} {backend next : Backend σ}
    {ledger : Ledger} (keeps : Keeps backend ledger) (step : Step device strict backend next) :
    ∃ events, next.trace = backend.trace ++ events ∧ Change strict backend next events := by
  cases step with
  | clock =>
      exact ⟨[], (List.append_nil _).symm,
        .steady (by simp) rfl rfl (by simp) (by simp) fun waiting => .inl waiting⟩
  | note =>
      exact ⟨[], (List.append_nil _).symm,
        .steady (by simp) rfl rfl (by simp) (by simp) fun waiting => .inl waiting⟩
  | rearm =>
      exact ⟨[], (List.append_nil _).symm,
        .steady (by simp) rfl rfl (by simp) (by simp) fun waiting => .inl waiting⟩
  | setup =>
      exact ⟨[], (List.append_nil _).symm,
        .steady (by simp) rfl rfl (by simp) (by simp) fun waiting => .inl waiting⟩
  | queue now initialized accepting =>
      exact ⟨_, rfl, .steady (by simp [Event.Steady]) rfl rfl (fun _ _ _ => accepting)
        (by simp [Event.Offers]) fun _ => .inr accepting⟩
  | reject initialized accepting =>
      exact ⟨_, rfl, .steady (by simp [Event.Steady]) rfl rfl (fun _ _ _ => accepting)
        (by simp [Event.Offers]) fun _ => .inr accepting⟩
  | flush =>
      exact ⟨_, rfl, .steady (by simp [Event.Steady]) rfl rfl (by simp [Event.accepted])
        (by simp [Event.Offers]) fun waiting => .inl waiting⟩
  | retain initialized waiting =>
      exact ⟨_, rfl, .steady (by simp [Event.Steady]) rfl rfl (by simp [Event.accepted])
        (fun _ _ _ => waiting) fun _ => .inl waiting⟩
  | take initialized flushed answer positive enough =>
      have waiting : backend.host.pending ≠ [] := by
        rw [← List.length_pos_iff]
        omega
      exact ⟨_, rfl, .steady (by simp [Event.Steady]) rfl rfl (by simp [Event.accepted])
        (fun _ _ _ => waiting) fun _ => .inl waiting⟩
  | @abandon status after initialized waiting unflushed answer =>
      obtain ⟨-, -, represents, -, -⟩ := keeps.of_initialized initialized
      have hidden : Represents
          { backend.host with publishBlocked := true, lastPublishFailure := .visibility }
          ledger.toBooks := represents.congr rfl
      obtain ⟨_, _, _, failed, -⟩ := @Represents.failPending ledger.toBooks σ
        { backend.system.answered after (.flushed (some status)) with
          host :=
            { backend.host with publishBlocked := true, lastPublishFailure := .visibility } }
        hidden initialized
      rw [failed]
      refine ⟨.flushed (some status) :: ledger.pending.map .abandoned, List.append_assoc _ _ _,
        .steady ?_ rfl rfl ?_ ?_ fun waiting => absurd rfl waiting⟩
      · simp [Event.Steady]
      · simp [Event.accepted]
      · simp [Event.Offers]
  | @breakdown _ failure initialized running fault =>
      obtain ⟨-, -, represents, tasks, flushed⟩ := keeps.of_initialized initialized
      obtain ⟨events, noted, host, idle⟩ := fault.idle
      have core : _ = backend.system.host.core := congrArg Host.core host
      have broken : Represents (System.withFailure _ failure).host ledger.toBooks :=
        represents.congr core
      obtain ⟨_, _, _, revoked, failed, -⟩ :=
        broken.failAll ((congrArg Host.initialized host).trans initialized)
      rw [failed]
      have closing : ∀ event ∈ events ++ (ledger.pending.map .abandoned ++
          revoked.map .revoked), event.Idle backend.host := by
        intro event member
        simp only [List.mem_append, List.mem_map] at member
        rcases member with member | ⟨ticket, -, rfl⟩ | ⟨ticket, -, rfl⟩
        · exact idle event member
        · exact ⟨trivial, rfl, fun offers => offers.elim⟩
        · exact ⟨trivial, rfl, fun offers => offers.elim⟩
      refine ⟨_, ?_, .drain (fun event member => (closing event member).1) running rfl rfl
        (fun event member => (closing event member).2.1)
        (fun event member => (closing event member).2.2) fun waiting => absurd rfl waiting⟩
      change (System.trace _ ++ _) ++ [_] = _
      rw [System.withFailure, noted]
      simp only [List.append_assoc]
  | misread initialized misread =>
      obtain ⟨status, completion, noted, host⟩ := misread.polls
      refine ⟨_, noted, .steady (by simp [Event.Steady]) rfl rfl (by simp [Event.accepted])
        (by simp [Event.Offers]) fun waiting => .inl ?_⟩
      rwa [Backend.host, ← host]
  | pollEmpty =>
      exact ⟨_, rfl, .steady (by simp [Event.Steady]) rfl rfl (by simp [Event.accepted])
        (by simp [Event.Offers]) fun waiting => .inl waiting⟩
  | deliverLocal =>
      exact ⟨_, rfl, .steady (by simp [Event.Steady]) rfl rfl (by simp [Event.accepted])
        (by simp [Event.Offers]) fun waiting => .inl waiting⟩
  | deliverPolled =>
      exact ⟨_, List.append_assoc _ _ _, .steady (by simp [Event.Steady]) rfl rfl
        (by simp [Event.accepted]) (by simp [Event.Offers]) fun waiting => .inl waiting⟩
  | stopRequest draining unrequested empty answer =>
      exact ⟨_, rfl, .stopRequest draining draining empty fun asked => of_decide_eq_true asked⟩
  | drain accepting =>
      refine ⟨_, rfl, @Change.drain _ _ _ _ [] (by simp) ?_ rfl rfl (by simp) (by simp) id⟩
      rw [accepting]
      decide
  | finish draining requested nothing empty =>
      exact ⟨_, rfl, .finish draining requested nothing rfl rfl rfl⟩
  | start stopped => exact ⟨_, rfl, .start stopped rfl rfl⟩

end Backend

/-! ## Legal changes -/

/-- The backend starts when it is stopped, drains when it runs, and stops when it drains,
has asked the runtime to stop and owes nothing. -/
def LegalChange (before : List Event) : Event → Prop
  | .started => stateAfter before = .stopped
  | .draining => stateAfter before ≠ .stopped
  | .stopped =>
      stateAfter before = .draining ∧ stopAsked before = true ∧
        (before.filterMap Event.accepted).Perm (before.filterMap Event.completed)
  | _ => True

theorem Keeps.owes_nothing {backend : Backend σ} {ledger : Ledger} (keeps : Keeps backend ledger)
    (nothing : backend.host.outstanding = 0) :
    ledger.pending = [] ∧ ledger.submitted = [] ∧ ledger.locals = [] := by
  cases keeps with
  | stopped => exact ⟨rfl, rfl, rfl⟩
  | running _ _ _ represents => exact Keeps.empty_of_outstanding represents nothing

structure Timely (backend : Backend σ) : Prop where
  state : stateAfter backend.trace = backend.state
  asked : backend.runtimeStopRequested = true → stopAsked backend.trace = true
  legal : Every LegalChange backend.trace

theorem Timely.step {device : Device σ} {strict : Prop} {backend next : Backend σ}
    {ledger : Ledger} (timely : Timely backend) (sound : Sound backend ledger)
    (step : Backend.Step device strict backend next) : Timely next := by
  obtain ⟨events, trace, change⟩ := step.change sound.keeps
  have legal : ∀ {steadyEvents : List Event}, (∀ event ∈ steadyEvents, event.Steady) →
      Every LegalChange (backend.trace ++ steadyEvents) := by
    intro steadyEvents steady
    refine every_append timely.legal fun before event member => ?_
    have still := steady event member
    cases event <;> trivial
  cases change with
  | steady steady state requested =>
      refine ⟨?_, ?_, trace ▸ legal steady⟩
      · rw [trace, stateAfter_append, foldl_steady steady stateStep_steady, state, timely.state]
      · rw [trace, stopAsked_append, foldl_steady steady stopStep_steady, requested]
        exact timely.asked
  | @drain events steady running state requested =>
      refine ⟨?_, ?_, ?_⟩
      · rw [trace, state, ← List.append_assoc, stateAfter_append]
        rfl
      · rw [trace, ← List.append_assoc, stopAsked_append, stopAsked_append,
          foldl_steady steady stopStep_steady, requested]
        exact timely.asked
      · rw [trace, ← List.append_assoc]
        refine every_concat.mpr ⟨legal steady, ?_⟩
        change stateAfter (backend.trace ++ events) ≠ .stopped
        rw [stateAfter_append, foldl_steady steady stateStep_steady, timely.state]
        exact running
  | @stopRequest status draining state empty requested =>
      refine ⟨?_, ?_, ?_⟩
      · rw [trace, stateAfter_append, state]
        exact timely.state.trans draining
      · rw [trace, stopAsked_append]
        intro asked
        rw [requested asked]
        rfl
      · rw [trace]
        exact every_concat.mpr ⟨timely.legal, trivial⟩
  | finish draining requested nothing state empty unrequested =>
      refine ⟨?_, ?_, ?_⟩
      · rw [trace, stateAfter_append, state]
        rfl
      · rw [unrequested]
        exact fun wrong => by cases wrong
      · rw [trace]
        refine every_concat.mpr ⟨timely.legal, timely.state.trans draining,
          timely.asked requested, ?_⟩
        obtain ⟨pending, submitted, locals⟩ := sound.keeps.owes_nothing nothing
        have balance := sound.accounted.balance
        rwa [pending, submitted, locals, List.append_nil, List.append_nil,
          List.append_nil] at balance
  | start stopped state unrequested =>
      refine ⟨?_, ?_, ?_⟩
      · rw [trace, stateAfter_append, state]
        rfl
      · rw [unrequested]
        exact fun wrong => by cases wrong
      · rw [trace]
        exact every_concat.mpr ⟨timely.legal, timely.state.trans stopped⟩

/-- A step relation of the backend carries what holds of the trace. -/
theorem Timely.steps {device : Device σ} {strict : Prop} {backend next : Backend σ}
    (steps : Backend.Steps device strict backend next)
    (holds : Timely backend ∧ ∃ ledger, Sound backend ledger) :
    Timely next ∧ ∃ ledger, Sound next ledger := by
  induction steps with
  | refl => exact holds
  | tail _ step induction =>
      obtain ⟨timely, ledger, sound⟩ := induction
      exact ⟨timely.step sound step, sound.step step⟩

theorem run_timely (device : Device σ) (initial : σ) (calls : List Backend.Call) :
    Timely (run (Backend.step device) (Backend.create initial) calls) := by
  induction calls using List.reverseRecOn with
  | nil => exact ⟨rfl, fun wrong => (by cases wrong), every_nil⟩
  | append_singleton calls call induction =>
      have rest := run_atRest device initial calls
      rw [run_concat]
      exact (Timely.steps (@Backend.AtRest.step _ device False _ rest call fun no => no.elim).1
        ⟨induction, run_sound device initial calls⟩).1

/-! ## Start and wait -/

/-- The runtime, the visibility gate and the allocator succeed in this `start`. -/
structure Succeeds (device : Device σ) (config : Config) (state : σ) : Prop where
  opened : (device.initializeDevice config.deviceOrdinal state).1 = none
  gated : (device.initializeGate config.deviceOrdinal
    (device.initializeDevice config.deviceOrdinal state).2).1 = none
  allocated : (device.allocate (device.initializeGate config.deviceOrdinal
    (device.initializeDevice config.deviceOrdinal state).2).2).1 = true
  launched : (device.start config (device.allocate (device.initializeGate config.deviceOrdinal
    (device.initializeDevice config.deviceOrdinal state).2).2).2).1 = none

namespace Backend

variable {device : Device σ} {backend : Backend σ} (rest : AtRest backend)

include rest

theorem AtRest.start_succeeds (stopped : backend.state = .stopped) {config : Config}
    (valid : ValidConfig config) (succeeds : Succeeds device config backend.system.device) :
    (backend.start device config).1 = none ∧
      (backend.start device config).2.state = .accepting := by
  have host := rest.idle stopped
  have idle : backend.system.host.initialized = false := by
    change backend.host.initialized = false
    rw [host]
  have ready : ¬(backend.state ≠ .stopped ∨ validateConfig config ≠ none) := by
    rw [not_or, not_ne_iff, not_ne_iff]
    exact ⟨stopped, valid.valid⟩
  have accepted : ¬(backend.system.host.initialized = true ∨ validateConfig config ≠ none ∨
      (2 ^ 64 - 1) / contextSlotBytes < config.queueCapacity) := by
    rw [idle, not_or, not_or, not_ne_iff, not_lt]
    exact ⟨by decide, valid.valid, valid.small⟩
  rw [Backend.start, if_neg ready]
  dsimp only
  rw [succeeds.opened]
  dsimp only
  rw [succeeds.gated]
  dsimp only
  rw [System.initializeHost]
  dsimp only
  rw [if_neg accepted, if_neg (by rw [succeeds.allocated]; decide)]
  dsimp only
  rw [succeeds.launched]
  exact ⟨rfl, rfl⟩

omit rest in
/-- `wait` stops the backend only if the runtime was asked to stop and nothing is owed. -/
theorem wait_state :
    (backend.wait device).2.state = backend.state ∨
      (backend.state = .draining ∧ (backend.wait device).2.state = .stopped ∧
        (backend.progressStopRequest device).2.runtimeStopRequested = true ∧
        backend.host.outstanding = 0 ∧ backend.host.pending = []) := by
  obtain ⟨-, host, state⟩ := backend.progressStopRequest_steps device True
  rw [Backend.wait]
  split
  · exact .inl rfl
  · rename_i draining
    rw [not_ne_iff] at draining
    rcases answer : backend.progressStopRequest device with ⟨stop, final⟩
    rw [answer] at host state
    cases stop with
    | some stop => exact .inl state
    | none =>
        dsimp only
        split
        · exact .inl state
        · rename_i done
          simp only [not_or, not_not, Bool.not_eq_false] at done
          obtain ⟨requested, nothing, empty⟩ := done
          have nothing : final.host.outstanding = 0 := nothing
          have empty : final.host.pending = [] := List.length_eq_zero_iff.mp empty
          dsimp only at host
          rw [host] at nothing empty
          exact .inr ⟨draining, rfl, requested, nothing, empty⟩

/-- When `wait` resets the host, the host is not busy. -/
theorem AtRest.wait_reset (draining : backend.state = .draining)
    (nothing : backend.host.outstanding = 0) (after : σ) :
    (System.resetHost { (backend.progressStopRequest device).2.system with device := after }).1 =
      none := by
  have host := (backend.progressStopRequest_steps device True).2.1
  have initialized := rest.initialized (by rw [draining]; decide)
  obtain ⟨ledger, kept⟩ := rest.keeps
  obtain ⟨-, -, represents, tasks, -⟩ := kept.of_initialized initialized
  have consistent := represents.consistent
  have empty : backend.host.pending = [] := by
    have total := consistent.outstanding
    rw [← List.length_eq_zero_iff]
    omega
  rw [← host] at consistent initialized nothing empty
  exact congrArg Prod.fst (@System.resetHost_of_idle _
    { (backend.progressStopRequest device).2.system with device := after }
    consistent initialized nothing empty)

/-- What a call may do to the state. -/
def MayChange (device : Device σ) (backend : Backend σ) (call : Call) : Prop :=
  (backend.step device call).state = backend.state ∨
    (backend.state = .stopped ∧ (backend.step device call).state = .accepting ∧
      ∃ config, call = .start config ∧ (backend.start device config).1 = none) ∨
    (backend.state = .accepting ∧ (backend.step device call).state = .draining) ∨
    (backend.state = .draining ∧ (backend.step device call).state = .stopped ∧ call = .wait ∧
      (backend.progressStopRequest device).2.runtimeStopRequested = true ∧
      backend.host.outstanding = 0)

omit rest in
theorem mayChange_of_drains {call : Call} (running : backend.state ≠ .stopped)
    (drains : Drains backend (backend.step device call)) : MayChange device backend call := by
  rcases drains with same | draining
  · exact .inl same
  · rcases state : backend.state
    · exact absurd state running
    · exact .inr (.inr (.inl ⟨state, draining⟩))
    · exact .inl (draining.trans state.symm)

theorem AtRest.mayChange (call : Call) : MayChange device backend call := by
  cases call with
  | start config =>
      by_cases stopped : backend.state = .stopped
      · rcases @AtRest.start_cases _ device _ rest stopped config with
          ⟨status, after, error, failed⟩ | ⟨-, after, done⟩
        · left
          rw [Backend.step, failed]
        · right
          left
          refine ⟨stopped, ?_, config, rfl, ?_⟩
          · rw [Backend.step, done]
            rfl
          · rw [done]
      · left
        rw [Backend.step, Backend.start, if_pos (.inl stopped)]
  | trySubmit request =>
      by_cases accepting : backend.state = .accepting
      · refine mayChange_of_drains (by rw [accepting]; decide) ?_
        rw [Backend.step, Backend.trySubmit, if_neg (not_not_intro accepting)]
        exact trySubmitAtTime_drains device request _ (backend.readClock device).2
      · left
        rw [Backend.step, Backend.trySubmit, if_pos accepting]
  | trySubmitBatch requests =>
      by_cases accepting : backend.state = .accepting
      · refine mayChange_of_drains (by rw [accepting]; decide) ?_
        rw [Backend.step, Backend.trySubmitBatch, if_neg (not_not_intro accepting)]
        exact submitAll_drains device _ requests (backend.readClock device).2
      · left
        rw [Backend.step, Backend.trySubmitBatch, if_pos accepting]
  | flushSubmissions =>
      by_cases accepting : backend.state = .accepting
      · refine mayChange_of_drains (by rw [accepting]; decide) ?_
        rw [Backend.step, Backend.flushSubmissions, if_neg (not_not_intro accepting)]
        exact publishPendingNow_drains device backend
      · left
        rw [Backend.step, Backend.flushSubmissions, if_pos accepting]
  | tryPopCompletion =>
      by_cases stopped : backend.state = .stopped
      · left
        rw [Backend.step, Backend.tryPopCompletion, if_pos stopped]
      · refine mayChange_of_drains stopped ?_
        rw [Backend.step, Backend.tryPopCompletion, if_neg stopped]
        exact tryPopCompletionAtTime_drains device _ (backend.readClock device).2
  | tryPopCompletionBatch capacity =>
      by_cases stopped : backend.state = .stopped
      · left
        rw [Backend.step, Backend.tryPopCompletionBatch, if_pos stopped]
      · refine mayChange_of_drains stopped ?_
        rw [Backend.step, Backend.tryPopCompletionBatch, if_neg stopped]
        exact popAll_drains device _ capacity (backend.readClock device).2
  | requestStop =>
      by_cases accepting : backend.state = .accepting
      · exact mayChange_of_drains (by rw [accepting]; decide) (requestStop_drains device backend)
      · left
        rw [Backend.step, Backend.requestStop, if_pos accepting]
  | wait =>
      rcases @wait_state _ device backend with same | ⟨draining, stopped, asked, nothing, -⟩
      · exact .inl same
      · exact .inr (.inr (.inr ⟨draining, stopped, rfl, asked, nothing⟩))

end Backend

/-- The lifecycle of a backend: when it is stopped, what a failed `start` leaves, which
calls change its state, and that `wait` can reset the host. -/
structure Lifecycle (device : Device σ) (backend : Backend σ) : Prop where
  stopped : backend.state = .stopped ↔
    backend.host.initialized = false ∧ backend.host.outstanding = 0 ∧
      backend.host.pending = [] ∧ backend.host.localCount = 0
  failed : ∀ config, backend.state = .stopped → (backend.start device config).1 ≠ none →
    (backend.start device config).2.state = .stopped ∧
      (backend.start device config).2.host = backend.host
  restarts : ∀ config, backend.state = .stopped → ValidConfig config →
    Succeeds device config backend.system.device →
      (backend.start device config).1 = none ∧
        (backend.start device config).2.state = .accepting
  changes : ∀ call, Backend.MayChange device backend call
  legal : Every LegalChange backend.trace
  resets : backend.state = .draining → backend.host.outstanding = 0 → ∀ after : σ,
    (System.resetHost { (backend.progressStopRequest device).2.system with device := after }).1 =
      none

theorem backend_lifecycle (device : Device σ) (initial : σ) (calls : List Backend.Call) :
    Lifecycle device (run (Backend.step device) (Backend.create initial) calls) := by
  have rest := run_atRest device initial calls
  have timely := run_timely device initial calls
  generalize run (Backend.step device) (Backend.create initial) calls = backend at *
  refine ⟨⟨fun stopped => ?_, fun idle => ?_⟩, fun config stopped wrong => ?_,
    fun config stopped => rest.start_succeeds stopped, rest.mayChange, timely.legal,
    rest.wait_reset⟩
  · rw [rest.idle stopped]
    exact ⟨rfl, rfl, rfl, rfl⟩
  · by_contra running
    rw [rest.initialized running] at idle
    cases idle.1
  · rcases @Backend.AtRest.start_cases _ device _ rest stopped config with
      ⟨status, after, error, failed⟩ | ⟨-, after, done⟩
    · rw [failed]
      exact ⟨stopped, rfl⟩
    · rw [done] at wrong
      exact absurd rfl wrong

end Ugdr.Gpu
