import Ugdr.Worker.CopyProgress
import Ugdr.Worker.Delivery
import Ugdr.Worker.ZeroLength

/-! # The result of a parent

Completions of a parent arrive in any order, in batches of any size, between completions of
other parents and before later payloads of the same parent. The response depends only on the
results themselves.
-/

namespace Ugdr.Worker

open Ugdr.Queue Ugdr.Control
open Ugdr.Control.QpService (WorkerQpView)

variable {world next : World}

/-! ## Completed parents -/

/-- Success, or the result of the first payload that failed. -/
def parentResult (results : Nat → DatagramResult) (payloadCount : Nat) : DatagramResult :=
  match (List.range payloadCount).find? fun index => results index ≠ .success with
  | none => .success
  | some index => results index

/-- A parent that `try_send` builds. -/
structure Produced (payloadBytes : Nat) (parent : PendingSend) : Prop where
  positive : 0 < payloadBytes
  inspected : ∃ service view requestId wqe gathered,
    inspectSend service view payloadBytes wqe = .ok gathered ∧
      parent = pendingSendOf view requestId wqe gathered

theorem Produced.built {payloadBytes : Nat} {parent : PendingSend}
    (produced : Produced payloadBytes parent) : parent.Built payloadBytes := by
  obtain ⟨service, view, requestId, wqe, gathered, inspected, rfl⟩ := produced.inspected
  exact (inspectSend_spec produced.positive inspected requestId).1

/-- The requests sent under an id. -/
def World.sentUnder (world : World) (requestId : Nat) : List RequestDatagram :=
  world.sent.filter fun request => request.parentRequestId = requestId

/-- The requests under an id that the responder disposed of. -/
def World.handledUnder (world : World) (requestId : Nat) : List RequestDatagram :=
  (world.disposed.map Prod.fst).filter fun request => request.parentRequestId = requestId

def poppedUnder (requestId : Nat) (trace : List Event) : List BackendCompletion :=
  (trace.filterMap Event.popped?).filter fun completion =>
    completion.parentRequestId = requestId

/-- The backend completes what it accepted. -/
def AfterAcceptance (requestId : Nat) (before : List Event) (event : Event) : Prop :=
  ∀ completion, event = .popped completion → completion.parentRequestId = requestId →
    ∃ request ∈ before.filterMap Event.accepted?, request.parentRequestId = requestId ∧
      request.payloadIndex = completion.payloadIndex

/-- The id is used for the datagrams of one parent, and each of its payloads is completed
once. -/
structure CompletedOnce (payloadBytes : Nat) (parent : PendingSend)
    (results : Nat → DatagramResult) (world : World) : Prop where
  datagrams : world.sentUnder parent.parentRequestId <+: parent.datagrams payloadBytes
  completions : (poppedUnder parent.parentRequestId world.trace).Perm
    ((List.range parent.payloadCount).map fun index =>
      ⟨parent.parentRequestId, index, results index⟩)
  accepted : Trace.Every (AfterAcceptance parent.parentRequestId) world.trace

/-- A run of the responder with any other traffic, in which the parent is completed. -/
structure CompletedRun (payloadBytes : Nat) (parent : PendingSend)
    (results : Nat → DatagramResult) (world : World) : Prop where
  run : ∃ configuration deliveries,
    Execution.Along World.deliver Allowed (World.initial configuration) deliveries ∧
      Execution.run World.deliver (World.initial configuration) deliveries = world
  completed : CompletedOnce payloadBytes parent results world

/-- The parent is answered with its result, after all of its completions. -/
def AnsweredWith (parent : PendingSend) (results : Nat → DatagramResult) (before : List Event)
    (event : Event) : Prop :=
  ∀ response, event = .responded response → response.parentRequestId = parent.parentRequestId →
    response =
        { parentRequestId := parent.parentRequestId
          result := parentResult results parent.payloadCount } ∧
      ∀ index < parent.payloadCount,
        ⟨parent.parentRequestId, index, results index⟩ ∈ before.filterMap Event.popped?

/-! ## Assembling a parent -/

/-- The part of `CompletedOnce` that holds before the end of the run as well. -/
structure Served (payloadBytes : Nat) (parent : PendingSend) (results : Nat → DatagramResult)
    (world : World) : Prop where
  datagrams : world.sentUnder parent.parentRequestId <+: parent.datagrams payloadBytes
  distinct : ((poppedUnder parent.parentRequestId world.trace).map
    BackendCompletion.payloadIndex).Nodup
  results : ∀ completion ∈ poppedUnder parent.parentRequestId world.trace,
    completion.payloadIndex < parent.payloadCount ∧
      completion.result = results completion.payloadIndex
  accepted : Trace.Every (AfterAcceptance parent.parentRequestId) world.trace

/-- How far the responder has come with the datagrams of a parent. -/
inductive Stage (payloadBytes : Nat) (parent : PendingSend) (results : Nat → DatagramResult)
    (world : World) : Prop
  | waiting (absent : world.responder.responderInflight parent.parentRequestId = none)
      (handled : world.handledUnder parent.parentRequestId = [])
      (created : ∀ request ∈ world.created, request.parentRequestId ≠ parent.parentRequestId)
      (silent : ∀ response, .responded response ∈ world.trace →
        response.parentRequestId ≠ parent.parentRequestId)
  | assembling (inflight : ResponderInflight) (target : Nat)
      (found : world.responder.responderInflight parent.parentRequestId = some inflight)
      (nonzero : parent.totalLength ≠ 0)
      (addressed : parent.targetQpNum = world.responder.qpNum)
      (matched : Matches inflight parent target (world.handledUnder parent.parentRequestId))
      (recorded : Recorded inflight (poppedUnder parent.parentRequestId world.trace))
      (clean : inflight.parentError = .success)
      (silent : ∀ response, .responded response ∈ world.trace →
        response.parentRequestId ≠ parent.parentRequestId)
  | rejected (absent : world.responder.responderInflight parent.parentRequestId = none)
      (started : world.handledUnder parent.parentRequestId ≠ [])
      (created : ∀ request ∈ world.created, request.parentRequestId ≠ parent.parentRequestId)
  | answered (absent : world.responder.responderInflight parent.parentRequestId = none)
      (handled : world.handledUnder parent.parentRequestId = parent.datagrams payloadBytes)
      (every : Trace.Every (AnsweredWith parent results) world.trace)

/-! ## Other traffic -/

/-- The event does not concern the responder's work under the id. -/
def Event.Foreign (requestId : Nat) : Event → Prop
  | .disposed request disposal =>
      request.parentRequestId ≠ requestId ∧
        ∀ made, disposal = .backendRequest made → made.parentRequestId ≠ requestId
  | .popped completion => completion.parentRequestId ≠ requestId
  | .responded response => response.parentRequestId ≠ requestId
  | _ => True

/-- Nothing changes under the id. -/
structure SameUnder (requestId : Nat) (world next : World) : Prop where
  inflight : next.responder.responderInflight requestId =
    world.responder.responderInflight requestId
  qpNum : next.responder.qpNum = world.responder.qpNum
  trace : ∃ events, next.trace = world.trace ++ events ∧
    ∀ event ∈ events, event.Foreign requestId

namespace SameUnder

variable {requestId : Nat}

theorem handledUnder (same : SameUnder requestId world next) :
    next.handledUnder requestId = world.handledUnder requestId := by
  obtain ⟨events, trace, foreign⟩ := same.trace
  rw [World.handledUnder, World.handledUnder, World.disposed, World.disposed, trace,
    List.filterMap_append, List.map_append, List.filter_append]
  refine (congrArg (_ ++ ·) (List.filter_eq_nil_iff.mpr ?_)).trans (List.append_nil _)
  intro request member
  obtain ⟨⟨other, disposal⟩, listed, rfl⟩ := List.mem_map.mp member
  obtain ⟨event, inside, disposed⟩ := List.mem_filterMap.mp listed
  have apart := foreign event inside
  cases event with
  | disposed request made =>
      injection disposed with disposed
      injection disposed with same
      rw [← same, decide_eq_true_eq]
      exact apart.1
  | _ => cases disposed

theorem poppedUnder (same : SameUnder requestId world next) :
    Worker.poppedUnder requestId next.trace = Worker.poppedUnder requestId world.trace := by
  obtain ⟨events, trace, foreign⟩ := same.trace
  rw [Worker.poppedUnder, Worker.poppedUnder, trace, List.filterMap_append, List.filter_append]
  refine (congrArg (_ ++ ·) (List.filter_eq_nil_iff.mpr ?_)).trans (List.append_nil _)
  intro completion member
  obtain ⟨event, inside, popped⟩ := List.mem_filterMap.mp member
  have apart := foreign event inside
  cases event with
  | popped other =>
      injection popped with same
      rw [← same, decide_eq_true_eq]
      exact apart
  | _ => cases popped

theorem created (same : SameUnder requestId world next)
    (none : ∀ request ∈ world.created, request.parentRequestId ≠ requestId) :
    ∀ request ∈ next.created, request.parentRequestId ≠ requestId := by
  obtain ⟨events, trace, foreign⟩ := same.trace
  intro request member
  rw [World.created, World.disposed, trace, List.filterMap_append, List.filterMap_append]
    at member
  rcases List.mem_append.mp member with member | member
  · exact none request member
  · obtain ⟨⟨other, disposal⟩, listed, made⟩ := List.mem_filterMap.mp member
    obtain ⟨event, inside, disposed⟩ := List.mem_filterMap.mp listed
    have apart := foreign event inside
    cases event with
    | disposed datagram disposal =>
        injection disposed with disposed
        injection disposed with first second
        subst second
        cases disposal with
        | backendRequest built =>
            injection made with made
            rw [← made]
            exact apart.2 built rfl
        | _ => cases made
    | _ => cases disposed

theorem silent (same : SameUnder requestId world next)
    (silent : ∀ response, .responded response ∈ world.trace →
      response.parentRequestId ≠ requestId) :
    ∀ response, .responded response ∈ next.trace → response.parentRequestId ≠ requestId := by
  obtain ⟨events, trace, foreign⟩ := same.trace
  intro response member
  rw [trace] at member
  rcases List.mem_append.mp member with member | member
  · exact silent response member
  · exact foreign _ member

end SameUnder

theorem Stage.of_same {payloadBytes : Nat} {parent : PendingSend}
    {results : Nat → DatagramResult} (stage : Stage payloadBytes parent results world)
    (same : SameUnder parent.parentRequestId world next) :
    Stage payloadBytes parent results next := by
  cases stage with
  | waiting absent handled created silent =>
      exact .waiting (same.inflight.trans absent) (same.handledUnder.trans handled)
        (same.created created) (same.silent silent)
  | assembling inflight target found nonzero addressed matched recorded clean silent =>
      refine .assembling inflight target (same.inflight.trans found) nonzero
        (addressed.trans same.qpNum.symm) ?_ ?_ clean (same.silent silent)
      · rw [same.handledUnder]
        exact matched
      · rw [same.poppedUnder]
        exact recorded
  | rejected absent started created =>
      refine .rejected (same.inflight.trans absent) ?_ (same.created created)
      rw [same.handledUnder]
      exact started
  | answered absent handled every =>
      refine .answered (same.inflight.trans absent) (same.handledUnder.trans handled) ?_
      obtain ⟨events, trace, foreign⟩ := same.trace
      rw [trace]
      refine Trace.every_append every fun before event member response responded own => ?_
      have apart := foreign event member
      rw [responded] at apart
      exact absurd own apart


/-! ## The parent's own traffic -/

section Own

variable {payloadBytes : Nat} {parent : PendingSend} {results : Nat → DatagramResult}

theorem Served.earlier (served : Served payloadBytes parent results next) {events : List Event}
    (trace : next.trace = world.trace ++ events) : Served payloadBytes parent results world := by
  have sent : world.sentUnder parent.parentRequestId <+:
      next.sentUnder parent.parentRequestId := by
    rw [World.sentUnder, World.sentUnder, World.sent, World.sent, trace, List.filterMap_append,
      List.filter_append]
    exact List.prefix_append _ _
  have popped : poppedUnder parent.parentRequestId world.trace <+:
      poppedUnder parent.parentRequestId next.trace := by
    rw [poppedUnder, poppedUnder, trace, List.filterMap_append, List.filter_append]
    exact List.prefix_append _ _
  refine ⟨sent.trans served.datagrams, ?_, ?_, ?_⟩
  · exact served.distinct.sublist (popped.sublist.map _)
  · exact fun completion member => served.results completion (popped.subset member)
  · intro before event after split
    exact served.accepted before event (after ++ events) (by rw [trace, split]; simp)

/-- A pending request of the parent is the next one of its datagrams. -/
theorem Served.next_own (served : Served payloadBytes parent results world)
    (conserved : Conserved world) {request : RequestDatagram}
    (pending : world.responder.pendingRequest = some request)
    (own : request.parentRequestId = parent.parentRequestId) :
    ∃ left, parent.datagrams payloadBytes =
      world.handledUnder parent.parentRequestId ++ request :: left := by
  obtain ⟨rest, datagrams⟩ := served.datagrams
  refine ⟨world.transport.requests.filter (fun request =>
    request.parentRequestId = parent.parentRequestId) ++ rest, ?_⟩
  rw [← datagrams, World.sentUnder, conserved.requests, World.travelling, pending,
    Option.toList_some, List.filter_append, World.handledUnder, List.singleton_append,
    List.filter_cons_of_pos (by simpa using own), List.append_assoc, List.cons_append]

/-- Nothing is completed of a parent that was never handed over. -/
theorem Served.popped_nil (served : Served payloadBytes parent results world)
    (conserved : Conserved world)
    (created : ∀ request ∈ world.created, request.parentRequestId ≠ parent.parentRequestId) :
    poppedUnder parent.parentRequestId world.trace = [] := by
  refine List.filter_eq_nil_iff.mpr fun completion member => ?_
  rw [decide_eq_true_eq]
  intro own
  obtain ⟨event, inside, popped⟩ := List.mem_filterMap.mp member
  cases event with
  | popped other =>
      injection popped with same
      subst same
      obtain ⟨before, after, split⟩ := List.append_of_mem inside
      obtain ⟨request, accepted, sameId, -⟩ := served.accepted before _ after split other rfl own
      refine created request ?_ sameId
      rw [conserved.backendRequests, World.accepted, split, List.filterMap_append]
      exact List.mem_append_left _ (List.mem_append_left _ accepted)
  | _ => cases popped

/-- A parent in flight is being assembled. -/
theorem Stage.of_found (stage : Stage payloadBytes parent results world)
    {inflight : ResponderInflight}
    (found : world.responder.responderInflight parent.parentRequestId = some inflight) :
    parent.totalLength ≠ 0 ∧ parent.targetQpNum = world.responder.qpNum ∧
      (∃ target, Matches inflight parent target (world.handledUnder parent.parentRequestId)) ∧
      Recorded inflight (poppedUnder parent.parentRequestId world.trace) ∧
      inflight.parentError = .success ∧
      ∀ response, .responded response ∈ world.trace →
        response.parentRequestId ≠ parent.parentRequestId := by
  cases stage with
  | assembling other target stored nonzero addressed matched recorded clean silent =>
      rw [found] at stored
      injection stored with stored
      subst stored
      exact ⟨nonzero, addressed, ⟨target, matched⟩, recorded, clean, silent⟩
  | waiting absent | rejected absent | answered absent =>
      rw [found] at absent
      cases absent

theorem append_cons_ne {Item : Type} {items left : List Item} {item : Item} :
    items ≠ items ++ item :: left := by
  intro same
  have lengths := congrArg List.length same
  rw [List.length_append, List.length_cons] at lengths
  omega

variable (built : parent.Built payloadBytes)

include built

theorem Stage.reject (served : Served payloadBytes parent results world)
    (conserved : Conserved world) (stage : Stage payloadBytes parent results world)
    {request : RequestDatagram} {result : DatagramResult} {disposal : Disposal}
    {resolution : List Event} (pending : world.responder.pendingRequest = some request)
    (own : request.parentRequestId = parent.parentRequestId)
    (reason : Rejects world request result disposal resolution)
    (inflight : next.responder.responderInflight = world.responder.responderInflight)
    (handled : next.handledUnder parent.parentRequestId =
      world.handledUnder parent.parentRequestId ++ [request])
    (created : next.created = world.created) : Stage payloadBytes parent results next := by
  obtain ⟨left, split⟩ := served.next_own conserved pending own
  have carries := PendingSend.carries_of_mem (by rw [split]; simp :
    request ∈ parent.datagrams payloadBytes)
  have started : next.handledUnder parent.parentRequestId ≠ [] := by
    rw [handled]
    simp
  cases stage with
  | waiting absent handled none silent =>
      exact .rejected (by rw [inflight]; exact absent) started (by rw [created]; exact none)
  | assembling stored target found nonzero addressed =>
      exfalso
      cases reason with
      | target misaddressed =>
          refine misaddressed ⟨carries.targetQpNum.trans addressed, ?_⟩
          have short := built.totalLength
          rw [carries.parentTotalLength]
          omega
      | first _ absent | access _ _ _ _ absent =>
          rw [own, found] at absent
          cases absent
  | rejected absent _ none =>
      exact .rejected (by rw [inflight]; exact absent) started (by rw [created]; exact none)
  | answered absent all => exact absurd (all.trans split) append_cons_ne

theorem Stage.admitParent (served : Served payloadBytes parent results world)
    (conserved : Conserved world) (stage : Stage payloadBytes parent results world)
    (target : Nat) (receive : Option ReceiveWqeHeader) {request : RequestDatagram}
    (pending : world.responder.pendingRequest = some request)
    (own : request.parentRequestId = parent.parentRequestId)
    (addressed : Addressed world request)
    (absent : world.responder.responderInflight request.parentRequestId = none)
    (valid : validFirst request = true) (nonzero : request.parentTotalLength ≠ 0)
    (found : next.responder.responderInflight parent.parentRequestId =
      some (responderInflightOf request target receive))
    (qpNum : next.responder.qpNum = world.responder.qpNum)
    (handled : next.handledUnder parent.parentRequestId =
      world.handledUnder parent.parentRequestId)
    (popped : poppedUnder parent.parentRequestId next.trace =
      poppedUnder parent.parentRequestId world.trace)
    (responded : ∀ response, .responded response ∈ next.trace →
      .responded response ∈ world.trace) : Stage payloadBytes parent results next := by
  obtain ⟨left, split⟩ := served.next_own conserved pending own
  have carries := PendingSend.carries_of_mem (by rw [split]; simp :
    request ∈ parent.datagrams payloadBytes)
  cases stage with
  | waiting _ none created silent =>
      refine .assembling _ target found ?_ ?_ ?_ ?_ rfl
        (fun response member => silent response (responded response member))
      · rw [← carries.parentTotalLength]
        exact nonzero
      · rw [← carries.targetQpNum, qpNum]
        exact addressed.1
      · rw [handled, none]
        exact Agreed.matches_admitted carries target receive
      · rw [popped, served.popped_nil conserved created]
        exact .fresh request target receive
  | assembling _ _ stored =>
      rw [own, stored] at absent
      cases absent
  | rejected _ started =>
      rw [validFirst_after built started split] at valid
      cases valid
  | answered _ all => exact absurd (all.trans split) append_cons_ne

theorem Stage.accept (served : Served payloadBytes parent results world)
    (conserved : Conserved world) (stage : Stage payloadBytes parent results world)
    (consumed : Bool) {request : RequestDatagram} {inflight : ResponderInflight}
    (pending : world.responder.pendingRequest = some request)
    (own : request.parentRequestId = parent.parentRequestId)
    (stored : world.responder.responderInflight parent.parentRequestId = some inflight)
    (found : next.responder.responderInflight parent.parentRequestId =
      some ({ inflight with receiveConsumed := consumed }.advance request))
    (qpNum : next.responder.qpNum = world.responder.qpNum)
    (handled : next.handledUnder parent.parentRequestId =
      world.handledUnder parent.parentRequestId ++ [request])
    (popped : poppedUnder parent.parentRequestId next.trace =
      poppedUnder parent.parentRequestId world.trace)
    (responded : ∀ response, .responded response ∈ next.trace →
      .responded response ∈ world.trace) : Stage payloadBytes parent results next := by
  obtain ⟨left, split⟩ := served.next_own conserved pending own
  obtain ⟨nonzero, addressed, ⟨target, matched⟩, recorded, clean, silent⟩ := stage.of_found stored
  obtain ⟨index, offset, positive, covered, count⟩ := datagram_after built nonzero split
  have error : ({ inflight with receiveConsumed := consumed }.advance request).parentError =
      .success := by
    simp only [ResponderInflight.advance]
    rw [if_neg, clean]
    -- The last datagram ends at the length of the parent.
    rintro ⟨last, short⟩
    rw [matched.nextPayloadIndex, matched.payloadCount] at last
    have none : left = [] := List.eq_nil_of_length_eq_zero (by omega)
    rw [none] at covered
    simp only [PendingSend.payloadLengths, List.map_nil, List.sum_nil] at covered
    rw [matched.nextPayloadOffset, matched.parentTotalLength] at short
    exact short (by simpa [PendingSend.payloadLengths] using covered)
  refine .assembling _ target found nonzero (addressed.trans qpNum.symm) ?_ ?_ error
    (fun response member => silent response (responded response member))
  · rw [handled]
    exact Agreed.matches_advance consumed request matched
  · rw [popped]
    exact recorded.congr rfl rfl rfl rfl fun _ => clean

omit built

theorem Stage.record (served : Served payloadBytes parent results next)
    (stage : Stage payloadBytes parent results world) {completion : BackendCompletion}
    {inflight : ResponderInflight}
    (own : completion.parentRequestId = parent.parentRequestId)
    (stored : world.responder.responderInflight parent.parentRequestId = some inflight)
    (found : next.responder.responderInflight parent.parentRequestId =
      some (inflight.record completion))
    (qpNum : next.responder.qpNum = world.responder.qpNum)
    (trace : next.trace = world.trace ++ [.popped completion]) :
    Stage payloadBytes parent results next := by
  obtain ⟨nonzero, addressed, ⟨target, matched⟩, recorded, clean, silent⟩ := stage.of_found stored
  have popped : poppedUnder parent.parentRequestId next.trace =
      poppedUnder parent.parentRequestId world.trace ++ [completion] := by
    simp [poppedUnder, trace, own]
  have handled : next.handledUnder parent.parentRequestId =
      world.handledUnder parent.parentRequestId := by
    simp [World.handledUnder, World.disposed, trace]
  have below := (served.results completion (by rw [popped]; simp)).1
  have distinct := served.distinct
  rw [popped, List.map_append, List.nodup_append] at distinct
  have error : (inflight.record completion).parentError = .success := by
    unfold ResponderInflight.record
    rw [if_neg, clean]
    rintro (outside | marked)
    · rw [matched.payloadCount] at outside
      omega
    · have seen := ((recorded.terminal _).mp marked).2
      exact distinct.2.2 _ seen _ (List.mem_map_of_mem (List.mem_singleton_self _)) rfl
  refine .assembling _ target found nonzero (addressed.trans qpNum.symm) ?_ ?_ error ?_
  · rw [handled]
    exact Agreed.matches_record completion matched
  · rw [popped]
    exact recorded.record completion
  · rw [trace]
    simpa using silent

/-- A completion comes late or never for a parent that is not in flight. -/
theorem Stage.popUnknown (conserved : Conserved world)
    (stage : Stage payloadBytes parent results world) {completion : BackendCompletion}
    (own : completion.parentRequestId = parent.parentRequestId)
    (unknown : world.responder.responderInflight completion.parentRequestId = none)
    (accepted : Trace.Every (AfterAcceptance parent.parentRequestId) next.trace)
    (responder : next.responder = world.responder)
    (trace : next.trace = world.trace ++ [.popped completion]) :
    Stage payloadBytes parent results next := by
  rw [own] at unknown
  rw [trace] at accepted
  obtain ⟨request, member, sameId, -⟩ :=
    (Trace.every_concat.mp accepted).2 completion rfl own
  have made : request ∈ world.created := by
    rw [conserved.backendRequests]
    exact List.mem_append_left _ member
  cases stage with
  | waiting _ _ created | rejected _ _ created => exact absurd sameId (created request made)
  | assembling _ _ found =>
      rw [unknown] at found
      cases found
  | answered absent handled every =>
      refine .answered (by rw [responder]; exact absent) ?_ ?_
      · simpa [World.handledUnder, World.disposed, trace] using handled
      · rw [trace]
        exact Trace.every_concat.mpr ⟨every, nofun⟩

/-- The results kept for a parent whose payloads are all terminal. -/
theorem result_of_recorded {inflight : ResponderInflight} {popped : List BackendCompletion}
    (recorded : Recorded inflight popped) (clean : inflight.parentError = .success)
    (terminal : inflight.terminalCount = inflight.payloadCount)
    (assigned : ∀ completion ∈ popped, completion.result = results completion.payloadIndex) :
    inflight.result = parentResult results inflight.payloadCount := by
  have kept : inflight.results = (List.range inflight.payloadCount).map results := by
    refine List.ext_getElem? fun index => ?_
    by_cases below : index < inflight.payloadCount
    · obtain ⟨completion, member, rfl⟩ := List.mem_map.mp (recorded.all_popped terminal below)
      rw [(recorded.clean clean).2 completion member, assigned completion member]
      simp [below]
    · rw [List.getElem?_eq_none (by rw [recorded.resultsLength]; omega),
        List.getElem?_eq_none (by rw [List.length_map, List.length_range]; omega)]
  rw [ResponderInflight.result, if_pos clean, kept, List.find?_map, parentResult]
  simp only [Function.comp_def]
  cases (List.range inflight.payloadCount).find? fun index => results index ≠ .success <;> rfl

include built

theorem Stage.retire (served : Served payloadBytes parent results world)
    (conserved : Conserved world) (stage : Stage payloadBytes parent results world)
    {inflight : ResponderInflight}
    (stored : world.responder.responderInflight parent.parentRequestId = some inflight)
    (submitted : inflight.nextPayloadIndex = inflight.payloadCount)
    (terminal : inflight.terminalCount = inflight.payloadCount) {later : List Event}
    (absent : next.responder.responderInflight parent.parentRequestId = none)
    (trace : next.trace = world.trace ++
      [.responded { parentRequestId := parent.parentRequestId, result := inflight.result }] ++
        later)
    (receives : ∀ event ∈ later, ∃ entry, event = .received parent.parentRequestId entry) :
    Stage payloadBytes parent results next := by
  obtain ⟨nonzero, -, ⟨target, matched⟩, recorded, clean, silent⟩ := stage.of_found stored
  have handled : next.handledUnder parent.parentRequestId =
      world.handledUnder parent.parentRequestId := by
    have quiet : later.filterMap Event.disposed? = [] := by
      refine List.filterMap_eq_nil_iff.mpr fun event member => ?_
      obtain ⟨entry, rfl⟩ := receives event member
      rfl
    rw [World.handledUnder, World.handledUnder, World.disposed, World.disposed, trace,
      List.filterMap_append, quiet, List.append_nil, List.filterMap_append]
    exact congrArg _ (congrArg _ (List.append_nil _))
  have all : world.handledUnder parent.parentRequestId = parent.datagrams payloadBytes := by
    have first : world.handledUnder parent.parentRequestId <+:
        parent.datagrams payloadBytes := by
      refine List.IsPrefix.trans ?_ served.datagrams
      rw [World.sentUnder, conserved.requests, List.filter_append]
      exact List.prefix_append _ _
    refine first.eq_of_length ?_
    rw [(built.split nonzero).1, ← matched.nextPayloadIndex, submitted, matched.payloadCount]
  refine .answered absent (handled.trans all) ?_
  rw [trace]
  refine Trace.every_append (Trace.every_concat.mpr ⟨?_, ?_⟩) ?_
  · intro before event after split response responded own
    refine absurd own (silent response ?_)
    rw [split, responded]
    exact List.mem_append_right _ List.mem_cons_self
  · intro response responded own
    injection responded with responded
    rw [← responded, ← matched.payloadCount]
    refine ⟨?_, fun index below => ?_⟩
    · rw [result_of_recorded recorded clean terminal fun completion member =>
        (served.results completion member).2]
    · obtain ⟨completion, member, rfl⟩ :=
        List.mem_map.mp (recorded.all_popped terminal below)
      obtain ⟨popped, same⟩ := List.mem_filter.mp member
      have result := (served.results completion member).2
      rw [decide_eq_true_eq] at same
      rw [← same, ← result]
      exact popped
  · intro before event member response responded
    obtain ⟨entry, rfl⟩ := receives event member
    cases responded

end Own

/-! ## Runs -/

section Runs

variable {payloadBytes : Nat} {parent : PendingSend} {results : Nat → DatagramResult}
  (built : parent.Built payloadBytes)

theorem foreign_of_bySender {event : Event} {requestId : Nat} (own : event.bySender = true) :
    event.Foreign requestId := by
  cases event with
  | disposed | popped | responded => cases own
  | _ => trivial

include built

/-- Every transition of the responder keeps the stage of the parent or moves it on. -/
theorem Stage.responder (served : Served payloadBytes parent results next)
    (conserved : Conserved world) (stage : Stage payloadBytes parent results world)
    (transition : ResponderTransition Untaken world next) :
    Stage payloadBytes parent results next := by
  have frame := transition.senderFrame
  have before : Served payloadBytes parent results world := by
    obtain ⟨events, trace, -⟩ := frame.trace
    exact served.earlier trace
  have same : next.responder.responderInflight parent.parentRequestId =
        world.responder.responderInflight parent.parentRequestId →
      (∃ events, next.trace = world.trace ++ events ∧
        ∀ event ∈ events, event.Foreign parent.parentRequestId) →
      Stage payloadBytes parent results next :=
    fun inflight trace => stage.of_same ⟨inflight, frame.responderQpNum, trace⟩
  cases transition with
  | receiveQueue | loadRequest | dropOrder =>
      exact same rfl ⟨[], (List.append_nil _).symm, List.forall_mem_nil _⟩
  | pollReceive | foreignReceive | deliver =>
      exact same rfl ⟨_, rfl, by simp [Event.Foreign]⟩
  | take request rest queued allowed => exact allowed.elim
  | flush accepted =>
      refine same rfl ⟨_, rfl, fun event member => ?_⟩
      obtain ⟨request, -, rfl⟩ := List.mem_map.mp member
      trivial
  | reject start request result disposal resolution pending reason =>
      by_cases own : request.parentRequestId = parent.parentRequestId
      · refine stage.reject built before conserved pending own reason rfl ?_ ?_
        · cases reason <;> simp [World.handledUnder, World.disposed, List.filterMap_cons, own]
        · cases reason <;> simp [World.created, World.disposed, List.filterMap_cons]
      · refine same rfl ⟨_, List.append_assoc _ _ _, ?_⟩
        cases reason <;> simp [Event.Foreign, own]
  | admitted service view request target receive receiveQueue pending addressed absent valid
      resolved =>
      by_cases own : request.parentRequestId = parent.parentRequestId
      · refine stage.admitParent built before conserved target receive pending own addressed absent
          valid (resolveKey_length_ne_zero resolved) ?_ rfl ?_ ?_ ?_
        · rw [← own]
          exact Function.update_self _ _ _
        · simp [World.handledUnder, World.disposed]
        · simp [poppedUnder]
        · simp
      · exact same (Function.update_of_ne (Ne.symm own) _ _) ⟨_, rfl, by simp [Event.Foreign]⟩
  | invalidPayload request inflight pending addressed found invalid =>
      by_cases own : request.parentRequestId = parent.parentRequestId
      · rw [own] at found
        obtain ⟨left, split⟩ := before.next_own conserved pending own
        obtain ⟨nonzero, -, ⟨target, matched⟩, -⟩ := stage.of_found found
        rw [validPayload_of_matches built nonzero split matched] at invalid
        cases invalid
      · exact same (Function.update_of_ne (Ne.symm own) _ _) ⟨_, rfl, by simp [Event.Foreign]⟩
  | zeroPayload request inflight consumed receiveQueue pending found valid zero =>
      by_cases own : request.parentRequestId = parent.parentRequestId
      · rw [own] at found
        obtain ⟨nonzero, -, ⟨target, matched⟩, -⟩ := stage.of_found found
        exact absurd (matched.payloadCount.symm.trans zero) (built.payloadCount_ne_zero nonzero)
      · exact same (Function.update_of_ne (Ne.symm own) _ _)
          ⟨_, rfl, by simp [Event.Foreign, own]⟩
  | accept request inflight consumed receiveQueue pending found valid nonzero room =>
      by_cases own : request.parentRequestId = parent.parentRequestId
      · rw [own] at found
        refine stage.accept built before conserved consumed pending own found ?_ rfl ?_ ?_ ?_
        · rw [← own]
          exact Function.update_self _ _ _
        · simp [World.handledUnder, World.disposed, own]
        · simp [poppedUnder]
        · simp
      · exact same (Function.update_of_ne (Ne.symm own) _ _)
          ⟨_, rfl, by simp [Event.Foreign, backendRequestOf, own]⟩
  | popUnknown start completion earlier trace absent allowed =>
      by_cases own : completion.parentRequestId = parent.parentRequestId
      · exact stage.popUnknown conserved own absent served.accepted rfl rfl
      · exact same rfl ⟨_, rfl, by simp [Event.Foreign, own]⟩
  | pop start completion earlier inflight trace found allowed =>
      by_cases own : completion.parentRequestId = parent.parentRequestId
      · rw [own] at found
        refine stage.record served own found ?_ rfl rfl
        rw [← own]
        exact Function.update_self _ _ _
      · exact same (Function.update_of_ne (Ne.symm own) _ _)
          ⟨_, rfl, by simp [Event.Foreign, own]⟩
  | retire view requestId order inflight receive head found submitted terminal receives =>
      by_cases own : requestId = parent.parentRequestId
      · subst own
        refine stage.retire built before conserved found submitted terminal
          (Function.update_self _ _ _) rfl fun event member => ?_
        obtain ⟨entry, -, rfl⟩ := List.mem_map.mp member
        exact ⟨entry, rfl⟩
      · exact same (Function.update_of_ne (Ne.symm own) _ _)
          ⟨_, List.append_assoc _ _ _, by simp [Event.Foreign, own]⟩

theorem Stage.transition (served : Served payloadBytes parent results next)
    (conserved : Conserved world) (stage : Stage payloadBytes parent results world)
    (transition : Transition Untaken world next) : Stage payloadBytes parent results next := by
  rcases transition with transition | transition
  · have frame := transition.responderFrame
    obtain ⟨events, trace, own⟩ := frame.trace
    refine stage.of_same ⟨?_, ?_, events, trace, fun event member =>
      foreign_of_bySender (own event member)⟩
    · rw [frame.responder]
    · rw [frame.responder]
  · exact stage.responder built served conserved transition

omit built

/-- The stage of the parent in a run that has served it so far. -/
structure Staged (payloadBytes : Nat) (parent : PendingSend) (results : Nat → DatagramResult)
    (world : World) : Prop where
  conserved : Conserved world
  stage : Served payloadBytes parent results world → Stage payloadBytes parent results world

theorem Staged.initial (configuration : World.Configuration) :
    Staged payloadBytes parent results (World.initial configuration) where
  conserved := ⟨rfl, rfl⟩
  stage _ := .waiting rfl rfl (List.forall_mem_nil _)
    fun _ member => absurd member List.not_mem_nil

theorem Staged.deliverRequest (staged : Staged payloadBytes parent results world)
    (request : RequestDatagram) :
    Staged payloadBytes parent results (world.deliverRequest request) := by
  refine ⟨staged.conserved.deliverRequest request, ?_⟩
  unfold World.deliverRequest
  split
  · exact staged.stage
  · intro served
    have earlier := staged.stage (served.earlier rfl)
    exact earlier.of_same ⟨rfl, rfl, [.sent request], rfl, by simp [Event.Foreign]⟩

include built

theorem Staged.transition (staged : Staged payloadBytes parent results world)
    (transition : Transition Untaken world next) : Staged payloadBytes parent results next := by
  refine ⟨staged.conserved.transition (fun _ _ taken => taken) transition, fun served => ?_⟩
  obtain ⟨events, trace⟩ := transition.trace_append
  exact (staged.stage (served.earlier trace)).transition built served staged.conserved transition

theorem Staged.run {configuration : World.Configuration} {deliveries : List Delivery}
    (admissible : Execution.Along World.deliver Allowed (World.initial configuration)
      deliveries) :
    Staged payloadBytes parent results
      (Execution.run World.deliver (World.initial configuration) deliveries) :=
  deliver_invariant (fun _ _ transition staged => staged.transition built transition)
    (fun _ request staged => staged.deliverRequest request) (.initial configuration) admissible

omit built

theorem CompletedOnce.served (completed : CompletedOnce payloadBytes parent results world) :
    Served payloadBytes parent results world := by
  refine ⟨completed.datagrams, ?_, fun completion member => ?_, completed.accepted⟩
  · refine (completed.completions.map _).nodup_iff.mpr ?_
    simpa [Function.comp_def] using List.nodup_range
  · obtain ⟨index, below, rfl⟩ := List.mem_map.mp (completed.completions.mem_iff.mp member)
    exact ⟨List.mem_range.mp below, rfl⟩

include built

/-- A parent with a payload is answered with its result, after all of its completions. -/
theorem answered_of_completedRun (nonempty : parent.payloadCount ≠ 0)
    (completed : CompletedRun payloadBytes parent results world) :
    Trace.Every (AnsweredWith parent results) world.trace := by
  obtain ⟨⟨configuration, deliveries, admissible, rfl⟩, once⟩ := completed
  have run : Staged payloadBytes parent results _ := Staged.run built admissible
  obtain ⟨conserved, staged⟩ := run
  have silence : ∀ {trace : List Event}, (∀ response, .responded response ∈ trace →
      response.parentRequestId ≠ parent.parentRequestId) →
      Trace.Every (AnsweredWith parent results) trace := by
    intro trace silent before event after split response responded own
    refine absurd own (silent response ?_)
    rw [split, responded]
    exact List.mem_append_right _ List.mem_cons_self
  cases staged once.served with
  | waiting absent handled created silent => exact silence silent
  | assembling _ _ _ _ _ _ _ _ silent => exact silence silent
  | answered absent handled every => exact every
  | rejected absent started created =>
      have none := once.served.popped_nil conserved created
      have counted := once.completions.length_eq
      rw [none, List.length_map, List.length_range] at counted
      exact absurd counted.symm nonempty

omit built

/-- Two runs that complete the payloads of a parent with the same results give the same
response, after the last completion. -/
theorem parent_result_order_independent (produced : Produced payloadBytes parent)
    (nonempty : parent.payloadCount ≠ 0) {first second : World}
    (firstRun : CompletedRun payloadBytes parent results first)
    (secondRun : CompletedRun payloadBytes parent results second) :
    Trace.Every (AnsweredWith parent results) first.trace ∧
      Trace.Every (AnsweredWith parent results) second.trace ∧
      ∀ response other, .responded response ∈ first.trace → .responded other ∈ second.trace →
        response.parentRequestId = parent.parentRequestId →
        other.parentRequestId = parent.parentRequestId → response = other := by
  have every := answered_of_completedRun produced.built nonempty firstRun
  have everyOther := answered_of_completedRun produced.built nonempty secondRun
  refine ⟨every, everyOther, fun response other member listed own same => ?_⟩
  obtain ⟨before, after, split⟩ := List.append_of_mem member
  obtain ⟨earlier, later, cut⟩ := List.append_of_mem listed
  exact (every before _ after split response rfl own).1.trans
    (everyOther earlier _ later cut other rfl same).1.symm

end Runs

theorem afterAcceptance_of_none {requestId : Nat} {trace : List Event}
    (none : trace.filterMap Event.popped? = []) :
    Trace.Every (AfterAcceptance requestId) trace := by
  intro before event after split completion popped
  have absent := List.filterMap_eq_nil_iff.mp none event (by rw [split]; simp)
  rw [popped] at absent
  cases absent

namespace Loopback

open Ugdr.Control.Loopback

/-- The write of one payload, completed. -/
def completedWorld : World :=
  Execution.run World.deliver (World.initial configuration)
    (completedWrite.map Delivery.action)

theorem completedWorld_trace : completedWorld.trace = completedEvents := by
  have start : World.initial configuration = idle 1 [] := rfl
  rw [completedWorld, run_deliver_actions, start, run_completedWrite]
  rfl

theorem smallParent_produced : Produced 8 smallParent :=
  ⟨by decide, service, requesterView, requestId 1, smallWrite, _, inspectSend_small, rfl⟩

theorem completedWorld_run : CompletedRun 8 smallParent (fun _ => .success) completedWorld where
  run := by
    refine ⟨configuration, _, along_deliver_actions (along_admissible ?_ (by decide +kernel)),
      rfl⟩
    simp only [completedWrite]
    exact actions_reachable (by simp [Action.service])
  completed := by
    refine ⟨by decide +kernel, by decide +kernel, ?_⟩
    rw [completedWorld_trace, completedEvents, Trace.every_concat, Trace.every_concat,
      Trace.every_concat]
    refine ⟨⟨⟨afterAcceptance_of_none rfl, ?_⟩, by rintro _ ⟨⟩⟩, by rintro _ ⟨⟩⟩
    · intro completion popped _
      injection popped with popped
      exact ⟨smallRequest, by simp, rfl, by rw [← popped]; rfl⟩

end Loopback

theorem parent_result_order_independent_completedWrite :
    CompletedRun 8 Loopback.smallParent (fun _ => .success) Loopback.completedWorld ∧
      .responded Loopback.success ∈ Loopback.completedWorld.trace ∧
      Trace.Every (AnsweredWith Loopback.smallParent fun _ => .success)
        Loopback.completedWorld.trace := by
  have answered : .responded Loopback.success ∈ Loopback.completedWorld.trace := by
    rw [Loopback.completedWorld_trace]
    simp [Loopback.completedEvents]
  exact ⟨Loopback.completedWorld_run, answered,
    (parent_result_order_independent Loopback.smallParent_produced (by decide)
      Loopback.completedWorld_run Loopback.completedWorld_run).1⟩

namespace Loopback

open Ugdr.Control.Loopback

def noPayloadWorld : World :=
  Execution.run World.deliver (World.initial configuration) (liveEmptyRun.map Delivery.action)

def noPayload : PendingSend :=
  pendingSendOf requesterView (requestId 1) liveEmptyWrite {}

theorem noPayloadWorld_run : CompletedRun 8 noPayload (fun _ => .success) noPayloadWorld where
  run := by
    refine ⟨configuration, _, along_deliver_actions (along_admissible ?_ (by decide +kernel)),
      rfl⟩
    simp only [liveEmptyRun]
    exact actions_reachable (by simp [Action.service])
  completed := by
    exact ⟨by decide +kernel, by decide +kernel,
      afterAcceptance_of_none (by decide +kernel)⟩

end Loopback

def Event.responded? : Event → Option ResponseDatagram
  | .responded response => some response
  | _ => none

/-- A parent without payload is not answered with success. -/
theorem no_payload_not_successful :
    ¬∀ payloadBytes parent results world, Produced payloadBytes parent →
      CompletedRun payloadBytes parent results world →
      Trace.Every (AnsweredWith parent results) world.trace := by
  intro claimed
  have produced : Produced 8 Loopback.noPayload :=
    ⟨by decide, Loopback.service, Loopback.requesterView, Loopback.requestId 1,
      Loopback.liveEmptyWrite, {}, rfl, rfl⟩
  have every := claimed 8 _ (fun _ => .success) _ produced Loopback.noPayloadWorld_run
  have listed : { parentRequestId := Loopback.requestId 1, result := .remoteAccessError } ∈
      Loopback.noPayloadWorld.trace.filterMap Event.responded? := by
    decide +kernel
  obtain ⟨event, member, responded⟩ := List.mem_filterMap.mp listed
  cases event with
  | responded response =>
      injection responded with same
      obtain ⟨before, after, split⟩ := List.append_of_mem member
      have answered := (every before _ after split response rfl (by rw [same]; rfl)).1
      rw [same] at answered
      exact absurd answered (by decide)
  | _ => cases responded

end Ugdr.Worker
